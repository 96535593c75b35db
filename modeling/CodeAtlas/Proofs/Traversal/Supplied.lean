import CodeAtlas.Proofs.Index.Scan
import CodeAtlas.Proofs.Traversal.Graph
import CodeAtlas.Proofs.Traversal.Run

/-!
# A supplied index changes nothing

Whatever indexes a lookup is prepared with, the files of its scope that it says declare a name are
those that do (`Lookup.IsFaithful.mem_declarers`): an index tells the truth of the files that it has
met, every file of the scope is met by one of them, and what an index holds beyond the scope is left
out. A graph asks its lookup for nothing but the scope and the declarers, so a traversal with a
supplied index and one without give the same report, or fail in the same way.
-/

namespace CodeAtlas.Traversal

namespace Lookup

variable {lookup a b : Lookup} {view : FileView} {path name : String}

/-! ## 1. Faithful lookups -/

/-- **A lookup is faithful** if its files are there, its indexes reflect the project, and each of
its files is covered by one of them. -/
structure IsFaithful (lookup : Lookup) (view : FileView) : Prop where
  contains : ∀ path ∈ lookup.scope, view.contains path = true
  reflects : ∀ index ∈ lookup.indexes, index.Reflects view
  covers : ∀ path ∈ lookup.scope, ∃ index ∈ lookup.indexes, index.covers path = true

namespace IsFaithful

/-- Whether some index has a file under a name depends on the file alone. -/
theorem any_resolve_iff (h : lookup.IsFaithful view) (hpath : path ∈ lookup.scope) :
    (lookup.indexes.any fun index => (index.resolve name).contains path) = true ↔
      view.Declares path name := by
  simp only [List.any_eq_true, List.contains_iff_mem]
  constructor
  · rintro ⟨index, hindex, hmem⟩
    exact (h.reflects index hindex).declares (h.contains path hpath) hmem
  · intro hdeclares
    obtain ⟨index, hindex, hcovers⟩ := h.covers path hpath
    exact ⟨index, hindex,
      ((h.reflects index hindex).mem_resolve_iff (h.contains path hpath) hcovers).2 hdeclares⟩

/-- **The declarers of a name are the files of the scope that declare it.** -/
theorem mem_declarers (h : lookup.IsFaithful view) :
    path ∈ lookup.declarers name ↔ path ∈ lookup.scope ∧ view.Declares path name := by
  rw [declarers, List.mem_filter]
  exact and_congr_right fun hpath => h.any_resolve_iff hpath

/-- Faithful lookups in one scope find the same files, in the order of the scope. -/
theorem declarers_eq (ha : a.IsFaithful view) (hb : b.IsFaithful view) (hscope : a.scope = b.scope)
    (name : String) : a.declarers name = b.declarers name := by
  rw [declarers, declarers, ← hscope]
  refine List.filter_congr fun path hpath => ?_
  rw [Bool.eq_iff_iff, ha.any_resolve_iff hpath, hb.any_resolve_iff (hscope ▸ hpath)]

end IsFaithful

/-! ## 2. Preparation -/

theorem filled_supply {index : ImportIndex} (h : index.Filled view) :
    (supply view index).1.Filled view := by
  unfold supply
  split
  · exact h
  · exact ImportIndex.filled_build view {}

theorem filled_complete (view : FileView) (missing : List String) :
    (complete view missing).1.Filled view :=
  .indexFiles view missing .empty (ImportIndex.keeps_indexFiles view {} missing)

/-- The second index covers what the first does not. -/
theorem covers_complete {missing : List String}
    (h : ∀ path ∈ missing, ∃ language, Language.ofFile path = .ok language) :
    ∀ path ∈ missing, (complete view missing).1.covers path = true :=
  ImportIndex.covers_indexFiles h

variable {scope : List String} {supplied : Option ImportIndex} {index : ImportIndex}

/-- The indexes of a lookup are the supplied one, or none, and one of what it leaves. -/
theorem filled_of_mem_prepare (hsupplied : ∀ index ∈ supplied, index.Filled view)
    (h : index ∈ (prepare view scope supplied).lookup.indexes) : index.Filled view := by
  unfold prepare at h
  split at h
  · rw [List.mem_singleton.1 h]
    exact filled_complete view scope
  · rename_i first
    have hfirst := filled_supply (hsupplied first rfl)
    dsimp only at h
    split at h
    · rw [List.mem_singleton.1 h]
      exact hfirst
    · rcases List.mem_cons.1 h with rfl | h
      · exact hfirst
      · rw [List.mem_singleton.1 h]
        exact filled_complete view _

/-- **No file of the scope is left out**: what the supplied index does not cover, the second index
does. -/
theorem exists_covers_prepare
    (hlanguage : ∀ path ∈ scope, ∃ language, Language.ofFile path = .ok language)
    (hpath : path ∈ scope) :
    ∃ index ∈ (prepare view scope supplied).lookup.indexes, index.covers path = true := by
  unfold prepare
  split
  · exact ⟨_, List.mem_singleton_self _, covers_complete hlanguage path hpath⟩
  · rename_i first
    dsimp only
    by_cases hcovers : (supply view first).1.covers path = true
    · split
      · exact ⟨_, List.mem_singleton_self _, hcovers⟩
      · exact ⟨_, List.mem_cons_self, hcovers⟩
    -- so there is a second index, and the file is one of those it was made for
    · have hmissing : path ∈ scope.filter fun p => !(supply view first).1.covers p :=
        List.mem_filter.2 ⟨hpath, by simpa using hcovers⟩
      split
      · rename_i hnone
        rw [hnone] at hmissing
        exact absurd hmissing List.not_mem_nil
      · refine ⟨_, List.mem_cons_of_mem _ (List.mem_singleton_self _), ?_⟩
        exact covers_complete (fun q hq => hlanguage q (List.mem_of_mem_filter hq)) path hmissing

/-- **A prepared lookup is faithful**, whatever index is supplied. -/
theorem isFaithful_prepare (hcontains : ∀ path ∈ scope, view.contains path = true)
    (hlanguage : ∀ path ∈ scope, ∃ language, Language.ofFile path = .ok language)
    (hsupplied : ∀ index ∈ supplied, index.Filled view) :
    (prepare view scope supplied).lookup.IsFaithful view where
  contains path hpath := hcontains path (scope_prepare view scope supplied ▸ hpath)
  reflects _ hindex := (filled_of_mem_prepare hsupplied hindex).reflects
  covers path hpath := by
    rw [scope_prepare] at hpath
    exact exists_covers_prepare hlanguage hpath

/-! ## 3. What depends on a lookup -/

/-- Two lookups agree if they have the same scope and find the same files. -/
structure Agrees (a b : Lookup) : Prop where
  scope_eq : a.scope = b.scope
  declarers_eq : ∀ name, a.declarers name = b.declarers name

theorem Agrees.choose?_eq (h : a.Agrees b) (path name : String) (imports : List Import) :
    a.choose? path name imports = b.choose? path name imports := by
  rw [choose?, choose?, h.declarers_eq name]

end Lookup

namespace ImportGraph

variable {project : Project} {a b : Lookup}

theorem next_eq_of_agrees (h : a.Agrees b) :
    (ImportGraph.mk project a).next = (ImportGraph.mk project b).next := by
  have hchoose : a.choose? = b.choose? := by
    funext path name imports
    exact h.choose?_eq path name imports
  funext path
  unfold next nextOf
  simp only [hchoose]

theorem edges_eq_of_agrees (h : a.Agrees b) :
    (ImportGraph.mk project a).edges = (ImportGraph.mk project b).edges := by
  rw [edges, edges, next_eq_of_agrees h]
  exact congrArg _ h.scope_eq

/-- **A report depends on nothing else of a lookup.** -/
theorem report_eq_of_agrees (h : a.Agrees b) (entry : String) (mode : Mode) (depth : Nat) :
    (ImportGraph.mk project a).report entry mode depth
      = (ImportGraph.mk project b).report entry mode depth := by
  have hforward : (ImportGraph.mk project a).forwardVisits depth entry
      = (ImportGraph.mk project b).forwardVisits depth entry := by
    rw [forwardVisits, forwardVisits, next_eq_of_agrees h]
  have hbackward : (ImportGraph.mk project a).backwardVisits depth entry
      = (ImportGraph.mk project b).backwardVisits depth entry := by
    rw [backwardVisits, backwardVisits, edges_eq_of_agrees h]
  unfold report
  rw [hforward, hbackward]
  rfl

theorem trace_eq_of_agrees (h : a.Agrees b) (entry : String) (mode : Mode) (depth : Nat) :
    (ImportGraph.mk project a).trace entry mode depth
      = (ImportGraph.mk project b).trace entry mode depth := by
  have hforward : (ImportGraph.mk project a).forwardTrace depth entry
      = (ImportGraph.mk project b).forwardTrace depth entry := by
    rw [forwardTrace, forwardTrace, forwardVisits, forwardVisits, next_eq_of_agrees h]
    rfl
  have hedges : (ImportGraph.mk project a).edgesTrace = (ImportGraph.mk project b).edgesTrace := by
    rw [edgesTrace, edgesTrace, referencedFiles, referencedFiles, edges_eq_of_agrees h]
    dsimp only
    rw [h.scope_eq]
    rfl
  have hbackward : (ImportGraph.mk project a).backwardTrace depth entry
      = (ImportGraph.mk project b).backwardTrace depth entry := by
    rw [backwardTrace, backwardTrace, hedges, backwardVisits, backwardVisits, edges_eq_of_agrees h]
  rw [trace, trace, hforward, hbackward]

end ImportGraph

/-! ## 4. Runs -/

namespace Session

variable {project : Project}

/-- Names are looked up in the files that a search for source files finds. -/
theorem scope_lookup_graph (session : Session) (project : Project) :
    (session.graph project).lookup.scope = scope project :=
  Lookup.scope_prepare _ _ _

/-- The files of the scope are there, and no address. -/
theorem contains_of_mem_scope (hlaw : project.view.Lawful) {path : String}
    (h : path ∈ scope project) :
    project.view.contains path = true ∧ ∃ language, Language.ofFile path = .ok language := by
  unfold scope at h
  split at h
  · rename_i found hfound
    refine ⟨Discovery.contains_of_mem_files hlaw hfound h, ?_⟩
    rw [← Discovery.canonical_of_mem_files hlaw hfound h]
    exact ⟨_, hlaw.ofFile_canonical path⟩
  · exact absurd h List.not_mem_nil

theorem canonical_of_mem_scope (hlaw : project.view.Lawful) {path : String}
    (h : path ∈ scope project) : project.view.canonical path = path := by
  unfold scope at h
  split at h
  · rename_i found hfound
    exact Discovery.canonical_of_mem_files hlaw hfound h
  · exact absurd h List.not_mem_nil

theorem isFaithful_lookup (session : Session) (hlaw : project.view.Lawful)
    (h : ∀ index ∈ session.supplied, index.Filled project.view) :
    (session.graph project).lookup.IsFaithful project.view :=
  Lookup.isFaithful_prepare (fun _ hpath => (contains_of_mem_scope hlaw hpath).1)
    (fun _ hpath => (contains_of_mem_scope hlaw hpath).2) h

/-- Sessions of one project look names up alike, whatever is supplied. -/
theorem agrees_lookup (session other : Session) (hlaw : project.view.Lawful)
    (h : ∀ index ∈ session.supplied, index.Filled project.view)
    (hother : ∀ index ∈ other.supplied, index.Filled project.view) :
    (session.graph project).lookup.Agrees (other.graph project).lookup := by
  have hscope : (session.graph project).lookup.scope = (other.graph project).lookup.scope := by
    rw [scope_lookup_graph, scope_lookup_graph]
  exact ⟨hscope, (isFaithful_lookup session hlaw h).declarers_eq
    (isFaithful_lookup other hlaw hother) hscope⟩

/-- Sessions whose lookups agree give the same outcome. -/
theorem outcome_analyze_of_agrees {session other : Session}
    (h : (session.graph project).lookup.Agrees (other.graph project).lookup) (request : Request) :
    (session.analyze project request).outcome = (other.analyze project request).outcome := by
  cases hcheck : request.check project.view with
  | error e => rw [outcome_analyze_of_refused hcheck, outcome_analyze_of_refused hcheck]
  | ok r =>
    have hreport : (session.graph project).report r.entry r.mode r.depth
        = (other.graph project).report r.entry r.mode r.depth :=
      ImportGraph.report_eq_of_agrees h r.entry r.mode r.depth
    have htrace : (session.graph project).trace r.entry r.mode r.depth
        = (other.graph project).trace r.entry r.mode r.depth :=
      ImportGraph.trace_eq_of_agrees h r.entry r.mode r.depth
    rw [outcome_analyze_of_check hcheck, outcome_analyze_of_check hcheck, hreport, htrace]

/-- **A supplied index never changes the outcome** of a traversal, whatever was done with it before,
as long as the files that it has read and that are still there kept their texts and the files that
it skipped still cannot be read. -/
theorem outcome_analyze_supplied (session : Session) (hlaw : project.view.Lawful)
    {index : ImportIndex} (h : index.Filled project.view) (request : Request) :
    ({ session with supplied := some index }.analyze project request).outcome
      = ({ session with supplied := none }.analyze project request).outcome := by
  refine outcome_analyze_of_agrees (agrees_lookup _ _ hlaw ?_ ?_) request
  · rintro _ ⟨⟩
    exact h
  · rintro _ ⟨⟩

/-- The files of `mutualImports` at an earlier moment: one that has gone since declares a class, and
one has come since. -/
def earlierImports : MemoryStore :=
  MemoryStore.ofFiles "/" [("/gone.ts", "class Gone {}"), ("/a.ts", "./b")]

theorem filled_earlierImports : (ImportIndex.indexFiles earlierImports.view {}
    ["/gone.ts", "/a.ts"]).index.Filled mutualImports.view := by
  refine .indexFiles earlierImports.view _ .empty ⟨?_, ?_⟩
  · have hscanned : (ImportIndex.indexFiles earlierImports.view {} ["/gone.ts", "/a.ts"]).index.scanned
        = ["/gone.ts", "/a.ts"] := by decide +kernel
    have hgone : mutualImports.view.contains "/gone.ts" = false := by decide +kernel
    have htext : (MemoryStore.ofFiles "/" [("/a.ts", "./b"), ("/b.ts", "./a")]).text? "/a.ts"
        = earlierImports.text? "/a.ts" := by decide +kernel
    have hkept : mutualImports.view.read "/a.ts" = earlierImports.view.read "/a.ts" := by
      have hview : mutualImports.view
          = (MemoryStore.ofFiles "/" [("/a.ts", "./b"), ("/b.ts", "./a")]).view := rfl
      rw [hview, MemoryStore.view_read, MemoryStore.view_read, MemoryStore.read, MemoryStore.read,
        htext]
    intro path hpath _ hcontains
    rw [hscanned, List.mem_cons, List.mem_singleton] at hpath
    rcases hpath with rfl | rfl
    · cases hgone.symm.trans hcontains
    · exact hkept
  · have hskipped : (ImportIndex.indexFiles earlierImports.view {} ["/gone.ts", "/a.ts"]).index.skipped
        = [] := by decide +kernel
    intro path hpath
    rw [hskipped] at hpath
    cases hpath

theorem outcome_analyze_earlierImports :
    mutualImports.view.Lawful ∧
      (ImportIndex.indexFiles earlierImports.view {} ["/gone.ts", "/a.ts"]).index.Filled
        mutualImports.view ∧
      (Session.analyze
          { supplied := some (ImportIndex.indexFiles earlierImports.view {}
              ["/gone.ts", "/a.ts"]).index }
          mutualImports (.of "/a.ts" .bidirectional 2)).outcome
        = (Session.analyze { supplied := none } mutualImports (.of "/a.ts" .bidirectional 2)).outcome :=
  have hlaw : mutualImports.view.Lawful := (MemoryStore.isKeyed_ofFiles _ _).lawful_view
  ⟨hlaw, filled_earlierImports, outcome_analyze_supplied {} hlaw filled_earlierImports _⟩

end Session

end CodeAtlas.Traversal
