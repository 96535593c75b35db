import CodeAtlas.Proofs.Outline.Comment.Script

/-!
# Comments and imports in script files

Imports are read from statements and from calls anywhere in a file. The query for calls and the reader
of a call both look at the first argument, and a comment there hides the name of the module
(`Script.hidesImport`). Other calls with a comment in front of a string are captured only without
comments; they import nothing, so that the imports are the same all the same
(`Script.imports_withoutComments`), and with them the whole outline
(`Script.outline_withoutComments`).
-/

namespace CodeAtlas.Outline.Script

open Syntax Syntax.Node

/-! ## 1. Where a comment hides a module -/

/-- Whether a call has a comment in front of a first argument that is a string. -/
def hidesString (call : Node) : Bool :=
  (call.fields "arguments").any fun list =>
    list.opensWithComment && (list.firstElement?.map (·.kind)) == some "string"

/-- Whether a call is one of `require` or `import`. -/
def isImportCall (call : Node) : Bool :=
  (call.field? "function").any fun function =>
    function.kind == "import" || function.text == "require"

/-- Whether a site is a call that has the span of one that hides a string. -/
def isHidden (root : Node) (site : Site) : Bool :=
  site.node.kind == "call_expression" && root.sites.any fun call =>
    call.node.kind == "call_expression" && hidesString call.node &&
      call.node.start == site.node.start && call.node.stop == site.node.stop

/-- Whether the name of an imported module has a comment in front. -/
def hidesImport (root : Node) : Bool :=
  root.sites.any fun site => isHidden root site && isImportCall site.node

variable {n : Node}

/-! ## 2. Import statements -/

theorem addClausePart_withoutComments (i : Import) (part : Node) :
    addClausePart i part.withoutComments = addClausePart i part := by
  rw [addClausePart, kind_withoutComments, text_withoutComments,
    child?_withoutComments part (by decide), textOf_withoutComments,
    childrenOf_withoutComments part (by decide), List.map_map, addClausePart]
  have hnames : (part.childrenOf "import_specifier").map
        ((fun spec => spec.fieldText "name") ∘ withoutComments)
      = (part.childrenOf "import_specifier").map fun spec => spec.fieldText "name" :=
    List.map_congr_left fun spec _ => spec.fieldText_withoutComments "name"
  rw [hnames]

theorem addClausePart_of_isComment (i : Import) (h : n.isComment = true) :
    addClausePart i n = i := by
  rw [addClausePart, kind_beq_of_isComment h (by decide), kind_beq_of_isComment h (by decide),
    kind_beq_of_isComment h (by decide)]
  rfl

theorem clauseParts_withoutComments (i : Import) (clause : Node) :
    clause.withoutComments.named.foldl addClausePart i = clause.named.foldl addClausePart i := by
  rw [named_withoutComments]
  exact foldl_withoutCommentsOf (fun i c hc => addClausePart_of_isComment i hc)
    (fun i c _ => addClausePart_withoutComments i c) i

/-- The node that names the module of an import statement. -/
def importedModule? (node : Node) : Option Node :=
  (node.field? "source").or ((node.child? ["import_require_clause"]).bind fun clause =>
    (clause.field? "source").or (clause.child? ["string"]))

/-- The names that an import statement takes from a module. -/
def importedNames (node source : Node) : Import :=
  let i : Import :=
    { source := stripQuotes source.text, isTypeOnly := node.hasToken "type", line := node.line }
  let i := match node.child? ["import_require_clause"] with
    | some clause =>
      { i.addSpecifier (Node.textOf (clause.child? ["identifier"])) with isDefault := true }
    | none => i
  match node.child? ["import_clause"] with
  | some clause => clause.named.foldl addClausePart i
  | none => i

theorem importStatement?_eq (n : Node) :
    importStatement? n = (importedModule? n).map (importedNames n) := by
  unfold importStatement? importedModule? importedNames
  cases n.field? "source" with
  | some source => rfl
  | none =>
    cases n.child? ["import_require_clause"] with
    | none => rfl
    | some clause =>
      dsimp only [Option.bind_some]
      cases clause.field? "source" with
      | some source => rfl
      | none => rfl

theorem importedModule?_withoutComments (n : Node) :
    importedModule? n.withoutComments = (importedModule? n).map withoutComments := by
  rw [importedModule?, field?_withoutComments, child?_withoutComments n (by decide),
    importedModule?, Option.map_or]
  cases n.child? ["import_require_clause"] with
  | none => rfl
  | some clause =>
    rw [Option.map_some, Option.bind_some, Option.bind_some, field?_withoutComments,
      child?_withoutComments clause (by decide), Option.map_or]

theorem importedNames_withoutComments (n source : Node) :
    importedNames n.withoutComments source.withoutComments = importedNames n source := by
  rw [importedNames, text_withoutComments, hasToken_withoutComments n (by decide),
    line_withoutComments, child?_withoutComments n (by decide),
    child?_withoutComments n (by decide), importedNames]
  have hparts := fun i clause => clauseParts_withoutComments i clause
  cases n.child? ["import_require_clause"] with
  | none =>
    cases n.child? ["import_clause"] with
    | none => rfl
    | some clause => exact hparts _ clause
  | some required =>
    rw [Option.map_some]
    dsimp only
    rw [child?_withoutComments required (by decide), textOf_withoutComments]
    cases n.child? ["import_clause"] with
    | none => rfl
    | some clause => exact hparts _ clause

theorem importStatement?_withoutComments (n : Node) :
    importStatement? n.withoutComments = importStatement? n := by
  rw [importStatement?_eq, importStatement?_eq, importedModule?_withoutComments, Option.map_map]
  exact congrArg (fun f => Option.map f _) (funext fun source => importedNames_withoutComments n source)

theorem reExportImport_withoutComments (h : isClear n = true) :
    reExportImport n.withoutComments = reExportImport n := by
  rw [reExportImport, fieldText_withoutComments, child?_withoutComments n (by decide),
    Option.isNone_map, line_withoutComments, reExportedNames_withoutComments h, reExportImport]

theorem addBinding_withoutComments (i : Import) (declarator : Node) :
    addBinding i declarator.withoutComments = addBinding i declarator := by
  rw [addBinding, field?_withoutComments, addBinding]
  cases declarator.field? "name" with
  | none => rfl
  | some target =>
    have hdescendants := descendants_withoutComments (fun _ => false) target
    have hnames := (congrArg (List.filter fun n =>
        n.kind == "shorthand_property_identifier_pattern") hdescendants).trans
      (filter_withoutCommentsOf_of (p := fun l => l.kind == "shorthand_property_identifier_pattern")
        (fun c hc => kind_beq_of_isComment hc (by decide)) _)
    rw [Option.map_some]
    dsimp only
    rw [kind_withoutComments, text_withoutComments, walk_nil, walk_nil, hnames, List.map_map]
    have htexts : (Node.text ∘ withoutComments) = Node.text :=
      funext fun name => name.text_withoutComments
    rw [htexts]
    rfl

/-! ## 3. Calls -/

/-- What a call of `require` or `import` with some first argument imports. -/
def callImport? (site : Site) (function first : Node) : Option Import :=
  if (function.kind == "import" || function.text == "require") && first.kind == "string" then
    let i : Import :=
      { source := stripQuotes first.text, isDynamic := true, line := site.node.line }
    match site.above.dropWhile (·.kind == "await_expression") with
    | declarator :: _ =>
      some (if declarator.kind == "variable_declarator" then addBinding i declarator else i)
    | [] => some i
  else none

theorem importCall?_eq (site : Site) :
    importCall? site = (site.node.field? "function").bind fun function =>
      (site.node.field? "arguments").bind fun list =>
        list.named.head?.bind fun first => callImport? site function first := by
  rw [importCall?]
  cases site.node.field? "function" with
  | none => rfl
  | some function =>
    cases site.node.field? "arguments" with
    | none => rfl
    | some list =>
      rw [Option.bind_some, Option.bind_some, Option.bind_some]
      cases list.named.head? with
      | none => rfl
      | some first => rfl

theorem callImport?_withoutComments (site : Site) (function first : Node) :
    callImport? site.withoutComments function.withoutComments first.withoutComments
      = callImport? site function first := by
  have habove : ∀ above : List Node,
      (above.map withoutComments).dropWhile (·.kind == "await_expression")
        = (above.dropWhile (·.kind == "await_expression")).map withoutComments := by
    intro above
    rw [List.dropWhile_map]
    refine congrArg (fun p => List.map withoutComments (List.dropWhile p above)) (funext fun a => ?_)
    rw [Function.comp_apply, kind_withoutComments]
  rw [callImport?, kind_withoutComments, text_withoutComments, kind_withoutComments,
    text_withoutComments, Site.withoutComments, line_withoutComments, habove, callImport?]
  split
  · cases site.above.dropWhile (·.kind == "await_expression") with
    | nil => rfl
    | cons declarator rest =>
      rw [List.map_cons]
      dsimp only
      rw [kind_withoutComments, addBinding_withoutComments]
  · rfl

theorem callImport?_of_not {site : Site} {function first : Node}
    (h : ((function.kind == "import" || function.text == "require") && first.kind == "string")
      = false) : callImport? site function first = none := by
  rw [callImport?, h]
  rfl

/-- A call of anything else imports nothing. -/
theorem importCall?_of_not {site : Site} (h : isImportCall site.node = false) :
    importCall? site = none := by
  rw [isImportCall, Option.any_eq_false] at h
  rw [importCall?_eq, Option.bind_eq_none_iff]
  intro function hfunction
  rw [Option.bind_eq_none_iff]
  intro list _
  rw [Option.bind_eq_none_iff]
  intro first _
  exact callImport?_of_not (by rw [h function hfunction, Bool.false_and])

theorem isImportCall_withoutComments (n : Node) :
    isImportCall n.withoutComments = isImportCall n := by
  rw [isImportCall, field?_withoutComments, Option.any_map, isImportCall]
  refine congrArg (fun p => Option.any p _) (funext fun function => ?_)
  rw [kind_withoutComments, text_withoutComments]

/-- The first argument of a call that hides no string is no string where a comment is in front. -/
theorem kind_of_firstElement? {list c : Node}
    (h : (list.opensWithComment && (list.firstElement?.map (·.kind)) == some "string") = false)
    (hopens : list.opensWithComment = true) (hc : list.firstElement? = some c) :
    (c.kind == "string") = false := by
  rw [hopens, Bool.true_and, hc, Option.map_some] at h
  exact h

/-- A call that hides no string imports the same. -/
theorem importCall?_withoutComments {site : Site} (h : hidesString site.node = false) :
    importCall? site.withoutComments = importCall? site := by
  rw [importCall?_eq, importCall?_eq, Site.withoutComments, field?_withoutComments,
    field?_withoutComments, Option.bind_map]
  refine Option.bind_congr fun function _ => ?_
  rw [Function.comp_apply, Option.bind_map]
  refine Option.bind_congr fun list hlist => ?_
  have hplain : (list.opensWithComment && (list.firstElement?.map (·.kind)) == some "string")
      = false := by
    rw [hidesString, List.any_eq_false] at h
    exact Bool.eq_false_iff.2 (h list (mem_fields_of_field? hlist))
  rw [Function.comp_apply, head?_named_withoutComments, Option.bind_map]
  have hfirst : list.firstElement?.bind (callImport? site function)
      = list.named.head?.bind (callImport? site function) := by
    refine bind_firstElement? (fun c hc => ?_) fun hopens c hc => ?_
    · exact callImport?_of_not (by rw [kind_beq_of_isComment hc (by decide), Bool.and_false])
    · exact callImport?_of_not
        (by rw [kind_of_firstElement? hplain hopens hc, Bool.and_false])
  rw [← hfirst]
  exact Option.bind_congr fun first _ => callImport?_withoutComments site function first

/-- Whether arguments open with a string. -/
theorem opensWithString_withoutComments {list : Node}
    (h : (list.opensWithComment && (list.firstElement?.map (·.kind)) == some "string") = false) :
    ((list.withoutComments.named.head?.map (·.kind)) == some "string")
      = ((list.named.head?.map (·.kind)) == some "string") := by
  have hkinds : ∀ first : Option Node, (first.map withoutComments).map (·.kind) = first.map (·.kind) :=
    fun first => by
      rw [Option.map_map]
      exact congrArg (fun f => Option.map f first) (funext fun c => c.kind_withoutComments)
  rw [head?_named_withoutComments, hkinds]
  by_cases hopens : list.opensWithComment = true
  · obtain ⟨comment, hhead, hcomment⟩ := (Option.any_eq_true _ _).1 hopens
    rw [hopens, Bool.true_and] at h
    rw [h, hhead, Option.map_some]
    exact (kind_beq_of_isComment hcomment (by decide)).symm
  · rw [firstElement?_eq_head? (Bool.eq_false_iff.2 hopens)]

/-! ## 4. Captures -/

theorem any_fields_withoutComments (n : Node) (name : String) {p : Node → Bool}
    (h : ∀ c ∈ n.fields name, p c.withoutComments = p c) :
    (n.withoutComments.fields name).any p = (n.fields name).any p := by
  rw [fields_withoutComments, List.any_map, Bool.eq_iff_iff, List.any_eq_true, List.any_eq_true]
  refine exists_congr fun c => and_congr_right fun hc => ?_
  rw [Function.comp_apply, h c hc]

/-- **Where no string is hidden, the query picks the same.** -/
theorem importQuery_withoutComments {site : Site}
    (h : (site.node.kind == "call_expression" && hidesString site.node) = false) :
    importQuery site.withoutComments = importQuery site := by
  have hsources : (site.node.withoutComments.fields "source").any (·.kind == "string")
      = (site.node.fields "source").any (·.kind == "string") :=
    any_fields_withoutComments site.node "source" fun c _ => by rw [kind_withoutComments]
  simp only [importQuery, Site.node_withoutComments, label_withoutComments, kind_withoutComments,
    hsources]
  split
  · rfl
  split
  · rfl
  split
  · rfl
  split
  · rename_i hcall
    rw [hcall, Bool.true_and, hidesString, List.any_eq_false] at h
    have harguments := any_fields_withoutComments site.node "arguments" (p := fun list =>
        list.kind == "arguments" && (list.named.head?.map (·.kind)) == some "string")
      fun list hlist => by
        rw [kind_withoutComments,
          opensWithString_withoutComments (Bool.eq_false_iff.2 (h list hlist))]
    simp only [harguments]
  · rfl

theorem importQuery_of_isComment {site : Site} (h : site.node.isComment = true) :
    importQuery site = none := by
  rw [importQuery]
  dsimp only
  rw [kind_beq_of_isComment h (by decide), kind_beq_of_isComment h (by decide),
    kind_beq_of_isComment h (by decide)]
  split
  · rfl
  · rfl

/-- What a captured node imports. -/
theorem importOf?_withoutComments {c : Capture ImportForm} (h : isClear c.node = true)
    (hcall : c.tag = .call → hidesString c.node = true → isImportCall c.node = false) :
    importOf? c.withoutComments = importOf? c := by
  obtain ⟨tag, site⟩ := c
  cases tag with
  | statement => exact importStatement?_withoutComments site.node
  | reExport => exact congrArg some (reExportImport_withoutComments h)
  | call =>
    by_cases hhides : hidesString site.node = true
    · have himport : isImportCall site.node = false := hcall rfl hhides
      have himport' : isImportCall site.withoutComments.node = false :=
        (isImportCall_withoutComments site.node).trans himport
      exact (importCall?_of_not himport').trans (importCall?_of_not himport).symm
    · exact importCall?_withoutComments (Bool.eq_false_iff.2 hhides)

/-- What is captured as a call is one. -/
theorem kind_of_importQuery {site : Site} (h : importQuery site = some .call) :
    (site.node.kind == "call_expression") = true := by
  rw [importQuery] at h
  dsimp only at h
  split at h
  · cases h
  split at h
  · cases h
  split at h
  · split at h
    · cases h
    · cases h
  split at h
  · assumption
  · cases h

/-- A call is captured as nothing else. -/
theorem tag_of_importQuery {site : Site} {tag : ImportForm}
    (hkind : (site.node.kind == "call_expression") = true) (h : importQuery site = some tag) :
    tag = .call := by
  have himport : ¬ (site.node.kind == "import_statement") = true := by
    rw [eq_of_beq hkind]
    decide
  have hexport : ¬ (site.node.kind == "export_statement") = true := by
    rw [eq_of_beq hkind]
    decide
  rw [importQuery] at h
  dsimp only at h
  rw [if_neg himport, if_neg hexport, if_pos hkind] at h
  split at h
  · cases h
  split at h
  · cases h
    rfl
  · cases h

theorem isHidden_of_hidesString {root : Node} {site : Site} (hsite : site ∈ root.sites)
    (h : (site.node.kind == "call_expression" && hidesString site.node) = true) :
    isHidden root site = true := by
  rw [isHidden, Bool.and_eq_true, List.any_eq_true]
  refine ⟨(Bool.and_eq_true_iff.1 h).1, site, hsite, ?_⟩
  rw [h, beq_self_eq_true, beq_self_eq_true]
  rfl

/-- A call that shows its string is picked as it is without comments. -/
theorem importQuery_of_shown {root : Node} {site : Site} (hsite : site ∈ root.sites)
    (hshown : isHidden root site = false) :
    importQuery site.withoutComments = importQuery site := by
  refine importQuery_withoutComments (Bool.eq_false_iff.2 fun hhides => ?_)
  rw [isHidden_of_hidesString hsite hhides] at hshown
  cases hshown

theorem isImportCall_of_isHidden {root : Node} {site : Site} (himport : hidesImport root = false)
    (hsite : site ∈ root.sites) (hhidden : isHidden root site = true) :
    isImportCall site.node = false := by
  rw [hidesImport, List.any_eq_false] at himport
  have hnot := himport site hsite
  rw [hhidden, Bool.true_and] at hnot
  exact Bool.eq_false_iff.2 hnot

/-- A hidden call that the query picks gives no import without comments. -/
theorem importOf?_of_isHidden {root : Node} {site : Site} {tag : ImportForm}
    (himport : hidesImport root = false) (hsite : site ∈ root.sites)
    (hhidden : isHidden root site = true) (htag : tag = .call) :
    importOf? (Capture.withoutComments ⟨tag, site⟩) = none := by
  cases htag
  exact importCall?_of_not ((isImportCall_withoutComments site.node).trans
    (isImportCall_of_isHidden himport hsite hhidden))

/-- **The imports of a file.** Without comments more calls are captured, but those that are not calls
of `require` or `import` give nothing. -/
theorem imports_withoutComments {root : Node} (h : isClear root = true)
    (himport : hidesImport root = false) :
    (root.withoutComments.captures importQuery).filterMap importOf?
      = (root.captures importQuery).filterMap importOf? := by
  rw [captures_withoutComments root fun site hsite => importQuery_of_isComment hsite,
    List.filterMap_map]
  -- First the captures are compared as they give imports without comments: a hidden call may be
  -- captured on one side only, and gives none. Then each capture is read with its comments.
  refine (filterMap_captures_congr (p := fun site => !isHidden root site) (r := importQuery)
    (fun a b hstart hstop hkind => ?_) (fun site hsite hshown => ?_)
    (fun site hsite hhidden tag htag => ?_) fun site hsite hhidden tag htag => ?_).trans ?_
  · rw [isHidden, hstart, hstop, hkind, isHidden]
  · rw [Bool.not_eq_true'] at hshown
    exact importQuery_of_shown hsite hshown
  · rw [Bool.not_eq_false'] at hhidden
    have hkind : (site.withoutComments.node.kind == "call_expression") = true := by
      rw [Site.node_withoutComments, kind_withoutComments]
      exact (Bool.and_eq_true_iff.1 hhidden).1
    exact importOf?_of_isHidden himport hsite hhidden (tag_of_importQuery hkind htag)
  · rw [Bool.not_eq_false'] at hhidden
    exact importOf?_of_isHidden himport hsite hhidden
      (tag_of_importQuery (Bool.and_eq_true_iff.1 hhidden).1 htag)
  · refine List.filterMap_congr fun c hc => ?_
    obtain ⟨hsite, hpicked⟩ := of_mem_captures hc
    refine importOf?_withoutComments (everywhere_of_mem_sites h hsite) fun hcall hhides => ?_
    rw [hcall] at hpicked
    have hhidden := isHidden_of_hidesString hsite
      (Bool.and_eq_true_iff.2 ⟨kind_of_importQuery hpicked, hhides⟩)
    exact isImportCall_of_isHidden himport hsite hhidden

/-! ## 5. Files -/

/-- **The outline of a script file does not depend on comments** that nothing is read from and that
hide no import. -/
theorem outline_withoutComments (language : Language) (path : String) {root : Node}
    (h : isClear root = true) (himport : hidesImport root = false) :
    outline language path root.withoutComments
      = { outline language path root with tree := some root.withoutComments } := by
  have hdeclared : Declared.concat ((root.withoutComments.named.map (statement path)).map (·.1))
      = Declared.concat ((root.named.map (statement path)).map (·.1)) := by
    rw [named_withoutComments, List.map_map, List.map_map]
    refine Declared.concat_withoutCommentsOf (fun c hc => ?_) fun c hc => ?_
    · rw [Function.comp_apply, statement_of_isComment path hc]
    · rw [Function.comp_apply, statement_withoutComments path (everywhere_of_named h hc),
        Function.comp_apply]
  have hexports : (root.withoutComments.named.map (statement path)).flatMap (·.2)
      = (root.named.map (statement path)).flatMap (·.2) := by
    rw [named_withoutComments, List.flatMap_map, List.flatMap_map]
    refine flatMap_withoutCommentsOf (fun c hc => ?_) fun c hc => ?_
    · rw [statement_of_isComment path hc]
    · rw [statement_withoutComments path (everywhere_of_named h hc)]
  rw [outline, outline]
  dsimp only
  rw [hdeclared, hexports, imports_withoutComments h himport]

end CodeAtlas.Outline.Script
