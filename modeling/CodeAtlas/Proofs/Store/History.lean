import CodeAtlas.Proofs.Store.Lawful
import Mathlib.Data.List.Induction
import Mathlib.Data.List.Nodup

/-!
# A store is a map in the order of entry

What a store answers after any history of changes, told from the history alone: a file holds the
text that came last under one of its spellings and was not removed since (`Holds`), and it stands
where it entered, at the addition that found nothing under its key (`Enters`). One change more
touches one key only, and that carries the two through a history (`holds_concat`, `enters_concat`,
`Enters.concat`). No answer depends on how a path is spelt.
-/

namespace CodeAtlas.MemoryStore

variable {store : MemoryStore} {path p key text root : String} {files : List (String × String)}
  {changes later : List Change} {change : Change} {time : Nat}

/-! ## 1. What a history says -/

/-- **A file holds a text**: the text came under a spelling of the key, and no later change is about
that key. -/
def Holds (changes : List Change) (key text : String) : Prop :=
  ∃ before path later, changes = before ++ .add path text :: later ∧ Path.normalize path = key ∧
    ∀ change ∈ later, change.key ≠ key

/-- A file is there. -/
def IsStored (changes : List Change) (key : String) : Prop :=
  ∃ text, Holds changes key text

/-- **A file enters at a moment**: it was not there when it was added then, and it was not removed
since. -/
def Enters (changes : List Change) (key : String) (time : Nat) : Prop :=
  ∃ before path text later, changes = before ++ .add path text :: later ∧ before.length = time ∧
    Path.normalize path = key ∧ ¬ IsStored before key ∧
    ∀ path, Change.remove path ∈ later → Path.normalize path ≠ key

/-- One file entered before another. -/
def EntersBefore (changes : List Change) (a b : String) : Prop :=
  ∃ s t, Enters changes a s ∧ Enters changes b t ∧ s < t

/-- **The keys of a history**, each once, in the order in which their files entered. -/
structure AreKeys (changes : List Change) (keys : List String) : Prop where
  nodup : keys.Nodup
  mem_iff : ∀ key, key ∈ keys ↔ IsStored changes key
  existsUnique_enters : ∀ key ∈ keys, ∃! time, Enters changes key time
  pairwise : keys.Pairwise (EntersBefore changes)

/-- A change with its path in another spelling. -/
inductive Change.Respelt : Change → Change → Prop where
  | add {path p : String} (h : Path.normalize path = Path.normalize p) (text : String) :
    Respelt (.add path text) (.add p text)
  | remove {path p : String} (h : Path.normalize path = Path.normalize p) :
    Respelt (.remove path) (.remove p)

/-! ## 2. One change more -/

/-- **One change more** decides about its key, and leaves the other keys alone. -/
theorem holds_concat : Holds (changes ++ [change]) key text ↔
    (∃ path, change = .add path text ∧ Path.normalize path = key) ∨
      change.key ≠ key ∧ Holds changes key text := by
  constructor
  · rintro ⟨before, path, later, hsplit, hkey, hlater⟩
    rcases Text.concat_eq_append_cons.1 hsplit with ⟨-, -, rfl⟩ | ⟨rest, rfl, hrest⟩
    · exact Or.inl ⟨path, rfl, hkey⟩
    · refine Or.inr ⟨hlater change ?_, before, path, rest, hrest, hkey, fun c hc => hlater c ?_⟩
      · exact List.mem_append_right rest List.mem_cons_self
      · exact List.mem_append_left [change] hc
  · rintro (⟨path, rfl, hkey⟩ | ⟨hne, before, path, later, rfl, hkey, hlater⟩)
    · exact ⟨changes, path, [], rfl, hkey, fun c hc => absurd hc List.not_mem_nil⟩
    · refine ⟨before, path, later ++ [change], ?_, hkey, fun c hc => ?_⟩
      · rw [List.append_assoc, List.cons_append]
      · rcases List.mem_append.1 hc with hc | hc
        · exact hlater c hc
        · rwa [List.mem_singleton.1 hc]

theorem isStored_concat_add : IsStored (changes ++ [.add path text]) key ↔
    Path.normalize path = key ∨ IsStored changes key := by
  constructor
  · rintro ⟨t, h⟩
    rcases holds_concat.1 h with ⟨p, hp, hkey⟩ | ⟨-, h⟩
    · rw [Change.add.injEq] at hp
      exact Or.inl (hp.1 ▸ hkey)
    · exact Or.inr ⟨t, h⟩
  · intro h
    by_cases hkey : Path.normalize path = key
    · exact ⟨text, holds_concat.2 (Or.inl ⟨path, rfl, hkey⟩)⟩
    · obtain ⟨t, h⟩ := h.resolve_left hkey
      exact ⟨t, holds_concat.2 (Or.inr ⟨hkey, h⟩)⟩

theorem isStored_concat_remove : IsStored (changes ++ [.remove path]) key ↔
    Path.normalize path ≠ key ∧ IsStored changes key := by
  simp only [IsStored, holds_concat, Change.key, reduceCtorEq, false_and, exists_const, false_or,
    exists_and_left]

/-- A file stays as long as it is not removed. -/
theorem IsStored.append (h : IsStored changes key)
    (hlater : ∀ path, Change.remove path ∈ later → Path.normalize path ≠ key) :
    IsStored (changes ++ later) key := by
  induction later generalizing changes with
  | nil => rwa [List.append_nil]
  | cons change later ih =>
    rw [← List.singleton_append, ← List.append_assoc]
    refine ih ?_ fun path hpath => hlater path (List.mem_cons_of_mem change hpath)
    cases change with
    | add path text => exact isStored_concat_add.2 (Or.inr h)
    | remove path => exact isStored_concat_remove.2 ⟨hlater path List.mem_cons_self, h⟩

theorem Enters.isStored (h : Enters changes key time) : IsStored changes key := by
  obtain ⟨before, path, text, later, rfl, -, hkey, -, hlater⟩ := h
  rw [← List.singleton_append, ← List.append_assoc]
  exact IsStored.append (isStored_concat_add.2 (Or.inl hkey)) hlater

theorem Enters.lt_length (h : Enters changes key time) : time < changes.length := by
  obtain ⟨before, path, text, later, rfl, rfl, -⟩ := h
  simp

/-- What entered earlier has its moment still, unless it is removed. -/
theorem Enters.concat (h : Enters changes key time)
    (hchange : ∀ path, change = .remove path → Path.normalize path ≠ key) :
    Enters (changes ++ [change]) key time := by
  obtain ⟨before, path, text, later, rfl, rfl, hkey, hbefore, hlater⟩ := h
  refine ⟨before, path, text, later ++ [change], ?_, rfl, hkey, hbefore, fun p hp => ?_⟩
  · rw [List.append_assoc, List.cons_append]
  · rcases List.mem_append.1 hp with hp | hp
    · exact hlater p hp
    · exact hchange p (List.mem_singleton.1 hp).symm

/-- A file enters with the last change, or it has entered earlier. -/
theorem enters_concat (h : Enters (changes ++ [change]) key time) :
    (change.key = key ∧ ¬ IsStored changes key ∧ time = changes.length) ∨
      Enters changes key time := by
  obtain ⟨before, path, text, later, hsplit, rfl, hkey, hbefore, hlater⟩ := h
  rcases Text.concat_eq_append_cons.1 hsplit with ⟨-, rfl, rfl⟩ | ⟨rest, rfl, hrest⟩
  · exact Or.inl ⟨hkey, hbefore, rfl⟩
  · exact Or.inr ⟨before, path, text, rest, hrest, rfl, hkey, hbefore,
      fun p hp => hlater p (List.mem_append_left [change] hp)⟩

theorem enters_concat_self (h : ¬ IsStored changes (Path.normalize path)) :
    Enters (changes ++ [.add path text]) (Path.normalize path) changes.length :=
  ⟨changes, path, text, [], rfl, rfl, rfl, h, fun _ hp => absurd hp List.not_mem_nil⟩

/-- **A file that is there has entered**, at one moment. -/
theorem IsStored.existsUnique_enters (h : IsStored changes key) :
    ∃! time, Enters changes key time := by
  induction changes using List.reverseRecOn with
  | nil =>
    obtain ⟨text, before, path, later, hsplit, -⟩ := h
    simp at hsplit
  | append_singleton changes change ih =>
    by_cases hstored : IsStored changes key
    -- It was there before: the last change has not removed it, so it keeps its moment.
    · obtain ⟨time, htime, huniq⟩ := ih hstored
      refine ⟨time, htime.concat ?_, fun t ht => ?_⟩
      · rintro path rfl
        exact (isStored_concat_remove.1 h).1
      · rcases enters_concat ht with ⟨-, hnot, -⟩ | ht
        · exact absurd hstored hnot
        · exact huniq t ht
    -- It was not: the last change has added it, and no earlier moment counts any more.
    · cases change with
      | remove path => exact absurd (isStored_concat_remove.1 h).2 hstored
      | add path text =>
        obtain rfl : Path.normalize path = key :=
          (isStored_concat_add.1 h).resolve_right hstored
        refine ⟨changes.length, enters_concat_self hstored, fun t ht => ?_⟩
        rcases enters_concat ht with ⟨-, -, ht⟩ | ht
        · exact ht
        · exact absurd ht.isStored hstored

/-! ## 3. Tables -/

theorem text?_add (store : MemoryStore) (path text p : String) : (store.add path text).text? p
    = if Path.normalize p = Path.normalize path then some text else store.text? p := by
  rw [text?, add, put_eq, Table.find?_put]
  by_cases h : Path.normalize p = Path.normalize path
  · rw [h, if_pos (beq_self_eq_true _), if_pos rfl]
    rfl
  · rw [if_neg (mt eq_of_beq (Ne.symm h)), if_neg h, text?]

theorem text?_remove (store : MemoryStore) (path p : String) : (store.remove path).1.text? p
    = if Path.normalize p = Path.normalize path then none else store.text? p := by
  rw [text?, remove]
  split
  · rename_i heq
    rw [heq, Table.find?_filter_self, Option.map_none]
  · rename_i hne
    rw [Table.find?_filter_of_ne _ (Ne.symm hne), text?]

theorem map_fst_put_of_mem (h : key ∈ files.map (·.1)) :
    (put key text files).map (·.1) = files.map (·.1) := by
  induction files with
  | nil => exact absurd h List.not_mem_nil
  | cons file files ih =>
    rw [put]
    split
    · rfl
    · rename_i hfile
      rw [List.map_cons, ih, List.map_cons]
      exact (List.mem_cons.1 h).resolve_left fun hkey => hfile (beq_iff_eq.2 hkey.symm)

theorem map_fst_put_of_notMem (h : key ∉ files.map (·.1)) :
    (put key text files).map (·.1) = files.map (·.1) ++ [key] := by
  rw [put_of_new, List.map_append, List.map_singleton]
  exact fun file hfile hkey => h (List.mem_map.2 ⟨file, hfile, hkey⟩)

theorem map_fst_filter (files : List (String × String)) (key : String) :
    (files.filter (·.1 != key)).map (·.1) = (files.map (·.1)).filter (· != key) := by
  rw [List.filter_map]
  rfl

theorem mem_map_fst_iff :
    Path.normalize path ∈ store.files.map (·.1) ↔ store.contains path = true := by
  rw [contains_iff, List.mem_map]

/-! ## 4. Stores after a history -/

theorem after_concat (root : String) (changes : List Change) (change : Change) :
    after root (changes ++ [change]) = perform (after root changes) change := by
  rw [after, List.foldl_concat, after]

/-- A store with some files is one to which they were added. -/
theorem ofFiles_eq_after (root : String) (files : List (String × String)) :
    ofFiles root files = after root (files.map fun file => .add file.1 file.2) := by
  rw [after, List.foldl_map]
  rfl

/-- **The text of a file** is the one that the history tells. -/
theorem text?_after (root : String) (changes : List Change) (path text : String) :
    (after root changes).text? path = some text ↔ Holds changes (Path.normalize path) text := by
  induction changes using List.reverseRecOn with
  | nil => simp [after, empty, text?, Holds]
  | append_singleton changes change ih =>
    rw [after_concat, holds_concat]
    cases change with
    | add p t =>
      rw [perform, text?_add, Change.key]
      by_cases hkey : Path.normalize path = Path.normalize p
      · simp only [hkey, if_true, Option.some.injEq, ne_eq, not_true, false_and, or_false,
          Change.add.injEq]
        constructor
        · rintro rfl
          exact ⟨p, ⟨rfl, rfl⟩, rfl⟩
        · rintro ⟨q, ⟨-, ht⟩, -⟩
          exact ht
      · rw [if_neg hkey, ih]
        refine ⟨fun h => Or.inr ⟨Ne.symm hkey, h⟩, ?_⟩
        rintro (⟨q, hq, hqkey⟩ | ⟨-, h⟩)
        · rw [Change.add.injEq] at hq
          exact absurd hqkey.symm (hq.1 ▸ hkey)
        · exact h
    | remove p =>
      rw [perform, text?_remove, Change.key]
      by_cases hkey : Path.normalize path = Path.normalize p
      · simp [hkey]
      · simp [hkey, Ne.symm hkey, ih]

/-- **A file is there** if the history says so. -/
theorem contains_after (root : String) (changes : List Change) (path : String) :
    (after root changes).contains path = true ↔ IsStored changes (Path.normalize path) := by
  rw [contains, Option.isSome_iff_exists]
  exact exists_congr fun text => text?_after root changes path text

/-- Every key is a normal path. -/
theorem isKeyed_after (root : String) (changes : List Change) : (after root changes).IsKeyed := by
  induction changes using List.reverseRecOn with
  | nil => exact isKeyed_empty root
  | append_singleton changes change ih =>
    rw [after_concat]
    cases change with
    | add path text => exact ih.add path text
    | remove path => exact ih.remove path

theorem mem_keys_after (root : String) (changes : List Change) (key : String) :
    key ∈ (after root changes).files.map (·.1) ↔ IsStored changes key := by
  constructor
  · intro h
    obtain ⟨file, hfile, rfl⟩ := List.mem_map.1 h
    have hkey := isKeyed_after root changes file hfile
    rw [← hkey, ← contains_after root, contains_iff]
    exact ⟨file, hfile, hkey.symm⟩
  · rintro ⟨text, before, path, later, rfl, rfl, hlater⟩
    rw [mem_map_fst_iff, contains_after]
    exact ⟨text, before, path, later, rfl, rfl, hlater⟩

/-- The moments at which two files entered are the same with one change more. -/
theorem EntersBefore.concat {a b : String} (h : EntersBefore changes a b)
    (hchange : ∀ path, change = .remove path → Path.normalize path ≠ a ∧ Path.normalize path ≠ b) :
    EntersBefore (changes ++ [change]) a b := by
  obtain ⟨s, t, hs, ht, hlt⟩ := h
  exact ⟨s, t, hs.concat fun path hpath => (hchange path hpath).1,
    ht.concat fun path hpath => (hchange path hpath).2, hlt⟩

theorem nodup_keys_after (root : String) (changes : List Change) :
    ((after root changes).files.map (·.1)).Nodup := by
  induction changes using List.reverseRecOn with
  | nil => exact List.nodup_nil
  | append_singleton changes change ih =>
    rw [after_concat]
    cases change with
    | add path text =>
      by_cases hmem : Path.normalize path ∈ (after root changes).files.map (·.1)
      · rwa [perform, add, map_fst_put_of_mem hmem]
      · rw [perform, add, map_fst_put_of_notMem hmem, ← List.concat_eq_append]
        exact ih.concat hmem
    | remove path =>
      rw [perform, remove, map_fst_filter]
      exact ih.filter _

/-- **Keys stand in the order in which their files entered.** The induction is on the history from the
right: text for a file that is there leaves the keys alone, a new file comes behind the others, which
all entered earlier, and a removal leaves the order of the rest. -/
theorem pairwise_entersBefore_after (root : String) (changes : List Change) :
    ((after root changes).files.map (·.1)).Pairwise (EntersBefore changes) := by
  induction changes using List.reverseRecOn with
  | nil => exact List.Pairwise.nil
  | append_singleton changes change ih =>
    rw [after_concat]
    cases change with
    | add path text =>
      have hadd : ∀ p, Change.add path text ≠ .remove p := by
        intro p hp
        cases hp
      have hold : ((after root changes).files.map (·.1)).Pairwise
          (EntersBefore (changes ++ [.add path text])) :=
        ih.imp fun h => h.concat fun p hp => absurd hp (hadd p)
      by_cases hmem : Path.normalize path ∈ (after root changes).files.map (·.1)
      · rwa [perform, add, map_fst_put_of_mem hmem]
      -- The new file enters at the end of the history, so behind all that entered before.
      · rw [perform, add, map_fst_put_of_notMem hmem]
        refine List.pairwise_append.2 ⟨hold, List.pairwise_singleton _ _, fun a ha b hb => ?_⟩
        rw [List.mem_singleton.1 hb]
        obtain ⟨time, htime, -⟩ := ((mem_keys_after root changes a).1 ha).existsUnique_enters
        exact ⟨time, changes.length, htime.concat fun p hp => absurd hp (hadd p),
          enters_concat_self (mt (mem_keys_after root changes _).2 hmem), htime.lt_length⟩
    | remove path =>
      -- What is left has other keys, and the removal does not touch their moments.
      rw [perform, remove, map_fst_filter]
      refine (ih.filter _).imp_of_mem fun ha hb h => h.concat ?_
      rintro p hp
      rw [Change.remove.injEq] at hp
      subst hp
      exact ⟨(bne_iff_ne.1 (List.mem_filter.1 ha).2).symm,
        (bne_iff_ne.1 (List.mem_filter.1 hb).2).symm⟩

/-- **The keys of a store** are the keys of its history. -/
theorem areKeys_after (root : String) (changes : List Change) :
    AreKeys changes ((after root changes).files.map (·.1)) := by
  refine ⟨nodup_keys_after root changes, mem_keys_after root changes, fun key hkey => ?_,
    pairwise_entersBefore_after root changes⟩
  exact ((mem_keys_after root changes key).1 hkey).existsUnique_enters

/-- New text leaves a file in its place, and a file that comes back comes last. -/
example : (after "/" [.add "/b" "1", .add "/a" "2", .add "/./b" "3", .remove "a/../b", .remove "\\b",
    .add "/b" "4"]).files = [("/a", "2"), ("/b", "4")] := by decide +kernel

/-! ## 5. Spellings -/

/-- A root in another spelling makes the same store. -/
theorem empty_congr {p q : String} (h : Path.normalize p = Path.normalize q) : empty p = empty q := by
  have hempty : ∀ {p q : String}, Path.normalize p = Path.normalize q → p = "" → q = "" := by
    intro p q h hp
    by_contra hq
    have hne : (Path.normalize q).toList ≠ [] := by
      rw [Path.toList_normalize (mt String.isEmpty_iff.1 hq)]
      exact Path.normalizeChars_ne_nil _
    rw [← h, hp] at hne
    exact hne rfl
  rw [empty, empty]
  by_cases hp : p = ""
  · rw [hp, hempty h hp]
  · have hq : q ≠ "" := fun hq => hp (hempty h.symm hq)
    rw [if_neg (mt String.isEmpty_iff.1 hp), if_neg (mt String.isEmpty_iff.1 hq), h]

theorem Change.Respelt.perform {change' : Change} (h : change.Respelt change')
    (store : MemoryStore) : store.perform change = store.perform change' := by
  cases h with
  | add h text => rw [MemoryStore.perform, MemoryStore.perform, MemoryStore.add, MemoryStore.add, h]
  | remove h =>
    rw [MemoryStore.perform, MemoryStore.perform, MemoryStore.remove, MemoryStore.remove, h]

/-- **A history in other spellings** comes to the same store. -/
theorem after_congr {root' : String} {changes' : List Change}
    (hroot : Path.normalize root = Path.normalize root')
    (h : List.Forall₂ Change.Respelt changes changes') :
    after root changes = after root' changes' := by
  rw [after, after, empty_congr hroot]
  generalize empty root' = store
  induction h generalizing store with
  | nil => rfl
  | cons hchange _ ih => rw [List.foldl_cons, List.foldl_cons, hchange.perform, ih]

theorem text?_congr (h : Path.normalize path = Path.normalize p) : store.text? path = store.text? p := by
  rw [text?, h, text?]

theorem relative_congr (h : Path.normalize path = Path.normalize p) :
    store.relative path = store.relative p := by
  rw [relative, h, relative]

/-- **A question in another spelling** has the same answer. -/
structure AnswersAlike (store : MemoryStore) (path p : String) : Prop where
  contains : store.contains path = store.contains p
  read : (store.read path).toOption = (store.read p).toOption
  remove : store.remove path = store.remove p
  relative : store.relative path = store.relative p
  canonical : store.view.canonical path = store.view.canonical p
  resolveImport : store.view.resolveImport path = store.view.resolveImport p

theorem answersAlike (store : MemoryStore) (h : Path.normalize path = Path.normalize p) :
    store.AnswersAlike path p where
  contains := by rw [MemoryStore.contains, text?_congr h, MemoryStore.contains]
  read := by
    rw [MemoryStore.read, MemoryStore.read, text?_congr h]
    cases store.text? p <;> rfl
  remove := by
    rw [MemoryStore.remove, MemoryStore.remove, h, MemoryStore.contains, text?_congr h,
      MemoryStore.contains]
  relative := relative_congr h
  canonical := h
  resolveImport := by
    funext specifier
    rw [FileView.resolveImport, FileView.resolveImport, view_canonical, h]

/-! ## 6. Ordered maps -/

/-- **A map from normal paths to texts in the order of entry**: what the store at a root answers
after a history of changes. -/
structure IsOrderedMap (root : String) (changes : List Change) : Prop where
  /-- The text that is read came last, and was not removed since. -/
  read_eq_ok_iff : ∀ path text,
    (after root changes).read path = .ok text ↔ Holds changes (Path.normalize path) text
  /-- What cannot be read is not there, and the failure names the path as it is spelt. -/
  read_eq_error_iff : ∀ path failure, (after root changes).read path = .error failure ↔
    (after root changes).contains path = false ∧ failure = .fileNotFound path
  /-- A file is there if it was added and not removed since. -/
  contains_iff : ∀ path,
    (after root changes).contains path = true ↔ IsStored changes (Path.normalize path)
  /-- A removal tells whether the file was there. -/
  remove_iff : ∀ path,
    ((after root changes).remove path).2 = true ↔ IsStored changes (Path.normalize path)
  /-- The files are counted, listed in the order in which they entered, and found by imports. -/
  keys : ∃ keys, AreKeys changes keys ∧ (after root changes).size = keys.length ∧
    (∀ (engine : Glob.Engine) pattern isSelected, engine.compile [pattern] = .ok isSelected →
      (after root changes).list pattern engine
        = .ok (keys.filter fun key => isSelected ((after root changes).relative key))) ∧
    (∀ (engine : Glob.Engine) pattern failure, engine.compile [pattern] = .error failure →
      (after root changes).list pattern engine = if keys = [] then .ok [] else .error failure) ∧
    ∀ importer specifier path,
      (after root changes).view.resolveImport importer specifier = some path →
      (after root changes).contains path = true ∧ Path.normalize path ∈ keys
  /-- The spellings of the root and of the changes make no difference. -/
  after_congr : ∀ root' changes', Path.normalize root = Path.normalize root' →
    List.Forall₂ Change.Respelt changes changes' → after root changes = after root' changes'
  /-- The spelling of a question makes no difference. -/
  answersAlike : ∀ path p, Path.normalize path = Path.normalize p →
    (after root changes).AnswersAlike path p

theorem read_eq_error_iff {failure : Failure} : store.read path = .error failure ↔
    store.contains path = false ∧ failure = .fileNotFound path := by
  rw [read, contains]
  cases store.text? path with
  | none => simp [eq_comm]
  | some text => simp

theorem list_of_error {engine : Glob.Engine} {pattern : String} {failure : Failure}
    (h : engine.compile [pattern] = .error failure) :
    store.list pattern engine = if store.files.map (·.1) = [] then .ok [] else .error failure := by
  rw [list, h]
  by_cases hempty : store.files = []
  · rw [hempty]
    rfl
  · rw [if_neg (mt List.isEmpty_iff.1 hempty), if_neg (mt List.map_eq_nil_iff.1 hempty)]
    rfl

/-- **A store of files in memory is a map in the order of entry**, after every history. -/
theorem isOrderedMap_after (root : String) (changes : List Change) : IsOrderedMap root changes where
  read_eq_ok_iff path text := by
    rw [← text?_after root, read]
    cases (after root changes).text? path with
    | none => simp
    | some t => simp
  read_eq_error_iff _ _ := read_eq_error_iff
  contains_iff := contains_after root changes
  remove_iff := contains_after root changes
  keys := by
    refine ⟨_, areKeys_after root changes, (List.length_map _).symm, fun _ _ _ => list_of_compile _,
      fun _ _ _ => list_of_error, fun importer specifier path h => ?_⟩
    have hcontains : (after root changes).contains path = true := List.find?_some h
    exact ⟨hcontains, mem_map_fst_iff.2 hcontains⟩
  after_congr _ _ := after_congr
  answersAlike _ _ := answersAlike _

end CodeAtlas.MemoryStore
