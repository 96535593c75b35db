import CodeAtlas.Language.Detection
import CodeAtlas.Proofs.Path.Normal
import CodeAtlas.Proofs.Table
import CodeAtlas.Store.Memory

/-!
# The laws of a view

What the analyses rely on when they name files (`FileView.Lawful`): the canonical path of a file
names that file and is its own canonical path, it is no address, and a listing tells of no file that
is not there. Reading has no law, since any file may turn out to be unreadable. The views of stores
in memory are lawful as long as their keys are normal paths, which every change of a store
preserves.
-/

namespace CodeAtlas

namespace FileView

/-! ## 1. Laws -/

/-- **A lawful view** has one name for every file, and lists files that are there. -/
structure Lawful (view : FileView) : Prop where
  canonical_canonical : ∀ path, view.canonical (view.canonical path) = view.canonical path
  contains_canonical : ∀ path, view.contains (view.canonical path) = view.contains path
  contains_of_mem_list : ∀ pattern paths, view.list pattern = .ok paths →
    ∀ path ∈ paths, view.contains path = true
  dropStart?_canonical : ∀ path,
    Text.dropStart? ['f', 'i', 'l', 'e', ':', '/', '/'] (view.canonical path).toList = none

variable {view : FileView}

/-- What is read makes no difference to the laws. -/
theorem Lawful.withRead (h : view.Lawful) (read : String → Except Failure String) :
    Lawful { view with read } where
  canonical_canonical := h.canonical_canonical
  contains_canonical := h.contains_canonical
  contains_of_mem_list := h.contains_of_mem_list
  dropStart?_canonical := h.dropStart?_canonical

theorem Lawful.withUnreadable (h : view.Lawful) (paths : List String) (reason : String) :
    (view.withUnreadable paths reason).Lawful :=
  h.withRead _

/-- The language of a canonical path is always found out. -/
theorem Lawful.ofFile_canonical (h : view.Lawful) (path : String) :
    Language.ofFile (view.canonical path) = .ok (Language.ofPath? (view.canonical path)) :=
  Language.ofFile_of_path (h.dropStart?_canonical path)

end FileView

/-! ## 2. Stores in memory -/

namespace MemoryStore

/-- **Files are kept under normal paths.** -/
def IsKeyed (store : MemoryStore) : Prop :=
  ∀ file ∈ store.files, Path.normalize file.1 = file.1

variable {store : MemoryStore} {engine : Glob.Engine}

theorem isKeyed_empty (root : String) : (empty root).IsKeyed :=
  fun _ h => absurd h List.not_mem_nil

theorem put_eq (key text : String) (files : List (String × String)) :
    put key text files = Table.put key text files := by
  induction files with
  | nil => rfl
  | cons file files ih => rw [put, ih, Table.put]

/-- **A text under a new key comes last.** -/
theorem put_of_new {key text : String} {files : List (String × String)}
    (h : ∀ file ∈ files, file.1 ≠ key) : put key text files = files ++ [(key, text)] := by
  induction files with
  | nil => rfl
  | cons file files ih =>
    rw [put, if_neg (mt beq_iff_eq.1 (h file List.mem_cons_self)),
      ih fun f hf => h f (List.mem_cons_of_mem file hf), List.cons_append]

theorem IsKeyed.add (h : store.IsKeyed) (path text : String) : (store.add path text).IsKeyed := by
  intro file hfile
  rw [MemoryStore.add, put_eq] at hfile
  rcases Table.mem_put hfile with hkey | hfile
  · rw [hkey, Path.normalize_normalize]
  · exact h file hfile

theorem IsKeyed.remove (h : store.IsKeyed) (path : String) : (store.remove path).1.IsKeyed :=
  fun file hfile => h file (List.mem_of_mem_filter hfile)

theorem isKeyed_ofFiles (root : String) (files : List (String × String)) :
    (ofFiles root files).IsKeyed := by
  have key : ∀ store : MemoryStore, store.IsKeyed →
      (files.foldl (fun store file => store.add file.1 file.2) store).IsKeyed := by
    induction files with
    | nil => exact fun _ h => h
    | cons file files ih => exact fun store h => ih _ (h.add file.1 file.2)
  exact key _ (isKeyed_empty root)

theorem text?_normalize (store : MemoryStore) (path : String) :
    store.text? (Path.normalize path) = store.text? path := by
  rw [text?, text?, Path.normalize_normalize]

theorem contains_iff {path : String} :
    store.contains path = true ↔ ∃ file ∈ store.files, file.1 = Path.normalize path := by
  simp only [contains, text?, Option.isSome_map, List.find?_isSome, beq_iff_eq]

/-- What a pattern lists. Of an empty store the pattern is not read, but there is nothing to select
either. -/
theorem list_of_compile (store : MemoryStore) {pattern : String} {isSelected : String → Bool}
    (h : engine.compile [pattern] = .ok isSelected) :
    store.list pattern engine
      = .ok ((store.files.map (·.1)).filter fun p => isSelected (store.relative p)) := by
  unfold list
  split
  · rename_i hempty
    rw [List.isEmpty_iff.1 hempty]
    rfl
  · rw [h]
    rfl

/-- A listing selects among the keys. -/
theorem mem_keys_of_mem_list {pattern path : String} {paths : List String}
    (h : store.list pattern engine = .ok paths) (hpath : path ∈ paths) :
    path ∈ store.files.map (·.1) := by
  unfold list at h
  split at h
  · cases h
    exact absurd hpath List.not_mem_nil
  · cases hcompile : engine.compile [pattern] with
    | error e =>
      rw [hcompile] at h
      cases h
    | ok isSelected =>
      rw [hcompile] at h
      cases h
      exact List.mem_of_mem_filter hpath

@[simp] theorem view_canonical (store : MemoryStore) (engine : Glob.Engine) :
    (store.view engine).canonical = Path.normalize := rfl

@[simp] theorem view_contains (store : MemoryStore) (engine : Glob.Engine) :
    (store.view engine).contains = store.contains := rfl

@[simp] theorem view_read (store : MemoryStore) (engine : Glob.Engine) :
    (store.view engine).read = store.read := rfl

@[simp] theorem view_list (store : MemoryStore) (engine : Glob.Engine) (pattern : String) :
    (store.view engine).list pattern = store.list pattern engine := rfl

/-- **The view of a store whose keys are normal is lawful.** -/
theorem IsKeyed.lawful_view (h : store.IsKeyed) : (store.view engine).Lawful where
  canonical_canonical := Path.normalize_normalize
  contains_canonical path := by
    rw [view_canonical, view_contains, contains, contains, text?_normalize]
  contains_of_mem_list pattern paths hlist path hpath := by
    rw [view_list] at hlist
    obtain ⟨file, hfile, rfl⟩ := List.mem_map.1 (mem_keys_of_mem_list hlist hpath)
    rw [view_contains]
    exact contains_iff.2 ⟨file, hfile, (h file hfile).symm⟩
  dropStart?_canonical := Path.dropStart?_normalize

end MemoryStore

end CodeAtlas
