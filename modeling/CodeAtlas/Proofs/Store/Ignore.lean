import CodeAtlas.Proofs.Store.Directory
import CodeAtlas.Store.Directory.History
import Mathlib.Data.List.DropRight

/-!
# What is remembered of the ignore files

The lines of two files are remembered under the time of one. So a call gives the lines as they were read
by the first of the calls in a row that found the ignore file with this time (`ignoreLines_after`), which is
true of every history. If the ignore file gets a new time whenever it is written (`IsTimely`), its own lines
are always the ones it has; those of the private file are as old as the row (`remembers`), and the private
file may have changed since (`keeps_privateLines`).
-/

namespace CodeAtlas.DirectoryStore

variable {store start : DirectoryStore} {events earlier later : List Event} {event : Event}
  {path key : String}

/-! ## 1. Files after an event -/

/-- The path of the ignore file. -/
def ignorePath : String := ".gitignore"

/-- The path of the private ignore file. -/
def privatePath : String := ".git/info/exclude"

/-- The lines of the file under a key, none if there is no such file. -/
def linesOf (store : DirectoryStore) (key : String) : List String :=
  match store.below? key with
  | some file => file.lines
  | none => []

theorem currentIgnoreLines_eq (store : DirectoryStore) :
    store.currentIgnoreLines = store.linesOf ignorePath ++ store.linesOf privatePath := by
  rw [currentIgnoreLines, List.flatMap_cons, List.flatMap_cons, List.flatMap_nil, List.append_nil]
  rfl

theorem ignoreStamp_eq (store : DirectoryStore) :
    store.ignoreStamp = ((store.below? ignorePath).map (·.changed)).getD (.at 0) := by
  rw [ignoreStamp, ← ignorePath]
  cases store.below? ignorePath <;> rfl

/-- The time that a file gets which is written at a given time, or now. -/
def stampOf (store : DirectoryStore) : Option Int → Stamp
  | some seconds => .at seconds
  | none => .write store.writes

theorem below?_write (store : DirectoryStore) (path : String) (bytes : List UInt8)
    (time : Option Int) (key : String) :
    (store.write path bytes time).below? key
      = if keyOf path == key then some ⟨bytes, store.stampOf time⟩ else store.below? key := by
  have hwrite : (store.write path bytes time).files
      = put (keyOf path) ⟨bytes, store.stampOf time⟩ store.files := by
    cases time <;> rfl
  rw [below?, hwrite, put_eq, Table.find?_put]
  split <;> rfl

theorem below?_erase (store : DirectoryStore) (path key : String) :
    (store.erase path).below? key = if keyOf path == key then none else store.below? key := by
  rw [below?, erase]
  cases hkey : keyOf path == key with
  | true =>
    rw [if_pos rfl, eq_of_beq hkey, Table.find?_filter_self, Option.map_none]
  | false =>
    rw [if_neg Bool.false_ne_true, Table.find?_filter_of_ne _ (beq_eq_false_iff_ne.1 hkey), below?]

/-- An event changes no file but its own. -/
theorem below?_perform (h : event.key? ≠ some key) :
    (store.perform event).below? key = store.below? key := by
  cases event with
  | write path bytes time =>
    have hkey : (keyOf path == key) = false := beq_eq_false_iff_ne.2 fun heq => h (congrArg some heq)
    rw [perform, below?_write, hkey, if_neg Bool.false_ne_true]
  | erase path =>
    have hkey : (keyOf path == key) = false := beq_eq_false_iff_ne.2 fun heq => h (congrArg some heq)
    rw [perform, below?_erase, hkey, if_neg Bool.false_ne_true]
  | ask => rfl

theorem after_append (start : DirectoryStore) (earlier later : List Event) :
    start.after (earlier ++ later) = (start.after earlier).after later :=
  List.foldl_append

theorem after_concat (start : DirectoryStore) (events : List Event) (event : Event) :
    start.after (events ++ [event]) = (start.after events).perform event :=
  after_append start events [event]

/-! ## 2. The first of the calls in a row -/

/-- **The first of the last calls in a row** that found the ignore file with the time it has now; now, if
the last call did not. -/
def firstInRow (visits : List DirectoryStore) (now : DirectoryStore) : DirectoryStore :=
  (visits.rtakeWhile (·.ignoreStamp == now.ignoreStamp)).head?.getD now

/-- The directory as it was when the lines were read that a call gives after some events. -/
def lastRead (start : DirectoryStore) (events : List Event) : DirectoryStore :=
  firstInRow (start.visits events) (start.after events)

theorem firstInRow_concat {visits : List DirectoryStore} {last now : DirectoryStore}
    (h : last.ignoreStamp = now.ignoreStamp) :
    firstInRow (visits ++ [last]) now = firstInRow visits last := by
  rw [firstInRow, ← h, List.rtakeWhile_concat, if_pos (beq_self_eq_true _), List.head?_append,
    firstInRow]
  cases (visits.rtakeWhile (·.ignoreStamp == last.ignoreStamp)).head? <;> rfl

theorem firstInRow_concat_of_ne {visits : List DirectoryStore} {last now : DirectoryStore}
    (h : last.ignoreStamp ≠ now.ignoreStamp) : firstInRow (visits ++ [last]) now = now := by
  rw [firstInRow, List.rtakeWhile_concat_neg]
  · rfl
  · rw [beq_iff_eq]
    exact h

theorem visits_concat_ask (start : DirectoryStore) (events : List Event) :
    start.visits (events ++ [.ask]) = start.visits events ++ [start.after events] := by
  induction events generalizing start with
  | nil => rfl
  | cons event events ih => cases event <;> simp [visits, ih, after]

theorem visits_concat (start : DirectoryStore) (events : List Event) (h : event ≠ .ask) :
    start.visits (events ++ [event]) = start.visits events := by
  induction events generalizing start with
  | nil =>
    cases event with
    | ask => exact absurd rfl h
    | _ => rfl
  | cons first events ih => cases first <;> simp [visits, ih]

/-- **A call gives what the first in its row has read**, if the last call remembered what the first in
its own row had. -/
theorem ignoreLines_of_remembered {visits : List DirectoryStore}
    (h : store.remembered = visits.getLast?.map fun last =>
      (last.ignoreStamp, (firstInRow visits last).currentIgnoreLines)) :
    store.ignoreLines = (firstInRow visits store).currentIgnoreLines := by
  rcases List.eq_nil_or_concat visits with rfl | ⟨visits, last, rfl⟩
  · rw [ignoreLines, h]
    rfl
  · rw [List.concat_eq_append, List.getLast?_concat, Option.map_some, firstInRow_concat rfl] at h
    rw [List.concat_eq_append, ignoreLines, h]
    dsimp only
    split
    · rename_i hstamp
      rw [firstInRow_concat hstamp]
    · rename_i hstamp
      rw [firstInRow_concat_of_ne hstamp]

theorem remembered_perform (h : event ≠ .ask) :
    (store.perform event).remembered = store.remembered := by
  cases event with
  | ask => exact absurd rfl h
  | _ => rfl

theorem remembered_after (hstart : start.remembered = none) (events : List Event) :
    (start.after events).remembered = (start.visits events).getLast?.map fun last =>
      (last.ignoreStamp, (firstInRow (start.visits events) last).currentIgnoreLines) := by
  induction events using List.reverseRecOn with
  | nil => exact hstart
  | append_singleton events event ih =>
    rw [after_concat]
    by_cases hask : event = .ask
    -- a call remembers what it gives, and it is the last one now
    · subst hask
      rw [visits_concat_ask, List.getLast?_concat, Option.map_some, firstInRow_concat rfl,
        ← ignoreLines_of_remembered ih]
      rfl
    · rw [remembered_perform hask, visits_concat _ _ hask, ih]

/-- **A call gives the lines as the first call in its row read them**, whatever has happened since. -/
theorem ignoreLines_after (hstart : start.remembered = none) (events : List Event) :
    (start.after events).ignoreLines = (start.lastRead events).currentIgnoreLines :=
  ignoreLines_of_remembered (remembered_after hstart events)

/-! ## 3. Times of the ignore file -/

/-- **The ignore file has a new time whenever it is written**: one that it has not had before, and not the
one that stands for a missing file. -/
structure IsTimely (start : DirectoryStore) (events : List Event) : Prop where
  initial : ∀ file, start.below? ignorePath = some file → file.changed ≠ .at 0
  written : ∀ earlier path bytes time, earlier ++ [.write path bytes time] <+: events →
    keyOf path = ignorePath →
      (start.after earlier).stampOf time ≠ .at 0 ∧
        ∀ before, before <+: earlier →
          (start.after before).ignoreStamp ≠ (start.after earlier).stampOf time

/-- What an event does to the ignore file: nothing, a new file with a new time, or it is gone. -/
theorem below?_ignorePath_concat (start : DirectoryStore) (events : List Event) (event : Event) :
    (start.after (events ++ [event])).below? ignorePath = (start.after events).below? ignorePath ∨
      (∃ path bytes time, event = .write path bytes time ∧ keyOf path = ignorePath ∧
        (start.after (events ++ [event])).below? ignorePath
          = some ⟨bytes, (start.after events).stampOf time⟩) ∨
      (start.after (events ++ [event])).below? ignorePath = none := by
  rw [after_concat]
  by_cases hkey : event.key? = some ignorePath
  · cases event with
    | write path bytes time =>
      have hpath := Option.some.inj hkey
      refine Or.inr (Or.inl ⟨path, bytes, time, rfl, hpath, ?_⟩)
      rw [perform, below?_write, hpath, if_pos (beq_self_eq_true _)]
    | erase path =>
      have hpath := Option.some.inj hkey
      refine Or.inr (Or.inr ?_)
      rw [perform, below?_erase, hpath, if_pos (beq_self_eq_true _)]
    | ask => cases hkey
  · exact Or.inl (below?_perform hkey)

theorem IsTimely.changed_ne (h : start.IsTimely events) (hearlier : earlier <+: events)
    {file : StoredFile} (hfile : (start.after earlier).below? ignorePath = some file) :
    file.changed ≠ .at 0 := by
  induction earlier using List.reverseRecOn generalizing file with
  | nil => exact h.initial file hfile
  | append_singleton earlier event ih =>
    have hbefore := (List.prefix_append earlier [event]).trans hearlier
    rcases below?_ignorePath_concat start earlier event with hsame | ⟨path, bytes, time, rfl, hpath, hnew⟩
      | hgone
    · exact ih hbefore (hsame ▸ hfile)
    · rw [hnew] at hfile
      cases hfile
      exact (h.written earlier path bytes time hearlier hpath).1
    · rw [hgone] at hfile
      cases hfile

/-- **The time tells the file**: as long as the ignore file has the time that it had, it is the same. The
induction goes over what happened since. -/
theorem IsTimely.below?_eq (h : start.IsTimely events) (hlater : earlier ++ later <+: events)
    (hstamp : (start.after (earlier ++ later)).ignoreStamp = (start.after earlier).ignoreStamp) :
    (start.after (earlier ++ later)).below? ignorePath = (start.after earlier).below? ignorePath := by
  induction later using List.reverseRecOn with
  | nil => rw [List.append_nil]
  | append_singleton later event ih =>
    rw [← List.append_assoc] at hlater hstamp ⊢
    have hbefore := (List.prefix_append (earlier ++ later) [event]).trans hlater
    rcases below?_ignorePath_concat start (earlier ++ later) event with
      hsame | ⟨path, bytes, time, rfl, hpath, hnew⟩ | hgone
    · rw [ignoreStamp_eq, hsame, ← ignoreStamp_eq] at hstamp
      rw [hsame, ih hbefore hstamp]
    -- a new file has a time that the file did not have at the earlier moment
    · rw [ignoreStamp_eq, hnew] at hstamp
      exact absurd hstamp.symm ((h.written _ path bytes time hlater hpath).2 earlier
        (List.prefix_append earlier later))
    -- a file that was there has not had the time of a missing one
    · rw [ignoreStamp_eq, hgone, ignoreStamp_eq] at hstamp
      rw [hgone]
      cases hfile : (start.after earlier).below? ignorePath with
      | none => rfl
      | some file =>
        rw [hfile] at hstamp
        exact absurd hstamp.symm
          (h.changed_ne ((List.prefix_append earlier later).trans hbefore) hfile)

/-- Each visit found the directory as it was after the events before it. -/
theorem exists_of_mem_visits {visit : DirectoryStore} (h : visit ∈ start.visits events) :
    ∃ earlier later, events = earlier ++ later ∧ visit = start.after earlier := by
  induction events using List.reverseRecOn with
  | nil => cases h
  | append_singleton events event ih =>
    by_cases hask : event = .ask
    · subst hask
      rw [visits_concat_ask, List.mem_append, List.mem_singleton] at h
      rcases h with h | rfl
      · obtain ⟨earlier, later, rfl, hvisit⟩ := ih h
        exact ⟨earlier, later ++ [.ask], List.append_assoc _ _ _, hvisit⟩
      · exact ⟨events, [.ask], rfl, rfl⟩
    · rw [visits_concat _ _ hask] at h
      obtain ⟨earlier, later, rfl, hvisit⟩ := ih h
      exact ⟨earlier, later ++ [event], List.append_assoc _ _ _, hvisit⟩

/-- The lines that are given were read after a part of the events, when the ignore file had the time that
it has now. -/
theorem exists_lastRead (start : DirectoryStore) (events : List Event) :
    ∃ earlier later, events = earlier ++ later ∧ start.lastRead events = start.after earlier ∧
      (start.after events).ignoreStamp = (start.after earlier).ignoreStamp := by
  rw [lastRead, firstInRow]
  cases hfirst : ((start.visits events).rtakeWhile
    (·.ignoreStamp == (start.after events).ignoreStamp)).head? with
  | none => exact ⟨events, [], (List.append_nil _).symm, rfl, rfl⟩
  | some first =>
    have hmem := List.mem_of_head? hfirst
    have hstamp := List.mem_rtakeWhile_imp hmem
    obtain ⟨earlier, later, hevents, rfl⟩ :=
      exists_of_mem_visits (List.rtakeWhile_suffix _ _ |>.mem hmem)
    exact ⟨earlier, later, hevents, rfl, (eq_of_beq hstamp).symm⟩

/-- **The ignore file is the one whose lines were read.** -/
theorem IsTimely.linesOf_lastRead (h : start.IsTimely events) :
    (start.lastRead events).linesOf ignorePath = (start.after events).linesOf ignorePath := by
  obtain ⟨earlier, later, rfl, hread, hstamp⟩ := exists_lastRead start events
  rw [hread, linesOf, linesOf, h.below?_eq List.prefix_rfl hstamp]

/-- A file that no event is about stays as it is. -/
theorem below?_after (h : ∀ event ∈ events, event.key? ≠ some key) :
    (start.after events).below? key = start.below? key := by
  induction events using List.reverseRecOn with
  | nil => rfl
  | append_singleton events event ih =>
    rw [List.forall_mem_append, List.forall_mem_singleton] at h
    rw [after_concat, below?_perform h.2, ih h.1]

theorem linesOf_lastRead_of_untouched (h : ∀ event ∈ events, event.key? ≠ some key) :
    (start.lastRead events).linesOf key = (start.after events).linesOf key := by
  obtain ⟨earlier, later, rfl, hread, -⟩ := exists_lastRead start events
  rw [hread, linesOf, linesOf, below?_after h, below?_after (List.forall_mem_append.1 h).1]

/-! ## 4. Files that are written as they come -/

theorem writes_le_after (start : DirectoryStore) (events : List Event) :
    start.writes ≤ (start.after events).writes := by
  induction events using List.reverseRecOn with
  | nil => exact Nat.le_refl _
  | append_singleton events event ih =>
    rw [after_concat]
    cases event with
    | write path bytes time => exact Nat.le_succ_of_le ih
    | erase path => exact ih
    | ask => exact ih

/-- The write that the ignore file is from is behind. -/
theorem lt_writes_after (hstart : ∀ n, start.ignoreStamp = .write n → n < start.writes) {n : Nat}
    (hstamp : (start.after events).ignoreStamp = .write n) : n < (start.after events).writes := by
  induction events using List.reverseRecOn with
  | nil => exact hstart n hstamp
  | append_singleton events event ih =>
    rw [ignoreStamp_eq] at hstamp
    rcases below?_ignorePath_concat start events event with hsame | ⟨path, new, time, rfl, -, hnew⟩ | hgone
    · rw [hsame, ← ignoreStamp_eq] at hstamp
      rw [after_append]
      exact Nat.lt_of_lt_of_le (ih hstamp) (writes_le_after _ [event])
    · rw [hnew] at hstamp
      cases time with
      | some seconds => cases hstamp
      | none =>
        cases hstamp
        rw [after_concat]
        exact Nat.lt_succ_self _
    · rw [hgone] at hstamp
      cases hstamp

/-- **Files that are written now get new times.** -/
theorem isTimely_of_now (hstart : ∀ file, start.below? ignorePath = some file →
      ∃ n, file.changed = .write n ∧ n < start.writes)
    (hnow : ∀ path bytes time, .write path bytes time ∈ events → time = none) :
    start.IsTimely events where
  initial file hfile := by
    obtain ⟨n, hn, -⟩ := hstart file hfile
    rw [hn]
    nofun
  written earlier path bytes time hwrite hpath := by
    have hmem : .write path bytes time ∈ events :=
      hwrite.subset (List.mem_append_right _ List.mem_cons_self)
    rw [hnow path bytes time hmem]
    refine ⟨nofun, ?_⟩
    rintro before ⟨rest, rfl⟩ hstamp
    have hbehind : ∀ n, start.ignoreStamp = .write n → n < start.writes := by
      intro n hn
      rw [ignoreStamp_eq] at hn
      cases hfile : start.below? ignorePath with
      | none =>
        rw [hfile] at hn
        cases hn
      | some file =>
        obtain ⟨m, hm, hlt⟩ := hstart file hfile
        rw [hfile, Option.map_some, Option.getD_some, hm] at hn
        cases hn
        exact hlt
    have hlt := lt_writes_after hbehind hstamp
    have hle := writes_le_after (start.after before) rest
    rw [← after_append] at hle
    omega

/-! ## 5. What a call gives -/

/-- **What a call gives after some events.** -/
structure Remembers (start : DirectoryStore) (events : List Event) : Prop where
  /-- The lines of the ignore file are those it has. Behind them are the lines that the private file had
  at the first of the calls in a row that found the ignore file as it is. -/
  lines : (start.after events).ignoreLines
    = (start.after events).linesOf ignorePath ++ (start.lastRead events).linesOf privatePath
  /-- They are what reading both files would give just if the private file has the same lines still. -/
  transparent : (start.after events).ignoreLines = (start.after events).currentIgnoreLines ↔
    (start.lastRead events).linesOf privatePath = (start.after events).linesOf privatePath
  /-- So it is once the ignore file has changed since the last call. -/
  refreshed : (∀ visit ∈ (start.visits events).getLast?,
      visit.ignoreStamp ≠ (start.after events).ignoreStamp) →
    (start.after events).ignoreLines = (start.after events).currentIgnoreLines
  /-- And so it is if nothing has happened to the private file. -/
  untouched : (∀ event ∈ events, event.key? ≠ some privatePath) →
    (start.after events).ignoreLines = (start.after events).currentIgnoreLines

/-- **The lines of the ignore file are up to date, those of the private file are as old as the time that
the ignore file was first found with.** -/
theorem remembers (hstart : start.remembered = none) (h : start.IsTimely events) :
    start.Remembers events := by
  have hlines : (start.after events).ignoreLines
      = (start.after events).linesOf ignorePath ++ (start.lastRead events).linesOf privatePath := by
    rw [ignoreLines_after hstart, currentIgnoreLines_eq, h.linesOf_lastRead]
  have htransparent : (start.after events).ignoreLines = (start.after events).currentIgnoreLines ↔
      (start.lastRead events).linesOf privatePath = (start.after events).linesOf privatePath := by
    rw [hlines, currentIgnoreLines_eq, List.append_cancel_left_eq]
  refine ⟨hlines, htransparent, fun hchanged => ?_, fun huntouched => ?_⟩
  · rw [ignoreLines_after hstart, lastRead]
    rcases List.eq_nil_or_concat (start.visits events) with hnil | ⟨visits, last, hlast⟩
    · rw [hnil]
      rfl
    · rw [List.concat_eq_append] at hlast
      rw [hlast, List.getLast?_concat] at hchanged
      rw [hlast, firstInRow_concat_of_ne (hchanged last rfl)]
  · exact htransparent.2 (linesOf_lastRead_of_untouched huntouched)

/-- A directory with nothing but a private ignore file, which names `a`. -/
def scratchpad : DirectoryStore :=
  { root := "/work", files := [(privatePath, ⟨[0x61, 0x0a], .write 0⟩)], writes := 1 }

/-- A call, the private file names `b` instead, a second call, and the ignore file names `c`. -/
def rewritten : List Event :=
  [.ask, .write privatePath [0x62, 0x0a] none, .ask, .write ignorePath [0x63, 0x0a] none]

theorem isTimely_scratchpad (h : events <+: rewritten) : scratchpad.IsTimely events := by
  refine isTimely_of_now (fun file hfile => ?_) fun path bytes time hmem => ?_
  · cases hfile
  · have hwrite := h.subset hmem
    simp only [rewritten, List.mem_cons, List.not_mem_nil, Event.write.injEq, reduceCtorEq, false_or,
      or_false] at hwrite
    rcases hwrite with ⟨-, -, h⟩ | ⟨-, -, h⟩ <;> exact h

/-- Once the ignore file is written, the change of the private file is seen too. -/
theorem remembers_rewritten :
    scratchpad.remembered = none ∧ scratchpad.IsTimely rewritten ∧ scratchpad.Remembers rewritten ∧
      (scratchpad.after rewritten).ignoreLines = ["c", "b"] := by
  have hstart : scratchpad.remembered = none := rfl
  have htimely := isTimely_scratchpad List.prefix_rfl
  exact ⟨hstart, htimely, remembers hstart htimely, by decide +kernel⟩

/-- **A change of the private file is not seen** as long as the ignore file stays as it is. -/
theorem keeps_privateLines :
    scratchpad.IsTimely (rewritten.take 2) ∧
      (scratchpad.after (rewritten.take 2)).ignoreLines = ["a"] ∧
      (scratchpad.after (rewritten.take 2)).currentIgnoreLines = ["b"] :=
  ⟨isTimely_scratchpad (List.take_prefix 2 rewritten), by decide +kernel, by decide +kernel⟩

end CodeAtlas.DirectoryStore
