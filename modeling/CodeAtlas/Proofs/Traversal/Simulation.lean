import CodeAtlas.Proofs.Traversal.Clean
import CodeAtlas.Proofs.Traversal.Queue
import CodeAtlas.Proofs.Traversal.Reverse
import CodeAtlas.Traversal.Analyzer

/-!
# What the caches hold

An analyzer at work goes through the same events as `Session.analyze`, which keeps no caches and
takes what it needs from the graph of the project. An `Account` says how far that run has come, and
`Agrees` what the caches hold at that point: what has been asked for, with the values that the graph
gives. Every operation of the analyzer keeps the agreement, passes the events that belong to it, and
gives what the graph gives (`Simulates`), whether it finds its answer in a cache or not. An operation
that fails stops where the run of the session stops.
-/

namespace CodeAtlas.Traversal

namespace Analyzer

/-! ## 1. Accounts -/

/-- Something that is done in a traversal. -/
inductive Deed where
  /-- Something is asked for. -/
  | ask (event : Event)
  /-- A visit is taken out of the queue. -/
  | visit (visit : Visit)
  /-- The files that lead to files are asked for. -/
  | reverse

/-- How far a traversal has come. -/
structure Account where
  progress : Progress
  /-- The visits taken out of the queues. -/
  visited : List Visit := []
  /-- Whether the files that lead to files have been asked for. -/
  isMapped : Bool := false

section Setting

variable (session : Session) (project : Project)

/-- Some events pass. -/
def advance (p : Progress) (events : List Event) : Progress :=
  events.foldl (Progress.step project (Discovery.run project.view {})
    (Lookup.prepare project.view (Session.scope project) session.supplied)) p

/-- The account with one more deed. The edges of the scope are found once. -/
def Account.enter (a : Account) : Deed → Account
  | .ask event => { a with progress := advance session project a.progress [event] }
  | .visit visit => { a with visited := a.visited ++ [visit] }
  | .reverse =>
    if a.isMapped then a
    else
      { a with
        progress := advance session project a.progress (session.graph project).edgesTrace
        isMapped := true }

/-- The account with some more deeds. -/
def Account.enterAll (a : Account) (deeds : List Deed) : Account :=
  deeds.foldl (Account.enter session project) a

variable {session project}

theorem Account.enterAll_append (a : Account) (deeds more : List Deed) :
    a.enterAll session project (deeds ++ more)
      = (a.enterAll session project deeds).enterAll session project more :=
  List.foldl_append

theorem advance_append (p : Progress) (events more : List Event) :
    advance session project p (events ++ more)
      = advance session project (advance session project p events) more :=
  List.foldl_append

/-- One event after the other. -/
theorem advance_cons (p : Progress) (event : Event) (events : List Event) :
    advance session project p (event :: events)
      = advance session project (advance session project p [event]) events := rfl

/-- Asking for one thing lets its event pass. -/
theorem Account.enterAll_ask (a : Account) (event : Event) :
    a.enterAll session project [.ask event]
      = { a with progress := advance session project a.progress [event] } := rfl

/-- Asking for something lets the events pass. -/
theorem Account.enterAll_asks (a : Account) (events : List Event) :
    a.enterAll session project (events.map .ask)
      = { a with progress := advance session project a.progress events } := by
  induction events generalizing a with
  | nil => rfl
  | cons event events ih => exact ih (a.enter session project (.ask event))

/-- After a failure nothing happens. -/
theorem advance_of_failure {p : Progress} {e : Failure} (h : p.failure = some e)
    (events : List Event) : advance session project p events = p :=
  Progress.foldl_of_failure events h

theorem Account.progress_enterAll_of_failure (session : Session) (project : Project) {a : Account}
    {e : Failure} (h : a.progress.failure = some e) (deeds : List Deed) :
    (a.enterAll session project deeds).progress = a.progress := by
  induction deeds generalizing a with
  | nil => rfl
  | cons deed deeds ih =>
    have hstep : (a.enter session project deed).progress = a.progress := by
      cases deed with
      | ask event => exact advance_of_failure h [event]
      | visit => rfl
      | reverse =>
        simp only [enter]
        split
        · rfl
        · exact advance_of_failure h _
    exact (ih (hstep.symm ▸ h : (a.enter session project deed).progress.failure = some e)).trans hstep

/-! ## 2. Agreement -/

/-- Why a file cannot be loaded, if it cannot. -/
def failure? (project : Project) (path : String) : Option (String × String) :=
  match project.load path with
  | .ok _ => none
  | .error e => some (path, e.message)

/-- **What can be seen of the work** is what the run of a session shows. -/
structure Shows (project : Project) (w : Work) (p : Progress) : Prop where
  parsers : w.parsers = p.session.parsers
  supplied : w.supplied = p.session.supplied
  lines : w.lines = p.lines
  handed : w.handed = p.parsed
  parsed : w.caches.parsed = p.loadedPaths.map fun path => (path, (project.load path).toOption)

/-- **The caches agree with the graph.** -/
structure Agrees (session : Session) (project : Project) (w : Work) (a : Account) : Prop
    extends Shows project w a.progress where
  isStandard : w.parsers.IsStandard
  going : a.progress.failure = none
  failures : w.caches.failures = a.progress.loadedPaths.filterMap (failure? project)
  visited : ∀ v ∈ a.visited, v.path ∈ a.progress.loadedPaths
  unreachable : w.caches.unreachable
    = firstByKey (·.path) ((session.graph project).unreachableFiles a.visited)
  scope : w.caches.scope = if a.progress.isScoped then some (Session.scope project) else none
  indexes : w.caches.indexes
    = if a.progress.isIndexed then some (session.graph project).lookup.indexes else none
  isScoped : a.progress.isIndexed = true → a.progress.isScoped = true
  unprepared : a.progress.isIndexed = false → w.supplied = session.supplied
  nextHops : ∀ entry ∈ w.caches.nextHops, entry.1 ∈ a.progress.loadedPaths ∧
    ((session.graph project).stepTrace entry.1 ≠ [] → a.progress.isIndexed = true) ∧
    entry.2 = (session.graph project).next entry.1
  isMapped : a.isMapped = w.caches.reverse.isSome
  reverse : ∀ map ∈ w.caches.reverse,
    map = Traversal.reverse (session.graph project).next (Session.scope project)

/-! ## 3. Operations -/

/-- **An operation does what the account says.** It gives a value and keeps the agreement, or it
fails where the run of the session fails. -/
def Yields (session : Session) (project : Project) {α : Type} (result : EStateM.Result Failure Work α)
    (a : Account) (value : α) : Prop :=
  match result with
  | .ok x w => x = value ∧ Agrees session project w a
  | .error e w => Shows project w a.progress ∧ a.progress.failure = some e

/-- **A task simulates some deeds**, and gives a value. -/
def Simulates (session : Session) (project : Project) {α : Type} (task : Task α)
    (deeds : List Deed) (value : α) : Prop :=
  ∀ w a, Agrees session project w a →
    Yields session project (task w) (a.enterAll session project deeds) value

section Rules

variable {α β : Type} {task : Task α} {deeds more : List Deed} {x : α} {y : β}

/-- A task that looks at the work sees it as it is. -/
theorem get_bind (next : Work → Task α) (w : Work) :
    (do let w ← get; next w : Task α) w = next w w := rfl

/-- **Two parts of the work, one after the other.** Where the first one fails, the account of both
is as far as that of the first. -/
theorem Yields.bind {w : Work} {a b : Account} {next : α → Task β}
    (h : Yields session project (task w) a x)
    (hnext : ∀ w', Agrees session project w' a → Yields session project (next x w') b y)
    (hstop : ∀ e, a.progress.failure = some e → b.progress = a.progress) :
    Yields session project ((task >>= next) w) b y := by
  change Yields session project (EStateM.bind task next w) b y
  unfold EStateM.bind
  cases hresult : task w with
  | ok x' w' =>
    rw [hresult] at h
    obtain ⟨rfl, hagrees⟩ := h
    exact hnext w' hagrees
  | error e w' =>
    rw [hresult] at h
    obtain ⟨hshows, hfailure⟩ := h
    have hprogress := hstop e hfailure
    exact ⟨hprogress ▸ hshows, hprogress.symm ▸ hfailure⟩

/-- Some deeds, and then some more. -/
theorem Yields.bind_enterAll {w : Work} {a : Account} {next : α → Task β}
    (h : Yields session project (task w) a x) (more : List Deed)
    (hnext : ∀ w', Agrees session project w' a →
      Yields session project (next x w') (a.enterAll session project more) y) :
    Yields session project ((task >>= next) w) (a.enterAll session project more) y :=
  h.bind hnext fun _ hfailure => Account.progress_enterAll_of_failure session project hfailure more

theorem simulates_pure (x : α) : Simulates session project (pure x) [] x :=
  fun _ _ h => ⟨rfl, h⟩

theorem Simulates.bind {next : α → Task β} (h : Simulates session project task deeds x)
    (hnext : Simulates session project (next x) more y) :
    Simulates session project (task >>= next) (deeds ++ more) y := by
  intro w a hagrees
  rw [Account.enterAll_append]
  exact (h w a hagrees).bind_enterAll more fun w' hagrees' => hnext w' _ hagrees'

/-- What a task gives may be put in another form. -/
theorem Simulates.map (h : Simulates session project task deeds x) (f : α → β) :
    Simulates session project (task >>= fun x => pure (f x)) deeds (f x) := by
  have hboth : Simulates session project (task >>= fun x => pure (f x)) (deeds ++ []) (f x) :=
    h.bind (simulates_pure (f x))
  rwa [List.append_nil] at hboth

/-- Deeds that come to the same may be told in another way. -/
theorem Simulates.of_deeds (h : Simulates session project task deeds x)
    (hdeeds : ∀ w a, Agrees session project w a →
      a.enterAll session project more = a.enterAll session project deeds) :
    Simulates session project task more x := by
  intro w a hagrees
  rw [hdeeds w a hagrees]
  exact h w a hagrees

/-- A loop, item by item. -/
theorem simulates_foldlM {items : List β} {step : α → β → Task α} {deedsOf : β → List Deed}
    {value : α → β → α} (h : ∀ x, ∀ item ∈ items,
      Simulates session project (step x item) (deedsOf item) (value x item)) (x : α) :
    Simulates session project (items.foldlM step x) (items.flatMap deedsOf)
      (items.foldl value x) := by
  induction items generalizing x with
  | nil => exact simulates_pure x
  | cons item items ih =>
    rw [List.foldlM_cons, List.flatMap_cons, List.foldl_cons]
    exact (h x item List.mem_cons_self).bind
      (ih (fun x item hitem => h x item (List.mem_cons_of_mem _ hitem)) _)

end Rules

end Setting

end Analyzer

end CodeAtlas.Traversal
