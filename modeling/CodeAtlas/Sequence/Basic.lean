/-!
# Sequence diagrams

A diagram has participants and the interactions between them. Every call that could be resolved
gives two interactions: the call, and its return.
-/

namespace CodeAtlas

/-- What a participant is. -/
inductive ParticipantKind where
  | cls
  | function
  | module
  deriving DecidableEq, Repr, Inhabited

/-- The kind in one word. -/
def ParticipantKind.name : ParticipantKind → String
  | cls => "class"
  | function => "function"
  | module => "module"

/-- A lifeline of a diagram. -/
structure Participant where
  name : String
  kind : ParticipantKind
  /-- The line of its declaration, if the file declares it. -/
  line : Option Int
  /-- The file that it appears in. -/
  path : String
  deriving DecidableEq, Repr, Inhabited

/-- How control passes. -/
inductive InteractionKind where
  | sync
  | async
  | return
  deriving DecidableEq, Repr, Inhabited

/-- The kind in one word. -/
def InteractionKind.name : InteractionKind → String
  | .sync => "sync"
  | .async => "async"
  | .return => "return"

/-- A message from one participant to another. -/
structure Interaction where
  source : String
  target : String
  message : String
  kind : InteractionKind
  /-- The line of the call. -/
  line : Nat
  /-- The file that the call stands in. -/
  path : String
  deriving DecidableEq, Repr, Inhabited

/-- The sequence diagram of one file. -/
structure SequenceReport where
  participants : List Participant
  interactions : List Interaction
  /-- The public methods of classes, or the functions of a file without classes. -/
  entryPoints : List String
  deriving Repr, Inhabited

/-- A call, and its return in the other direction. -/
def Interaction.callAndReturn (source target message : String) (isAsync : Bool) (line : Nat)
    (path : String) : List Interaction :=
  [{ source, target, message, kind := if isAsync then .async else .sync, line, path },
   { source := target, target := source, message := "return", kind := .return, line, path }]

end CodeAtlas
