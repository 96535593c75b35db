import CodeAtlas.Log.Basic

/-!
# The logger

One logger, which is set up when it is first asked for. In debugging mode its threshold and those
of its handlers lie at debugging lines, otherwise at informative ones. The program may forget the
logger; the logger itself lasts, and keeps its threshold and handlers until it is asked for again.
From the first line on somebody listens to it, through one more handler with a threshold of its
own: at first it takes all lines, and then it follows the switches of the mode like the others.
-/

namespace CodeAtlas.Log

/-- Something that writes lines out, with its own threshold. -/
structure Handler where
  name : String
  level : Level
  deriving DecidableEq, Repr, Inhabited

/-- The logger and what the program knows of it. -/
structure Logger where
  /-- Whether debugging mode is on. -/
  isDebug : Bool
  /-- Whether the program holds on to the logger. -/
  isHeld : Bool := false
  level : Level := .info
  handlers : List Handler := []
  /-- The threshold of the listener, once there is one. -/
  listener : Option Level := none
  deriving DecidableEq, Repr, Inhabited

namespace Logger

/-- The name that the logger goes by. -/
def name : String := "relgraph"

/-- The threshold of a mode. -/
def thresholdOf (isDebug : Bool) : Level :=
  if isDebug then .debug else .info

/-- The handlers of a new logger: one writes to the terminal, one keeps lines for a file. -/
def freshHandlers (level : Level) : List Handler :=
  [⟨"StreamHandler", level⟩, ⟨"MemoryHandler", level⟩]

/-- The logger, held. It takes the threshold of the mode when it is not held yet, and new handlers
when it has none. -/
def acquire (logger : Logger) : Logger :=
  if logger.isHeld then logger
  else
    let level := thresholdOf logger.isDebug
    { logger with
      isHeld := true
      level
      handlers := if logger.handlers.isEmpty then freshHandlers level else logger.handlers }

/-- Switches debugging mode. The thresholds follow if the logger is held. -/
def setDebug (logger : Logger) (isDebug : Bool) : Logger :=
  if logger.isHeld then
    let level := thresholdOf isDebug
    { logger with
      isDebug, level
      handlers := logger.handlers.map fun handler => { handler with level }
      listener := logger.listener.map fun _ => level }
  else { logger with isDebug }

/-- Lets go of the logger. -/
def forget (logger : Logger) : Logger :=
  { logger with isHeld := false }

/-- The logger, held and with a listener. -/
def listen (logger : Logger) : Logger :=
  let logger := logger.acquire
  { logger with listener := some (logger.listener.getD .debug) }

/-- Whether a line gets from the program to the listener. Outside debugging mode debugging lines do
not reach the logger. -/
def emits (logger : Logger) (line : Line) : Bool :=
  (logger.isDebug || line.level != .debug) && line.level.passes logger.level &&
    logger.listener.any line.level.passes

/-- Logs a line: the logger afterwards, and what the listener hears. -/
def log (logger : Logger) (line : Line) : Logger × List Line :=
  let logger := logger.listen
  (logger, if logger.emits line then [line] else [])

end Logger

end CodeAtlas.Log
