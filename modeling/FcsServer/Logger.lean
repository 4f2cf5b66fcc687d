import FcsServer.Lib.Traced

/-!
# `Logger`: what reaches the console

A message is printed when its level is not below the current one.  The console is a computation
whose calls are the lines it prints, and whose stop is the exit code of the process.

* `log` — a line, or none; `log_fatal` — a fatal message is printed at every level;
* `setCurrentLogLevel` — the level a name stands for, if it stands for one.
-/

namespace FcsServer

inductive LogLevel where
  | debug
  | info
  | warning
  | error
  | fatal
  deriving DecidableEq, Repr

/-- The value of the enumerator. -/
def LogLevel.value : LogLevel → ℕ
  | debug => 0
  | info => 1
  | warning => 2
  | error => 3
  | fatal => 4

/-- What prints lines, and may end the process. -/
abbrev Console := Traced ℤ String

namespace Logger

def getLogLevelString (level : LogLevel) : String :=
  let levelString := match level with
    | .debug => "DBG"
    | .info => "INF"
    | .warning => "WRN"
    | .error => "ERR"
    | .fatal => "FTL"
  "[" ++ levelString ++ "] "

def log (currentLogLevel : LogLevel) (message : String) (level : LogLevel) : Console Unit :=
  if currentLogLevel.value ≤ level.value then
    Traced.call (getLogLevelString level ++ message)
  else
    return ()

def logLevelMap : List (String × LogLevel) :=
  [("Debug", .debug), ("Info", .info), ("Warning", .warning), ("Error", .error),
    ("Fatal", .fatal)]

/-- `none` is a name that is not in the map: the current level stays. -/
def setCurrentLogLevel (level : String) : Option LogLevel := logLevelMap.lookup level

/-- Nothing is above `Fatal`. -/
theorem log_fatal (currentLogLevel : LogLevel) (message : String) :
    log currentLogLevel message .fatal = Traced.call (getLogLevelString .fatal ++ message) := by
  refine if_pos ?_
  cases currentLogLevel <;> decide

/-- Logging never ends the process. -/
theorem log_result (currentLogLevel : LogLevel) (message : String) (level : LogLevel) :
    (log currentLogLevel message level).result = .ok () := by
  rw [log]
  split
  · rfl
  · rfl

end Logger

end FcsServer
