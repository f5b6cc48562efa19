/-
# Entries of the log

While it works the program leaves entries in a log: each has a level, the
channel it comes from, and a message.

Key definitions: `Level`, `Channel`, `LogEntry`.
-/

namespace DiceRoller

/-- How serious an entry is. -/
inductive Level where
  | debug
  | info
  | warning
  | error
  | critical
  deriving DecidableEq, Repr

namespace Level

/-- The name of the level in the log. -/
def name : Level → String
  | debug => "DEBUG"
  | info => "INFO"
  | warning => "WARNING"
  | error => "ERROR"
  | critical => "CRITICAL"

/-- The level at which a notice that asks for the named one is logged. A
notice of an exception is an error. -/
def ofNotice : String → Level
  | "debug" => debug
  | "warning" => warning
  | "error" => error
  | "exception" => error
  | "critical" => critical
  | _ => info

end Level

/-- The part of the program that an entry comes from. -/
inductive Channel where
  | rolling
  | arguments
  | command
  deriving DecidableEq, Repr

/-- The name of the channel in the log. -/
def Channel.name : Channel → String
  | rolling => "dicexpr.roll"
  | arguments => "dicexpr.parse"
  | command => "dicexpr.cli"

/-- An entry of the log. -/
structure LogEntry where
  level : Level
  channel : Channel
  message : String
  deriving DecidableEq, Repr

end DiceRoller
