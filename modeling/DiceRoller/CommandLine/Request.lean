/-
# Requests to the reader of arguments

Besides reading arguments, the reader answers some requests: it gives its help
and its usage as texts, and it ends the program with help or with a message,
by a notice that a caller can catch. A request takes a fixed number of values.

Key definitions: `Halt.notice`, `Request`, `Request.answer`.
-/
import DiceRoller.CommandLine.Arguments
import DiceRoller.CommandLine.Help
import DiceRoller.Fault.Notice

namespace DiceRoller
namespace CommandLine

/-- The notice by which the reading of arguments ends early. -/
def Halt.notice : Halt → Notice
  | .help => ⟨.argumentHelp, Help.text, some (.text Notice.usualLevel), []⟩
  | .refused r => ⟨.argumentParse, r.message, some (.text Notice.usualLevel), []⟩

/-- What the reader of arguments may be asked for. -/
inductive Request where
  /-- To end with help. -/
  | printHelp
  /-- The help text. -/
  | formatHelp
  /-- The usage. -/
  | formatUsage
  /-- To end with a message. -/
  | error
  /-- To end with a status and a message. -/
  | exit
  deriving DecidableEq, Repr

namespace Request

/-- The name of the request. -/
def name : Request → String
  | printHelp => "print_help"
  | formatHelp => "format_help"
  | formatUsage => "format_usage"
  | error => "error"
  | exit => "exit"

/-- All requests. -/
def all : List Request := [printHelp, formatHelp, formatUsage, error, exit]

/-- The request of the given name. -/
def ofName? (name : String) : Option Request := all.find? (·.name == name)

/-- What the request takes. -/
def signature : Request → Signature
  | printHelp => ⟨"ThrowArggumentParser.print_help", [], 1⟩
  | formatHelp => ⟨"ArgumentParser.format_help", [], 0⟩
  | formatUsage => ⟨"ArgumentParser.format_usage", [], 0⟩
  | error => ⟨"ThrowArggumentParser.error", ["message"], 0⟩
  | exit => ⟨"ThrowArggumentParser.exit", [], 2⟩

/-- An answer to a request. -/
inductive Answer where
  | text (s : String)
  | ended (n : Notice)
  deriving Repr

/-- The answer to a request with some values: the message to end with is the
first of them, or the second one after a status. -/
def answer (r : Request) (args : List Datum) : Except Fault Answer := do
  r.signature.check args.length
  match r with
  | printHelp => return .ended Halt.help.notice
  | formatHelp => return .text Help.text
  | formatUsage => return .text Help.usage
  | error => return .ended (← Notice.make .argumentParse args)
  | exit => return .ended (← Notice.make .argumentParse (args.drop 1))

end Request
end CommandLine
end DiceRoller
