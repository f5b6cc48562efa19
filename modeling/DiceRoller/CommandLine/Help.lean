/-
# The help text

Key definitions: `Help.usage`, `Help.text`.
-/

namespace DiceRoller
namespace CommandLine
namespace Help

/-- The lines, each with a line end. -/
def ofLines (lines : List String) : String := String.join (lines.map (· ++ "\n"))

/-- How the command is used, in short. -/
def usage : String := ofLines
  ["usage: dicexpr [-h] [--seed SEED] [--dl DL] [--dh DH] [--rrlte RRLTE]",
   "               [--explode V[,CAP]] [--adv M,TIMES] [--dis M,TIMES]",
   "               spec"]

/-- What the command does, with examples. -/
def description : String := ofLines
  ["Roll a dice expression and show how every term was rolled.",
   "",
   "Expression examples:",
   "    \"2d6+1d20+3\"",
   "    \"4d6dl1\"                Roll 4d6 and drop the lowest.",
   "    \"d%+10\"                 Percentile die, same as 1d100.",
   "",
   "Examples:",
   "    dicexpr \"2d6+1d20+3\" --seed=123",
   "    dicexpr \"4d6dl1\" --dl=1",
   "    dicexpr \"3d6\" --rrlte=1 --explode=max,2",
   "    dicexpr \"d20+5\" --adv=20,2",
   "    dicexpr -- \"-d4+2\"      Use -- when the expression starts with a sign."]

/-- What each argument means. -/
def arguments : String := ofLines
  ["positional arguments:",
   "  spec               The dice expression to roll.",
   "",
   "options:",
   "  -h, --help         show this help message and exit",
   "  --seed SEED        Set custom RNG seed.",
   "  --dl DL            Drop lowest n of every dice term.",
   "  --dh DH            Drop highest n of every dice term.",
   "  --rrlte RRLTE      Reroll values <= x once per die.",
   "  --explode V[,CAP]  Explode on \"max\" or v with optional cap per die.",
   "  --adv M,TIMES      Advantage on single die terms with sides m, roll 'times'",
   "                     and keep best.",
   "  --dis M,TIMES      Disadvantage, keeps worst."]

/-- The whole help text. -/
def text : String := usage ++ "\n" ++ description ++ "\n" ++ arguments

end Help
end CommandLine
end DiceRoller
