/-
# The package

What the package of the program says of itself, and the tasks that go with it.

Key definitions: `TaskName`, `Package`, `Package.standard`.
-/
import DiceRoller.Upkeep.Requirement

namespace DiceRoller

/-- The tasks of the package. -/
inductive TaskName where
  | clean
  | coverage
  | deps
  | test
  deriving DecidableEq, Repr

namespace TaskName

/-- All tasks. -/
def all : List TaskName := [clean, coverage, deps, test]

/-- The word by which a task is called. -/
def word : TaskName → String
  | clean => "clean"
  | coverage => "coverage"
  | deps => "deps"
  | test => "test"

/-- The title of a task. -/
def title : TaskName → String
  | clean => "Clean"
  | coverage => "Coverage"
  | deps => "InstallDeps"
  | test => "Test"

/-- What a task says of itself. -/
def description? : TaskName → Option String
  | deps => some "Install the depencies for the project."
  | _ => none

/-- An option of a task: its name, its short name and its meaning. -/
structure TaskOption where
  name : String
  short? : Option String
  meaning : String
  deriving DecidableEq, Repr

/-- The options of a task. -/
def options : TaskName → List TaskOption
  | deps => [⟨"force=", none, "Bypass prompt."⟩]
  | _ => []

/-- The task called by the word. -/
def ofWord? (word : String) : Option TaskName := all.find? (·.word == word)

end TaskName

/-- What a package says of itself. -/
structure Package where
  name : String
  version : String
  description : String
  url : String
  author : String
  email : String
  license : String
  platforms : List String
  classifiers : List String
  keywords : String
  packages : List String
  runNeeds : List String
  testNeeds : List String
  scripts : List String
  deriving DecidableEq, Repr

/-- The package of the program. -/
def Package.standard : Package where
  name := "diceExpr"
  version := Requirement.version
  description := "Evaluate tabletop dice expressions with drops, rerolls and explosions"
  url := "https://github.com/starcraftman/diceBot"
  author := "Jeremy Pallats / starcraft.man"
  email := "N/A"
  license := "BSD"
  platforms := ["any"]
  classifiers :=
    ["Development Status :: 2 - Pre-Alpha",
     "Environment :: Console",
     "Intended Audience :: Developers",
     "Intended Audience :: End Users/Desktop",
     "License :: OSI Approved :: BSD License",
     "Operating System :: POSIX :: Linux",
     "Programming Language :: Python",
     "Programming Language :: Python :: 3"]
  keywords := "dice tabletop rpg"
  packages := ["dicexpr"]
  runNeeds := ["numpy", "pyyaml"]
  testNeeds := ["coverage", "flake8", "mock", "pylint", "pytest", "pytest-cov", "tox"]
  scripts := ["dicexpr = dicexpr.cli:main"]

end DiceRoller
