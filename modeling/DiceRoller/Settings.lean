/-
# Settings

The settings are a map of maps, fixed with the program. A value is looked up
by following keys: into a map by a text, into a text by a place, counted from
the end if negative. Any other simple datum is a missing key of a map; a list
or a map is no key at all. A default that is given stands in where a key is
missing or where there are no settings at all, but not where a key does not
fit.

Key definitions: `Settings.Problem`, `Settings.standard`, `Settings.step`,
`Settings.follow`, `Settings.lookup`, `Settings.separator`.
-/
import DiceRoller.Datum

namespace DiceRoller
namespace Settings

/-- Why a value is not found. -/
inductive Problem where
  /-- There are no settings: the file of that name is missing. -/
  | noFile (name : String)
  /-- A map has no such key; the key as it stands in messages. -/
  | noKey (key : String)
  /-- A datum of this kind is no key of a map. -/
  | noKeyKind (kind : String)
  /-- A text is looked into by a datum of this kind. -/
  | notAPlace (kind : String)
  /-- A text has no such place. -/
  | outside
  /-- A place is too far away to be counted. -/
  | tooFar
  deriving DecidableEq, Repr

/-- The text of the fault. -/
def Problem.message : Problem → String
  | noFile name => "[Errno 2] No such file or directory: " ++ Quoted.text name
  | noKey key => key
  | noKeyKind kind => "unhashable type: '" ++ kind ++ "'"
  | notAPlace kind => "string indices must be integers, not '" ++ kind ++ "'"
  | outside => "string index out of range"
  | tooFar => "cannot fit 'int' into an index-sized integer"

/-- Whether a default stands in for the value. -/
def Problem.isMissing : Problem → Bool
  | noFile _ | noKey _ => true
  | _ => false

/-- The settings of the program. -/
def standard : Datum :=
  .map [("paths", .map [("log_conf", .text "data/log.yml")]),
    ("output", .map [("separator", .text " ")])]

/-- Places are counted in 64 bits with a sign: from minus this number up to it,
exclusive. -/
def placeLimit : Int := 9223372036854775808

/-- The character of a text at a place, as a text. -/
def characterAt (s : String) (place : Int) : Except Problem Datum :=
  if place < -placeLimit ∨ placeLimit ≤ place then .error .tooFar
  else
    let cs := s.toList
    let i := if place < 0 then place + cs.length else place
    if i < 0 then .error .outside
    else match cs[i.toNat]? with
      | some c => .ok (.text c.toString)
      | none => .error .outside

/-- Follows one key. -/
def step (value key : Datum) : Except Problem Datum :=
  match value, key with
  | .map entries, .text k =>
    match entries.lookup k with
    | some d => .ok d
    | none => .error (.noKey (Quoted.text k))
  | .map _, .list items => .error (.noKeyKind (Datum.list items).kindName)
  | .map _, .map entries => .error (.noKeyKind (Datum.map entries).kindName)
  | .map _, key => .error (.noKey key.shown)
  | .text s, .number n => characterAt s n
  | .text s, .truth b => characterAt s (if b then 1 else 0)
  | _, key => .error (.notAPlace key.kindName)

/-- Follows keys from a value. -/
def follow (value : Datum) : List Datum → Except Problem Datum
  | [] => .ok value
  | key :: keys => do
    let next ← step value key
    follow next keys

/-- The default instead of a missing value, unless it is nothing. -/
def orDefault (default : Datum) : Except Problem Datum → Except Problem Datum
  | .ok d => .ok d
  | .error p =>
    match default with
    | .nothing => .error p
    | d => if p.isMissing then .ok d else .error p

/-- The value found by following the keys through the settings, which may be
missing. -/
def lookup (settings : Except Problem Datum) (keys : List Datum) (default : Datum) :
    Except Problem Datum :=
  orDefault default (do
    let value ← settings
    follow value keys)

/-- What the parts of a result are separated by. -/
def separator : String :=
  match lookup (.ok standard) [.text "output", .text "separator"] (.text " ") with
  | .ok (.text s) => s
  | _ => " "

end Settings
end DiceRoller
