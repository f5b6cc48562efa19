/-
# Folders

A folder holds files and folders, each in the order of their names. A walk
visits a folder before the folders in it and lists its files.

Key definitions: `Folder`, `Folder.enter`, `Folder.ofNames`, `Folder.walk`,
`Folder.find`, `Folder.glob`.
-/
import DiceRoller.Text.Path
import DiceRoller.Text.Wildcard

namespace DiceRoller

/-- The names of the files of a folder and the folders in it, by name. -/
inductive Folder where
  | mk (files : List String) (folders : List (String × Folder))
  deriving Repr

namespace Folder

/-- The folder with nothing in it. -/
def empty : Folder := mk [] []

/-- The names with one more, in order. -/
def insertName (name : String) : List String → List String
  | [] => [name]
  | n :: ns =>
    if name < n then name :: n :: ns
    else if name = n then n :: ns
    else n :: insertName name ns

/-- The folders with the one of the name replaced or added, in order. -/
def setFolder (name : String) (folder : Folder) :
    List (String × Folder) → List (String × Folder)
  | [] => [(name, folder)]
  | (n, f) :: rest =>
    if name < n then (name, folder) :: (n, f) :: rest
    else if name = n then (n, folder) :: rest
    else (n, f) :: setFolder name folder rest

/-- The folder with the folders of a path in it and, in the last of them, a
file. -/
def add (file : Option String) : List String → Folder → Folder
  | [], mk files folders => mk (file.elim files (insertName · files)) folders
  | d :: ds, mk files folders =>
    mk files (setFolder d (add file ds ((folders.lookup d).getD empty)) folders)

/-- The names between the slashes of a path; a dot stays where it is. -/
def names (path : String) : List String :=
  (path.splitOn "/").filter fun n => n != "" && n != "."

/-- The folder with every folder that a walk along the names enters, and the
place where the walk ends: two dots lead one place back. There is none if the
walk leaves the folder. -/
def enter (folder : Folder) (place : List String) : List String → Folder × Option (List String)
  | [] => (folder, some place)
  | ".." :: rest =>
    match place with
    | [] => (folder, none)
    | _ :: _ => enter folder place.dropLast rest
  | name :: rest => enter (folder.add none (place ++ [name])) (place ++ [name]) rest

/-- The folder with the file or folder of the path added; the path of a folder
ends in a slash. A path that leads out of the folder adds nothing there. -/
def addPath (folder : Folder) (path : String) : Folder :=
  if path.toList.head? = some '/' then folder
  else if path.toList.getLast? = some '/' then (folder.enter [] (names path)).1
  else
    let (entered, place) := folder.enter [] (names path).dropLast
    match place, (names path).getLast? with
    | some place, some file => entered.add (some file) place
    | _, _ => entered

/-- The folder that holds the files and folders of the paths. -/
def ofNames (paths : List String) : Folder := paths.foldl addPath empty

mutual

/-- The path of each folder with its files, the given one first. -/
def walk (path : String) : Folder → List (String × List String)
  | mk files folders => (path, files) :: walkAll path folders

/-- The walks through several folders, one after the other. -/
def walkAll (path : String) : List (String × Folder) → List (String × List String)
  | [] => []
  | (name, folder) :: rest => walk (Path.add path name) folder ++ walkAll path rest

end

/-- The paths of all files below the folder whose names fit the pattern. -/
def find (path : String) (pattern : String) (folder : Folder) : List String :=
  (folder.walk path).flatMap fun p => (p.2.filter (Wildcard.matches? pattern)).map (Path.add p.1)

/-- The names in the folder itself, in order. -/
def entries : Folder → List String
  | mk files folders => (folders.map Prod.fst).foldl (fun ns n => insertName n ns) files

/-- The names in the folder itself that fit the pattern and do not begin with
a dot. -/
def glob (pattern : String) (folder : Folder) : List String :=
  folder.entries.filter fun n => n.toList.head? != some '.' && Wildcard.matches? pattern n

end Folder
end DiceRoller
