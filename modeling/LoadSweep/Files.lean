import LoadSweep.Files.Path
import LoadSweep.Table.Record

/-! A tree of files and directories, seen from a working directory. A path is followed name by name from there, or
from the root of the tree if it begins with a slash; every name but the last must be one of a directory. -/
namespace LoadSweep

/-- What the files of a machine hold: the contents at a path, if there is a file. -/
abbrev Disk := String → Option Source

inductive Entry where
  | file (bytes : List UInt8)
  | directory
  deriving DecidableEq, Repr

/-- Files and directories by their names from the root on. Those on the way to the working directory are directories. -/
structure Files where
  /-- The place of the working directory. -/
  home : List String
  entries : List (List String × Entry)
  deriving DecidableEq, Repr

namespace Files

/-- An empty working directory, and nothing besides. -/
def empty : Files := ⟨["home"], []⟩

/-- The entry at a place. -/
def at? (fs : Files) (place : List String) : Option Entry :=
  if place.isPrefixOf fs.home then some .directory else (fs.entries.find? (·.1 == place)).map (·.2)

def put (fs : Files) (place : List String) (e : Entry) : Files :=
  { fs with entries := (place, e) :: fs.entries.filter (·.1 != place) }

def erase (fs : Files) (place : List String) : Files := { fs with entries := fs.entries.filter (·.1 != place) }

/-- The place from which a path is followed. -/
def start (fs : Files) (path : String) : List String := if Path.isRooted path then [] else fs.home

/-- Follows names from a place. An empty name and `.` stay, `..` goes up, and stays at the root. -/
def follow (fs : Files) (place : List String) : List String → Option (List String)
  | [] => (fs.at? place).map fun _ => place
  | name :: names =>
    match fs.at? place with
    | some .directory =>
      if !Path.isStep name then follow fs place names
      else if name = ".." then follow fs place.dropLast names
      else follow fs (place ++ [name]) names
    | _ => none

/-- The place that a path leads to. -/
def resolve (fs : Files) (path : String) : Option (List String) :=
  if path.isEmpty || !Path.isUsable path then none else fs.follow (fs.start path) (Path.names path)

def hasDirectory (fs : Files) (path : String) : Bool := (fs.resolve path).bind fs.at? == some .directory

/-- The files of the tree, by their paths. -/
def disk (fs : Files) : Disk := fun path =>
  match (fs.resolve path).bind fs.at? with
  | some (.file bytes) => some ⟨bytes, false⟩
  | _ => none

/-- A tree after directories were made in it, as far as that went. -/
structure Made where
  files : Files
  /-- Is there now a directory at the end of the way? -/
  arrived : Bool
  deriving DecidableEq, Repr

/-- Makes the directories on a way from a place, as far as they are missing. A file and a name that is too long
end the way; what was made before stays. -/
def makeDirectories (fs : Files) (place : List String) : List String → Made
  | [] => ⟨fs, true⟩
  | name :: names =>
    if name = ".." then makeDirectories fs place.dropLast names
    else
      let next := place ++ [name]
      match fs.at? next with
      | some .directory => makeDirectories fs next names
      | some (.file _) => ⟨fs, false⟩
      | none =>
        if Path.fitsInDirectory name then makeDirectories (fs.put next .directory) next names else ⟨fs, false⟩

/-- The tree with a directory at a path, and all those above it. By the name `.` no directory can be made, so one
that a path ends with must have its directory already. -/
def makeDirectory (fs : Files) (path : String) : Made :=
  if !Path.isUsable path then ⟨fs, false⟩
  else if Path.endsInDot path then
    let files := (fs.makeDirectories (fs.start path) (Path.steps path).dropLast).files
    ⟨files, files.hasDirectory path⟩
  else fs.makeDirectories (fs.start path) (Path.steps path)

/-- Writes a file into a directory that exists. An older file gives way, a directory does not. -/
def write (fs : Files) (path : String) (bytes : List UInt8) : Option Files := do
  let names := Path.names path
  let name ← names.getLast?
  if !Path.isUsable path || !Path.isFileName name then none
  let place := (← fs.follow (fs.start path) names.dropLast) ++ [name]
  if fs.at? place.dropLast != some .directory || fs.at? place = some .directory then none
  else some (fs.put place (.file bytes))

/-- The place of a path that is followed without looking. -/
def placeOf (fs : Files) (path : String) : List String :=
  (Path.steps path).foldl (fun place name => if name = ".." then place.dropLast else place ++ [name]) (fs.start path)

/-- The tree with an entry at a path, and directories above it. -/
def add (fs : Files) (path : String) (e : Entry) : Files :=
  let place := fs.placeOf path
  (fs.makeDirectories [] place.dropLast).files.put place e

def remove (fs : Files) (path : String) : Files := fs.erase (fs.placeOf path)

def ofList (entries : List (String × Entry)) : Files := entries.foldl (fun fs e => fs.add e.1 e.2) empty

/-- The entries directly below a directory, by their names. The directory is given from the working directory on. -/
def listing (fs : Files) (place : List String) : List (String × Entry) :=
  fs.entries.filterMap fun e =>
    match e.1.getLast? with
    | some name => if e.1.dropLast == fs.home ++ place then some (name, e.2) else none
    | none => none

end Files
end LoadSweep
