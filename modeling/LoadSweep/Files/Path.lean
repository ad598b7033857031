/-! Paths are texts: names with slashes between them. -/
namespace LoadSweep.Path

def isRooted (path : String) : Bool := path.toList.head? == some '/'

/-- A path below a directory. A path from the root replaces the directory, and one slash stands between them. -/
def join (directory path : String) : String :=
  if isRooted path || directory.isEmpty then path
  else if directory.toList.getLast? == some '/' then directory ++ path
  else directory ++ "/" ++ path

/-- The names between the slashes of a path; empty ones stand for doubled, leading and trailing slashes. -/
def names (path : String) : List String := (path.toList.splitOnP (· == '/')).map String.ofList

/-- Does a name lead away from a directory? An empty name and `.` do not. -/
def isStep (name : String) : Bool := name != "" && name != "."

/-- The names of a path that lead from one directory to another. -/
def steps (path : String) : List String := (names path).filter isStep

/-- Is `.` the last name of a path, slashes after it aside? -/
def endsInDot (path : String) : Bool := ((names path).filter (· != "")).getLast? == some "."

/-- Can a path be followed at all? It has 4095 bytes at most, and none of them is zero. -/
def isUsable (path : String) : Bool := path.utf8ByteSize < 4096 && !path.toList.contains '\x00'

/-- Is a name short enough for an entry of a directory? It has 255 bytes at most. -/
def fitsInDirectory (name : String) : Bool := name.utf8ByteSize < 256

def isFileName (name : String) : Bool := isStep name && name != ".." && fitsInDirectory name

end LoadSweep.Path
