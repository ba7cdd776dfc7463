/-!
Paths as texts. A path is a list of parts with slashes between them; a part that is empty or a single
point says nothing, and two points lead back.
-/

namespace KeyPool.DiskPath

def parts (path : String) : List String := path.splitOn "/"

def ofParts (parts : List String) : String := String.intercalate "/" parts

def maxNameLength : Nat := 255

def isIdle (part : String) : Bool := part = "" || part = "."

/-- The names along a path, points that lead back among them. -/
def names (path : String) : List String := (parts path).filter (!isIdle ·)

/-- The parts up to the last name. -/
def trimEnd (parts : List String) : List String := (parts.reverse.dropWhile isIdle).reverse

/-- A path from its first name to its last. -/
def trim (path : String) : String := ofParts (trimEnd ((parts path).dropWhile isIdle))

def isAbsolute (path : String) : Bool := path.toList.head? = some '/'

/-- A path as it is meant in a directory. -/
def resolve (directory path : String) : String :=
  if isAbsolute path then path else directory ++ "/" ++ path

/-- The last name, unless it leads back. -/
def fileName? (path : String) : Option String :=
  (names path).getLast?.filter (· ≠ "..")

/-- A path with a text added to its last name, unless that leads back. -/
def extend? (path text : String) : Option String :=
  (fileName? path).map fun _ => ofParts (trimEnd (parts path)) ++ text

/-- What follows the last point of a name that does not start with it. -/
def extension (name : String) : String :=
  let reversed := name.toList.reverse
  let extension := reversed.takeWhile (· ≠ '.')
  if extension.length + 1 < reversed.length then String.ofList extension.reverse else ""

end KeyPool.DiskPath
