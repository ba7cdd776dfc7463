import KeyPool.Store.Database
import KeyPool.Store.Path

/-!
A tree of directories and files, and what can be done at a path in it. Every part of a path but the last
must lead to a directory.
-/

namespace KeyPool

inductive DiskNode where
  | directory
  /-- A file that is no store, but may become one while it has no more than one octet. -/
  | file (content : Bytes)
  /-- A store; changes to it may go through a log, which then stays in use. -/
  | database (db : Database) (logged : Bool)
  deriving DecidableEq

/-- A place in the tree: the names that lead there from the top. -/
abbrev Place := List String

/-- What stands at the places below the top. -/
structure Disk where
  nodes : List (Place × DiskNode)

namespace Disk

def empty : Disk := ⟨[]⟩

/-- What stands at a place; at the top there is a directory. -/
def node? (disk : Disk) (place : Place) : Option DiskNode :=
  if place = [] then some .directory else disk.nodes.lookup place

def isDirectory (disk : Disk) (place : Place) : Bool := disk.node? place = some .directory

def set (disk : Disk) (place : Place) (node : DiskNode) : Disk :=
  ⟨(place, node) :: disk.nodes.filter (·.1 ≠ place)⟩

/-! ## Paths -/

/-- The place that a part leads to from a directory. -/
def enter (place : Place) (part : String) : Place :=
  if DiskPath.isIdle part then place
  else if part = ".." then place.dropLast
  else place ++ [part]

/-- A place that must be a directory. -/
def checkDirectory (disk : Disk) (place : Place) : Except FileFault Unit :=
  match disk.node? place with
  | some .directory => .ok ()
  | some _ => .error .notADirectory
  | none => .error .missing

/-- Follows the parts of a path, each from a directory. -/
def walk (disk : Disk) (place : Place) : List String → Except FileFault Place
  | [] => .ok place
  | part :: rest => do
    disk.checkDirectory place
    if DiskPath.maxNameLength < part.utf8ByteSize then throw .nameTooLong
    else walk disk (enter place part) rest

/-- The place of a path and what stands there, if it leads to anything. -/
def find? (disk : Disk) (path : String) : Option (Place × DiskNode) := do
  let place ← (disk.walk [] (DiskPath.parts path)).toOption
  return (place, ← disk.node? place)

/-! ## Directories -/

/-- Makes one directory, along names of which the last is given first. -/
def makeDirectory (disk : Disk) (name : String) (above : List String) : Except FileFault Disk := do
  let place ← disk.walk [] (name :: above).reverse
  if name = ".." ∨ (disk.node? place).isSome then throw .fileExists
  else return disk.set place .directory

/-- Whether some names lead to a directory. -/
def leadsToDirectory (disk : Disk) (names : List String) : Bool :=
  match disk.walk [] names with
  | .ok place => disk.isDirectory place
  | .error _ => false

/-- Makes the directory that names lead to, the last given first, after those above it where they are
missing. What was made stays, also if more cannot be made. -/
def makeDirectories (disk : Disk) : List String → Except FileFault Unit × Disk
  | [] => (.ok (), disk)
  | name :: above =>
    match disk.makeDirectory name above with
    | .ok disk => (.ok (), disk)
    | .error .missing =>
      match makeDirectories disk above with
      | (.error fault, disk) => (.error fault, disk)
      | (.ok (), disk) =>
        match disk.makeDirectory name above with
        | .ok disk => (.ok (), disk)
        | .error fault =>
          if disk.leadsToDirectory (name :: above).reverse then (.ok (), disk) else (.error fault, disk)
    | .error fault =>
      if disk.leadsToDirectory (name :: above).reverse then (.ok (), disk) else (.error fault, disk)

/-- Makes the directory that a path stands in. -/
def makeParent (disk : Disk) (path : String) : Except FileFault Unit × Disk :=
  let above := (DiskPath.names path).dropLast
  if above.any (·.contains '\x00') then (.error .nulInName, disk)
  else disk.makeDirectories above.reverse

/-! ## Files -/

/-- Puts a file at a path, making the directories above it. -/
def write (disk : Disk) (path : String) (content : Bytes) : Except FileFault Disk := do
  let (made, disk) := disk.makeParent path
  made
  let place ← disk.walk [] (DiskPath.parts path)
  if disk.isDirectory place then throw .isADirectory
  else if path.contains '\x00' then throw .nulInName
  else return disk.set place (.file content)

end Disk

end KeyPool
