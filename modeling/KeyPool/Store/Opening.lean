import KeyPool.Store.Address
import KeyPool.Store.Disk
import KeyPool.Store.Operation

/-!
The opening of a store at a path. A store that is not there is made, with the directories above it; its
address may forbid that, or any change.
-/

namespace KeyPool

/-- A store, and the place of its file if it has one. -/
structure OpenStore where
  store : Store
  place : Option Place
  readOnly : Bool

namespace OpenStore

def inMemory : OpenStore := ⟨.empty, none, false⟩

end OpenStore

namespace Disk

/-- Whether names lead somewhere, or would if more directories were there. -/
def isReachable (disk : Disk) (names : List String) : Bool :=
  match disk.walk [] names with
  | .ok _ | .error .missing => true
  | .error _ => false

/-- The most octets in the path of a file. -/
def maxPathLength : Nat := 512

/-- What the name of a file is followed by in the name of its journal. -/
def journalEnding : String := "-journal"

/-- Whether the path of a journal beside a place is not too long. -/
def hasJournalPath (place : Place) : Bool :=
  ("/" ++ DiskPath.ofParts place ++ journalEnding).utf8ByteSize ≤ maxPathLength

/-- Whether the name of a journal beside a place is not too long. -/
def hasJournalName (place : Place) : Bool :=
  (place.getLastD "" ++ journalEnding).utf8ByteSize ≤ DiskPath.maxNameLength

/-- The place that names spell by themselves, each of which must be reachable from the top. -/
def spell? (disk : Disk) (place : Place) : List String → Option Place
  | [] => if hasJournalPath place then some place else none
  | name :: rest =>
    if name = ".." ∨ disk.isReachable (place ++ [name]) then disk.spell? (enter place name) rest
    else none

/-- Makes an empty store of an empty file, if it may be changed and a journal can be kept. -/
def createStore (disk : Disk) (place : Place) (address : StoreAddress) :
    Except StoreError OpenStore × Disk :=
  if address.isReadOnly then (.error .readOnly, disk)
  else if hasJournalName place then
    (.ok ⟨.empty, some place, false⟩, disk.set place (.database .empty address.allowsLog))
  else (.error .journalUnreachable, disk)

/-- Opens the store in a file. One with a log needs an address that allows it, or nothing to be changed;
one without gets a log where the address allows it, which is a change. -/
def openDatabase (disk : Disk) (path : String) (place : Place) (address : StoreAddress) (db : Database)
    (logged : Bool) : Except StoreError OpenStore × Disk :=
  if logged && !address.allowsLog && !address.immutable then (.error (.cannotOpen path), disk)
  else if !logged && address.allowsLog && address.isReadOnly then (.error .readOnly, disk)
  else
    (.ok ⟨⟨db, false⟩, some place, address.isReadOnly⟩,
      disk.set place (.database db (logged || address.allowsLog)))

def openPlace (disk : Disk) (path : String) (place : Place) (address : StoreAddress) :
    Except StoreError OpenStore × Disk :=
  match disk.node? place with
  | some .directory => (.error (.cannotOpen path), disk)
  | some (.database db logged) => disk.openDatabase path place address db logged
  | some (.file content) =>
    if 1 < content.length then (.error .notADatabase, disk) else disk.createStore place address
  | none =>
    if address.access = .creating ∧ disk.isDirectory place.dropLast then
      (disk.set place (.file [])).createStore place address
    else (.error (.cannotOpen path), disk)

/-- Opens the store with an address in a directory. -/
def openAddress (disk : Disk) (directory path : String) (address : StoreAddress) :
    Except StoreError OpenStore × Disk :=
  if address.isTransient then
    (if address.access = .reading then .error .readOnly else .ok .inMemory, disk)
  else
    match disk.spell? [] (DiskPath.names (DiskPath.resolve directory address.path)) with
    | none => (.error (.cannotOpen path), disk)
    | some place => disk.openPlace path place address

/-- Opens the store that a text names in a directory. -/
def openStore (disk : Disk) (directory path : String) : Except StoreError OpenStore × Disk :=
  match disk.makeParent (DiskPath.resolve directory path) with
  | (.error fault, disk) => (.error (.file fault), disk)
  | (.ok (), disk) =>
    let beforeNul := path.toList.takeWhile (· ≠ '\x00')
    if beforeNul.length < path.length then
      (.error (.nulInPath (String.ofList beforeNul).utf8ByteSize), disk)
    else
      match StoreAddress.ofText? path with
      | none => (.error (.cannotOpen path), disk)
      | some address => disk.openAddress directory path address

/-- Whether the store at a place has a log. -/
def isLogged (disk : Disk) (place : Place) : Bool :=
  match disk.node? place with
  | some (.database _ logged) => logged
  | _ => true

/-- Keeps the tables of a store at its place. -/
def save (disk : Disk) (place : Option Place) (s : Store) : Disk :=
  match place with
  | some place => disk.set place (.database s.db (disk.isLogged place))
  | none => disk

end Disk

end KeyPool
