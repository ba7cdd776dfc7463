import KeyPool.Console.Run
import KeyPool.Store.Snapshot
import Std.Time.DateTime.Timestamp

/-!
The program: it looks at the files that a command needs, runs the command on them, prints, and writes
back what has changed.
-/

namespace KeyPool.Console

/-- The path of a place from the top. -/
def absolute (place : Place) : String := "/" ++ DiskPath.ofParts place

/-- Puts what stands at a place outside onto the disk. -/
def look (disk : Disk) (place : Place) : IO Disk := do
  try
    let content ← IO.FS.readBinFile (absolute place)
    return disk.set place (.ofContent content.toList)
  catch
    | .noFileOrDirectory .. => return disk
    | _ => return disk.set place .directory

/-- Puts what stands along a path onto the disk, as far as there are directories. -/
def survey (disk : Disk) (path : String) : IO Disk := do
  let step := fun (disk, place) part => do
    let next := Disk.enter place part
    if disk.isDirectory place ∧ (disk.node? next).isNone ∧ !part.contains '\x00' then
      return (← look disk next, next)
    else return (disk, next)
  return (← (DiskPath.parts path).foldlM step (disk, [])).1

/-- The paths at which settings may stand. -/
def settingsPaths (path : String) : List String :=
  path :: Settings.FileFormat.all.filterMap fun format =>
    DiskPath.extend? path ("." ++ format.extension)

/-- The path of the store that an invocation is for, if it has one. -/
def storePathAt? (disk : Disk) (directory : String) (invocation : Invocation) : Option String := do
  let settings ← (settingsAt disk directory invocation.config).toOption
  (storePath invocation settings).toOption

/-- The files that a run may use. -/
def gather (directory : String) (arguments : List String) : IO Disk := do
  match Request.ofArguments? arguments with
  | some (.run invocation) =>
    let config := DiskPath.resolve directory invocation.config
    let disk ← (settingsPaths config).foldlM survey .empty
    match storePathAt? disk directory invocation with
    | none => return disk
    | some path =>
      let address := (StoreAddress.ofText? path).toList.map (·.path)
      (path :: address).foldlM (fun disk path => survey disk (DiskPath.resolve directory path)) disk
  | _ => return .empty

/-- Makes a place outside what it is on the disk. -/
def put (place : Place) : DiskNode → IO Unit
  | .directory => IO.FS.createDirAll (absolute place)
  | .file content => IO.FS.writeBinFile (absolute place) ⟨content.toArray⟩
  | .database db logged => IO.FS.writeBinFile (absolute place) ⟨(DiskNode.contentOf db logged).toArray⟩

/-- Puts what a run has changed outside, what was made first before the rest. -/
def writeBack (before after : Disk) : IO Unit :=
  after.nodes.reverse.forM fun (place, node) =>
    if before.node? place = some node then return () else put place node

end KeyPool.Console

open KeyPool Console in
def main (arguments : List String) : IO UInt32 := do
  let directory := toString (← IO.currentDir)
  let nanos := (← Std.Time.Timestamp.now).toNanosecondsSinceUnixEpoch.val
  let disk ← gather directory arguments
  let outcome := run ((KeyPool.Timestamp.ofNanos? nanos).getD .epoch) directory disk arguments
  let stdout ← IO.getStdout
  stdout.putStr (outcome.output (← stdout.isTty))
  if let some failure := outcome.failure? then
    IO.eprintln ("Error: " ++ failure.describe)
  writeBack disk outcome.disk
  return UInt32.ofNat outcome.ending.code
