import KeyPool.Console.Report
import KeyPool.Settings.Basic
import KeyPool.Store.Opening

/-!
A run of the program from its arguments: settings are read if they are there, the store is opened, and
the command does its work.
-/

namespace KeyPool.Console

/-- What a run printed, how it ended, and the files after it. -/
structure Outcome where
  lines : List Line
  ending : Ending
  disk : Disk

namespace Outcome

def output (o : Outcome) (colours : Bool) : String := String.join (o.lines.map (Line.render colours))

def failure? (o : Outcome) : Option Failure :=
  match o.ending with
  | .failed failure => some failure
  | _ => none

end Outcome

def version : String := "rkpd 0.1.0"

/-- How a run ends that does not get its settings. -/
def Ending.ofStop : Stop → Ending
  | .failed e => .failed (.settings e)
  | .crashed cause => .crashed cause

/-- The settings at a path in a directory, unless nothing is there. -/
def settingsAt (disk : Disk) (directory path : String) : Except Stop (Option Settings) :=
  let resolved := DiskPath.resolve directory path
  if path = "" ∨ (disk.find? resolved).isNone then .ok none
  else (Settings.load disk resolved).map some

/-- The path of the store that an invocation names, or else its settings. -/
def storePath (invocation : Invocation) (settings : Option Settings) : Except Ending String :=
  match invocation.database, settings with
  | some path, _ => .ok path
  | none, some settings => .ok settings.databasePath
  | none, none => .error (.failed (.noStore invocation.config))

/-- Runs a command on the store it is for. -/
def Invocation.run (invocation : Invocation) (now : Timestamp) (directory : String) (disk : Disk) :
    Outcome :=
  let place : Except Ending (Option Settings × String) := do
    let settings ← (settingsAt disk directory invocation.config).mapError .ofStop
    return (settings, ← storePath invocation settings)
  match place with
  | .error ending => ⟨[], ending, disk⟩
  | .ok (settings, path) =>
    match disk.openStore directory path with
    | (.error e, disk) => ⟨[], .failed (.store e), disk⟩
    | (.ok found, disk) =>
      let report := invocation.command.report
        ⟨found.store, found.readOnly, path, (settings.map (·.policy)).getD .default, now⟩
      ⟨report.lines, report.ending, disk.save found.place report.store⟩

/-- Runs the program at a time, in a directory, with some arguments. -/
def run (now : Timestamp) (directory : String) (disk : Disk) (arguments : List String) : Outcome :=
  match Request.ofArguments? arguments with
  | none => ⟨[], .misused, disk⟩
  | some .version => ⟨[Line.plain version], .success, disk⟩
  | some (.run invocation) => invocation.run now directory disk

end KeyPool.Console
