import KeyPool.Provisioning.Cycle
import KeyPool.Rehearsal.Fault
import KeyPool.Rehearsal.Script
import KeyPool.Store.Opening

/-!
A rehearsal of the whole program: one store, in memory or in a file, a policy, and partners in a world
of their own, all kept from step to step.
-/

namespace KeyPool

structure Session (σ : Type) where
  disk : Disk
  /-- The path at which the store was opened, if it is in a file. -/
  path : Option String
  place : Option Place
  store : Store
  policy : Policy
  outside : σ
  registry : Registry σ
  server : Server σ

/-- The answer to a step, the session after it, and the reports it made. -/
structure Reply (σ α : Type) where
  result : α
  session : Session σ
  events : List Event

namespace Session

variable {σ α : Type}

def inMemory (policy : Policy) (outside : σ) (server : Server σ) : Session σ :=
  ⟨.empty, none, none, .empty, policy, outside, .empty, server⟩

/-- Keeps a store, and with it the file it is in. -/
def keep (s : Session σ) (store : Store) : Session σ :=
  { s with store, disk := s.disk.save s.place store }

/-- Opens the store at a path from the top. If that fails, the session stays with the store it has. -/
def openAt (s : Session σ) (path : String) : Reply σ (Except StoreError Unit) :=
  match s.disk.openStore "" path with
  | (.error e, disk) => ⟨.error e, { s with disk }, []⟩
  | (.ok found, disk) =>
    ⟨.ok (), { s with disk, store := found.store, path := some path, place := found.place },
      [.store .opened]⟩

/-- A fresh handle on the same file; a store in memory starts empty. -/
def reopen (s : Session σ) : Reply σ (Except StoreError Unit) :=
  match s.path with
  | none => ⟨.ok (), { s with store := .empty }, []⟩
  | some path => s.openAt path

def writeFile (s : Session σ) (path : String) (content : Bytes) : Except FileFault (Session σ) :=
  (s.disk.write path content).map fun disk => { s with disk }

def onStore (s : Session σ) (operation : Store → Reported α) :
    Reply σ (Except ProvisioningError α) :=
  let r := operation s.store
  ⟨r.result, s.keep r.store, r.events⟩

/-- Provisions a component by name. The attempt is shown if the name is known and nothing crashes. -/
def provision (s : Session σ) (now : Timestamp) (name : String) (cause : AttemptCause) (geek : Geek) :
    Reply σ (Except Stop Nat × Option Attempt) :=
  match s.registry.get name with
  | .error e => ⟨(.error (.failed e), none), s, []⟩
  | .ok component =>
    let (result, p) := Provision.run s.policy now component s.server geek
      ⟨s.store, s.outside, .ofComponent cause name, []⟩
    let s := { s.keep p.store with outside := p.outside }
    match Stop.caught result with
    | .error stop => ⟨(.error stop, none), s, p.events⟩
    | .ok _ => ⟨(result, some p.attempt), s, p.events ++ [.attemptFinished p.attempt]⟩

def runCycle (s : Session σ) (now : Timestamp) (cause : AttemptCause) :
    Reply σ (Except Stop CycleReport) :=
  let (result, c) := Cycle.run s.registry s.server (fun _ => now) cause
    ⟨s.store, s.outside, s.policy, []⟩
  ⟨result, { s.keep c.store with outside := c.outside, policy := c.policy }, c.events⟩

def call (s : Session σ) (c : Call σ α) : Except Stop α × Session σ :=
  let (result, outside) := c s.outside
  (result, { s with outside })

/-- Reads all keys, perhaps deletes them, and inserts them again. The answer is their number. -/
def reinsert (deleteFirst : Bool) (s : Store) : Reported Nat :=
  let read := s.keys.report
  match read.result with
  | .error e => { read with result := .error e }
  | .ok keys =>
    let deleted : Reported Nat := if deleteFirst then s.clear.report else ⟨.ok 0, s, []⟩
    match deleted.result with
    | .error e => { deleted with result := .error e }
    | .ok _ =>
      let inserted := (deleted.store.insert keys).report
      ⟨inserted.result.map fun _ => keys.length, inserted.store, deleted.events ++ inserted.events⟩

end Session

/-! ## Sessions with scripted partners -/

/-- Scripts, and the calls made since they were last looked at. -/
abbrev ScriptedSession := Session (Stage × List CallRecord)

namespace ScriptedSession

/-- The service has no script yet, and calls on it are not noted. -/
def inMemory (policy : Policy) : ScriptedSession :=
  Session.inMemory policy (.empty, []) Stage.server.unrecorded

def addComponent (s : ScriptedSession) (script : ComponentScript) : ScriptedSession :=
  { s with
    outside := (s.outside.1.addComponent script, s.outside.2)
    registry := s.registry.register (Stage.component script.name).recorded }

def setServer (s : ScriptedSession) (script : ServerScript) : ScriptedSession :=
  { s with
    outside := ({ s.outside.1 with serverScript := script }, s.outside.2)
    server := Stage.server.recorded }

def calls (s : ScriptedSession) : List CallRecord := s.outside.2

def forgetCalls (s : ScriptedSession) : ScriptedSession := { s with outside := (s.outside.1, []) }

end ScriptedSession

end KeyPool
