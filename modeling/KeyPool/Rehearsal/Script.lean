import KeyPool.Provisioning.Service

/-!
Partners that follow a script: every answer stands in a queue, and calls take them in order.
-/

namespace KeyPool

structure ComponentScript where
  name : String
  batchSize : Except ProvisioningError Nat
  /-- One answer for each key that is asked for. -/
  keys : List (Except ProvisioningError FreshKey)
  /-- Failures to sign, where there are any; past the end every request is signed. -/
  requests : List (Option ProvisioningError)

structure ServerScript where
  geeks : List (Except ProvisioningError Geek)
  responses : List (Except ProvisioningError (List Bytes))

/-- What is left of the scripts. -/
structure Stage where
  componentScripts : List ComponentScript
  serverScript : ServerScript

namespace Stage

def empty : Stage := ⟨[], ⟨[], []⟩⟩

/-- Adds a script, in the place of an earlier one of the same name. -/
def addComponent (stage : Stage) (script : ComponentScript) : Stage :=
  { stage with componentScripts := script :: stage.componentScripts.filter (·.name ≠ script.name) }

def script (stage : Stage) (name : String) : ComponentScript :=
  (stage.componentScripts.find? (·.name = name)).getD ⟨name, .ok 0, [], []⟩

/-- Takes the first answer of a queue, or a failure if there is none. -/
def next {α : Type} (exhausted : ProvisioningError) :
    List (Except ProvisioningError α) → Except ProvisioningError α × List (Except ProvisioningError α)
  | [] => (.error exhausted, [])
  | a :: rest => (a, rest)

/-- A component that plays its script. A request is the challenge followed by the public keys. -/
def component (name : String) : Component Stage where
  name := name
  batchSize := fun stage => ((stage.script name).batchSize.mapError .failed, stage)
  newKey := fun stage =>
    let script := stage.script name
    let (key, keys) := next (.keyGeneration "no scripted key") script.keys
    (key.mapError .failed, stage.addComponent { script with keys })
  signRequest geek keys := fun stage =>
    let script := stage.script name
    let stage := stage.addComponent { script with requests := script.requests.tail }
    match script.requests.head? with
    | some (some e) => (.error (.failed e), stage)
    | _ => (.ok (geek.challenge ++ keys.flatMap (·.publicKey)), stage)

/-- The service that plays its script. -/
def server : Server Stage where
  greet := fun stage =>
    let (geek, geeks) := next (.network "no scripted geek") stage.serverScript.geeks
    (geek.mapError .failed, { stage with serverScript := { stage.serverScript with geeks } })
  certify _ _ := fun stage =>
    let (response, responses) := next (.network "no scripted response") stage.serverScript.responses
    (response.mapError .failed, { stage with serverScript := { stage.serverScript with responses } })

end Stage

end KeyPool
