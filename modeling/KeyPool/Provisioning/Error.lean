import KeyPool.Crash
import KeyPool.Store.Error

/-!
Why provisioning fails, or ends without an answer.
-/

namespace KeyPool

/-- What is wrong with the chains that a server returned. -/
inductive ResponseFault where
  | count (expected received : Nat)
  | chain (position : Nat) (error : ChainError)
  /-- A chain certifies a key other than the one at its position. -/
  | publicKey (position : Nat)
  | other (text : String)
  deriving DecidableEq

namespace ResponseFault

def message : ResponseFault → String
  | count expected received =>
    "expected " ++ toString expected ++ " certificate chains, got " ++ toString received
  | chain position e => "chain " ++ toString position ++ " does not validate: " ++ e.message
  | publicKey position => "chain " ++ toString position ++ " certifies a different public key"
  | other text => text

end ResponseFault

inductive ProvisioningError where
  | remoteComponent (text : String)
  /-- A component says that it can put no key into a request. -/
  | zeroBatchSize (component : String)
  | keyGeneration (text : String)
  | csrSigning (text : String)
  | network (text : String)
  | server (text : String)
  | malformedResponse (fault : ResponseFault)
  | noKeysAvailable (component : String)
  | unknownComponent (name : String)
  | store (error : StoreError)
  | config (text : String)
  deriving DecidableEq

namespace ProvisioningError

def kind : ProvisioningError → String
  | remoteComponent _ | zeroBatchSize _ => "remote_component"
  | keyGeneration _ => "key_generation"
  | csrSigning _ => "csr_signing"
  | network _ => "network"
  | server _ => "server"
  | malformedResponse _ => "malformed_response"
  | noKeysAvailable _ => "no_keys_available"
  | unknownComponent _ => "unknown_component"
  | store _ => "store"
  | config _ => "config"

/-- The error of a kind with a text of its own. -/
def ofKind? (kind text : String) : Option ProvisioningError :=
  [remoteComponent text, keyGeneration text, csrSigning text, network text, server text,
    malformedResponse (.other text), noKeysAvailable text, unknownComponent text,
    store (.corruptRecord text), config text].find? (·.kind = kind)

def message : ProvisioningError → String
  | remoteComponent text => "Remote component error: " ++ text
  | zeroBatchSize name => "Remote component error: " ++ name ++ " reported a batch size of 0"
  | keyGeneration text => "Key generation failed: " ++ text
  | csrSigning text => "CSR signing failed: " ++ text
  | network text => "Network error: " ++ text
  | server text => "Server error: " ++ text
  | malformedResponse fault => "Malformed response: " ++ fault.message
  | noKeysAvailable component => "No attestation keys available for " ++ component
  | unknownComponent name => "Unknown component: " ++ name
  | store e => "Store error: " ++ e.message
  | config text => "Config error: " ++ text

def isStore : ProvisioningError → Bool
  | store _ => true
  | _ => false

end ProvisioningError

/-- Why an activity ends without a result. -/
inductive Stop where
  | failed (error : ProvisioningError)
  | crashed (cause : Crash)
  deriving DecidableEq

namespace Stop

variable {α : Type}

/-- Takes a failure as a result that can be looked at; a crash cannot be. -/
def caught : Except Stop α → Except Stop (Except ProvisioningError α)
  | .ok a => .ok (.ok a)
  | .error (failed e) => .ok (.error e)
  | .error (crashed cause) => .error (crashed cause)

end Stop

end KeyPool
