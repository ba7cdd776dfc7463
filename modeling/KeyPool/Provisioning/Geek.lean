import KeyPool.Store.Key

/-!
The first answer of the provisioning service: what a request must echo and be encrypted for, and what
the service has to say about the device.
-/

namespace KeyPool

structure Geek where
  /-- Binds a request to this exchange. -/
  challenge : Bytes
  /-- Key exchange material, opaque to all but the component. -/
  chain : Bytes
  badWindow : Option BadWindow
  /-- Keys to keep on hand; none at all turns provisioning off. -/
  extraKeys : Option Nat
  timeToRefresh : Option Span
  deriving DecidableEq

namespace Geek

def isDisabled (geek : Geek) : Bool := geek.extraKeys = some 0

end Geek

end KeyPool
