import ConsoleUart.Register

/-!
# The flow-control gate

Decides from the modem status whether the next byte may be sent. With cable detection both the peer's
presence (DSR) and its consent (CTS) are needed; without it only a peer that is present and withholds
its consent holds a byte back.
-/

namespace ConsoleUart

structure FlowControl where
  enabled : Bool
  detectCable : Bool
deriving DecidableEq, Repr

namespace FlowControl

def isDisabled (f : FlowControl) : Bool := !f.enabled

/-- A byte may be sent while the modem status is `msr`. -/
def writable (f : FlowControl) (msr : Byte) : Bool :=
  let lines := msr &&& (ModemStatus.dsr ||| ModemStatus.cts)
  if f.isDisabled then true
  else if f.detectCable then lines == ModemStatus.dsr ||| ModemStatus.cts
  else lines != ModemStatus.dsr

end FlowControl

end ConsoleUart
