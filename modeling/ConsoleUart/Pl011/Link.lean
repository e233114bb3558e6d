import ConsoleUart.Pl011.Backend
import ConsoleUart.Platform.Config

/-!
# The PL011 as a transport

Every operation is one call on the back-end, with the device's base address, except that opening the
device needs the back-end's clock first. Both configuring and setting attributes open it. Opening
takes no timeout, so a request reaches the back-end without one.
-/

namespace ConsoleUart

structure Pl011 where
  base : Nat
  defaults : Pl011Defaults
deriving DecidableEq, Repr

namespace Pl011

variable (p : Pl011)

/-- The configured settings as a request, which leaves the FIFO depth and the timeout to the device. -/
def defaultRequest : Line.Request where
  baudRate := some p.defaults.baudRate
  parity := some p.defaults.parity
  dataBits := some p.defaults.dataBits
  stopBits := some p.defaults.stopBits

def setAttributes (request : Line.Request) : Link (Except Fault Line.Attributes) := do
  let clockHz ← Backend.clockFrequency
  Backend.openDevice p.base clockHz { request with timeoutMicros := none }

def configure : Link (Except Fault Unit) := do
  return (← p.setAttributes p.defaultRequest).map fun _ => ()

def perform : (op : Operation) → Link op.Answer
  | .configure => p.configure
  | .write bytes => Backend.write p.base bytes
  | .read count => Backend.read p.base count
  | .poll => Backend.poll p.base
  | .setControl signals => Backend.setControl p.base signals
  | .getControl => Backend.getControl p.base
  | .setAttributes request => p.setAttributes request

end Pl011

end ConsoleUart
