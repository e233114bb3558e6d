import ConsoleUart.MiniUart.Basic
import ConsoleUart.Signals

/-!
# Modem control

Callers set DTR and RTS and read back all signals. The other bits of the modem control register are
left as they are.
-/

namespace ConsoleUart

/-- The signals that the status and control registers show. -/
def Signals.ofRegisters (flowControl : Bool) (msr mcr lsr : Byte) : Word :=
  signal clearToSend (Bits.has msr ModemStatus.cts) |||
  signal dataSetReady (Bits.has msr ModemStatus.dsr) |||
  signal ringIndicate (Bits.has msr ModemStatus.ri) |||
  signal carrierDetect (Bits.has msr ModemStatus.dcd) |||
  signal dataTerminalReady (Bits.has mcr ModemControl.dtr) |||
  signal requestToSend (Bits.has mcr ModemControl.rts) |||
  signal hardwareFlowControl flowControl |||
  signal outputBufferEmpty (Bits.has lsr LineStatus.transmitterEmpty) |||
  signal inputBufferEmpty (!Bits.has lsr LineStatus.receiveReady)
where
  signal (mask : Word) (on : Bool) : Word := if on then mask else 0

namespace MiniUart

variable {σ : Type} [AddressSpace σ] (u : MiniUart)

/-- The modem control with DTR and RTS as the signals ask. -/
def controlled (mcr : Byte) (signals : Word) : Byte :=
  Bits.assign
    (Bits.assign mcr ModemControl.dtr (Bits.has signals Signals.dataTerminalReady))
    ModemControl.rts (Bits.has signals Signals.requestToSend)

def setControl (signals : Word) : Bus σ (Except Fault Unit) := do
  if Signals.onlySettable signals then
    let mcr ← u.registers.read .modemControl
    u.registers.write .modemControl (controlled mcr signals)
    return .ok ()
  else
    return .error .unsupported

def getControl : Bus σ Word := do
  let msr ← u.registers.read .modemStatus
  let mcr ← u.registers.read .modemControl
  let lsr ← u.registers.read .lineStatus
  return Signals.ofRegisters u.config.flow.enabled msr mcr lsr

end MiniUart

end ConsoleUart
