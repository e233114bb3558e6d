import ConsoleUart.ClockSource
import ConsoleUart.DivisorLatch
import ConsoleUart.Platform.Config
import ConsoleUart.Platform.Layout

/-!
# The mini UART

A 16550-compatible UART driven by polling alone. Every wait is for one of the three conditions below,
without a deadline.
-/

namespace ConsoleUart

structure MiniUart where
  registers : RegisterBlock
  clock : ClockSource
  config : Config
deriving DecidableEq, Repr

namespace MiniUart

variable {σ : Type} [AddressSpace σ]

def ofLayout (layout : Layout) (config : Config) : MiniUart where
  registers := { base := layout.miniUartBase, stride := config.registerStride }
  clock := { address := layout.clockDivisor, baseClock := config.clockRate }
  config := config

variable (u : MiniUart)

def transmitterEmpty : Bus σ Bool := do
  return Bits.has (← u.registers.read .lineStatus) LineStatus.transmitterEmpty

def receiverReady : Bus σ Bool := do
  return Bits.has (← u.registers.read .lineStatus) LineStatus.receiveReady

/-- The peer allows a byte to be sent. The modem status is not read when flow control is off. -/
def flowWritable : Bus σ Bool := do
  if u.config.flow.isDisabled then
    return true
  else
    return u.config.flow.writable (← u.registers.read .modemStatus)

variable {u}

theorem flowWritable_of_off (off : u.config.flow.enabled = false) : (u.flowWritable : Bus σ Bool) = pure true := by
  simp [flowWritable, FlowControl.isDisabled, off]

theorem flowWritable_of_on (on : u.config.flow.enabled = true) : (u.flowWritable : Bus σ Bool) =
    (do return u.config.flow.writable (← u.registers.read .modemStatus)) := by
  simp [flowWritable, FlowControl.isDisabled, on]

end MiniUart

end ConsoleUart
