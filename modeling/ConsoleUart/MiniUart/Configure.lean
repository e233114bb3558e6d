import ConsoleUart.MiniUart.Basic

/-!
# Configuring the mini UART

Brings the device into its configured state. A device that already runs with the configured line
settings and divisor is left alone, so that a console in use is not disturbed.
-/

namespace ConsoleUart.MiniUart

variable {σ : Type} [AddressSpace σ] (u : MiniUart)

/-- The line control and the divisor are those configured. Both are always read. -/
def isConfigured (divisor : Nat) : Bus σ Bool := do
  let lcr ← u.registers.read .lineControl
  let current ← u.registers.readDivisor
  return lcr &&& Line.writableMask == u.config.lineControlBits && current == divisor

/-- Programs every register, once the transmitter is empty. The FIFOs are reset by switching them off
first; interrupts stay off. -/
def program (divisor : Nat) : Bus σ Unit := do
  Session.await u.transmitterEmpty
  u.registers.loadDivisor divisor
  u.registers.write .lineControl u.config.lineControlBits
  u.registers.write .fifoControl 0
  u.registers.write .fifoControl u.config.fifoControlBits
  u.registers.write .interruptEnable 0
  u.registers.write .modemControl 0

def configure : Bus σ Unit := do
  let divisor ← u.clock.divisor u.config.baudRate
  if ← u.isConfigured divisor then
    Bus.note (.alreadyConfigured divisor)
  else
    if Baud.maxLatch < divisor then
      Bus.note (.divisorTooLarge divisor)
    Bus.note (.programming u.config.baudRate divisor u.config.lineControlBits u.config.fifoControlBits)
    u.program divisor

end ConsoleUart.MiniUart
