import ConsoleUart.Baud
import ConsoleUart.Bus

/-!
# The clock behind the baud generator

The UART clock follows the VPU clock word, which may change while the system runs, so the word is read
each time a divisor is needed.
-/

namespace ConsoleUart

structure ClockSource where
  address : Nat
  baseClock : Nat
deriving DecidableEq, Repr

namespace ClockSource

variable {σ : Type} [AddressSpace σ] (c : ClockSource)

def frequency : Bus σ Nat := do
  return Baud.uartClock c.baseClock (← Bus.readWord c.address)

def divisor (baud : Nat) : Bus σ Nat := do
  return Baud.divisor (← c.frequency) baud

end ClockSource

end ConsoleUart
