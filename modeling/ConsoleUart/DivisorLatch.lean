import ConsoleUart.Bus

/-!
# The divisor latch

The latch shares its two places with other registers and shows only while the latch bit is set.
-/

namespace ConsoleUart.RegisterBlock

variable {σ : Type} [AddressSpace σ] (b : RegisterBlock)

/-- Reads the latch. The latch bit is set for the reads and clear afterwards, whatever it was before. -/
def readDivisor : Bus σ Nat := do
  let lcr ← b.read .lineControl
  b.write .lineControl (lcr ||| latchBit)
  let high ← b.read .divisorHigh
  let low ← b.read .divisorLow
  let lcr ← b.read .lineControl
  b.write .lineControl (Bits.clear lcr latchBit)
  return 256 * high.toNat + low.toNat

/-- Loads the latch with the low 16 bits of a divisor and leaves it open: the next line-control write
closes it. -/
def loadDivisor (divisor : Nat) : Bus σ Unit := do
  b.write .lineControl latchBit
  b.write .divisorHigh (BitVec.ofNat 8 (divisor / 256))
  b.write .divisorLow (BitVec.ofNat 8 divisor)

end ConsoleUart.RegisterBlock
