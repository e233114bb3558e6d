/-!
# Bytes, words and masks

Device registers are bit vectors. A mask picks bits of a register; the functions here test a register
against a mask and set or clear the picked bits, leaving every other bit, named or not, as it is.
-/

namespace ConsoleUart

abbrev Byte := BitVec 8
abbrev Word := BitVec 32

namespace Bits

variable {w : Nat}

/-- Every bit of the mask is set. -/
def has (bits mask : BitVec w) : Bool := bits &&& mask == mask

/-- Some bit of the mask is set. -/
def meets (bits mask : BitVec w) : Bool := bits &&& mask != 0

def clear (bits mask : BitVec w) : BitVec w := bits &&& ~~~mask

/-- Sets the bits of the mask when `on` holds and clears them otherwise. -/
def assign (bits mask : BitVec w) (on : Bool) : BitVec w :=
  if on then bits ||| mask else clear bits mask

@[simp] theorem getLsbD_clear (bits mask : BitVec w) (i : Nat) :
    (clear bits mask).getLsbD i = (bits.getLsbD i && !mask.getLsbD i) := by
  by_cases hi : i < w
  · simp [clear, hi]
  · simp [clear, hi, BitVec.getLsbD_of_ge bits i (Nat.le_of_not_lt hi)]

theorem getLsbD_assign (bits mask : BitVec w) (on : Bool) (i : Nat) :
    (assign bits mask on).getLsbD i = if mask.getLsbD i then on else bits.getLsbD i := by
  cases on <;> cases h : mask.getLsbD i <;> simp [assign, h]

/-! ### Hexadecimal text -/

/-- Lower-case hexadecimal digits, as few as the value needs. -/
def hex (bits : BitVec w) : String := String.ofList (Nat.toDigits 16 bits.toNat)

/-- A byte as `0x` and exactly two digits. -/
def hexByte (b : Byte) : String := (if b.toNat < 16 then "0x0" else "0x") ++ hex b

end Bits

end ConsoleUart
