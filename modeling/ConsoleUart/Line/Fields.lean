import ConsoleUart.Bits
import ConsoleUart.Line.Settings

/-!
# The fields of the line-control byte

Bits 0 and 1 hold the number of data bits less five, bit 2 the stop bits, bits 3 to 5 the parity.
One and a half and two stop bits share a code and are told apart by the number of data bits. Of the
eight parity codes, those without the lowest bit all mean that there is no parity.
-/

namespace ConsoleUart.Line

/-- The bits of the line-control register that are ever programmed. -/
def writableMask : Byte := 0x3F

theorem and_writableMask_and (v : Byte) : v &&& writableMask &&& writableMask = v &&& writableMask := by
  rw [BitVec.and_assoc, BitVec.and_self]

/-! ### Codes of the single settings -/

def encodeDataBits (n : Nat) : Except Fault Byte :=
  if 5 ≤ n ∧ n ≤ 8 then .ok (BitVec.ofNat 8 (n - 5)) else .error (.invalidParameter "data bits")

def Parity.encode : Parity → Byte
  | none => 0
  | odd => 1
  | even => 3
  | mark => 5
  | space => 7

def Parity.decode (c : Byte) : Parity :=
  match (c &&& 7).toNat with
  | 1 => odd
  | 3 => even
  | 5 => mark
  | 7 => space
  | _ => none

def StopBits.encode : StopBits → Byte
  | one => 0
  | oneAndHalf => 1
  | two => 1

def StopBits.decode (c : Byte) (dataBits : Nat) : StopBits :=
  if c &&& 1 = 0 then one else if dataBits = 5 then oneAndHalf else two

theorem Parity.decode_encode (p : Parity) : decode p.encode = p := by
  cases p <;> decide

/-! ### The packed byte -/

structure Fields where
  data : Byte
  stop : Byte
  parity : Byte
deriving DecidableEq, Repr

namespace Fields

def ofRegister (lcr : Byte) : Fields where
  data := lcr &&& 3
  stop := lcr >>> 2 &&& 1
  parity := lcr >>> 3 &&& 7

/-- The byte with these fields and every other bit clear. Field bits beyond a field's place are not
masked: they fall into the next field, or away at the top. -/
def pack (f : Fields) : Byte := (f.parity <<< 3 ||| f.stop <<< 2 ||| f.data) &&& writableMask

def dataBits (f : Fields) : Nat := (f.data &&& 3).toNat + 5

theorem pack_ofRegister (lcr : Byte) : (ofRegister lcr).pack = lcr &&& writableMask := by
  simp only [ofRegister, pack, writableMask]
  revert lcr
  decide

/-- Each field keeps to its place. -/
structure InRange (f : Fields) : Prop where
  data : f.data.toNat < 4
  stop : f.stop.toNat < 2
  parity : f.parity.toNat < 8

theorem inRange_ofRegister (lcr : Byte) : (ofRegister lcr).InRange := by
  have h : (lcr &&& 3).toNat < 4 ∧ (lcr >>> 2 &&& 1).toNat < 2 ∧ (lcr >>> 3 &&& 7).toNat < 8 := by
    revert lcr
    decide
  exact ⟨h.1, h.2.1, h.2.2⟩

theorem ofRegister_pack {f : Fields} (h : f.InRange) : ofRegister f.pack = f := by
  have small : ∀ d < 4, ∀ s < 2, ∀ p < 8, ofRegister (pack ⟨BitVec.ofNat 8 d, BitVec.ofNat 8 s,
      BitVec.ofNat 8 p⟩) = ⟨BitVec.ofNat 8 d, BitVec.ofNat 8 s, BitVec.ofNat 8 p⟩ := by decide
  have packed := small _ h.data _ h.stop _ h.parity
  simp only [BitVec.ofNat_toNat, BitVec.setWidth_eq] at packed
  exact packed

end Fields

end ConsoleUart.Line
