import ConsoleUart.Bits

/-!
# Named bits

A `FlagTable` lists the named masks of a register in the order in which they are declared. A value may
hold bits that no flag names; they are kept by every operation except those that say otherwise.
-/

namespace ConsoleUart

structure FlagTable (w : Nat) where
  title : String
  flags : List (String × BitVec w)

namespace FlagTable

variable {w : Nat} (t : FlagTable w)

def known : BitVec w := t.flags.foldl (fun bits flag => bits ||| flag.2) 0

def truncate (bits : BitVec w) : BitVec w := bits &&& t.known

/-- The value itself, unless it holds an unnamed bit. -/
def ofBits? (bits : BitVec w) : Option (BitVec w) :=
  if t.truncate bits = bits then some bits else none

/-- The named bits that the value lacks. -/
def complement (bits : BitVec w) : BitVec w := t.truncate (~~~bits)

/-- Every named bit is set; others may be. -/
def isFull (bits : BitVec w) : Bool := Bits.has bits t.known

/-- Splits a value into the flags that name it and the bits left over. A flag names the value if the
value has all its bits and one of them is not yet covered by an earlier flag. -/
def cover (bits : BitVec w) : List (String × BitVec w) → BitVec w → List String × BitVec w
  | [], left => ([], left)
  | (name, mask) :: rest, left =>
    if Bits.has bits mask && Bits.meets left mask then
      let (names, unnamed) := cover bits rest (Bits.clear left mask)
      (name :: names, unnamed)
    else cover bits rest left

def names (bits : BitVec w) : List String := (cover bits t.flags bits).1

def unnamed (bits : BitVec w) : BitVec w := (cover bits t.flags bits).2

/-- The title with the names in brackets, the unnamed bits last as one hexadecimal number. -/
def render (bits : BitVec w) : String :=
  let rest := t.unnamed bits
  let parts := t.names bits ++ if rest = 0 then [] else ["0x" ++ Bits.hex rest]
  t.title ++ "(" ++ (if parts.isEmpty then "0x0" else " | ".intercalate parts) ++ ")"

end FlagTable

end ConsoleUart
