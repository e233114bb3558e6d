import ConsoleUart.AddressSpace

/-!
# Plain memory

The address space in which a store is seen by later loads and nothing else happens. Words are stored
with the least significant byte first. An address outside the memory reads zero and ignores stores.
-/

namespace ConsoleUart

structure Memory where
  bytes : Array Byte
deriving DecidableEq, Repr

namespace Memory

def get (m : Memory) (address : Nat) : Byte := m.bytes.getD address 0

def set (m : Memory) (address : Nat) (value : Byte) : Memory where
  bytes := m.bytes.setIfInBounds address value

def getWord (m : Memory) (address : Nat) : Word :=
  m.get (address + 3) ++ m.get (address + 2) ++ m.get (address + 1) ++ m.get address

instance : AddressSpace Memory where
  load m address := (m.get address, m)
  store := set
  loadWord := getWord

theorem get_set (m : Memory) (a b : Nat) (value : Byte) (h : a < m.bytes.size) :
    (m.set a value).get b = if a = b then value else m.get b := by
  simp only [get, set, Array.getD_eq_getD_getElem?, Array.getElem?_setIfInBounds]
  split <;> simp_all

end Memory

end ConsoleUart
