import ConsoleUart.Bits

/-!
# Address spaces

A device state that answers loads and stores at absolute addresses. A byte load may change the device,
since reading a register can have an effect; a word load does not.
-/

namespace ConsoleUart

class AddressSpace (σ : Type) where
  load : σ → Nat → Byte × σ
  store : σ → Nat → Byte → σ
  loadWord : σ → Nat → Word

end ConsoleUart
