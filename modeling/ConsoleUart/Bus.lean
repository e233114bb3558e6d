import ConsoleUart.AddressSpace
import ConsoleUart.Notice
import ConsoleUart.Register
import ConsoleUart.Session

/-!
# Bus sessions

A bus session reaches a device through loads and stores. Each of them takes one unit of the budget and
is recorded with the register it was meant for: which register a place holds depends on the device's
mode, so the record tells what the driver meant and the address what it did.
-/

namespace ConsoleUart

inductive Access where
  | read (register : Register) (address : Nat) (value : Byte)
  | write (register : Register) (address : Nat) (value : Byte)
  | readWord (address : Nat) (value : Word)
deriving DecidableEq, Repr

namespace Bus

inductive Event where
  | access (a : Access)
  | notice (n : Notice)
deriving DecidableEq, Repr

def Event.access? : Event → Option Access
  | access a => some a
  | notice _ => none

def Event.notice? : Event → Option Notice
  | access _ => none
  | notice n => some n

end Bus

abbrev Bus (σ : Type) := Session σ Bus.Event

namespace Bus

variable {σ : Type} [AddressSpace σ]

def readWord (address : Nat) : Bus σ Word := do
  Session.spend
  let value ← Session.observe fun s => AddressSpace.loadWord s address
  Session.record (.access (.readWord address value))
  return value

def note (n : Notice) : Bus σ Unit := Session.record (.notice n)

@[simp] theorem run_readWord_zero (address : Nat) (s : σ) :
    (readWord address).run s 0 = { outcome := none, events := [], state := s, budget := 0 } := rfl

@[simp] theorem run_readWord_succ (address : Nat) (s : σ) (n : Nat) :
    (readWord address).run s (n + 1) =
      { outcome := some (AddressSpace.loadWord s address)
        events := [.access (.readWord address (AddressSpace.loadWord s address))]
        state := s
        budget := n } := rfl

end Bus

/-- A row of 16550 registers. -/
structure RegisterBlock where
  base : Nat
  /-- The distance between neighbouring registers. -/
  stride : Nat
deriving DecidableEq, Repr

namespace RegisterBlock

variable {σ : Type} [AddressSpace σ] (b : RegisterBlock)

def addressAt (offset : Nat) : Nat := b.base + offset * b.stride

def address (r : Register) : Nat := b.addressAt r.offset

def read (r : Register) : Bus σ Byte := do
  Session.spend
  let value ← Session.act fun s => AddressSpace.load s (b.address r)
  Session.record (.access (.read r (b.address r) value))
  return value

def write (r : Register) (value : Byte) : Bus σ Unit := do
  Session.spend
  Session.act fun s => ((), AddressSpace.store s (b.address r) value)
  Session.record (.access (.write r (b.address r) value))

@[simp] theorem run_read_zero (r : Register) (s : σ) :
    (b.read r).run s 0 = { outcome := none, events := [], state := s, budget := 0 } := rfl

@[simp] theorem run_read_succ (r : Register) (s : σ) (n : Nat) :
    (b.read r).run s (n + 1) =
      { outcome := some (AddressSpace.load s (b.address r)).1
        events := [.access (.read r (b.address r) (AddressSpace.load s (b.address r)).1)]
        state := (AddressSpace.load s (b.address r)).2
        budget := n } := rfl

@[simp] theorem run_write_zero (r : Register) (value : Byte) (s : σ) :
    (b.write r value : Bus σ Unit).run s 0 = { outcome := none, events := [], state := s, budget := 0 } := rfl

@[simp] theorem run_write_succ (r : Register) (value : Byte) (s : σ) (n : Nat) :
    (b.write r value).run s (n + 1) =
      { outcome := some ()
        events := [.access (.write r (b.address r) value)]
        state := AddressSpace.store s (b.address r) value
        budget := n } := rfl

end RegisterBlock

end ConsoleUart
