import ConsoleUart.Proofs.Replay
import ConsoleUart.Soc

/-!
# A mapped chip

A chip is mapped for a register block when its registers lie where the block looks for them, all of them
below the top of the address space. Every access then reaches the place it is meant for, and what it
changes there is one of a few fields.
-/

namespace ConsoleUart

/-- The chip answers where the register block looks. -/
structure Soc.Mapped (s : Soc) (b : RegisterBlock) : Prop where
  base : s.base = b.base
  stride : s.stride = b.stride
  apart : 1 ≤ b.stride
  inRange : b.base + 6 * b.stride < 0x10000000000000000

/-- The line control byte and the divisor latch. -/
structure LineState where
  lineControl : Byte
  divisor : Nat
deriving DecidableEq, Repr

def Soc.line (s : Soc) : LineState where
  lineControl := s.lineControl
  divisor := s.divisor

/-- The access goes to the place of the register that it names. -/
def Access.InPlace (b : RegisterBlock) : Access → Prop
  | .read r address _ => address = b.address r
  | .write r address _ => address = b.address r
  | .readWord .. => True

namespace Soc

variable {s : Soc} {b : RegisterBlock}

theorem Mapped.place? (h : s.Mapped b) (r : Register) : s.place? (b.address r) = some r.offset := by
  have hp : 0 < s.stride := by
    rw [h.stride]
    exact h.apart
  have ha : b.address r = s.base + r.offset * s.stride := by
    rw [h.base, h.stride]
    rfl
  rw [ha]
  exact place?_eq_some hp r.offset_lt

theorem load_of_place {address i : Nat} (h : s.place? address = some i) :
    AddressSpace.load s address = s.readPlace i := by
  simp only [AddressSpace.load, h]

theorem load_of_none {address : Nat} (h : s.place? address = none) :
    AddressSpace.load s address = (0, s) := by
  simp only [AddressSpace.load, h]

theorem store_of_place {address i : Nat} (h : s.place? address = some i) (value : Byte) :
    AddressSpace.store s address value = s.writePlace value i := by
  simp only [AddressSpace.store, h]

theorem store_of_none {address : Nat} (h : s.place? address = none) (value : Byte) :
    AddressSpace.store s address value = s := by
  simp only [AddressSpace.store, h]

theorem Mapped.load_address (h : s.Mapped b) (r : Register) :
    AddressSpace.load s (b.address r) = s.readPlace r.offset :=
  load_of_place (h.place? r)

theorem Mapped.store_address (h : s.Mapped b) (r : Register) (value : Byte) :
    AddressSpace.store s (b.address r) value = s.writePlace value r.offset :=
  store_of_place (h.place? r) value

/-! ### What a place keeps -/

/-- A load consumes at most a received byte and entries of the scripts. -/
theorem readPlace_frame (s : Soc) (i : Nat) : ∃ received lineStatusScript modemStatusScript,
    (s.readPlace i).2 = { s with received, lineStatusScript, modemStatusScript } := by
  unfold readPlace
  split
  · split
    · exact ⟨_, _, _, rfl⟩
    · unfold receive
      split <;> exact ⟨_, _, _, rfl⟩
  · exact ⟨_, _, _, rfl⟩
  · exact ⟨_, _, _, rfl⟩
  · exact ⟨_, _, _, rfl⟩
  · exact ⟨_, _, _, rfl⟩
  · unfold readLineStatus
    split <;> exact ⟨_, _, _, rfl⟩
  · unfold readModemStatus
    split <;> exact ⟨_, _, _, rfl⟩
  · exact ⟨_, _, _, rfl⟩

/-- A store changes at most the control registers, the divisor and what has been sent. -/
theorem writePlace_frame (s : Soc) (value : Byte) (i : Nat) :
    ∃ lineControl divisorLow divisorHigh interruptEnable fifoControl modemControl sent,
      s.writePlace value i = { s with
        lineControl, divisorLow, divisorHigh, interruptEnable, fifoControl, modemControl, sent } := by
  unfold writePlace
  split <;> (try split) <;> exact ⟨_, _, _, _, _, _, _, rfl⟩

theorem readPlace_received {i : Nat} (h : i ≠ 0 ∨ s.latchOpen = true) :
    (s.readPlace i).2.received = s.received := by
  unfold readPlace readLineStatus readModemStatus
  split <;> (try split) <;> simp_all

theorem writePlace_received (s : Soc) (value : Byte) (i : Nat) :
    (s.writePlace value i).received = s.received := by
  obtain ⟨_, _, _, _, _, _, _, hf⟩ := s.writePlace_frame value i
  rw [hf]

theorem writePlace_sent {i : Nat} (h : i ≠ 0 ∨ s.latchOpen = true) (value : Byte) :
    (s.writePlace value i).sent = s.sent := by
  unfold writePlace
  split <;> (try split) <;> simp_all

theorem latchOpen_of_line {t : Soc} (same : t.line = s.line) : t.latchOpen = s.latchOpen :=
  congrArg (fun line : LineState => Bits.meets line.lineControl latchBit) same

theorem writePlace_line (closed : s.latchOpen = false) {i : Nat} (h : i ≠ 3) (value : Byte) :
    (s.writePlace value i).line = s.line := by
  unfold writePlace
  split <;> simp_all [line, divisor]

theorem writePlace_mapping (s : Soc) (value : Byte) (i : Nat) :
    (s.writePlace value i).base = s.base ∧ (s.writePlace value i).stride = s.stride := by
  obtain ⟨_, _, _, _, _, _, _, hf⟩ := s.writePlace_frame value i
  rw [hf]
  exact ⟨rfl, rfl⟩

/-! ### What an access keeps -/

/-- An access loads or stores one place, or leaves the chip as it is. -/
theorem apply_cases (s : Soc) (a : Access) : Access.apply s a = s ∨
    (∃ i, Access.apply s a = (s.readPlace i).2) ∨ ∃ value i, Access.apply s a = s.writePlace value i := by
  cases a with
  | read r address value =>
    have load : Access.apply s (.read r address value) = (AddressSpace.load s address).2 := rfl
    cases hp : s.place? address with
    | none => exact Or.inl (by rw [load, load_of_none hp])
    | some i => exact Or.inr (Or.inl ⟨i, by rw [load, load_of_place hp]⟩)
  | write r address value =>
    have store : Access.apply s (.write r address value) = AddressSpace.store s address value := rfl
    cases hp : s.place? address with
    | none => exact Or.inl (by rw [store, store_of_none hp])
    | some i => exact Or.inr (Or.inr ⟨value, i, by rw [store, store_of_place hp]⟩)
  | readWord address word => exact Or.inl rfl

theorem loadWord_apply (s : Soc) (a : Access) (address : Nat) :
    AddressSpace.loadWord (Access.apply s a) address = AddressSpace.loadWord s address := by
  rcases s.apply_cases a with h | ⟨i, h⟩ | ⟨value, i, h⟩
  · rw [h]
  · obtain ⟨_, _, _, hf⟩ := s.readPlace_frame i
    rw [h, hf]
    rfl
  · obtain ⟨_, _, _, _, _, _, _, hf⟩ := s.writePlace_frame value i
    rw [h, hf]
    rfl

theorem loadWord_replay (s : Soc) (trace : List Access) (address : Nat) :
    AddressSpace.loadWord (replay s trace) address = AddressSpace.loadWord s address :=
  replay_keeps (p := fun t => AddressSpace.loadWord t address = AddressSpace.loadWord s address)
    (fun t a h => (t.loadWord_apply a address).trans h) rfl trace

theorem Mapped.apply_read (h : s.Mapped b) (r : Register) (value : Byte) :
    Access.apply s (.read r (b.address r) value) = (s.readPlace r.offset).2 := by
  show (AddressSpace.load s (b.address r)).2 = _
  rw [h.load_address]

theorem Mapped.apply_write (h : s.Mapped b) (r : Register) (value : Byte) :
    Access.apply s (.write r (b.address r) value) = s.writePlace value r.offset :=
  h.store_address r value

theorem Mapped.apply (h : s.Mapped b) {a : Access} (placed : a.InPlace b) :
    (Access.apply s a).Mapped b := by
  cases a with
  | read r address value =>
    cases placed
    rw [h.apply_read]
    obtain ⟨_, _, _, hf⟩ := s.readPlace_frame r.offset
    rw [hf]
    exact ⟨h.base, h.stride, h.apart, h.inRange⟩
  | write r address value =>
    cases placed
    rw [h.apply_write]
    obtain ⟨hb, hs⟩ := s.writePlace_mapping value r.offset
    exact ⟨hb.trans h.base, hs.trans h.stride, h.apart, h.inRange⟩
  | readWord address value => exact h

end Soc

end ConsoleUart
