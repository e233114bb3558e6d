import ConsoleUart.Proofs.Programming

/-!
# Exact sessions

A session that never waits makes the same accesses on every budget, as far as the budget goes. `Bus.Does`
names its accesses, its answer and the state it leaves behind. Reading the divisor latch, loading it and
reading the clock are such sessions on a mapped chip.
-/

namespace ConsoleUart

namespace Bits

theorem clear_of_not_meets {v : Byte} (h : meets v latchBit = false) : clear v latchBit = v := by
  revert v
  decide

end Bits

theorem Soc.Mapped.keep {s t : Soc} {b : RegisterBlock} (mapped : s.Mapped b) (base : t.base = s.base)
    (stride : t.stride = s.stride) : t.Mapped b :=
  ⟨base.trans mapped.base, stride.trans mapped.stride, mapped.apart, mapped.inRange⟩

variable {σ α β : Type}

/-- What a trace writes, register by register. -/
def written (trace : List Access) : List (Register × Byte) := trace.filterMap fun
  | .write r _ value => some (r, value)
  | _ => none

@[simp] theorem written_append (l r : List Access) : written (l ++ r) = written l ++ written r :=
  List.filterMap_append ..

namespace Bus

/-- From `s` the session makes these accesses, answers `a` and leaves `t`. A budget that is short of the
accesses cuts it short. -/
structure Does (x : Bus σ α) (s : σ) (trace : List Access) (a : α) (t : σ) : Prop where
  ends : ∀ left, (x.run s (trace.length + left)).outcome = some a ∧
    (x.run s (trace.length + left)).trace = trace ∧ (x.run s (trace.length + left)).state = t ∧
    (x.run s (trace.length + left)).budget = left
  cut : ∀ n, n < trace.length → (x.run s n).outcome = none

variable {x : Bus σ α} {s t u : σ} {l r : List Access} {a : α}

/-- A session that ended has done all it does. -/
theorem Does.done {a' : α} {n : Nat} (h : Does x s l a t) (ended : (x.run s n).outcome = some a') :
    a' = a ∧ (x.run s n).trace = l ∧ (x.run s n).state = t ∧ l.length ≤ n := by
  by_cases hn : l.length ≤ n
  · obtain ⟨left, rfl⟩ := Nat.exists_eq_add_of_le hn
    obtain ⟨ho, ht, hs, -⟩ := h.ends left
    rw [ho] at ended
    exact ⟨(Option.some.inj ended).symm, ht, hs, hn⟩
  · rw [h.cut n (by omega)] at ended
    cases ended

/-! ### Sessions put together -/

theorem does_pure (a : α) (s : σ) : Does (pure a : Bus σ α) s [] a s :=
  ⟨fun left => ⟨rfl, rfl, rfl, Nat.zero_add left⟩, fun _ hn => absurd hn (Nat.not_lt_zero _)⟩

theorem run_bind_of_cut (f : α → Bus σ β) {n : Nat} (cut : (x.run s n).outcome = none) :
    ((x >>= f).run s n).outcome = none ∧ ((x >>= f).run s n).trace = (x.run s n).trace ∧
      ((x >>= f).run s n).state = (x.run s n).state := by
  rw [Session.run_bind]
  generalize x.run s n = run at cut ⊢
  obtain ⟨outcome, events, s', n'⟩ := run
  simp only at cut
  subst cut
  exact ⟨rfl, rfl, rfl⟩

theorem Does.run_bind (h : Does x s l a t) (f : α → Bus σ β) (left : Nat) :
    ((x >>= f).run s (l.length + left)).outcome = ((f a).run t left).outcome ∧
      ((x >>= f).run s (l.length + left)).trace = l ++ ((f a).run t left).trace ∧
      ((x >>= f).run s (l.length + left)).state = ((f a).run t left).state ∧
      ((x >>= f).run s (l.length + left)).budget = ((f a).run t left).budget := by
  obtain ⟨ho, ht, hs, hb⟩ := h.ends left
  rw [Session.run_bind]
  generalize x.run s (l.length + left) = run at *
  obtain ⟨outcome, events, s', n'⟩ := run
  simp only at ho hs hb
  subst ho hs hb
  have split : (Session.resume ⟨some a, events, s', n'⟩ f).trace =
      events.filterMap Event.access? ++ ((f a).run s' n').trace := List.filterMap_append ..
  refine ⟨rfl, ?_, rfl, rfl⟩
  rw [split]
  exact congrArg (· ++ ((f a).run s' n').trace) ht

theorem does_bind {f : α → Bus σ β} {b : β} (hx : Does x s l a t) (hf : Does (f a) t r b u) :
    Does (x >>= f) s (l ++ r) b u := by
  constructor
  · intro left
    obtain ⟨fo, ft, fs, fb⟩ := hf.ends left
    obtain ⟨ho, ht, hs, hb⟩ := hx.run_bind f (r.length + left)
    rw [List.length_append, Nat.add_assoc, ho, ht, hs, hb, fo, ft]
    exact ⟨rfl, rfl, fs, fb⟩
  · intro n hn
    rw [List.length_append] at hn
    by_cases short : n < l.length
    · exact (run_bind_of_cut f (hx.cut n short)).1
    · obtain ⟨left, rfl⟩ := Nat.exists_eq_add_of_le (Nat.le_of_not_lt short)
      rw [(hx.run_bind f left).1]
      exact hf.cut left (by omega)

theorem does_map (f : α → β) (hx : Does x s l a t) : Does (f <$> x) s l (f a) t := by
  rw [← bind_pure_comp, ← List.append_nil l]
  exact does_bind hx (does_pure (f a) t)

theorem does_note (notice : Notice) (s : σ) : Does (note notice) s [] () s :=
  ⟨fun left => ⟨rfl, rfl, rfl, Nat.zero_add left⟩, fun _ hn => absurd hn (Nat.not_lt_zero _)⟩

/-! ### Single accesses -/

section
variable [AddressSpace σ]

theorem does_readWord (address : Nat) (s : σ) : Does (readWord address) s
    [.readWord address (AddressSpace.loadWord s address)] (AddressSpace.loadWord s address) s := by
  refine ⟨fun left => ?_, fun n hn => ?_⟩
  · rw [List.length_singleton, Nat.add_comm, run_readWord_succ]
    exact ⟨rfl, rfl, rfl, rfl⟩
  · rw [List.length_singleton, Nat.lt_one_iff] at hn
    rw [hn, run_readWord_zero]

end

variable {s : Soc} {b : RegisterBlock}

theorem does_read (mapped : s.Mapped b) (r : Register) : Does (b.read r) s
    [.read r (b.address r) (s.readPlace r.offset).1] (s.readPlace r.offset).1 (s.readPlace r.offset).2 := by
  refine ⟨fun left => ?_, fun n hn => ?_⟩
  · rw [List.length_singleton, Nat.add_comm, RegisterBlock.run_read_succ, mapped.load_address]
    exact ⟨rfl, rfl, rfl, rfl⟩
  · rw [List.length_singleton, Nat.lt_one_iff] at hn
    rw [hn, RegisterBlock.run_read_zero]

theorem does_write (mapped : s.Mapped b) (r : Register) (value : Byte) : Does (b.write r value) s
    [.write r (b.address r) value] () (s.writePlace value r.offset) := by
  refine ⟨fun left => ?_, fun n hn => ?_⟩
  · rw [List.length_singleton, Nat.add_comm, RegisterBlock.run_write_succ, mapped.store_address]
    exact ⟨rfl, rfl, rfl, rfl⟩
  · rw [List.length_singleton, Nat.lt_one_iff] at hn
    rw [hn, RegisterBlock.run_write_zero]

/-! ### Registers -/

theorem does_read_lineControl (mapped : s.Mapped b) : Does (b.read .lineControl) s
    [.read .lineControl (b.address .lineControl) s.lineControl] s.lineControl s :=
  does_read mapped .lineControl

theorem does_write_lineControl (mapped : s.Mapped b) (value : Byte) : Does (b.write .lineControl value) s
    [.write .lineControl (b.address .lineControl) value] () { s with lineControl := value } :=
  does_write mapped .lineControl value

theorem does_read_divisorHigh (mapped : s.Mapped b) (opened : s.latchOpen = true) :
    Does (b.read .divisorHigh) s [.read .divisorHigh (b.address .divisorHigh) s.divisorHigh]
      s.divisorHigh s := by
  have place : s.readPlace 1 = (s.divisorHigh, s) := by simp [Soc.readPlace, opened]
  simpa [Register.offset, place] using does_read mapped .divisorHigh

theorem does_read_divisorLow (mapped : s.Mapped b) (opened : s.latchOpen = true) :
    Does (b.read .divisorLow) s [.read .divisorLow (b.address .divisorLow) s.divisorLow]
      s.divisorLow s := by
  have place : s.readPlace 0 = (s.divisorLow, s) := by simp [Soc.readPlace, opened]
  simpa [Register.offset, place] using does_read mapped .divisorLow

theorem does_write_divisorHigh (mapped : s.Mapped b) (opened : s.latchOpen = true) (value : Byte) :
    Does (b.write .divisorHigh value) s [.write .divisorHigh (b.address .divisorHigh) value] ()
      { s with divisorHigh := value } := by
  simpa [Register.offset, Soc.writePlace, opened] using does_write mapped .divisorHigh value

theorem does_write_divisorLow (mapped : s.Mapped b) (opened : s.latchOpen = true) (value : Byte) :
    Does (b.write .divisorLow value) s [.write .divisorLow (b.address .divisorLow) value] ()
      { s with divisorLow := value } := by
  simpa [Register.offset, Soc.writePlace, opened] using does_write mapped .divisorLow value

end Bus

/-! ### The divisor latch -/

namespace Soc

/-- The chip with the latch loaded and open. -/
def loaded (s : Soc) (divisor : Nat) : Soc := { s with
  lineControl := latchBit
  divisorHigh := BitVec.ofNat 8 (divisor / 256)
  divisorLow := BitVec.ofNat 8 divisor }

theorem closeLatch_of_closed {s : Soc} (closed : s.latchOpen = false) : s.closeLatch = s := by
  rw [closeLatch, Bits.clear_of_not_meets closed]

end Soc

namespace RegisterBlock
open Bus

variable {s : Soc} {b : RegisterBlock}

/-- The accesses that read the latch. -/
def latchTrace (b : RegisterBlock) (s : Soc) : List Access :=
  [.read .lineControl (b.address .lineControl) s.lineControl,
    .write .lineControl (b.address .lineControl) (s.lineControl ||| latchBit),
    .read .divisorHigh (b.address .divisorHigh) s.divisorHigh,
    .read .divisorLow (b.address .divisorLow) s.divisorLow,
    .read .lineControl (b.address .lineControl) (s.lineControl ||| latchBit),
    .write .lineControl (b.address .lineControl) (Bits.clear s.lineControl latchBit)]

@[simp] theorem written_latchTrace (b : RegisterBlock) (s : Soc) : written (b.latchTrace s) =
    [(.lineControl, s.lineControl ||| latchBit), (.lineControl, Bits.clear s.lineControl latchBit)] := rfl

theorem does_readDivisor (mapped : s.Mapped b) :
    Does b.readDivisor s (b.latchTrace s) s.divisor s.closeLatch := by
  have opened : ({ s with lineControl := s.lineControl ||| latchBit } : Soc).latchOpen = true :=
    Bits.meets_or_self s.lineControl
  have during : ({ s with lineControl := s.lineControl ||| latchBit } : Soc).Mapped b := mapped.keep rfl rfl
  rw [Soc.closeLatch, latchTrace, ← Bits.clear_or_self]
  refine does_bind (does_read_lineControl mapped) (does_bind (does_write_lineControl mapped _) ?_)
  refine does_bind (does_read_divisorHigh during opened) (does_bind (does_read_divisorLow during opened) ?_)
  exact does_bind (does_read_lineControl during)
    (does_bind (does_write_lineControl during _) (does_pure _ _))

theorem does_loadDivisor (mapped : s.Mapped b) (divisor : Nat) : Does (b.loadDivisor divisor) s
    [.write .lineControl (b.address .lineControl) latchBit,
      .write .divisorHigh (b.address .divisorHigh) (BitVec.ofNat 8 (divisor / 256)),
      .write .divisorLow (b.address .divisorLow) (BitVec.ofNat 8 divisor)] () (s.loaded divisor) := by
  have opened : Bits.meets latchBit latchBit = true := by decide
  have first : ({ s with lineControl := latchBit } : Soc).Mapped b := mapped.keep rfl rfl
  have second : ({ s with
      lineControl := latchBit, divisorHigh := BitVec.ofNat 8 (divisor / 256) } : Soc).Mapped b :=
    mapped.keep rfl rfl
  refine does_bind (does_write_lineControl mapped latchBit) ?_
  exact does_bind (does_write_divisorHigh first opened _) (does_write_divisorLow second opened _)

end RegisterBlock

/-! ### The clock -/

namespace MiniUart
open Bus

variable (u : MiniUart)

def clockTrace (s : Soc) : List Access :=
  [.readWord u.clock.address (AddressSpace.loadWord s u.clock.address)]

theorem does_frequency (s : Soc) : Does u.clock.frequency s (u.clockTrace s) (u.clockAt s) s :=
  does_bind (does_readWord u.clock.address s) (does_pure _ s)

theorem does_divisor (s : Soc) (baud : Nat) :
    Does (u.clock.divisor baud) s (u.clockTrace s) (Baud.divisor (u.clockAt s) baud) s :=
  does_bind (does_frequency u s) (does_pure _ s)

end MiniUart

end ConsoleUart
