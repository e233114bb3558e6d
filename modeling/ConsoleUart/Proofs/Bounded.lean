import ConsoleUart.MiniUart.Operations

/-!
# Bounded sessions

A session without a wait ends within a number of accesses that does not depend on what the device answers.
Setting line attributes never waits: planning takes at most eight accesses, applying the plan four more.
-/

namespace ConsoleUart

variable {σ α β : Type}

namespace Bus

/-- On `k` accesses or more the session ends, and it leaves over all but `k` of them. -/
def EndsWithin (k : Nat) (x : Bus σ α) : Prop :=
  ∀ s n, k ≤ n → ∃ a, (x.run s n).outcome = some a ∧ n ≤ k + (x.run s n).budget

variable {x : Bus σ α} {j k : Nat}

theorem EndsWithin.completes (h : EndsWithin k x) (s : σ) {n : Nat} (enough : k ≤ n) :
    (x.run s n).outcome ≠ none := by
  obtain ⟨a, ended, -⟩ := h s n enough
  rw [ended]
  exact Option.some_ne_none a

theorem EndsWithin.mono (h : EndsWithin j x) (le : j ≤ k) : EndsWithin k x := by
  intro s n enough
  obtain ⟨a, ended, left⟩ := h s n (by omega)
  exact ⟨a, ended, by omega⟩

theorem endsWithin_pure (a : α) : EndsWithin 0 (pure a : Bus σ α) := by
  intro s n _
  exact ⟨a, rfl, by simp⟩

theorem endsWithin_bind {f : α → Bus σ β} (hx : EndsWithin j x) (hf : ∀ a, EndsWithin k (f a)) :
    EndsWithin (k + j) (x >>= f) := by
  intro s n enough
  obtain ⟨a, ended, left⟩ := hx s n (by omega)
  rw [Session.run_bind]
  generalize x.run s n = run at ended left ⊢
  obtain ⟨outcome, events, t, m⟩ := run
  simp only at ended left
  subst ended
  obtain ⟨b, ended, left'⟩ := hf a t m (by omega)
  rw [Session.resume_some]
  exact ⟨b, ended, by simp only; omega⟩

theorem endsWithin_ite {p : Prop} [Decidable p] {y : Bus σ α} (hx : EndsWithin k x) (hy : EndsWithin k y) :
    EndsWithin k (if p then x else y) := by
  split <;> assumption

theorem endsWithin_note (notice : Notice) : EndsWithin 0 (note notice : Bus σ Unit) := by
  intro s n _
  exact ⟨(), rfl, by simp [note]⟩

/-! ### Single accesses -/

variable [AddressSpace σ]

theorem endsWithin_readWord (address : Nat) : EndsWithin 1 (readWord address : Bus σ Word) := by
  intro s n enough
  obtain ⟨m, rfl⟩ := Nat.exists_eq_add_of_le' enough
  simp [Nat.add_comm]

variable (b : RegisterBlock) (r : Register)

theorem endsWithin_read : EndsWithin 1 (b.read r : Bus σ Byte) := by
  intro s n enough
  obtain ⟨m, rfl⟩ := Nat.exists_eq_add_of_le' enough
  simp [Nat.add_comm]

theorem endsWithin_write (value : Byte) : EndsWithin 1 (b.write r value : Bus σ Unit) := by
  intro s n enough
  obtain ⟨m, rfl⟩ := Nat.exists_eq_add_of_le' enough
  simp [Nat.add_comm]

end Bus

namespace RegisterBlock
open Bus

variable [AddressSpace σ] (b : RegisterBlock)

theorem endsWithin_readDivisor : EndsWithin 6 (b.readDivisor : Bus σ Nat) := by
  refine endsWithin_bind (endsWithin_read b .lineControl) fun lcr => ?_
  refine endsWithin_bind (endsWithin_write b .lineControl _) fun _ => ?_
  refine endsWithin_bind (endsWithin_read b .divisorHigh) fun high => ?_
  refine endsWithin_bind (endsWithin_read b .divisorLow) fun low => ?_
  refine endsWithin_bind (endsWithin_read b .lineControl) fun lcr => ?_
  exact endsWithin_bind (endsWithin_write b .lineControl _) fun _ => endsWithin_pure _

theorem endsWithin_loadDivisor (divisor : Nat) : EndsWithin 3 (b.loadDivisor divisor : Bus σ Unit) := by
  refine endsWithin_bind (endsWithin_write b .lineControl _) fun _ => ?_
  exact endsWithin_bind (endsWithin_write b .divisorHigh _) fun _ => endsWithin_write b .divisorLow _

end RegisterBlock

namespace MiniUart
open Bus

variable [AddressSpace σ] (u : MiniUart)

theorem endsWithin_frequency : EndsWithin 1 (u.clock.frequency : Bus σ Nat) :=
  endsWithin_bind (endsWithin_readWord u.clock.address) fun _ => endsWithin_pure _

theorem endsWithin_speedFor (baudRate : Nat) :
    EndsWithin 1 (u.speedFor baudRate : Bus σ (Except Fault Speed)) := by
  refine endsWithin_ite ((endsWithin_pure _).mono (by omega)) ?_
  have divisor : EndsWithin 1 (u.clock.divisor baudRate : Bus σ Nat) :=
    endsWithin_bind (endsWithin_frequency u) fun _ => endsWithin_pure _
  exact endsWithin_bind divisor fun _ => endsWithin_pure _

theorem endsWithin_currentSpeed : EndsWithin 7 (u.currentSpeed : Bus σ (Except Fault Speed)) := by
  refine endsWithin_bind u.registers.endsWithin_readDivisor fun divisor => ?_
  refine endsWithin_ite (endsWithin_speedFor u _) ?_
  exact endsWithin_bind (endsWithin_frequency u) fun _ => endsWithin_pure _

theorem endsWithin_plan (request : Line.Request) :
    EndsWithin 8 (u.plan request : Bus σ (Except Fault Plan)) := by
  have lcr : EndsWithin 1 (u.registers.read .lineControl : Bus σ Byte) := endsWithin_read _ _
  unfold plan
  cases request.baudRate with
  | some baudRate =>
    refine (endsWithin_bind (k := 1) (endsWithin_speedFor u baudRate) fun speed => ?_).mono (by omega)
    cases speed with
    | error fault => exact (endsWithin_pure _).mono (by omega)
    | ok speed => exact endsWithin_bind lcr fun _ => endsWithin_pure _
  | none =>
    refine endsWithin_bind lcr fun value => ?_
    cases request.resolve value with
    | error fault => exact (endsWithin_pure _).mono (by omega)
    | ok line => exact endsWithin_bind (endsWithin_currentSpeed u) fun _ => endsWithin_pure _

theorem endsWithin_apply (plan : Plan) : EndsWithin 4 (u.apply plan : Bus σ Unit) := by
  refine endsWithin_bind (u.registers.endsWithin_loadDivisor _) fun _ => ?_
  exact endsWithin_bind (endsWithin_write u.registers .lineControl _) fun _ => endsWithin_note _

theorem endsWithin_setAttributes (request : Line.Request) :
    EndsWithin 12 (u.setAttributes request : Bus σ (Except Fault Line.Attributes)) := by
  refine endsWithin_bind (k := 4) (endsWithin_plan u request) fun plan => ?_
  cases plan with
  | error fault => exact (endsWithin_pure _).mono (by omega)
  | ok plan =>
    refine endsWithin_ite ((endsWithin_pure _).mono (by omega)) ?_
    exact endsWithin_bind (endsWithin_apply u plan) fun _ => endsWithin_pure _

/-- A request that leaves the line alone is over once it is planned. -/
theorem endsWithin_inquiry {request : Line.Request} (leaves : request.leavesLine = true) :
    EndsWithin 8 (u.setAttributes request : Bus σ (Except Fault Line.Attributes)) := by
  refine endsWithin_bind (endsWithin_plan u request) fun plan => ?_
  cases plan with
  | error fault => exact endsWithin_pure _
  | ok plan =>
    simp only [leaves, if_true]
    exact endsWithin_pure _

end MiniUart

end ConsoleUart
