import ConsoleUart.Proofs.Exact

/-!
# Waiting, exactly

A wait polls a status register until it shows what is waited for. On a mapped chip the answers are known in
advance: first the script, then the device's own status for good. So a wait either ends right after the first
answer that satisfies it, or goes on for as long as the budget does. `Bus.Stalls` says that the session needs
more than these accesses, and what it has done by then.
-/

namespace ConsoleUart

variable {σ α β : Type}

namespace Bus

/-- On a budget of just these accesses the session makes them and needs more, as it does on any lower one. -/
structure Stalls (x : Bus σ α) (s : σ) (accesses : List Access) (t : σ) : Prop where
  cut : ∀ n ≤ accesses.length, (x.run s n).outcome = none
  trace : (x.run s accesses.length).trace = accesses
  state : (x.run s accesses.length).state = t

/-- A check that fails has taken some of the budget. -/
def Pays (check : Bus σ Bool) : Prop :=
  ∀ s n, (check.run s n).outcome = some false → (check.run s n).budget < n

variable {x : Bus σ α} {f : α → Bus σ β} {s t u : σ} {l r : List Access} {a : α}

theorem Stalls.bind (h : Stalls x s l t) (f : α → Bus σ β) : Stalls (x >>= f) s l t := by
  obtain ⟨-, ht, hs⟩ := run_bind_of_cut f (h.cut l.length (Nat.le_refl _))
  exact ⟨fun n hn => (run_bind_of_cut f (h.cut n hn)).1, ht.trans h.trace, hs.trans h.state⟩

theorem Does.stalls (h : Does x s l a t) (later : Stalls (f a) t r u) : Stalls (x >>= f) s (l ++ r) u := by
  obtain ⟨-, ht, hs, -⟩ := h.run_bind f r.length
  constructor
  · intro n hn
    rw [List.length_append] at hn
    by_cases short : n < l.length
    · exact (run_bind_of_cut f (h.cut n short)).1
    · obtain ⟨left, rfl⟩ := Nat.exists_eq_add_of_le (Nat.le_of_not_lt short)
      rw [(h.run_bind f left).1]
      exact later.cut left (by omega)
  · rw [List.length_append, ht, later.trace]
  · rw [List.length_append, hs, later.state]

/-! A notice takes no access. -/

theorem Does.after_note {f : Unit → Bus σ β} {b : β} (h : Does (f ()) s l b t) (notice : Notice) :
    Does (note notice >>= f) s l b t :=
  does_bind (does_note notice s) h

theorem Stalls.after_note {f : Unit → Bus σ β} (h : Stalls (f ()) s l t) (notice : Notice) :
    Stalls (note notice >>= f) s l t :=
  (does_note notice s).stalls h

/-! ### Waits -/

variable {check : Bus σ Bool}

theorem Pays.await_eq (paid : Pays check) :
    Session.await check = (do if ← check then pure () else Session.await check) :=
  Session.await_eq paid

theorem Pays.does_await (paid : Pays check) (h : Does check s l true t) : Does (Session.await check) s l () t := by
  have ends : Does (do if ← check then pure () else Session.await check) s (l ++ []) () t :=
    does_bind h (does_pure () t)
  rw [← paid.await_eq, List.append_nil] at ends
  exact ends

theorem Pays.does_again (paid : Pays check) (h : Does check s l false t)
    (later : Does (Session.await check) t r () u) : Does (Session.await check) s (l ++ r) () u := by
  rw [paid.await_eq]
  exact does_bind h later

theorem Pays.stalls_await (paid : Pays check) (h : Stalls check s l t) : Stalls (Session.await check) s l t := by
  rw [paid.await_eq]
  exact h.bind _

theorem Pays.stalls_again (paid : Pays check) (h : Does check s l false t)
    (later : Stalls (Session.await check) t r u) : Stalls (Session.await check) s (l ++ r) u := by
  rw [paid.await_eq]
  exact h.stalls later

/-! A look at a register takes one access. -/

section
variable [AddressSpace σ] (b : RegisterBlock) (r : Register) (test : Byte → Bool)

theorem starved_look (s : σ) : Stalls (do return test (← b.read r)) s [] s :=
  ⟨fun n hn => by rw [Nat.le_zero.mp hn]; rfl, rfl, rfl⟩

theorem pays_look : Pays (do return test (← b.read r) : Bus σ Bool) := by
  intro s n failed
  cases n with
  | zero => cases failed
  | succ n => exact Nat.lt_succ_self n

end

end Bus

/-! ### The answers of the line status -/

namespace Soc

variable {s : Soc}

/-- The answer to the read of the line status after `i` others, with nothing else done in between. -/
def statusAt (s : Soc) (i : Nat) : Byte := s.lineStatusScript.getD i s.lineStatus

/-- The chip after `k` reads of the line status. -/
def polled (s : Soc) (k : Nat) : Soc := { s with lineStatusScript := s.lineStatusScript.drop k }

def statuses (s : Soc) (k : Nat) : List Byte := (List.range k).map s.statusAt

theorem readLineStatus_eq (s : Soc) : s.readLineStatus = (s.statusAt 0, s.polled 1) := by
  unfold readLineStatus statusAt polled
  cases hs : s.lineStatusScript with
  | nil =>
    have same : s = { s with lineStatusScript := [] } := by rw [← hs]
    simpa using same
  | cons lsr rest => simp

theorem statusAt_polled (s : Soc) (k i : Nat) : (s.polled k).statusAt i = s.statusAt (k + i) := by
  have own : (s.polled k).lineStatus = s.lineStatus := rfl
  rw [statusAt, own]
  simp only [polled, statusAt, List.getD_eq_getElem?_getD, List.getElem?_drop]

theorem statusAt_zero_of_nil (h : s.lineStatusScript = []) : s.statusAt 0 = s.lineStatus := by
  rw [statusAt, h, List.getD_nil]

theorem statusAt_zero_of_cons {lsr : Byte} {rest : List Byte} (h : s.lineStatusScript = lsr :: rest) :
    s.statusAt 0 = lsr := by
  rw [statusAt, h, List.getD_cons_zero]

theorem polled_polled (s : Soc) (j k : Nat) : (s.polled j).polled k = s.polled (j + k) := by
  simp only [polled, List.drop_drop]

theorem statuses_succ (s : Soc) (k : Nat) : s.statuses (k + 1) = s.statusAt 0 :: (s.polled 1).statuses k := by
  simp only [statuses, List.range_succ_eq_map, List.map_cons, List.map_map]
  congr 1
  apply List.map_congr_left
  intro i _
  rw [statusAt_polled, Nat.add_comm]
  rfl

theorem length_statuses (s : Soc) (k : Nat) : (s.statuses k).length = k := by
  simp only [statuses, List.length_map, List.length_range]

theorem statuses_concat (s : Soc) (k : Nat) : s.statuses (k + 1) = s.statuses k ++ [s.statusAt k] := by
  simp only [statuses, List.range_succ, List.map_append, List.map_cons, List.map_nil]

/-- None of the first `k` answers has every bit of the mask. -/
def Lacks (s : Soc) (mask : Byte) (k : Nat) : Prop := ∀ i < k, Bits.has (s.statusAt i) mask = false

/-- The first answer with every bit of the mask comes after `k` others. -/
structure ShowsAfter (s : Soc) (mask : Byte) (k : Nat) : Prop where
  lacks : s.Lacks mask k
  shown : Bits.has (s.statusAt k) mask = true

variable {mask : Byte} {k : Nat}

theorem Lacks.tail (h : s.Lacks mask (k + 1)) : (s.polled 1).Lacks mask k := by
  intro i hi
  rw [statusAt_polled, Nat.add_comm]
  exact h (i + 1) (by omega)

theorem ShowsAfter.tail (h : s.ShowsAfter mask (k + 1)) : (s.polled 1).ShowsAfter mask k := by
  constructor
  · exact h.lacks.tail
  · rw [statusAt_polled, Nat.add_comm]
    exact h.shown

theorem lacks_or_showsAfter (s : Soc) (mask : Byte) (n : Nat) :
    s.Lacks mask n ∨ ∃ k < n, s.ShowsAfter mask k := by
  induction n with
  | zero => exact Or.inl fun i hi => absurd hi (Nat.not_lt_zero i)
  | succ n ih =>
    rcases ih with lacks | ⟨k, hk, shows⟩
    · cases last : Bits.has (s.statusAt n) mask with
      | true => exact Or.inr ⟨n, Nat.lt_succ_self n, lacks, last⟩
      | false =>
        refine Or.inl fun i hi => ?_
        rcases Nat.lt_succ_iff_lt_or_eq.mp hi with hi | rfl
        · exact lacks i hi
        · exact last
    · exact Or.inr ⟨k, by omega, shows⟩

theorem Lacks.mem_statuses (h : s.Lacks mask k) {lsr : Byte} (hl : lsr ∈ s.statuses k) :
    Bits.has lsr mask = false := by
  simp only [statuses, List.mem_map, List.mem_range] at hl
  obtain ⟨i, hi, rfl⟩ := hl
  exact h i hi

end Soc

namespace MiniUart
open Bus

variable (u : MiniUart) {s : Soc}

/-- Reads of the line status with these answers. -/
def polls (answers : List Byte) : List Access :=
  answers.map fun lsr => .read .lineStatus (u.registers.address .lineStatus) lsr

theorem length_polls (answers : List Byte) : (u.polls answers).length = answers.length := List.length_map ..

theorem written_polls (answers : List Byte) : written (u.polls answers) = [] := by
  induction answers with
  | nil => rfl
  | cons lsr rest ih => exact ih

theorem does_read_lineStatus (mapped : s.Mapped u.registers) : Does (u.registers.read .lineStatus) s
    (u.polls [s.statusAt 0]) (s.statusAt 0) (s.polled 1) := by
  have read := does_read mapped .lineStatus
  have place : s.readPlace Register.lineStatus.offset = (s.statusAt 0, s.polled 1) := s.readLineStatus_eq
  rw [place] at read
  exact read

/-- The line status has every bit of the mask. This is what the driver waits for before it programs the
device or sends, and before it takes a byte, with a mask for each. -/
def shows (mask : Byte) : Bus Soc Bool := do
  return Bits.has (← u.registers.read .lineStatus) mask

theorem transmitterEmpty_eq : u.transmitterEmpty = u.shows LineStatus.transmitterEmpty := rfl

theorem receiverReady_eq : u.receiverReady = u.shows LineStatus.receiveReady := rfl

variable (mask : Byte)

theorem does_shows (mapped : s.Mapped u.registers) : Does (u.shows mask) s
    (u.polls [s.statusAt 0]) (Bits.has (s.statusAt 0) mask) (s.polled 1) :=
  does_bind (does_read_lineStatus u mapped) (does_pure _ _)

theorem starved_shows (s : Soc) : Stalls (u.shows mask) s [] s := starved_look ..

theorem pays_shows : Pays (u.shows mask) := pays_look _ _ _

variable {mask} {k : Nat}

theorem does_await_shows (mapped : s.Mapped u.registers) (shows : s.ShowsAfter mask k) :
    Does (Session.await (u.shows mask)) s (u.polls (s.statuses (k + 1))) () (s.polled (k + 1)) := by
  have check := does_shows u mask mapped
  induction k generalizing s with
  | zero =>
    rw [shows.shown] at check
    exact (pays_shows u mask).does_await check
  | succ k ih =>
    have mapped' : (s.polled 1).Mapped u.registers := mapped.keep rfl rfl
    have later := ih mapped' shows.tail (does_shows u mask mapped')
    rw [shows.lacks 0 (Nat.succ_pos k)] at check
    rw [s.polled_polled, Nat.add_comm 1] at later
    rw [s.statuses_succ]
    exact (pays_shows u mask).does_again check later

theorem stalls_await_shows (mapped : s.Mapped u.registers) (lacks : s.Lacks mask k) :
    Stalls (Session.await (u.shows mask)) s (u.polls (s.statuses k)) (s.polled k) := by
  induction k generalizing s with
  | zero => exact (pays_shows u mask).stalls_await (starved_shows u mask s)
  | succ k ih =>
    have check := does_shows u mask mapped
    have later := ih (s := s.polled 1) (mapped.keep rfl rfl) lacks.tail
    rw [lacks 0 (Nat.succ_pos k)] at check
    rw [s.polled_polled, Nat.add_comm 1] at later
    rw [s.statuses_succ]
    exact (pays_shows u mask).stalls_again check later

end MiniUart

end ConsoleUart
