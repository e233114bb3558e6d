import ConsoleUart.Proofs.Configuring

/-!
# Configuring twice

Configuring leaves a device behind that the next look finds configured, as long as the latch can hold
the divisor. So configuring again only looks. A divisor that is too large is never found in the latch:
the device is then programmed each time, with the same values.
-/

namespace ConsoleUart

theorem Bits.clear_and_writableMask (v : Byte) :
    clear v latchBit &&& Line.writableMask = v &&& Line.writableMask := by
  revert v
  decide

/-- The chips agree on all that configuring programs. -/
structure Soc.SameSettings (s t : Soc) : Prop where
  lineControl : s.lineControl = t.lineControl
  divisorHigh : s.divisorHigh = t.divisorHigh
  divisorLow : s.divisorLow = t.divisorLow
  fifoControl : s.fifoControl = t.fifoControl
  interruptEnable : s.interruptEnable = t.interruptEnable
  modemControl : s.modemControl = t.modemControl

theorem Soc.SameSettings.refl (s : Soc) : s.SameSettings s := ⟨rfl, rfl, rfl, rfl, rfl, rfl⟩

namespace MiniUart
open Bus

variable (u : MiniUart) {s : Soc}

/-! ### What configuring leaves behind -/

theorem Matches.closeLatch {u : MiniUart} {divisor : Nat} (h : u.Matches s divisor) :
    u.Matches s.closeLatch divisor :=
  ⟨(Bits.clear_and_writableMask s.lineControl).trans h.1, h.2⟩

theorem Programmed.matches {u : MiniUart} {divisor : Nat} {t : Soc} (h : u.Programmed divisor t)
    (fits : divisor ≤ Baud.maxLatch) : u.Matches t divisor := by
  constructor
  · rw [h.lineControl]
    exact Line.and_writableMask_and u.config.lineControl
  · exact Soc.divisor_of_loaded h.divisorHigh h.divisorLow fits

theorem Programmed.sameSettings {u : MiniUart} {divisor : Nat} {t t' : Soc} (h : u.Programmed divisor t)
    (h' : u.Programmed divisor t') : t.SameSettings t' :=
  ⟨h.lineControl.trans h'.lineControl.symm, h.divisorHigh.trans h'.divisorHigh.symm,
    h.divisorLow.trans h'.divisorLow.symm, h.fifoControl.trans h'.fifoControl.symm,
    h.interruptEnable.trans h'.interruptEnable.symm, h.modemControl.trans h'.modemControl.symm⟩

section
variable {u : MiniUart} {t t' : Soc}

/-- A configured chip matches, if the latch can hold the divisor. -/
theorem Configures.matches (h : u.Configures s t) (clock : u.clockAt t = u.clockAt s)
    (fits : Baud.divisor (u.clockAt s) u.config.baudRate ≤ Baud.maxLatch) :
    u.Matches t (Baud.divisor (u.clockAt t) u.config.baudRate) := by
  unfold Configures at h
  rw [clock]
  split at h
  case isTrue before =>
    rw [h]
    exact before.closeLatch
  case isFalse => exact h.matches fits

/-- The latch is too small to show such a divisor. -/
theorem not_matches_of_oversized {divisor : Nat} (oversized : Baud.maxLatch < divisor) : ¬u.Matches t divisor := by
  rintro ⟨-, same⟩
  have narrow := t.divisor_le
  omega

/-- Configuring a configured chip finds it configured, or programs what is there. -/
theorem Configures.sameSettings (h : u.Configures s t) (clock : u.clockAt t = u.clockAt s)
    (h' : u.Configures t t') : t'.SameSettings t := by
  have closed := h.closed
  unfold Configures at h h'
  rw [clock] at h'
  split at h'
  case isTrue =>
    rw [h', Soc.closeLatch_of_closed closed]
    exact .refl t
  case isFalse other =>
    split at h
    case isTrue before =>
      rw [h] at other
      exact absurd before.closeLatch other
    case isFalse => exact h'.sameSettings h

end

/-- Configuring can only succeed, and where it does the chip is still mapped, with the same clock. -/
theorem run_configure (mapped : s.Mapped u.registers) {n : Nat}
    (completed : ((u.perform .configure).run s n).outcome ≠ none) :
    ((u.perform .configure).run s n).outcome = some (.ok ()) ∧
      ((u.perform .configure).run s n).state.Mapped u.registers ∧
      u.clockAt ((u.perform .configure).run s n).state = u.clockAt s ∧
      u.Configures s ((u.perform .configure).run s n).state := by
  have orderly : Orderly u.registers (u.perform .configure)
      (fun answer t => answer = .ok () ∧ u.Configures s t) s :=
    orderly_map (orderly_mono (orderly_configure u s) fun _ _ h => ⟨rfl, h⟩)
  obtain ⟨accepts, accounts, done⟩ := orderly.run mapped n
  obtain ⟨answer, ended⟩ := Option.ne_none_iff_exists'.mp completed
  obtain ⟨ok, configures⟩ := done answer ended
  refine ⟨by rw [ended, ok], ?_, ?_, configures⟩
  · rw [accounts]
    exact mapped.replay accepts
  · rw [accounts, clockAt, Soc.loadWord_replay, clockAt]

/-! ### Configuring again -/

/-- With a divisor beyond the latch, configuring again waits for the transmitter and programs the device
once more. -/
theorem oversized_divisor_programmed_again :
    ¬∀ (u : MiniUart) (s : Soc) (n m : Nat), s.Mapped u.registers →
      ((u.perform .configure).run s n).outcome ≠ none →
      ((u.perform .configure).run ((u.perform .configure).run s n).state m).outcome ≠ none →
      (∀ a ∈ ((u.perform .configure).run ((u.perform .configure).run s n).state m).trace,
        a.register? ≠ some .lineStatus) ∧
      (written ((u.perform .configure).run ((u.perform .configure).run s n).state m).trace).length = 2 := by
  intro all
  let u : MiniUart := .ofLayout .rpi4 { Config.rpi4 with baudRate := 1 }
  let s : Soc := .initial .rpi4 4
  have mapped : s.Mapped u.registers := ⟨rfl, rfl, by decide, by decide⟩
  have first : ((u.perform .configure).run s 17).outcome ≠ none :=
    Option.isSome_iff_ne_none.mp (by decide +kernel)
  have second : ((u.perform .configure).run ((u.perform .configure).run s 17).state 17).outcome ≠ none :=
    Option.isSome_iff_ne_none.mp (by decide +kernel)
  have writes : (written
      ((u.perform .configure).run ((u.perform .configure).run s 17).state 17).trace).length = 10 := by
    decide +kernel
  have few := (all u s 17 17 mapped first second).2
  rw [writes] at few
  cases few

/-- Where configuring is completed, configuring again with a divisor that the latch can hold succeeds after
eight accesses. None of them looks at the line status, two write, to open and close the latch, and the chip
ends as it was. A divisor that is too large has lost its high bits in the latch, so the chip is not found
configured: configuring again ends exactly if an idle transmitter shows in time, and with that answer it
programs the device once more. Whatever the divisor, configuring again can only succeed, and leaves all that
configuring programs as it was. -/
theorem configure_idempotent (u : MiniUart) (s : Soc) (n : Nat) (mapped : s.Mapped u.registers)
    (completed : ((u.perform .configure).run s n).outcome ≠ none) (m : Nat) :
    let divisor := Baud.divisor (u.clockAt s) u.config.baudRate
    let t := ((u.perform .configure).run s n).state
    let again := (u.perform .configure).run t m
    (divisor ≤ Baud.maxLatch → 8 ≤ m →
      again.outcome = some (.ok ()) ∧ (∀ a ∈ again.trace, a.register? ≠ some .lineStatus) ∧
      written again.trace = [(.lineControl, t.lineControl ||| latchBit), (.lineControl, t.lineControl)] ∧
      again.state = t) ∧
    (Baud.maxLatch < divisor → t.divisor = divisor % 0x10000 ∧ ¬u.Matches t divisor ∧
      (again.outcome ≠ none ↔ ∃ k, t.ShowsAfter LineStatus.transmitterEmpty k ∧ 17 + k ≤ m) ∧
      (again.outcome ≠ none →
        (∃ busy idle, again.trace = u.lookTrace t ++ u.polls (busy ++ [idle]) ++ u.programTrace divisor ∧
          (∀ lsr ∈ busy, Bits.has lsr LineStatus.transmitterEmpty = false) ∧
          Bits.has idle LineStatus.transmitterEmpty = true) ∧
        written again.trace =
          [(.lineControl, t.lineControl ||| latchBit), (.lineControl, t.lineControl)] ++ u.programWrites divisor)) ∧
    (again.outcome ≠ none → again.outcome = some (.ok ()) ∧ again.state.SameSettings t) := by
  intro divisor t again
  obtain ⟨-, mapped', clock, configures⟩ := run_configure u mapped completed
  have closed : Bits.clear t.lineControl latchBit = t.lineControl := Bits.clear_of_not_meets configures.closed
  refine ⟨fun fits enough => ?_, fun oversized => ?_, fun ended => ?_⟩
  · -- The look finds the chip configured, and closes a latch that is closed.
    have same : t.closeLatch = t := Soc.closeLatch_of_closed configures.closed
    have found := configures.matches clock fits
    obtain ⟨left, rfl⟩ := Nat.exists_eq_add_of_le enough
    obtain ⟨ended, look, kept, -⟩ := (does_configure u mapped' found).ends left
    refine ⟨ended, ?_, ?_, kept.trans same⟩
    · rw [show again.trace = _ from look]
      exact lineStatus_not_in_lookTrace u t
    · rw [show again.trace = _ from look, written_lookTrace, RegisterBlock.written_latchTrace, closed]
  · -- No look finds such a divisor: not the first one, so the latch was loaded, and not the second one.
    obtain ⟨-, first, -⟩ := of_reprogrammed u (not_matches_of_oversized oversized) mapped completed
    have other : ¬u.Matches t (Baud.divisor (u.clockAt t) u.config.baudRate) := by
      rw [clock]
      exact not_matches_of_oversized oversized
    refine ⟨Soc.divisor_of_bytes first.divisorHigh first.divisorLow, not_matches_of_oversized oversized,
      reprograms_iff u other mapped' m, fun ended => ?_⟩
    obtain ⟨-, -, busy, idle, trace, polled⟩ := of_reprogrammed u other mapped' ended
    rw [clock] at trace
    refine ⟨⟨busy, idle, trace, polled⟩, ?_⟩
    rw [show again.trace = _ from trace, written_append, written_append, written_lookTrace, written_polls,
      List.append_nil, written_programTrace, RegisterBlock.written_latchTrace, closed]
  · obtain ⟨ok, -, -, configures'⟩ := run_configure u mapped' ended
    exact ⟨ok, configures.sameSettings clock configures'⟩

/-- A chip that is found with its latch open, configured with reserved line control bits set; and one hertz, a
rate whose divisor is programmed without its high bits, twice, the second time after a busy answer. -/
theorem configure_idempotent_open_latch :
    let u : MiniUart := .ofLayout .rpi3
      { Config.rpi3 with baudRate := 9600, lineControl := 0xFB, fifoControl := 0x27 }
    let s : Soc := { Soc.initial .rpi3 4 with lineControl := 0x9B, divisorLow := 7, modemControl := 2 }
    let t := ((u.perform .configure).run s 17).state
    let again := (u.perform .configure).run t 8
    let slow : MiniUart := .ofLayout .rpi4 { Config.rpi4 with baudRate := 1 }
    let s' : Soc := { Soc.initial .rpi4 4 with lineStatusScript := [0x60, 0x20] }
    let t' := ((slow.perform .configure).run s' 17).state
    let again' := (slow.perform .configure).run t' 18
    (s.Mapped u.registers ∧ ((u.perform .configure).run s 17).outcome ≠ none ∧
      Baud.divisor (u.clockAt s) u.config.baudRate ≤ Baud.maxLatch ∧ again.outcome ≠ none ∧
      again.outcome = some (.ok ()) ∧ (∀ a ∈ again.trace, a.register? ≠ some .lineStatus) ∧
      written again.trace = [(.lineControl, t.lineControl ||| latchBit), (.lineControl, t.lineControl)] ∧
      again.state = t ∧ again.state.SameSettings t) ∧
    (s'.Mapped slow.registers ∧ ((slow.perform .configure).run s' 17).outcome ≠ none ∧
      Baud.divisor (slow.clockAt s') slow.config.baudRate = 31250000 ∧
      t'.divisor = 54864 ∧ ¬slow.Matches t' 31250000 ∧ t'.ShowsAfter LineStatus.transmitterEmpty 1 ∧
      again'.outcome = some (.ok ()) ∧ again'.state.SameSettings t' ∧
      written again'.trace = [(.lineControl, 0x83), (.lineControl, 0x03)] ++ slow.programWrites 31250000) := by
  intro u s t again slow s' t' again'
  have mapped : s.Mapped u.registers := ⟨rfl, rfl, by decide, by decide⟩
  have completed : ((u.perform .configure).run s 17).outcome ≠ none :=
    Option.isSome_iff_ne_none.mp (by decide +kernel)
  have fits : Baud.divisor (u.clockAt s) u.config.baudRate ≤ Baud.maxLatch := by decide +kernel
  obtain ⟨looks, -, keeps⟩ := configure_idempotent u s 17 mapped completed 8
  obtain ⟨answer, quiet, bracket, same⟩ := looks fits (Nat.le_refl 8)
  have ended : again.outcome ≠ none := by
    rw [answer]
    exact Option.some_ne_none _
  have mapped' : s'.Mapped slow.registers := ⟨rfl, rfl, by decide, by decide⟩
  have completed' : ((slow.perform .configure).run s' 17).outcome ≠ none :=
    Option.isSome_iff_ne_none.mp (by decide +kernel)
  have divisor : Baud.divisor (slow.clockAt s') slow.config.baudRate = 31250000 := by decide +kernel
  have line : t'.lineControl = 0x03 := by decide +kernel
  have busy : t'.Lacks LineStatus.transmitterEmpty 1 := by
    unfold Soc.Lacks
    decide +kernel
  have idle : t'.ShowsAfter LineStatus.transmitterEmpty 1 := ⟨busy, by decide +kernel⟩
  have second := configure_idempotent slow s' 17 mapped' completed' 18
  simp only [divisor] at second
  obtain ⟨-, programs, keeps'⟩ := second
  obtain ⟨held, unmatched, ends, writes⟩ := programs (by decide)
  have ended' : again'.outcome ≠ none := ends.mpr ⟨1, idle, by decide⟩
  obtain ⟨ok, settings⟩ := keeps' ended'
  have program := (writes ended').2
  rw [line] at program
  exact ⟨⟨mapped, completed, fits, ended, answer, quiet, bracket, same, (keeps ended).2⟩,
    mapped', completed', divisor, held, unmatched, idle, ok, settings, program⟩

end MiniUart

end ConsoleUart
