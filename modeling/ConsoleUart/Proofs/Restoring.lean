import ConsoleUart.Proofs.ReadingBack

/-!
# Saving and restoring settings

What an inquiry shows can be asked for as it stands. On the same clock such a request is refused only for a
rate out of reach. If it is granted, the settings shown are in force again, though the rate may have led to
another divisor than the one it was read from.
-/

namespace ConsoleUart

theorem Baud.reachable_iff {clock baudRate : Nat} : Reachable clock baudRate ↔
    baudRate ≤ maxDivisor ∧ 8 * baudRate ≤ clock ∧ clock < 1048568 * baudRate := by
  rcases Nat.eq_zero_or_pos baudRate with rfl | positive
  · simp [Reachable, divisor]
  · have low : (clock + 8 * baudRate) / (16 * baudRate) ≠ 0 ↔ 8 * baudRate ≤ clock := by
      rw [← Nat.one_le_iff_ne_zero, Nat.le_div_iff_mul_le (by omega)]
      omega
    have high : (clock + 8 * baudRate) / (16 * baudRate) ≤ maxLatch ↔ clock < 1048568 * baudRate := by
      rw [← Nat.lt_succ_iff, Nat.div_lt_iff_lt_mul (by omega), maxLatch]
      omega
    have saturated : maxLatch < maxDivisor := by decide
    rw [Reachable, divisor_eq positive, ← low, ← high]
    omega

namespace Line

theorem Fields.dataBits_mem (f : Fields) : 5 ≤ f.dataBits ∧ f.dataBits ≤ 8 := by
  have low : (f.data &&& 3).toNat ≤ 3 := by
    rw [BitVec.toNat_and]
    exact Nat.and_le_right
  unfold dataBits
  omega

theorem Attributes.framingValid_toRequest {a : Attributes} (low : 5 ≤ a.dataBits) (high : a.dataBits ≤ 8) :
    a.toRequest.framingValid = true := by
  simp [toRequest, Request.framingValid, low, high]

end Line

namespace MiniUart
open Bus

variable (u : MiniUart) {s t : Soc} {saved : Line.Attributes}

/-- The plan for settings that are all named, on a clock on which their rate is within reach. -/
def planFor (t : Soc) (saved : Line.Attributes) : Plan where
  speed := { baudRate := saved.baudRate, divisor := Baud.divisor (u.clockAt t) saved.baudRate }
  line := saved.toRequest.resolved t.lineControl

theorem planAt_toRequest (valid : saved.toRequest.framingValid = true)
    (reachable : Baud.Reachable (u.clockAt t) saved.baudRate) :
    u.planAt t saved.toRequest = .ok (u.planFor t saved) := by
  have speed := Speed.wanted_of_reachable reachable
  have line := Line.Request.resolve_of_valid valid t.lineControl
  have named : saved.toRequest.baudRate = some saved.baudRate := rfl
  simp only [planAt, named, speed, line]
  rfl

theorem planAt_toRequest_unreachable (unreachable : ¬Baud.Reachable (u.clockAt t) saved.baudRate) :
    u.planAt t saved.toRequest = .error (.invalidParameter "baud rate") := by
  have speed := Speed.wanted_of_unreachable unreachable
  have named : saved.toRequest.baudRate = some saved.baudRate := rfl
  simp only [planAt, named, speed]
  rfl

/-- With everything named the answer repeats the request. -/
theorem run_toRequest (mapped : t.Mapped u.registers) (valid : saved.toRequest.framingValid = true)
    (reachable : Baud.Reachable (u.clockAt t) saved.baudRate) {m : Nat} (enough : 12 ≤ m) :
    ((u.setAttributes saved.toRequest).run t m).outcome = some (.ok saved) ∧
      ((u.setAttributes saved.toRequest).run t m).state = programmed t (u.planFor t saved) := by
  obtain ⟨answer, state⟩ := run_setAttributes_of_enough u mapped enough
  have planned := planAt_toRequest u valid reachable
  rw [answer, state, answerAt, chipAfter, planned]
  exact ⟨rfl, rfl⟩

theorem run_toRequest_unreachable (mapped : t.Mapped u.registers)
    (unreachable : ¬Baud.Reachable (u.clockAt t) saved.baudRate) {m : Nat} (enough : 12 ≤ m) :
    ((u.setAttributes saved.toRequest).run t m).outcome = some (.error (.invalidParameter "baud rate")) := by
  obtain ⟨answer, -⟩ := run_setAttributes_of_enough u mapped enough
  rw [answer, answerAt, planAt_toRequest_unreachable u unreachable]
  rfl

/-- Settings once in force are in force again when their plan has been carried out. -/
theorem settingsAt_restored (clock : u.clockAt t = u.clockAt s) (loaded : s.divisor ≠ 0)
    (reachable : Baud.Reachable (u.clockAt s) (u.settingsAt s).baudRate) :
    u.settingsAt (programmed t (u.planFor t (u.settingsAt s))) = u.settingsAt s := by
  have range := (Line.Fields.ofRegister s.lineControl).dataBits_mem
  have faithful : (u.planFor t (u.settingsAt s)).line.Faithful :=
    Line.Request.faithful_resolved (Line.Attributes.framingValid_toRequest range.1 range.2) t.lineControl
  have fits : (u.planFor t (u.settingsAt s)).speed.divisor ≤ Baud.maxLatch := by
    rw [← clock] at reachable
    exact reachable.2.2
  have narrow : s.divisor ≤ Baud.maxDivisor := Nat.le_trans s.divisor_le (by decide)
  have positive : 0 < (u.settingsAt s).baudRate :=
    Nat.pos_of_ne_zero fun zero => reachable.2.1 (by rw [zero]; rfl)
  -- Neither the rate nor the stop bits change on the way: both have been read from a chip already.
  have rate : Baud.rate (u.clockAt t) (Baud.divisor (u.clockAt t) (u.settingsAt s).baudRate) =
      (u.settingsAt s).baudRate := by
    rw [clock]
    exact Baud.rate_divisor_rate (Nat.pos_of_ne_zero loaded) narrow positive
  have stopBits : (u.settingsAt s).stopBits.shown (u.settingsAt s).dataBits = (u.settingsAt s).stopBits :=
    Line.StopBits.shown_decode _ _
  calc u.settingsAt (programmed t (u.planFor t (u.settingsAt s)))
    _ = { u.settingsAt s with
          baudRate := Baud.rate (u.clockAt t) (Baud.divisor (u.clockAt t) (u.settingsAt s).baudRate)
          stopBits := (u.settingsAt s).stopBits.shown (u.settingsAt s).dataBits } :=
      settingsAt_programmed u fits faithful
    _ = u.settingsAt s := by rw [rate, stopBits]

theorem run_inquiry_restored (mapped : t.Mapped u.registers) (clock : u.clockAt t = u.clockAt s)
    (loaded : s.divisor ≠ 0) (reachable : Baud.Reachable (u.clockAt s) (u.settingsAt s).baudRate)
    {k : Nat} (enough : 8 ≤ k) :
    ((u.setAttributes {}).run (programmed t (u.planFor t (u.settingsAt s))) k).outcome =
      some (.ok (u.settingsAt s)) := by
  have restored := settingsAt_restored u clock loaded reachable
  rw [← clock] at reachable
  have latch : (programmed t (u.planFor t (u.settingsAt s))).divisor =
      Baud.divisor (u.clockAt t) (u.settingsAt s).baudRate := Soc.divisor_of_loaded rfl rfl reachable.2.2
  have mapped' : (programmed t (u.planFor t (u.settingsAt s))).Mapped u.registers := mapped.keep rfl rfl
  obtain ⟨answer, -⟩ := run_inquiry u mapped' (by rw [latch]; exact reachable.2.1) enough
  rw [restored] at answer
  exact answer

/-- An inquiry about a line that has a speed saves its settings. From then on, on the same clock, asking for
the saved settings always comes to an answer, and it is granted exactly if the rate is within reach of the
clock. What is granted is what was saved, and the next inquiry shows it again. That the rate does not drift,
even where the divisor does, holds of every clock and every divisor. -/
theorem restored_settings_stable (u : MiniUart) (s : Soc) (mapped : s.Mapped u.registers)
    (loaded : s.divisor ≠ 0) (n : Nat) (enough : 8 ≤ n) :
    let clock := u.clockAt s
    let inquiry := (u.setAttributes {}).run s n
    (∃ saved : Line.Attributes, inquiry.outcome = some (.ok saved) ∧
      inquiry.state.Mapped u.registers ∧ u.clockAt inquiry.state = clock ∧
      ∀ later : Soc, later.Mapped u.registers → u.clockAt later = clock → ∀ m, 12 ≤ m →
        let restore := (u.setAttributes saved.toRequest).run later m
        restore.outcome ≠ none ∧
        ((∃ restored, restore.outcome = some (.ok restored)) ↔
          saved.baudRate ≤ Baud.maxDivisor ∧ 8 * saved.baudRate ≤ clock ∧ clock < 1048568 * saved.baudRate) ∧
        ∀ restored, restore.outcome = some (.ok restored) → restored = saved ∧
          ∀ k, 8 ≤ k → ((u.setAttributes {}).run restore.state k).outcome = some (.ok saved)) ∧
    ∀ c d, 0 < d → d ≤ Baud.maxDivisor → 0 < Baud.rate c d →
      Baud.rate c (Baud.divisor c (Baud.rate c d)) = Baud.rate c d := by
  intro clock inquiry
  obtain ⟨answer, state⟩ := run_inquiry u mapped loaded enough
  refine ⟨⟨u.settingsAt s, answer, ?_, ?_, ?_⟩, fun c d => Baud.rate_divisor_rate⟩
  · rw [state]
    exact mapped.keep rfl rfl
  · rw [state]
    rfl
  intro later mapped' same m enough' restore
  have range := (Line.Fields.ofRegister s.lineControl).dataBits_mem
  have valid : (u.settingsAt s).toRequest.framingValid = true :=
    Line.Attributes.framingValid_toRequest range.1 range.2
  rw [← Baud.reachable_iff]
  by_cases reachable : Baud.Reachable (u.clockAt s) (u.settingsAt s).baudRate
  case pos =>
    have within_reach : Baud.Reachable (u.clockAt later) (u.settingsAt s).baudRate := by
      rw [same]
      exact reachable
    obtain ⟨granted, after⟩ := run_toRequest u mapped' valid within_reach enough'
    refine ⟨by simp [restore, granted], iff_of_true ⟨_, granted⟩ reachable, fun restored answered => ?_⟩
    have same_answer : restored = u.settingsAt s := by
      rw [granted] at answered
      cases answered
      rfl
    refine ⟨same_answer, fun k enough => ?_⟩
    rw [after]
    exact run_inquiry_restored u mapped' same loaded reachable enough
  case neg =>
    have out_of_reach : ¬Baud.Reachable (u.clockAt later) (u.settingsAt s).baudRate := by
      rw [same]
      exact reachable
    have refused := run_toRequest_unreachable u mapped' out_of_reach enough'
    have never : ∀ restored, restore.outcome ≠ some (.ok restored) := by simp [restore, refused]
    exact ⟨by simp [restore, refused], iff_of_false (fun ⟨restored, hr⟩ => never restored hr) reachable,
      fun restored hr => absurd hr (never restored)⟩

/-- The largest divisor gives 477 baud, a rate that is reached best with another divisor. -/
theorem restored_settings_stable_drifting :
    let u : MiniUart := .ofLayout .rpi4 .rpi4
    let s : Soc := { Soc.initial .rpi4 4 with lineControl := 0xB4, divisorHigh := 0xFF, divisorLow := 0xFF }
    let saved : Line.Attributes := {
      baudRate := 477, receiveFifoDepth := 16, timeoutMicros := 1000000, parity := .none, dataBits := 5
      stopBits := .oneAndHalf }
    let found := ((u.setAttributes {}).run s 8).state
    let restore := (u.setAttributes saved.toRequest).run found 12
    s.Mapped u.registers ∧ s.divisor = 65535 ∧
    ((u.setAttributes {}).run s 8).outcome = some (.ok saved) ∧
    found.Mapped u.registers ∧ u.clockAt found = u.clockAt s ∧
    restore.outcome = some (.ok saved) ∧ restore.state.divisor = 65514 ∧
    ((u.setAttributes {}).run restore.state 8).outcome = some (.ok saved) ∧
    Baud.rate 500000000 (Baud.divisor 500000000 (Baud.rate 500000000 65535)) = Baud.rate 500000000 65535 := by
  intro u s saved found restore
  have mapped : s.Mapped u.registers := ⟨rfl, rfl, by decide, by decide⟩
  have answered : ((u.setAttributes {}).run s 8).outcome = some (.ok saved) := by decide +kernel
  obtain ⟨⟨shown, inquiry, mapped', clock, later⟩, fixed⟩ :=
    restored_settings_stable u s mapped (by decide) 8 (Nat.le_refl 8)
  obtain rfl : shown = saved := by
    rw [answered] at inquiry
    cases inquiry
    rfl
  obtain ⟨-, granted, same⟩ := later found mapped' clock 12 (Nat.le_refl 12)
  obtain ⟨restored, outcome⟩ := granted.mpr (by decide)
  obtain ⟨rfl, again⟩ := same restored outcome
  exact ⟨mapped, rfl, answered, mapped', clock, outcome, by decide +kernel, again 8 (Nat.le_refl 8),
    fixed 500000000 65535 (by decide) (by decide) (by decide)⟩

end MiniUart

end ConsoleUart
