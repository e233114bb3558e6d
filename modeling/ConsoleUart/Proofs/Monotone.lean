import ConsoleUart.Proofs.Deciding

/-!
# Order of rates and divisors

A higher rate never has a larger divisor, and a larger divisor never gives a higher rate. Rounding, ties and
saturation keep the order. So the rates that a clock brings within reach have no gaps, and of two rates that
are in reach the lower one is not shown as the higher one once it has been applied.
-/

namespace ConsoleUart

namespace Baud

variable {clock clock' a b d r r' : Nat}

namespace Rounds

theorem mono (h : Rounds clock d r) (h' : Rounds clock' d r') (le : clock ≤ clock') : r ≤ r' := by
  obtain ⟨low, -⟩ := h
  obtain ⟨-, high⟩ := h'
  refine Nat.le_of_not_lt fun more => ?_
  have step : d * (r' + 1) ≤ d * r := Nat.mul_le_mul_left d more
  rw [Nat.mul_succ] at step
  omega

theorem anti (h : Rounds clock a r) (h' : Rounds clock b r') (le : a ≤ b) : r' ≤ r := by
  obtain ⟨-, high⟩ := h
  obtain ⟨low, -⟩ := h'
  refine Nat.le_of_not_lt fun more => ?_
  -- One more at the larger divisor outweighs both halves.
  have step : b * (r + 1) ≤ b * r' := Nat.mul_le_mul_left b more
  have wide : a * r ≤ b * r := Nat.mul_le_mul_right r le
  rw [Nat.mul_succ] at step
  omega

end Rounds

theorem divisor_anti (ha : 0 < a) (le : a ≤ b) : divisor clock b ≤ divisor clock a := by
  have hb : 0 < b := Nat.lt_of_lt_of_le ha le
  have coarse : Rounds clock a ((clock + 8 * a) / (16 * a)) := (div_eq_iff_rounds ha).mp rfl
  have fine : Rounds clock b ((clock + 8 * b) / (16 * b)) := (div_eq_iff_rounds hb).mp rfl
  have order := coarse.anti fine le
  rw [divisor_eq ha, divisor_eq hb]
  omega

theorem divisor_mono (le : clock ≤ clock') (b : Nat) : divisor clock b ≤ divisor clock' b := by
  rcases Nat.eq_zero_or_pos b with rfl | hb
  · simp [divisor]
  · have slow : Rounds clock b ((clock + 8 * b) / (16 * b)) := (div_eq_iff_rounds hb).mp rfl
    have fast : Rounds clock' b ((clock' + 8 * b) / (16 * b)) := (div_eq_iff_rounds hb).mp rfl
    have order := slow.mono fast le
    rw [divisor_eq hb, divisor_eq hb]
    omega

theorem rate_anti (ha : 0 < a) (le : a ≤ b) : rate clock b ≤ rate clock a :=
  (rounds_rate ha).anti (rounds_rate (Nat.lt_of_lt_of_le ha le)) le

theorem Reachable.positive (h : Reachable clock b) : 0 < b := by
  refine Nat.pos_of_ne_zero fun zero => h.2.1 ?_
  simp [zero, divisor]

/-- The rates within reach have no gaps. -/
theorem Reachable.between (low : Reachable clock a) (high : Reachable clock b) (hl : a ≤ r) (hr : r ≤ b) :
    Reachable clock r := by
  have positive : 0 < a := low.positive
  obtain ⟨-, -, fits⟩ := low
  obtain ⟨narrow, nonzero, -⟩ := high
  have below : divisor clock r ≤ divisor clock a := divisor_anti positive hl
  have above : divisor clock b ≤ divisor clock r := divisor_anti (by omega) hr
  refine ⟨?_, ?_, ?_⟩ <;> omega

end Baud

namespace MiniUart
open Bus

variable (u : MiniUart) {s t t' : Soc} {request : Line.Request} {clock baudRate n : Nat}

/-- `t` is what a granted request for this rate has left of a chip on this clock. -/
def RateApplied (clock baudRate : Nat) (t : Soc) : Prop :=
  ∃ s request n answer, s.Mapped u.registers ∧ u.clockAt s = clock ∧ request.baudRate = some baudRate ∧
    ((u.setAttributes request).run s n).outcome = some (.ok answer) ∧
    ((u.setAttributes request).run s n).state = t

/-- What stands in the latch of such a chip. -/
structure Carries (clock baudRate : Nat) (t : Soc) : Prop where
  mapped : t.Mapped u.registers
  onClock : u.clockAt t = clock
  reachable : Baud.Reachable clock baudRate
  divisor : t.divisor = Baud.divisor clock baudRate

theorem RateApplied.carries {u : MiniUart} (h : u.RateApplied clock baudRate t) :
    u.Carries clock baudRate t := by
  obtain ⟨s, request, n, answer, mapped, onClock, named, answered, left⟩ := h
  obtain ⟨plan, planned, -, state⟩ := of_granted u mapped answered
  have names : request.leavesLine = false := by simp [Line.Request.leavesLine, named]
  have after : t = programmed s plan := by
    rw [← left, state, names]
    rfl
  obtain ⟨-, wanted⟩ := of_planAt u planned
  rw [named, Option.elim_some, onClock] at wanted
  obtain ⟨reachable, speed⟩ := Speed.of_wanted wanted
  have latch : t.divisor = plan.speed.divisor := by
    rw [after]
    refine Soc.divisor_of_loaded rfl rfl ?_
    rw [speed]
    exact reachable.2.2
  rw [speed] at latch
  refine ⟨?_, ?_, reachable, latch⟩
  · rw [after]
    exact mapped.keep rfl rfl
  · rw [after]
    exact onClock

theorem Carries.shown {u : MiniUart} (h : u.Carries clock baudRate t) (enough : 8 ≤ n) :
    ∃ shown : Line.Attributes, ((u.setAttributes {}).run t n).outcome = some (.ok shown) ∧
      shown.baudRate = Baud.rate clock (Baud.divisor clock baudRate) := by
  have loaded : t.divisor ≠ 0 := by
    rw [h.divisor]
    exact h.reachable.2.1
  have rate : (u.settingsAt t).baudRate = Baud.rate (u.clockAt t) t.divisor := rfl
  rw [h.onClock, h.divisor] at rate
  exact ⟨u.settingsAt t, (run_inquiry u h.mapped loaded enough).1, rate⟩

/-- A request for a rate within reach is granted, if its number of data bits has a code. -/
theorem granted_of_reachable (mapped : s.Mapped u.registers) (named : request.baudRate = some baudRate)
    (framing : request.framingValid = true) (reachable : Baud.Reachable (u.clockAt s) baudRate)
    (enough : 12 ≤ n) :
    ∃ answer, ((u.setAttributes request).run s n).outcome = some (.ok answer) := by
  have rate : u.rateGood s request = true := (u.rateGood_iff named).mpr reachable
  have fallback : u.fallbackBad s request = false := by simp [fallbackBad, named]
  have planned := planAt_of_good u rate framing fallback
  have answer : ((u.setAttributes request).run s n).outcome = some (u.answerAt s request) :=
    (run_setAttributes_of_enough u mapped enough).1
  rw [answerAt, planned] at answer
  exact ⟨_, answer⟩

/-- Divisors go down as rates go up and up with the clock, and rates go down as divisors go up. If a lower and
a higher rate have been granted on one clock, every rate between them is granted as well, with any framing that
has a code, and the rate read back for the lower one is not above the rate read back for the higher. -/
theorem programming_monotone (u : MiniUart) :
    (∀ clock b₁ b₂, 1 ≤ b₁ → b₁ ≤ b₂ → Baud.divisor clock b₂ ≤ Baud.divisor clock b₁) ∧
    (∀ clock₁ clock₂ b, clock₁ ≤ clock₂ → Baud.divisor clock₁ b ≤ Baud.divisor clock₂ b) ∧
    (∀ clock d₁ d₂, 1 ≤ d₁ → d₁ ≤ d₂ → Baud.rate clock d₂ ≤ Baud.rate clock d₁) ∧
    ∀ clock b₁ b₂ t₁ t₂, u.RateApplied clock b₁ t₁ → u.RateApplied clock b₂ t₂ → b₁ ≤ b₂ →
      (∀ b, b₁ ≤ b → b ≤ b₂ → ∀ (s : Soc) (request : Line.Request) (n : Nat), s.Mapped u.registers →
        u.clockAt s = clock → request.baudRate = some b → request.framingValid = true → 12 ≤ n →
        ∃ answer, ((u.setAttributes request).run s n).outcome = some (.ok answer)) ∧
      ∀ n₁ n₂, 8 ≤ n₁ → 8 ≤ n₂ → ∃ shown₁ shown₂ : Line.Attributes,
        ((u.setAttributes {}).run t₁ n₁).outcome = some (.ok shown₁) ∧
        ((u.setAttributes {}).run t₂ n₂).outcome = some (.ok shown₂) ∧
        shown₁.baudRate ≤ shown₂.baudRate := by
  refine ⟨fun clock b₁ b₂ => Baud.divisor_anti, fun c₁ c₂ b le => Baud.divisor_mono le b,
    fun clock d₁ d₂ => Baud.rate_anti, ?_⟩
  intro clock b₁ b₂ t₁ t₂ applied₁ applied₂ le
  have low := applied₁.carries
  have high := applied₂.carries
  constructor
  · intro b hl hr s request n mapped onClock named framing enough
    have reachable : Baud.Reachable (u.clockAt s) b := by
      rw [onClock]
      exact low.reachable.between high.reachable hl hr
    exact granted_of_reachable u mapped named framing reachable enough
  · intro n₁ n₂ enough₁ enough₂
    obtain ⟨shown₁, answer₁, rate₁⟩ := low.shown enough₁
    obtain ⟨shown₂, answer₂, rate₂⟩ := high.shown enough₂
    refine ⟨shown₁, shown₂, answer₁, answer₂, ?_⟩
    -- The lower rate has the larger divisor, and that gives the lower rate.
    have divisors : Baud.divisor clock b₂ ≤ Baud.divisor clock b₁ :=
      Baud.divisor_anti low.reachable.positive le
    rw [rate₁, rate₂]
    exact Baud.rate_anti (Nat.pos_of_ne_zero high.reachable.2.1) divisors

/-- The lowest rate and the highest one that a clock of 500 MHz can reach. The highest asks for half a unit and
gets the divisor one by rounding upwards; one hertz less and it is out of reach. -/
theorem programming_monotone_whole_range :
    let u : MiniUart := .ofLayout .rpi4 .rpi4
    let s : Soc := { Soc.initial .rpi4 4 with lineControl := 0x93 }
    let low : Line.Request := { baudRate := some 477, stopBits := some .two }
    let high : Line.Request := { baudRate := some 62500000 }
    let between : Line.Request := { baudRate := some 115200, dataBits := some 5 }
    let t₁ := ((u.setAttributes low).run s 12).state
    let t₂ := ((u.setAttributes high).run t₁ 12).state
    s.Mapped u.registers ∧ u.clockAt s = 500000000 ∧
    u.RateApplied 500000000 477 t₁ ∧ u.RateApplied 500000000 62500000 t₂ ∧
    Baud.divisor 500000000 62500000 = 1 ∧ Baud.divisor 499999999 62500000 = 0 ∧
    (Baud.divisor 500000000 62500000 ≤ Baud.divisor 500000000 477 ∧
      Baud.divisor 499999999 62500000 ≤ Baud.divisor 500000000 62500000 ∧
      Baud.rate 500000000 65514 ≤ Baud.rate 500000000 1) ∧
    (∃ answer, ((u.setAttributes between).run s 12).outcome = some (.ok answer)) ∧
    ∃ shown₁ shown₂ : Line.Attributes, ((u.setAttributes {}).run t₁ 8).outcome = some (.ok shown₁) ∧
      ((u.setAttributes {}).run t₂ 8).outcome = some (.ok shown₂) ∧ shown₁.baudRate ≤ shown₂.baudRate := by
  intro u s low high between t₁ t₂
  have mapped : s.Mapped u.registers := ⟨rfl, rfl, by decide, by decide⟩
  have clock : u.clockAt s = 500000000 := by decide +kernel
  have answered : ((u.setAttributes low).run s 12).outcome = some (.ok {
      baudRate := 477, receiveFifoDepth := 16, timeoutMicros := 1000000, parity := .none, dataBits := 8
      stopBits := .two }) := by decide +kernel
  have applied : u.RateApplied 500000000 477 t₁ := ⟨s, low, 12, _, mapped, clock, rfl, answered, rfl⟩
  have base : t₁.base = u.registers.base := by decide +kernel
  have stride : t₁.stride = u.registers.stride := by decide +kernel
  have mapped' : t₁.Mapped u.registers := ⟨base, stride, by decide, by decide⟩
  have clock' : u.clockAt t₁ = 500000000 := by decide +kernel
  have answered' : ((u.setAttributes high).run t₁ 12).outcome = some (.ok {
      baudRate := 62500000, receiveFifoDepth := 16, timeoutMicros := 1000000, parity := .none, dataBits := 8
      stopBits := .two }) := by decide +kernel
  have applied' : u.RateApplied 500000000 62500000 t₂ :=
    ⟨t₁, high, 12, _, mapped', clock', rfl, answered', rfl⟩
  obtain ⟨rates, clocks, divisors, device⟩ := programming_monotone u
  obtain ⟨granted, shown⟩ := device 500000000 477 62500000 t₁ t₂ applied applied' (by decide)
  exact ⟨mapped, clock, applied, applied', by decide +kernel, by decide +kernel,
    ⟨rates 500000000 477 62500000 (by decide) (by decide), clocks 499999999 500000000 62500000 (by decide),
      divisors 500000000 1 65514 (by decide) (by decide)⟩,
    granted 115200 (by decide) (by decide) s between 12 mapped clock rfl rfl (Nat.le_refl 12),
    shown 8 8 (Nat.le_refl 8) (Nat.le_refl 8)⟩

end MiniUart

end ConsoleUart
