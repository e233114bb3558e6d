import ConsoleUart.Proofs.Grants
import ConsoleUart.Proofs.Inquiry

/-!
# Granting requests

On a mapped chip with its latch closed, a granted request settles the line, and a refused one leaves the
chip as it was.
-/

namespace ConsoleUart

namespace MiniUart
open Bus

variable (u : MiniUart) {s : Soc}

theorem of_speedAt {speed : Speed} (h : u.speedAt s = .ok speed) :
    speed.divisor = (if s.divisor = 0 then Baud.divisor (u.clockAt s) u.config.baudRate else s.divisor) ∧
      speed.divisor ≠ 0 ∧ speed.divisor ≤ Baud.maxLatch := by
  unfold speedAt at h
  by_cases zero : s.divisor = 0
  · rw [if_pos zero] at h ⊢
    obtain ⟨⟨-, positive, fits⟩, same⟩ := Speed.of_wanted h
    rw [same]
    exact ⟨rfl, positive, fits⟩
  · rw [if_neg zero] at h ⊢
    cases h
    exact ⟨rfl, zero, s.divisor_le⟩

theorem of_planAt {request : Line.Request} {plan : Plan} (granted : u.planAt s request = .ok plan) :
    request.resolve s.lineControl = .ok plan.line ∧
      (request.baudRate.elim (u.speedAt s) (Speed.wanted (u.clockAt s))) = .ok plan.speed := by
  cases hb : request.baudRate with
  | some baudRate =>
    simp only [planAt, hb] at granted
    cases hs : Speed.wanted (u.clockAt s) baudRate with
    | error fault => rw [hs] at granted; cases granted
    | ok speed =>
      cases hr : request.resolve s.lineControl with
      | error fault => rw [hs, hr] at granted; cases granted
      | ok line =>
        rw [hs, hr] at granted
        cases granted
        exact ⟨rfl, hs⟩
  | none =>
    simp only [planAt, hb] at granted
    cases hr : request.resolve s.lineControl with
    | error fault => rw [hr] at granted; cases granted
    | ok line =>
      cases hs : u.speedAt s with
      | error fault => rw [hr, hs] at granted; cases granted
      | ok speed =>
        rw [hr, hs] at granted
        cases granted
        exact ⟨rfl, rfl⟩

theorem honoured_of_planAt {request : Line.Request} {plan : Plan} (granted : u.planAt s request = .ok plan) :
    (Grant.mk request (u.clockAt s)).Honoured u.config.baudRate s.line ∧
      plan.line.fields = request.fields s.line.fields ∧
      plan.speed.divisor = (Grant.mk request (u.clockAt s)).divisor u.config.baudRate s.line.divisor := by
  obtain ⟨resolved, speed⟩ := of_planAt u granted
  obtain ⟨framing, same⟩ := Line.Request.of_resolve resolved
  have fields : plan.line.fields = request.fields s.line.fields := congrArg Line.Resolved.fields same
  have divisor : plan.speed.divisor =
      (Grant.mk request (u.clockAt s)).divisor u.config.baudRate s.line.divisor ∧
        plan.speed.divisor ≠ 0 ∧ plan.speed.divisor ≤ Baud.maxLatch := by
    unfold Grant.divisor Grant.divisor?
    cases hb : request.baudRate with
    | some baudRate =>
      rw [hb] at speed
      obtain ⟨⟨-, positive, fits⟩, same⟩ := Speed.of_wanted speed
      rw [same]
      exact ⟨rfl, positive, fits⟩
    | none =>
      rw [hb] at speed
      exact of_speedAt u speed
  obtain ⟨same, positive, fits⟩ := divisor
  rw [same] at positive fits
  exact ⟨⟨framing, positive, fits⟩, fields, same⟩

/-! ### What becomes of the line -/

theorem line_programmed {plan : Plan} (fits : plan.speed.divisor ≤ Baud.maxLatch) :
    (programmed s plan).line = { lineControl := plan.line.fields.pack, divisor := plan.speed.divisor } := by
  have latch : (programmed s plan).divisor = plan.speed.divisor := Soc.divisor_of_loaded rfl rfl fits
  rw [Soc.line, latch]
  rfl

theorem line_setAttributes_granted (mapped : s.Mapped u.registers) (closed : s.latchOpen = false)
    {request : Line.Request} {n : Nat} {attributes : Line.Attributes}
    (granted : ((u.setAttributes request).run s n).outcome = some (.ok attributes)) :
    (Grant.mk request (u.clockAt s)).Honoured u.config.baudRate s.line ∧
      ((u.setAttributes request).run s n).state.line =
        (Grant.mk request (u.clockAt s)).settle u.config.baudRate s.line := by
  obtain ⟨plan, planned, -, state⟩ := of_granted u mapped granted
  obtain ⟨honoured, fields, divisor⟩ := honoured_of_planAt u planned
  refine ⟨honoured, ?_⟩
  rw [state, Grant.settle, Soc.closeLatch_of_closed closed]
  cases request.leavesLine with
  | true => rfl
  | false =>
    have fits : plan.speed.divisor ≤ Baud.maxLatch := by
      rw [divisor]
      exact honoured.fits
    simp only [Bool.false_eq_true, if_false]
    rw [line_programmed fits, fields, divisor]

theorem setAttributes_refused (mapped : s.Mapped u.registers) (closed : s.latchOpen = false)
    {request : Line.Request} {n : Nat} {fault : Fault}
    (refused : ((u.setAttributes request).run s n).outcome = some (.error fault)) :
    ((u.setAttributes request).run s n).state = s := by
  rw [state_of_refused u mapped refused, Soc.closeLatch_of_closed closed, ite_self]

end MiniUart

end ConsoleUart
