import ConsoleUart.Proofs.Restoring

/-!
# Requests decided exactly

What a request comes to, written out for every chip. A named rate is judged first, then the number of data
bits, and last the configured rate, which matters only where no rate is named and the latch is empty. A
request that passes is answered with what it names and with what the line shows for the rest.
-/

namespace ConsoleUart

namespace Baud

/-- The rates that rounding to the nearest divisor brings into the latch. -/
def good (clock baudRate : Nat) : Bool :=
  decide (baudRate ≤ 0xFFFFFFFF ∧ 8 * baudRate ≤ clock ∧ clock < 1048568 * baudRate)

theorem good_iff {clock baudRate : Nat} : good clock baudRate = true ↔ Reachable clock baudRate := by
  rw [reachable_iff, good, decide_eq_true_iff, maxDivisor]

end Baud

namespace MiniUart
open Bus

variable (u : MiniUart) {s : Soc} {request : Line.Request}

/-- The request names no rate that is not good. -/
def rateGood (s : Soc) (request : Line.Request) : Bool := request.baudRate.all (Baud.good (u.clockAt s))

/-- The request needs the configured rate, and that is not good. -/
def fallbackBad (s : Soc) (request : Line.Request) : Bool :=
  request.baudRate.isNone && s.divisor == 0 && !Baud.good (u.clockAt s) u.config.baudRate

/-- What the request names, and what the line shows for the rest. -/
def settled (s : Soc) (request : Line.Request) : Line.Attributes :=
  let current := Line.Fields.ofRegister s.lineControl
  let dataBits := request.dataBits.getD current.dataBits
  { baudRate := request.baudRate.getD
      (if s.divisor = 0 then u.config.baudRate else Baud.rate (u.clockAt s) s.divisor)
    receiveFifoDepth := request.receiveFifoDepth.getD (min u.config.fifoDepth 0xFFFFFFFF)
    timeoutMicros := request.timeoutMicros.getD u.config.pl011Defaults.timeoutMicros
    parity := request.parity.getD (Line.Parity.decode current.parity)
    dataBits
    stopBits := request.stopBits.getD (Line.StopBits.decode current.stop dataBits) }

def verdict (s : Soc) (request : Line.Request) : Except Fault Line.Attributes :=
  if !u.rateGood s request then .error (.invalidParameter "baud rate")
  else if !request.framingValid then .error (.invalidParameter "data bits")
  else if u.fallbackBad s request then .error (.invalidParameter "baud rate")
  else .ok (u.settled s request)

/-- The divisor that a granted request leaves in force. -/
def divisorInForce (s : Soc) (request : Line.Request) : Nat :=
  match request.baudRate with
  | some baudRate => Baud.divisor (u.clockAt s) baudRate
  | none => if s.divisor = 0 then Baud.divisor (u.clockAt s) u.config.baudRate else s.divisor

/-! ### The plan behind the verdict -/

theorem rateGood_iff {baudRate : Nat} (named : request.baudRate = some baudRate) :
    u.rateGood s request = true ↔ Baud.Reachable (u.clockAt s) baudRate := by
  simp [rateGood, named, Baud.good_iff]

theorem planAt_of_bad_rate (bad : u.rateGood s request = false) :
    u.planAt s request = .error (.invalidParameter "baud rate") := by
  cases named : request.baudRate with
  | none => simp [rateGood, named] at bad
  | some baudRate =>
    have unreachable : ¬Baud.Reachable (u.clockAt s) baudRate := by simp [← u.rateGood_iff named, bad]
    simp only [planAt, named, Speed.wanted_of_unreachable unreachable]
    rfl

theorem planAt_of_bad_framing (good : u.rateGood s request = true) (bad : request.framingValid = false) :
    u.planAt s request = .error (.invalidParameter "data bits") := by
  have refused := request.resolve_of_invalid bad s.lineControl
  cases named : request.baudRate with
  | none =>
    simp only [planAt, named, refused]
    rfl
  | some baudRate =>
    have reachable := (u.rateGood_iff named).mp good
    simp only [planAt, named, Speed.wanted_of_reachable reachable, refused]
    rfl

theorem planAt_of_bad_fallback (framing : request.framingValid = true) (bad : u.fallbackBad s request = true) :
    u.planAt s request = .error (.invalidParameter "baud rate") := by
  simp only [fallbackBad, Bool.and_eq_true, Option.isNone_iff_eq_none, beq_iff_eq, Bool.not_eq_true'] at bad
  obtain ⟨⟨kept, empty⟩, bad⟩ := bad
  have unreachable : ¬Baud.Reachable (u.clockAt s) u.config.baudRate := by simp [← Baud.good_iff, bad]
  have speed : u.speedAt s = .error (.invalidParameter "baud rate") := by
    rw [speedAt, if_pos empty, Speed.wanted_of_unreachable unreachable]
  simp only [planAt, kept, request.resolve_of_valid framing, speed]
  rfl

/-- The plan of a request that passes. -/
def decided (s : Soc) (request : Line.Request) : Plan where
  speed := { baudRate := (u.settled s request).baudRate, divisor := u.divisorInForce s request }
  line := request.resolved s.lineControl

theorem speedAt_of_kept (kept : request.baudRate = none) (fallback : u.fallbackBad s request = false) :
    u.speedAt s = .ok (u.decided s request).speed := by
  by_cases empty : s.divisor = 0
  · have reachable : Baud.Reachable (u.clockAt s) u.config.baudRate := by
      simpa [fallbackBad, kept, empty, Baud.good_iff] using fallback
    simp [speedAt, decided, settled, divisorInForce, kept, empty, Speed.wanted_of_reachable reachable]
  · simp [speedAt, decided, settled, divisorInForce, kept, empty]

theorem planAt_of_good (rate : u.rateGood s request = true) (framing : request.framingValid = true)
    (fallback : u.fallbackBad s request = false) : u.planAt s request = .ok (u.decided s request) := by
  have line := request.resolve_of_valid framing s.lineControl
  cases named : request.baudRate with
  | some baudRate =>
    have reachable := (u.rateGood_iff named).mp rate
    simp only [planAt, decided, settled, divisorInForce, named, Speed.wanted_of_reachable reachable, line]
    rfl
  | none =>
    simp only [planAt, named, line, u.speedAt_of_kept named fallback]
    rfl

/-- Plan and verdict fail together, with the same fault, or pass together. -/
theorem planAt_cases (u : MiniUart) (s : Soc) (request : Line.Request) :
    (∃ fault, u.planAt s request = .error fault ∧ u.verdict s request = .error fault) ∨
      (u.planAt s request = .ok (u.decided s request) ∧
        u.verdict s request = .ok (u.attributes request (u.decided s request))) := by
  unfold verdict
  cases rate : u.rateGood s request with
  | false => exact Or.inl ⟨_, u.planAt_of_bad_rate rate, rfl⟩
  | true =>
    cases framing : request.framingValid with
    | false => exact Or.inl ⟨_, u.planAt_of_bad_framing rate framing, rfl⟩
    | true =>
      cases fallback : u.fallbackBad s request with
      | true => exact Or.inl ⟨_, u.planAt_of_bad_fallback framing fallback, rfl⟩
      | false => exact Or.inr ⟨u.planAt_of_good rate framing fallback, rfl⟩

theorem answerAt_eq_verdict : u.answerAt s request = u.verdict s request := by
  unfold answerAt
  rcases u.planAt_cases s request with ⟨fault, planned, same⟩ | ⟨planned, same⟩
  · rw [planned, same]
    rfl
  · rw [planned, same]
    rfl

theorem chipAfter_of_refused {fault : Fault} (refused : u.verdict s request = .error fault) :
    u.chipAfter s request = if probes request then s.closeLatch else s := by
  unfold chipAfter
  rcases u.planAt_cases s request with ⟨fault, planned, -⟩ | ⟨-, same⟩
  · rw [planned]
  · rw [same] at refused
    cases refused

theorem planAt_of_granted {answer : Line.Attributes} (granted : u.verdict s request = .ok answer) :
    u.planAt s request = .ok (u.decided s request) := by
  rcases u.planAt_cases s request with ⟨fault, -, same⟩ | ⟨planned, -⟩
  · rw [same] at granted
    cases granted
  · exact planned

/-! ### What is applied -/

/-- The chip holds the divisor in force and the codes that the request leads to, and is otherwise as it was. -/
structure Applied (s : Soc) (request : Line.Request) (t : Soc) : Prop where
  divisor : t.divisor = u.divisorInForce s request
  lineControl : t.lineControl = (request.fields (.ofRegister s.lineControl)).pack
  rest : t = { s with
    lineControl := t.lineControl, divisorHigh := t.divisorHigh, divisorLow := t.divisorLow }

theorem applied_decided (planned : u.planAt s request = .ok (u.decided s request)) :
    u.Applied s request (programmed s (u.decided s request)) := by
  obtain ⟨honoured, -, divisor⟩ := honoured_of_planAt u planned
  have fits : (u.decided s request).speed.divisor ≤ Baud.maxLatch := by
    rw [divisor]
    exact honoured.fits
  have line := line_programmed (s := s) fits
  exact ⟨congrArg LineState.divisor line, rfl, rfl⟩

/-- The run gives the verdict. Refused and inquiring requests change the latch bit at most, others are
applied. -/
structure Decides (s : Soc) (request : Line.Request) (r : Run Soc Bus.Event (Except Fault Line.Attributes)) :
    Prop where
  outcome : r.outcome = some (u.verdict s request)
  refused : ∀ fault, u.verdict s request = .error fault →
    r.state = if request.baudRate.isNone && request.framingValid then
      { s with lineControl := Bits.clear s.lineControl latchBit } else s
  inquired : ∀ answer, u.verdict s request = .ok answer → request.leavesLine = true →
    r.state = { s with lineControl := Bits.clear s.lineControl latchBit }
  applied : ∀ answer, u.verdict s request = .ok answer → request.leavesLine = false →
    u.Applied s request r.state

/-- Whatever the chip holds, with its latch open or closed, a request is over after twelve accesses at most,
and it is decided and applied as the clock, the line control and the latch say. -/
theorem setAttributes_decides_exactly (u : MiniUart) (s : Soc) (mapped : s.Mapped u.registers)
    (request : Line.Request) (n : Nat) :
    (12 ≤ n → ((u.setAttributes request).run s n).outcome ≠ none) ∧
    (((u.setAttributes request).run s n).outcome ≠ none →
      u.Decides s request ((u.setAttributes request).run s n)) := by
  refine ⟨(endsWithin_setAttributes u request).completes s, fun ended => ?_⟩
  obtain ⟨answer, state⟩ := run_setAttributes u mapped ended
  refine ⟨?_, ?_, ?_, ?_⟩
  · rw [answer, answerAt_eq_verdict]
  · intro fault refused
    exact state.trans (chipAfter_of_refused u refused)
  · intro answer _ leaves
    exact state.trans (chipAfter_of_leavesLine u leaves)
  · intro answer granted names
    have planned := planAt_of_granted u granted
    have after : u.chipAfter s request = programmed s (u.decided s request) := by
      simp [chipAfter, planned, names]
    rw [state, after]
    exact applied_decided u planned

/-- Five data bits are asked for on an open latch; stop bits, parity and speed stay, and one and a half stop
bits are shown where it had been two. -/
theorem setAttributes_decides_exactly_open_latch :
    let u : MiniUart := .ofLayout .rpi4 .rpi4
    let s : Soc := { Soc.initial .rpi4 4 with lineControl := 0xDE, divisorHigh := 0x01, divisorLow := 0x0F }
    let request : Line.Request := { dataBits := some 5, timeoutMicros := some 0 }
    let run := (u.setAttributes request).run s 12
    s.Mapped u.registers ∧ u.verdict s request = .ok {
      baudRate := 115314, receiveFifoDepth := 16, timeoutMicros := 0, parity := .even, dataBits := 5
      stopBits := .oneAndHalf } ∧
    run.outcome ≠ none ∧ u.Decides s request run ∧ request.leavesLine = false ∧
    run.state.divisor = 271 ∧ run.state.lineControl = 0x1C := by
  intro u s request run
  have mapped : s.Mapped u.registers := ⟨rfl, rfl, by decide, by decide⟩
  have granted : u.verdict s request = .ok {
      baudRate := 115314, receiveFifoDepth := 16, timeoutMicros := 0, parity := .even, dataBits := 5
      stopBits := .oneAndHalf } := by decide +kernel
  obtain ⟨completes, decides⟩ := setAttributes_decides_exactly u s mapped request 12
  have ended := completes (Nat.le_refl 12)
  have applied : u.Applied s request run.state := (decides ended).applied _ granted rfl
  have divisor : u.divisorInForce s request = 271 := by decide +kernel
  have packed : (request.fields (.ofRegister s.lineControl)).pack = 0x1C := by decide +kernel
  exact ⟨mapped, granted, ended, decides ended, rfl, applied.divisor.trans divisor,
    applied.lineControl.trans packed⟩

end MiniUart

end ConsoleUart
