import ConsoleUart.MiniUart.Attributes
import ConsoleUart.Proofs.Exact

/-!
# Line attributes, exactly

On a mapped chip a request comes to a plan that depends on the clock, the line control and the latch
alone. Planning is over before the first write, except that a kept speed has to be read from the latch.
Programming puts the plan's divisor and fields in place and touches nothing else.
-/

namespace ConsoleUart

namespace Line

/-- The number of data bits, if the request names one, has a code. -/
def Request.framingValid (r : Request) : Bool := r.dataBits.all fun n => decide (5 ≤ n ∧ n ≤ 8)

/-- The codes that the request leads to: its own, and the current ones for what it leaves out. -/
def Request.fields (r : Request) (current : Fields) : Fields where
  data := (r.dataBits.map fun n => BitVec.ofNat 8 (n - 5)).getD current.data
  stop := (r.stopBits.map StopBits.encode).getD current.stop
  parity := (r.parity.map Parity.encode).getD current.parity

/-- The settings that the request leads to. Stop bits that are kept are read with its number of data bits. -/
def Request.resolved (r : Request) (lcr : Byte) : Resolved :=
  let current := Fields.ofRegister lcr
  let dataBits := r.dataBits.getD current.dataBits
  { fields := r.fields current
    dataBits
    parity := r.parity.getD (Parity.decode current.parity)
    stopBits := r.stopBits.getD (StopBits.decode current.stop dataBits) }

theorem Request.resolve_of_valid {r : Request} (valid : r.framingValid = true) (lcr : Byte) :
    r.resolve lcr = .ok (r.resolved lcr) := by
  obtain ⟨baudRate, depth, timeout, parity, dataBits, stopBits⟩ := r
  cases dataBits with
  | none => cases parity <;> cases stopBits <;> rfl
  | some n =>
    have range : 5 ≤ n ∧ n ≤ 8 := by simpa [framingValid] using valid
    have code : encodeDataBits n = .ok (BitVec.ofNat 8 (n - 5)) := if_pos range
    simp only [resolve, resolveDataBits, code]
    cases parity <;> cases stopBits <;> rfl

theorem Request.resolve_of_invalid {r : Request} (invalid : r.framingValid = false) (lcr : Byte) :
    r.resolve lcr = .error (.invalidParameter "data bits") := by
  obtain ⟨baudRate, depth, timeout, parity, dataBits, stopBits⟩ := r
  cases dataBits with
  | none => cases invalid
  | some n =>
    have range : ¬(5 ≤ n ∧ n ≤ 8) := by simpa [framingValid] using invalid
    have code : encodeDataBits n = .error (.invalidParameter "data bits") := if_neg range
    simp only [resolve, resolveDataBits, code]
    rfl

theorem Request.of_resolve {r : Request} {lcr : Byte} {line : Resolved} (h : r.resolve lcr = .ok line) :
    r.framingValid = true ∧ line = r.resolved lcr := by
  cases valid : r.framingValid with
  | false =>
    rw [r.resolve_of_invalid valid] at h
    cases h
  | true =>
    rw [r.resolve_of_valid valid] at h
    cases h
    exact ⟨rfl, rfl⟩

end Line

/-- The rate fits 32 bits and has a divisor that the latch can hold. -/
def Baud.Reachable (clock baudRate : Nat) : Prop :=
  baudRate ≤ maxDivisor ∧ divisor clock baudRate ≠ 0 ∧ divisor clock baudRate ≤ maxLatch

namespace MiniUart
open Bus

/-- The speed for a wanted baud rate on a given clock. -/
def Speed.wanted (clock baudRate : Nat) : Except Fault Speed :=
  if Baud.maxDivisor < baudRate then .error (.invalidParameter "baud rate")
  else ofDivisor baudRate (Baud.divisor clock baudRate)

theorem Speed.wanted_of_reachable {clock baudRate : Nat} (h : Baud.Reachable clock baudRate) :
    wanted clock baudRate = .ok { baudRate, divisor := Baud.divisor clock baudRate } := by
  obtain ⟨narrow, positive, fits⟩ := h
  rw [wanted, if_neg (by omega), ofDivisor, if_neg (by omega)]

theorem Speed.wanted_of_unreachable {clock baudRate : Nat} (h : ¬Baud.Reachable clock baudRate) :
    wanted clock baudRate = .error (.invalidParameter "baud rate") := by
  unfold wanted ofDivisor
  by_cases wide : Baud.maxDivisor < baudRate
  · rw [if_pos wide]
  · unfold Baud.Reachable at h
    rw [if_neg wide, if_pos (by omega)]

theorem Speed.of_wanted {clock baudRate : Nat} {speed : Speed} (h : wanted clock baudRate = .ok speed) :
    Baud.Reachable clock baudRate ∧ speed = { baudRate, divisor := Baud.divisor clock baudRate } := by
  by_cases reachable : Baud.Reachable clock baudRate
  · rw [wanted_of_reachable reachable] at h
    cases h
    exact ⟨reachable, rfl⟩
  · rw [wanted_of_unreachable reachable] at h
    cases h

variable (u : MiniUart) {s : Soc}

def speedAt (s : Soc) : Except Fault Speed :=
  if s.divisor = 0 then Speed.wanted (u.clockAt s) u.config.baudRate
  else .ok { baudRate := Baud.rate (u.clockAt s) s.divisor, divisor := s.divisor }

def planAt (s : Soc) (request : Line.Request) : Except Fault Plan :=
  match request.baudRate with
  | some baudRate => do
    let speed ← Speed.wanted (u.clockAt s) baudRate
    let line ← request.resolve s.lineControl
    return { speed, line }
  | none => do
    let line ← request.resolve s.lineControl
    let speed ← u.speedAt s
    return { speed, line }

/-! ### Planning -/

/-- Planning reads the latch: the speed is kept and the framing is in order. -/
def probes (request : Line.Request) : Bool := request.baudRate.isNone && request.framingValid

theorem does_speedFor (s : Soc) (baudRate : Nat) : ∃ trace,
    Does (u.speedFor baudRate) s trace (Speed.wanted (u.clockAt s) baudRate) s ∧ written trace = [] := by
  unfold speedFor Speed.wanted
  by_cases wide : Baud.maxDivisor < baudRate
  · rw [if_pos wide, if_pos wide]
    exact ⟨[], does_pure _ s, rfl⟩
  · rw [if_neg wide, if_neg wide]
    exact ⟨_, does_bind (does_divisor u s baudRate) (does_pure _ s), rfl⟩

theorem does_currentSpeed (mapped : s.Mapped u.registers) : ∃ trace,
    Does u.currentSpeed s trace (u.speedAt s) s.closeLatch ∧
      written trace = written (u.registers.latchTrace s) := by
  have latch := RegisterBlock.does_readDivisor mapped
  unfold speedAt
  by_cases zero : s.divisor = 0
  · obtain ⟨trace, speed, quiet⟩ := does_speedFor u s.closeLatch u.config.baudRate
    rw [if_pos zero]
    refine ⟨_, does_bind latch ?_, by rw [written_append, quiet, List.append_nil]⟩
    rw [if_pos zero]
    exact speed
  · rw [if_neg zero]
    refine ⟨u.registers.latchTrace s ++ (u.clockTrace s ++ []), does_bind latch ?_, rfl⟩
    rw [if_neg zero]
    exact does_bind (does_frequency u s.closeLatch) (does_pure _ s.closeLatch)

theorem does_plan_wanted (mapped : s.Mapped u.registers) {request : Line.Request} {baudRate : Nat}
    (wanted : request.baudRate = some baudRate) : ∃ trace,
    Does (u.plan request) s trace (u.planAt s request) s ∧ written trace = [] := by
  obtain ⟨trace, speed, quiet⟩ := does_speedFor u s baudRate
  simp only [plan, planAt, wanted]
  cases hw : Speed.wanted (u.clockAt s) baudRate with
  | error fault =>
    rw [hw] at speed
    refine ⟨trace ++ [], does_bind speed ?_, by rw [written_append, quiet]; rfl⟩
    exact does_pure _ s
  | ok fast =>
    rw [hw] at speed
    have lcr := does_read_lineControl mapped
    refine ⟨trace ++ ([_] ++ []), does_bind speed (does_bind lcr (does_pure _ s)), ?_⟩
    rw [written_append, quiet]
    rfl

theorem does_plan_kept (mapped : s.Mapped u.registers) {request : Line.Request}
    (kept : request.baudRate = none) : ∃ trace,
    Does (u.plan request) s trace (u.planAt s request) (if request.framingValid then s.closeLatch else s) ∧
      written trace = if request.framingValid then written (u.registers.latchTrace s) else [] := by
  have lcr := does_read_lineControl mapped
  simp only [plan, planAt, kept]
  cases valid : request.framingValid with
  | false =>
    have refused := request.resolve_of_invalid valid s.lineControl
    refine ⟨[_] ++ [], does_bind lcr ?_, rfl⟩
    rw [refused]
    exact does_pure _ s
  | true =>
    have resolved := request.resolve_of_valid valid s.lineControl
    obtain ⟨trace, speed, probe⟩ := does_currentSpeed u mapped
    refine ⟨[_] ++ (trace ++ []), does_bind lcr ?_, by rw [List.append_nil, written_append, probe]; rfl⟩
    rw [resolved]
    exact does_bind speed (does_pure _ s.closeLatch)

theorem does_plan (mapped : s.Mapped u.registers) (request : Line.Request) : ∃ trace,
    Does (u.plan request) s trace (u.planAt s request) (if probes request then s.closeLatch else s) ∧
      written trace = if probes request then written (u.registers.latchTrace s) else [] := by
  cases hb : request.baudRate with
  | some baudRate =>
    have blind : probes request = false := by simp [probes, hb]
    simpa only [blind, Bool.false_eq_true, if_false] using does_plan_wanted u mapped hb
  | none =>
    have same : probes request = request.framingValid := by simp [probes, hb]
    simpa only [same] using does_plan_kept u mapped hb

/-! ### Setting attributes -/

/-- The chip as a plan leaves it. -/
def programmed (s : Soc) (plan : Plan) : Soc :=
  { s.loaded plan.speed.divisor with lineControl := plan.line.fields.pack }

theorem does_apply (mapped : s.Mapped u.registers) (plan : Plan) :
    ∃ trace, Does (u.apply plan) s trace () (programmed s plan) := by
  have load := RegisterBlock.does_loadDivisor mapped plan.speed.divisor
  have during : (s.loaded plan.speed.divisor).Mapped u.registers := mapped.keep rfl rfl
  exact ⟨_, does_bind load (does_bind (does_write_lineControl during _) (does_note _ _))⟩

theorem does_setAttributes_error (mapped : s.Mapped u.registers) {request : Line.Request} {fault : Fault}
    (refused : u.planAt s request = .error fault) : ∃ trace,
    Does (u.setAttributes request) s trace (.error fault) (if probes request then s.closeLatch else s) ∧
      written trace = if probes request then written (u.registers.latchTrace s) else [] := by
  obtain ⟨trace, planning, writes⟩ := does_plan u mapped request
  rw [refused] at planning
  refine ⟨trace ++ [], does_bind planning ?_, by rw [List.append_nil, writes]⟩
  exact does_pure _ _

theorem does_setAttributes_ok (mapped : s.Mapped u.registers) {request : Line.Request} {plan : Plan}
    (granted : u.planAt s request = .ok plan) : ∃ trace,
    Does (u.setAttributes request) s trace (.ok (u.attributes request plan))
      (if request.leavesLine then (if probes request then s.closeLatch else s) else programmed s plan) := by
  obtain ⟨trace, planning, -⟩ := does_plan u mapped request
  rw [granted] at planning
  cases hl : request.leavesLine with
  | true =>
    refine ⟨trace ++ [], does_bind planning ?_⟩
    simp only [hl, if_true]
    exact does_pure _ _
  | false =>
    have during : (if probes request then s.closeLatch else s).Mapped u.registers := by
      split <;> exact mapped.keep rfl rfl
    have same : programmed (if probes request then s.closeLatch else s) plan = programmed s plan := by
      split <;> rfl
    obtain ⟨trace', apply⟩ := does_apply u during plan
    rw [same] at apply
    refine ⟨trace ++ (trace' ++ []), does_bind planning ?_⟩
    simp only [hl, Bool.false_eq_true, if_false]
    exact does_bind apply (does_pure _ _)

end MiniUart

end ConsoleUart
