import ConsoleUart.Proofs.Granting
import ConsoleUart.Proofs.Inquiry
import ConsoleUart.Proofs.Rounding

/-!
# Reading settings back

What has been granted is what an inquiry shows right afterwards, as far as the device can tell: one and a
half and two stop bits are one code, and the rate is that of the divisor. The rate shown is within rounding
of the rate granted.
-/

namespace ConsoleUart

namespace Line

/-- The stop bits as they are read back. -/
def StopBits.shown (s : StopBits) (dataBits : Nat) : StopBits :=
  if s = one then one else if dataBits = 5 then oneAndHalf else two

theorem StopBits.shown_decode (c : Byte) (dataBits : Nat) :
    (decode c dataBits).shown dataBits = decode c dataBits := by
  unfold decode shown
  split
  · rfl
  · split <;> rfl

/-- The settings that the codes stand for. -/
def Fields.settings (f : Fields) : Resolved where
  fields := f
  dataBits := f.dataBits
  parity := Parity.decode f.parity
  stopBits := StopBits.decode f.stop f.dataBits

theorem StopBits.decode_eq_one_iff (c : Byte) (dataBits : Nat) : decode c dataBits = one ↔ c &&& 1 = 0 := by
  unfold decode
  split
  case isTrue zero => exact iff_of_true rfl zero
  case isFalse set => exact iff_of_false (by split <;> nofun) set

theorem StopBits.encode_and_one (s : StopBits) : s.encode &&& 1 = 0 ↔ s = one := by
  cases s <;> decide

theorem Fields.dataBits_code {n : Nat} (low : 5 ≤ n) (high : n ≤ 8) :
    (BitVec.ofNat 8 (n - 5) &&& 3).toNat + 5 = n := by
  obtain rfl | rfl | rfl | rfl : n = 5 ∨ n = 6 ∨ n = 7 ∨ n = 8 := by omega
  all_goals decide

/-- The codes stand for the settings. -/
structure Resolved.Faithful (line : Resolved) : Prop where
  inRange : line.fields.InRange
  dataBits : line.fields.dataBits = line.dataBits
  parity : Parity.decode line.fields.parity = line.parity
  stopBits : line.fields.stop &&& 1 = 0 ↔ line.stopBits = .one

/-- Whatever a request names, the codes that it leads to stand for the settings that it leads to. -/
theorem Request.faithful_resolved {r : Request} (valid : r.framingValid = true) (lcr : Byte) :
    (r.resolved lcr).Faithful := by
  have inRange : (r.resolved lcr).fields.InRange := inRange_fields valid (Fields.inRange_ofRegister lcr)
  obtain ⟨baudRate, depth, timeout, parity, dataBits, stopBits⟩ := r
  refine ⟨inRange, ?_, ?_, ?_⟩
  · cases dataBits with
    | none => rfl
    | some n =>
      have range : 5 ≤ n ∧ n ≤ 8 := by simpa [framingValid] using valid
      exact Fields.dataBits_code range.1 range.2
  · cases parity with
    | none => rfl
    | some p => exact p.decode_encode
  · cases stopBits with
    | none => exact (StopBits.decode_eq_one_iff _ _).symm
    | some s => exact s.encode_and_one

/-- The codes read as the settings, but for the stop bits that share a code. -/
theorem Resolved.Faithful.settings {line : Resolved} (h : line.Faithful) :
    line.fields.settings = { line with stopBits := line.stopBits.shown line.dataBits } := by
  have stopBits : StopBits.decode line.fields.stop line.dataBits = line.stopBits.shown line.dataBits := by
    simp only [StopBits.decode, StopBits.shown, h.stopBits]
  rw [Fields.settings, h.dataBits, h.parity, stopBits]

end Line

/-- The rate and the divisor go together on this clock. -/
structure MiniUart.Speed.Sound (clock : Nat) (speed : Speed) : Prop where
  positive : 0 < speed.divisor
  fits : speed.divisor ≤ Baud.maxLatch
  close : 2 * speed.divisor * ((Baud.rate clock speed.divisor : Int) - speed.baudRate).natAbs ≤
    speed.baudRate + speed.divisor

namespace MiniUart
open Bus

variable (u : MiniUart) {s : Soc} {request : Line.Request} {n : Nat}

theorem Speed.sound_of_wanted {clock baudRate : Nat} {speed : Speed}
    (h : wanted clock baudRate = .ok speed) : speed.Sound clock := by
  obtain ⟨⟨-, nonzero, fits⟩, same⟩ := of_wanted h
  rw [same]
  have divisor : Baud.Rounds clock baudRate (Baud.divisor clock baudRate) := by
    have positive : 0 < baudRate := Nat.pos_of_ne_zero fun zero => nonzero (by rw [zero]; rfl)
    have narrow : Baud.maxLatch < Baud.maxDivisor := by decide
    exact Baud.rounds_divisor positive (by omega)
  have positive := Nat.pos_of_ne_zero nonzero
  exact ⟨positive, fits, divisor.error_le (Baud.rounds_rate positive)⟩

theorem sound_of_speedAt {speed : Speed} (h : u.speedAt s = .ok speed) : speed.Sound (u.clockAt s) := by
  unfold speedAt at h
  by_cases empty : s.divisor = 0
  · rw [if_pos empty] at h
    exact Speed.sound_of_wanted h
  · rw [if_neg empty] at h
    cases h
    exact ⟨Nat.pos_of_ne_zero empty, s.divisor_le, by simp⟩

theorem sound_of_planAt {plan : Plan} (granted : u.planAt s request = .ok plan) :
    plan.speed.Sound (u.clockAt s) := by
  obtain ⟨-, speed⟩ := of_planAt u granted
  cases hb : request.baudRate with
  | none =>
    rw [hb] at speed
    exact sound_of_speedAt u speed
  | some baudRate =>
    rw [hb] at speed
    exact Speed.sound_of_wanted speed

/-! ### Inquiries -/

/-- The settings in force, for a latch that is not empty. -/
def settingsAt (s : Soc) : Line.Attributes := u.attributes {}
  { speed := { baudRate := Baud.rate (u.clockAt s) s.divisor, divisor := s.divisor }
    line := (Line.Fields.ofRegister s.lineControl).settings }

/-- An inquiry about a line that has a speed answers with the settings in force. -/
theorem run_inquiry (mapped : s.Mapped u.registers) (loaded : s.divisor ≠ 0) (enough : 8 ≤ n) :
    ((u.setAttributes {}).run s n).outcome = some (.ok (u.settingsAt s)) ∧
      ((u.setAttributes {}).run s n).state = s.closeLatch := by
  have ended : ((u.setAttributes {}).run s n).outcome ≠ none :=
    (endsWithin_inquiry u rfl).completes s enough
  obtain ⟨answer, state⟩ := run_setAttributes u mapped ended
  have speed : u.speedAt s = .ok { baudRate := Baud.rate (u.clockAt s) s.divisor, divisor := s.divisor } :=
    if_neg loaded
  have plan : u.planAt s {} = .ok
      { speed := { baudRate := Baud.rate (u.clockAt s) s.divisor, divisor := s.divisor }
        line := (Line.Fields.ofRegister s.lineControl).settings } := by
    simp only [planAt, speed]
    rfl
  rw [answerAt, plan] at answer
  exact ⟨answer, state.trans (chipAfter_of_leavesLine u rfl)⟩

/-- What a programmed chip is found to hold. -/
theorem settingsAt_programmed {plan : Plan} (fits : plan.speed.divisor ≤ Baud.maxLatch)
    (faithful : plan.line.Faithful) : u.settingsAt (programmed s plan) = u.attributes {}
      { speed := { plan.speed with baudRate := Baud.rate (u.clockAt s) plan.speed.divisor }
        line := { plan.line with stopBits := plan.line.stopBits.shown plan.line.dataBits } } := by
  have latch : (programmed s plan).divisor = plan.speed.divisor := Soc.divisor_of_loaded rfl rfl fits
  have fields : Line.Fields.ofRegister (programmed s plan).lineControl = plan.line.fields :=
    Line.Fields.ofRegister_pack faithful.inRange
  rw [settingsAt, latch, fields, faithful.settings]
  rfl

/-! ### Granted requests -/

/-- A granted request that names the rate or the framing is read back by the inquiry that comes next. Parity
and data bits are the same, the stop bits as far as they can be told apart, and the rate is that of the divisor
in the latch: within rounding of the rate granted, and equal to it if the request kept a speed in force. -/
theorem settings_read_back (u : MiniUart) (s : Soc) (mapped : s.Mapped u.registers) (request : Line.Request)
    (names : request.leavesLine = false) (n : Nat) (granted : Line.Attributes)
    (answered : ((u.setAttributes request).run s n).outcome = some (.ok granted)) (m : Nat) (enough : 8 ≤ m) :
    let t := ((u.setAttributes request).run s n).state
    ∃ shown : Line.Attributes, ((u.setAttributes {}).run t m).outcome = some (.ok shown) ∧
      shown.parity = granted.parity ∧ shown.dataBits = granted.dataBits ∧
      shown.stopBits = (if granted.stopBits = .one then .one
        else if shown.dataBits = 5 then .oneAndHalf else .two) ∧
      0 < t.divisor ∧ shown.baudRate = Baud.rate (u.clockAt s) t.divisor ∧
      2 * t.divisor * ((shown.baudRate : Int) - granted.baudRate).natAbs ≤ granted.baudRate + t.divisor ∧
      (request.baudRate = none → s.divisor ≠ 0 → shown.baudRate = granted.baudRate) := by
  intro t
  obtain ⟨plan, planned, same, state⟩ := of_granted u mapped answered
  rw [names] at state
  obtain ⟨resolved, speed⟩ := of_planAt u planned
  obtain ⟨valid, line⟩ := Line.Request.of_resolve resolved
  have sound := sound_of_planAt u planned
  have faithful : plan.line.Faithful := by
    rw [line]
    exact Line.Request.faithful_resolved valid s.lineControl
  have after : t = programmed s plan := state
  have latch : t.divisor = plan.speed.divisor := by
    rw [after]
    exact Soc.divisor_of_loaded rfl rfl sound.fits
  have mapped' : t.Mapped u.registers := by
    rw [after]
    exact mapped.keep rfl rfl
  have loaded : t.divisor ≠ 0 := by
    rw [latch]
    exact Nat.ne_of_gt sound.positive
  obtain ⟨answer, -⟩ := run_inquiry u mapped' loaded enough
  rw [after, settingsAt_programmed u sound.fits faithful, ← after] at answer
  refine ⟨_, answer, ?_⟩
  rw [same, latch]
  refine ⟨rfl, rfl, rfl, sound.positive, rfl, sound.close, fun kept inForce => ?_⟩
  rw [kept] at speed
  have current : u.speedAt s = .ok { baudRate := Baud.rate (u.clockAt s) s.divisor, divisor := s.divisor } :=
    if_neg inForce
  have found : plan.speed = { baudRate := Baud.rate (u.clockAt s) s.divisor, divisor := s.divisor } :=
    (Except.ok.inj (current.symm.trans speed)).symm
  show Baud.rate (u.clockAt s) plan.speed.divisor = plan.speed.baudRate
  rw [found]

/-- A chip found with its latch open and a parity code that means no parity, and two stop bits asked for on
top of its five data bits. -/
theorem settings_read_back_five_bits :
    let u : MiniUart := .ofLayout .rpi4 .rpi4
    let s : Soc := { Soc.initial .rpi4 4 with lineControl := 0x90, divisorHigh := 0x01, divisorLow := 0x0F }
    let request : Line.Request := { stopBits := some .two }
    let granted : Line.Attributes := {
      baudRate := 115314, receiveFifoDepth := 16, timeoutMicros := 1000000, parity := .none, dataBits := 5
      stopBits := .two }
    let t := ((u.setAttributes request).run s 12).state
    s.Mapped u.registers ∧ request.leavesLine = false ∧ request.baudRate = none ∧ s.divisor ≠ 0 ∧
    ((u.setAttributes request).run s 12).outcome = some (.ok granted) ∧
    ∃ shown : Line.Attributes, ((u.setAttributes {}).run t 8).outcome = some (.ok shown) ∧
      shown.parity = .none ∧ shown.dataBits = 5 ∧ shown.stopBits = .oneAndHalf ∧
      0 < t.divisor ∧ shown.baudRate = Baud.rate (u.clockAt s) t.divisor ∧
      2 * t.divisor * ((shown.baudRate : Int) - granted.baudRate).natAbs ≤ granted.baudRate + t.divisor ∧
      shown.baudRate = 115314 := by
  intro u s request granted t
  have mapped : s.Mapped u.registers := ⟨rfl, rfl, by decide, by decide⟩
  have loaded : s.divisor ≠ 0 := by decide
  have answered : ((u.setAttributes request).run s 12).outcome = some (.ok granted) := by decide +kernel
  obtain ⟨shown, answer, parity, dataBits, stopBits, positive, rate, close, kept⟩ :=
    settings_read_back u s mapped request rfl 12 granted answered 8 (Nat.le_refl 8)
  rw [dataBits] at stopBits
  exact ⟨mapped, rfl, rfl, loaded, answered, shown, answer, parity, dataBits, stopBits, positive, rate, close,
    kept rfl loaded⟩

end MiniUart

end ConsoleUart
