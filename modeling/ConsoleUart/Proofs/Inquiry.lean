import Mathlib.Control.Monad.Basic
import ConsoleUart.Proofs.Bounded
import ConsoleUart.Proofs.Planning

/-!
# Requests and what they leave behind

On a mapped chip a request has one answer and leaves one chip behind, whatever the budget it ends on. A
request that leaves the line alone is an inquiry: it finds out the speed by a look into the latch, and the
chip it leaves differs in the latch bit at most.
-/

namespace ConsoleUart.MiniUart
open Bus

variable (u : MiniUart) {s : Soc} {request : Line.Request} {n : Nat}

def answerAt (s : Soc) (request : Line.Request) : Except Fault Line.Attributes :=
  (u.planAt s request).map (u.attributes request)

/-- The chip as the request leaves it: programmed as planned, or only looked at. -/
def chipAfter (s : Soc) (request : Line.Request) : Soc :=
  match u.planAt s request with
  | .ok plan => if request.leavesLine then s.closeLatch else programmed s plan
  | .error _ => if probes request then s.closeLatch else s

theorem probes_of_leavesLine (leaves : request.leavesLine = true) : probes request = true := by
  obtain ⟨baudRate, depth, timeout, parity, dataBits, stopBits⟩ := request
  simp only [Line.Request.leavesLine, Bool.and_eq_true, Option.isNone_iff_eq_none] at leaves
  simp [probes, Line.Request.framingValid, leaves]

theorem run_setAttributes (mapped : s.Mapped u.registers)
    (ended : ((u.setAttributes request).run s n).outcome ≠ none) :
    ((u.setAttributes request).run s n).outcome = some (u.answerAt s request) ∧
      ((u.setAttributes request).run s n).state = u.chipAfter s request := by
  obtain ⟨answer, ended⟩ := Option.ne_none_iff_exists'.mp ended
  unfold answerAt chipAfter
  cases hp : u.planAt s request with
  | error fault =>
    obtain ⟨trace, does, -⟩ := does_setAttributes_error u mapped hp
    obtain ⟨same, -, state, -⟩ := does.done ended
    exact ⟨by rw [ended, same]; rfl, state⟩
  | ok plan =>
    obtain ⟨trace, does⟩ := does_setAttributes_ok u mapped hp
    obtain ⟨same, -, state, -⟩ := does.done ended
    refine ⟨by rw [ended, same]; rfl, ?_⟩
    cases leaves : request.leavesLine with
    | true => simpa [leaves, probes_of_leavesLine leaves] using state
    | false => simpa [leaves] using state

/-- Twelve accesses are enough for any request. -/
theorem run_setAttributes_of_enough (mapped : s.Mapped u.registers) (enough : 12 ≤ n) :
    ((u.setAttributes request).run s n).outcome = some (u.answerAt s request) ∧
      ((u.setAttributes request).run s n).state = u.chipAfter s request :=
  run_setAttributes u mapped ((endsWithin_setAttributes u request).completes s enough)

theorem of_granted (mapped : s.Mapped u.registers) {granted : Line.Attributes}
    (answered : ((u.setAttributes request).run s n).outcome = some (.ok granted)) : ∃ plan,
    u.planAt s request = .ok plan ∧ granted = u.attributes request plan ∧
      ((u.setAttributes request).run s n).state =
        if request.leavesLine then s.closeLatch else programmed s plan := by
  have ended : ((u.setAttributes request).run s n).outcome ≠ none := by simp [answered]
  obtain ⟨answer, state⟩ := run_setAttributes u mapped ended
  rw [answered, answerAt] at answer
  rw [chipAfter] at state
  cases hp : u.planAt s request with
  | error fault =>
    rw [hp] at answer
    cases answer
  | ok plan =>
    rw [hp] at answer state
    cases answer
    exact ⟨plan, rfl, rfl, state⟩

theorem state_of_refused (mapped : s.Mapped u.registers) {fault : Fault}
    (refused : ((u.setAttributes request).run s n).outcome = some (.error fault)) :
    ((u.setAttributes request).run s n).state = if probes request then s.closeLatch else s := by
  have ended : ((u.setAttributes request).run s n).outcome ≠ none := by simp [refused]
  obtain ⟨answer, state⟩ := run_setAttributes u mapped ended
  rw [refused, answerAt] at answer
  rw [chipAfter] at state
  cases hp : u.planAt s request with
  | ok plan =>
    rw [hp] at answer
    cases answer
  | error fault =>
    rw [hp] at state
    exact state

theorem chipAfter_of_leavesLine (leaves : request.leavesLine = true) :
    u.chipAfter s request = s.closeLatch := by
  unfold chipAfter
  split <;> simp [leaves, probes_of_leavesLine leaves]

/-- An inquiry on a chip whose latch is found open, with the latch bit gone afterwards. -/
theorem open_latch_closed_by_inquiry :
    ¬∀ (u : MiniUart) (s : Soc) (request : Line.Request) (n : Nat), s.Mapped u.registers →
      request.leavesLine = true → ((u.setAttributes request).run s n).outcome ≠ none →
      ((u.setAttributes request).run s n).state.lineControl = s.lineControl := by
  intro all
  let u : MiniUart := .ofLayout .rpi4 .rpi4
  let s : Soc := { Soc.initial .rpi4 4 with lineControl := 0x83 }
  have mapped : s.Mapped u.registers := ⟨rfl, rfl, by decide, by decide⟩
  have ended : ((u.setAttributes {}).run s 8).outcome ≠ none :=
    (endsWithin_inquiry u rfl).completes s (Nat.le_refl 8)
  have closed : ((u.setAttributes {}).run s 8).state.lineControl = 0x03 := by decide +kernel
  have same := all u s {} 8 mapped rfl ended
  rw [closed] at same
  revert same
  decide

/-- A request that names neither rate nor framing is answered after eight accesses at most. Granted or
refused, it leaves the chip as it was but for the latch bit, which is clear afterwards; a chip with its latch
closed is left as it was. -/
theorem inquiry_changes_latch_bit_only (u : MiniUart) (s : Soc) (mapped : s.Mapped u.registers)
    (request : Line.Request) (leaves : request.leavesLine = true) (n : Nat) :
    (8 ≤ n → ((u.setAttributes request).run s n).outcome ≠ none) ∧
    (((u.setAttributes request).run s n).outcome ≠ none →
      ((u.setAttributes request).run s n).state =
        { s with lineControl := Bits.clear s.lineControl latchBit } ∧
      (s.latchOpen = false → ((u.setAttributes request).run s n).state = s)) := by
  refine ⟨(endsWithin_inquiry u leaves).completes s, fun ended => ?_⟩
  have state : ((u.setAttributes request).run s n).state = s.closeLatch :=
    (run_setAttributes u mapped ended).2.trans (chipAfter_of_leavesLine u leaves)
  exact ⟨state, fun closed => state.trans (Soc.closeLatch_of_closed closed)⟩

/-- The configured rate is out of reach and the latch empty, so that the inquiry is refused after its look
into the latch. -/
theorem inquiry_changes_latch_bit_only_refused :
    let u : MiniUart := .ofLayout .rpi3 { Config.rpi3 with baudRate := 1 }
    let s : Soc := { Soc.initial .rpi3 4 with
      lineControl := 0x5B, interruptEnable := 5, fifoControl := 0x21, modemControl := 0x1F, received := [7] }
    let request : Line.Request := { receiveFifoDepth := some 3, timeoutMicros := some 0 }
    s.Mapped u.registers ∧ request.leavesLine = true ∧
    ((u.setAttributes request).run s 8).outcome = some (.error (.invalidParameter "baud rate")) ∧
    ((u.setAttributes request).run s 8).outcome ≠ none ∧ s.latchOpen = false ∧
    ((u.setAttributes request).run s 8).state =
      { s with lineControl := Bits.clear s.lineControl latchBit } ∧
    ((u.setAttributes request).run s 8).state = s := by
  intro u s request
  have mapped : s.Mapped u.registers := ⟨rfl, rfl, by decide, by decide⟩
  have refused : ((u.setAttributes request).run s 8).outcome =
      some (.error (.invalidParameter "baud rate")) := by decide +kernel
  have closed : s.latchOpen = false := by decide
  obtain ⟨answered, kept⟩ := inquiry_changes_latch_bit_only u s mapped request rfl 8
  have ended := answered (Nat.le_refl 8)
  obtain ⟨state, same⟩ := kept ended
  exact ⟨mapped, rfl, refused, ended, closed, state, same closed⟩

end ConsoleUart.MiniUart
