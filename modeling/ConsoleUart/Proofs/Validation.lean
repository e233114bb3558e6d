import Mathlib.Control.Monad.Basic
import ConsoleUart.MiniUart.Operations
import ConsoleUart.Proofs.Planning

/-!
# Refused requests

A request that is refused has programmed nothing. All refusals but one are decided before the first
write. The last one, of the configured rate that stands in for an empty latch, is decided on what the latch
holds, and the latch cannot be read without setting the latch bit.
-/

namespace ConsoleUart.MiniUart
open Bus

variable (u : MiniUart) {s : Soc}

/-- What a refusal of a request that keeps its speed and has its framing in order comes from. -/
theorem unreachable_of_refused {request : Line.Request} {fault : Fault} (kept : request.baudRate = none)
    (valid : request.framingValid = true) (refused : u.planAt s request = .error fault) :
    s.divisor = 0 ∧ ¬Baud.Reachable (u.clockAt s) u.config.baudRate := by
  have resolved := request.resolve_of_valid valid s.lineControl
  simp only [planAt, kept, resolved] at refused
  by_cases zero : s.divisor = 0
  · refine ⟨zero, fun reachable => ?_⟩
    rw [speedAt, if_pos zero, Speed.wanted_of_reachable reachable] at refused
    cases refused
  · rw [speedAt, if_neg zero] at refused
    cases refused

theorem does_setControl (mapped : s.Mapped u.registers) {signals : Word}
    (settable : Signals.onlySettable signals = true) : ∃ trace t,
    Does (u.setControl signals) s trace (.ok ()) t := by
  unfold setControl
  rw [if_pos settable]
  have base := does_read mapped .modemControl
  have set := does_write mapped .modemControl (controlled s.modemControl signals)
  exact ⟨_, _, does_bind base (does_bind set (does_pure _ _))⟩

theorem run_setControl_refused (mapped : s.Mapped u.registers) {signals : Word} {n : Nat} {fault : Fault}
    (refused : ((u.setControl signals).run s n).outcome = some (.error fault)) :
    ((u.setControl signals).run s n).trace = [] ∧ ((u.setControl signals).run s n).state = s := by
  by_cases settable : Signals.onlySettable signals = true
  · obtain ⟨trace, t, granted⟩ := does_setControl u mapped settable
    cases (granted.done refused).1
  · unfold setControl
    rw [if_neg settable]
    exact ⟨rfl, rfl⟩

/-- The configured rate is refused only once the latch has been read, and reading it takes two writes:
they are in the trace of a refused request for seven data bits. -/
theorem fallback_refused_after_writes :
    ¬∀ (u : MiniUart) (s : Soc) (request : Line.Request) (n : Nat) (fault : Fault), s.Mapped u.registers →
      ((u.setAttributes request).run s n).outcome = some (.error fault) →
      written ((u.setAttributes request).run s n).trace = [] := by
  intro all
  let u : MiniUart := .ofLayout .rpi4 { Config.rpi4 with baudRate := 1 }
  let s : Soc := .initial .rpi4 4
  let request : Line.Request := { dataBits := some 7 }
  have mapped : s.Mapped u.registers := ⟨rfl, rfl, by decide, by decide⟩
  have refused : ((u.setAttributes request).run s 10).outcome =
      some (.error (.invalidParameter "baud rate")) := by decide +kernel
  have writes : written ((u.setAttributes request).run s 10).trace =
      [(.lineControl, 0x80), (.lineControl, 0x00)] := by decide +kernel
  have nothing := all u s request 10 _ mapped refused
  rw [writes] at nothing
  cases nothing

/-- A refused request has written nothing, unless its speed is kept and its framing is in order. Then the
latch is empty and the configured rate out of reach, and the only writes are the two of line control that
open and close the latch. They leave the latch bit clear and all else on the chip as it was, so that a chip
with its latch closed is left as it was. Refused control signals lead to no access. -/
theorem refused_before_programming (u : MiniUart) (s : Soc) (mapped : s.Mapped u.registers) :
    (∀ (request : Line.Request) (n : Nat) (fault : Fault),
      ((u.setAttributes request).run s n).outcome = some (.error fault) →
      (¬(request.baudRate = none ∧ request.framingValid = true) →
        written ((u.setAttributes request).run s n).trace = [] ∧
          ((u.setAttributes request).run s n).state = s) ∧
      (request.baudRate = none → request.framingValid = true →
        s.divisor = 0 ∧ ¬Baud.Reachable (u.clockAt s) u.config.baudRate ∧
        written ((u.setAttributes request).run s n).trace =
          [(.lineControl, s.lineControl ||| latchBit), (.lineControl, Bits.clear s.lineControl latchBit)] ∧
        ((u.setAttributes request).run s n).state = s.closeLatch ∧
        (s.latchOpen = false → ((u.setAttributes request).run s n).state = s))) ∧
    ∀ (signals : Word) (n : Nat) (fault : Fault),
      ((u.setControl signals).run s n).outcome = some (.error fault) →
      ((u.setControl signals).run s n).trace = [] ∧ ((u.setControl signals).run s n).state = s := by
  refine ⟨fun request n fault refused => ?_, fun signals n fault => run_setControl_refused u mapped⟩
  cases hp : u.planAt s request with
  | ok plan =>
    obtain ⟨trace, granted⟩ := does_setAttributes_ok u mapped hp
    cases (granted.done refused).1
  | error reason =>
    obtain ⟨trace, does, writes⟩ := does_setAttributes_error u mapped hp
    obtain ⟨-, ht, hs, -⟩ := does.done refused
    rw [ht, hs, writes]
    constructor
    · intro early
      have blind : probes request = false := by
        cases hb : request.baudRate <;> simp_all [probes]
      simp [blind]
    · intro kept valid
      have probed : probes request = true := by simp [probes, kept, valid]
      obtain ⟨zero, unreachable⟩ := unreachable_of_refused u kept valid hp
      simp only [probed, if_true, RegisterBlock.written_latchTrace]
      exact ⟨zero, unreachable, trivial, trivial, Soc.closeLatch_of_closed⟩

/-- A chip that is found with its latch open and empty, behind a configured rate that is out of reach. -/
theorem refused_before_programming_open_latch :
    let u : MiniUart := .ofLayout .rpi4 { Config.rpi4 with baudRate := 1 }
    let s : Soc := { Soc.initial .rpi4 4 with lineControl := 0x83 }
    let request : Line.Request := { stopBits := some .two }
    s.Mapped u.registers ∧
    ((u.setAttributes request).run s 9).outcome = some (.error (.invalidParameter "baud rate")) ∧
    ((u.setControl 0x10).run s 9).outcome = some (.error .unsupported) ∧
    request.baudRate = none ∧ request.framingValid = true ∧
    s.divisor = 0 ∧ ¬Baud.Reachable (u.clockAt s) u.config.baudRate ∧
    written ((u.setAttributes request).run s 9).trace = [(.lineControl, 0x83), (.lineControl, 0x03)] ∧
    ((u.setAttributes request).run s 9).state = { s with lineControl := 0x03 } ∧
    (s.latchOpen = false → ((u.setAttributes request).run s 9).state = s) ∧
    ((u.setControl 0x10).run s 9).trace = [] ∧ ((u.setControl 0x10).run s 9).state = s := by
  intro u s request
  have mapped : s.Mapped u.registers := ⟨rfl, rfl, by decide, by decide⟩
  have refused : ((u.setAttributes request).run s 9).outcome =
      some (.error (.invalidParameter "baud rate")) := by decide +kernel
  have unsupported : ((u.setControl 0x10).run s 9).outcome = some (.error .unsupported) := by
    decide +kernel
  have opened : s.lineControl ||| latchBit = 0x83 := by decide
  have closed : Bits.clear s.lineControl latchBit = 0x03 := by decide
  obtain ⟨attributes, signals⟩ := refused_before_programming u s mapped
  obtain ⟨zero, unreachable, writes, chip, unchanged⟩ := (attributes request 9 _ refused).2 rfl rfl
  rw [opened, closed] at writes
  rw [Soc.closeLatch, closed] at chip
  obtain ⟨quiet, same⟩ := signals 0x10 9 _ unsupported
  exact ⟨mapped, refused, unsupported, rfl, rfl, zero, unreachable, writes, chip, unchanged, quiet, same⟩

end ConsoleUart.MiniUart
