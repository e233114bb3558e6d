import ConsoleUart.MiniUart.Operations
import ConsoleUart.Proofs.Reception
import ConsoleUart.Proofs.Transmission
import ConsoleUart.Proofs.Waiting

/-!
# Configuring, from any chip

Configuring looks first. A chip that is found configured is left alone. For any other chip the driver waits,
with the latch closed and nothing else changed, until the transmitter is idle, and only then programs it: no
other write comes before that answer, and the status is not read again after it.
-/

namespace ConsoleUart

namespace MiniUart
open Bus

variable (u : MiniUart) {s : Soc} {divisor k : Nat}

/-! ### Looking -/

/-- The accesses that tell whether the device is configured. -/
def lookTrace (s : Soc) : List Access :=
  u.clockTrace s ++
    (.read .lineControl (u.registers.address .lineControl) s.lineControl :: u.registers.latchTrace s)

theorem written_lookTrace (s : Soc) : written (u.lookTrace s) = written (u.registers.latchTrace s) := rfl

theorem lineStatus_not_in_lookTrace (s : Soc) : ∀ a ∈ u.lookTrace s, a.register? ≠ some .lineStatus := by
  simp [lookTrace, clockTrace, RegisterBlock.latchTrace, Access.register?]

theorem does_isConfigured (mapped : s.Mapped u.registers) (divisor : Nat) : Does (u.isConfigured divisor) s
    (.read .lineControl (u.registers.address .lineControl) s.lineControl :: u.registers.latchTrace s)
    (decide (u.Matches s divisor)) s.closeLatch := by
  rw [decide_matches, ← List.append_nil (u.registers.latchTrace s)]
  refine does_bind (does_read_lineControl mapped) ?_
  exact does_bind (RegisterBlock.does_readDivisor mapped) (does_pure _ _)

theorem does_configure (mapped : s.Mapped u.registers)
    (same : u.Matches s (Baud.divisor (u.clockAt s) u.config.baudRate)) :
    Does (u.perform .configure) s (u.lookTrace s) (.ok ()) s.closeLatch := by
  have look := does_isConfigured u mapped (Baud.divisor (u.clockAt s) u.config.baudRate)
  rw [lookTrace, ← List.append_nil (_ :: _)]
  refine does_map Except.ok (does_bind (does_divisor u s _) (does_bind look ?_))
  simp only [same, decide_true, if_true]
  exact does_note _ _

/-! ### Programming -/

/-- What programming writes, in this order. -/
def programWrites (divisor : Nat) : List (Register × Byte) :=
  [(.lineControl, latchBit),
    (.divisorHigh, BitVec.ofNat 8 (divisor / 256)),
    (.divisorLow, BitVec.ofNat 8 divisor),
    (.lineControl, u.config.lineControlBits),
    (.fifoControl, 0),
    (.fifoControl, u.config.fifoControlBits),
    (.interruptEnable, 0),
    (.modemControl, 0)]

def programTrace (divisor : Nat) : List Access :=
  (u.programWrites divisor).map fun w => .write w.1 (u.registers.address w.1) w.2

/-- The chip as programming leaves it. -/
def reset (divisor : Nat) (s : Soc) : Soc := { s with
  lineControl := u.config.lineControlBits
  divisorHigh := BitVec.ofNat 8 (divisor / 256)
  divisorLow := BitVec.ofNat 8 divisor
  fifoControl := u.config.fifoControlBits
  interruptEnable := 0
  modemControl := 0 }

theorem programmed_reset (divisor : Nat) (s : Soc) : u.Programmed divisor (u.reset divisor s) :=
  ⟨rfl, rfl, rfl, rfl, rfl, rfl⟩

theorem does_write_interruptEnable (mapped : s.Mapped u.registers) (closed : s.latchOpen = false) (value : Byte) :
    Does (u.registers.write .interruptEnable value) s
      [.write .interruptEnable (u.registers.address .interruptEnable) value] ()
      { s with interruptEnable := value } := by
  simpa [Register.offset, Soc.writePlace, closed] using does_write mapped .interruptEnable value

theorem does_program (mapped : s.Mapped u.registers) (idle : s.ShowsAfter LineStatus.transmitterEmpty k)
    (divisor : Nat) :
    Does (u.program divisor) s (u.polls (s.statuses (k + 1)) ++ u.programTrace divisor) ()
      (u.reset divisor (s.polled (k + 1))) := by
  have closed : Bits.meets u.config.lineControlBits latchBit = false :=
    Bits.meets_and_writableMask u.config.lineControl
  have wait := does_await_shows u mapped idle
  have mapped₀ : (s.polled (k + 1)).Mapped u.registers := mapped.keep rfl rfl
  have load := RegisterBlock.does_loadDivisor mapped₀ divisor
  have mapped₁ : ((s.polled (k + 1)).loaded divisor).Mapped u.registers := mapped.keep rfl rfl
  have line := does_write_lineControl mapped₁ u.config.lineControlBits
  have off := does_write (s := { (s.polled (k + 1)).loaded divisor with
    lineControl := u.config.lineControlBits }) (mapped.keep rfl rfl) .fifoControl 0
  have fifo := does_write (s := { (s.polled (k + 1)).loaded divisor with
    lineControl := u.config.lineControlBits, fifoControl := 0 }) (mapped.keep rfl rfl) .fifoControl
    u.config.fifoControlBits
  have quiet := does_write_interruptEnable u (s := { (s.polled (k + 1)).loaded divisor with
    lineControl := u.config.lineControlBits, fifoControl := u.config.fifoControlBits })
    (mapped.keep rfl rfl) closed 0
  have modem := does_write (s := { (s.polled (k + 1)).loaded divisor with
    lineControl := u.config.lineControlBits, fifoControl := u.config.fifoControlBits
    interruptEnable := 0 }) (mapped.keep rfl rfl) .modemControl 0
  exact does_bind wait (does_bind load (does_bind line (does_bind off (does_bind fifo (does_bind quiet modem)))))

theorem stalls_program (mapped : s.Mapped u.registers) (busy : s.Lacks LineStatus.transmitterEmpty k)
    (divisor : Nat) :
    Stalls (u.program divisor) s (u.polls (s.statuses k)) (s.polled k) :=
  (stalls_await_shows u mapped busy).bind _

theorem length_programTrace (divisor : Nat) : (u.programTrace divisor).length = 8 := rfl

theorem written_programTrace (divisor : Nat) : written (u.programTrace divisor) = u.programWrites divisor := rfl

/-! ### Looking, waiting, programming -/

/-- What configuring does with a chip that was not found configured. -/
def reprogram (divisor : Nat) : Bus Soc Unit := do
  if Baud.maxLatch < divisor then
    note (.divisorTooLarge divisor)
  note (.programming u.config.baudRate divisor u.config.lineControlBits u.config.fifoControlBits)
  u.program divisor

theorem does_reprogram (mapped : s.Mapped u.registers) (idle : s.ShowsAfter LineStatus.transmitterEmpty k)
    (divisor : Nat) :
    Does (u.reprogram divisor) s (u.polls (s.statuses (k + 1)) ++ u.programTrace divisor) ()
      (u.reset divisor (s.polled (k + 1))) := by
  have program := does_program u mapped idle divisor
  unfold reprogram
  split
  · exact (program.after_note _).after_note _
  · exact program.after_note _

theorem stalls_reprogram (mapped : s.Mapped u.registers) (busy : s.Lacks LineStatus.transmitterEmpty k)
    (divisor : Nat) :
    Stalls (u.reprogram divisor) s (u.polls (s.statuses k)) (s.polled k) := by
  have program := stalls_program u mapped busy divisor
  unfold reprogram
  split
  · exact (program.after_note _).after_note _
  · exact program.after_note _

/-- Once the transmitter is found idle, the answer that said so stays on the record. -/
theorem polls_of_reprogram (mapped : s.Mapped u.registers)
    (idle : s.ShowsAfter LineStatus.transmitterEmpty k) (divisor : Nat) {n : Nat} (enough : k < n) :
    u.polls (s.statuses (k + 1)) <+: ((u.reprogram divisor).run s n).trace := by
  have wait := does_await_shows u mapped idle
  obtain ⟨left, rfl⟩ : ∃ left, n = (u.polls (s.statuses (k + 1))).length + left := by
    refine Nat.exists_eq_add_of_le ?_
    rw [length_polls, Soc.length_statuses]
    omega
  have program : u.polls (s.statuses (k + 1)) <+:
      ((u.program divisor).run s ((u.polls (s.statuses (k + 1))).length + left)).trace := by
    rw [program, transmitterEmpty_eq, (wait.run_bind _ left).2.1]
    exact List.prefix_append _ _
  unfold reprogram
  split <;> exact program

/-- The look at the device: the divisor that is wanted, and whether the device is found configured. -/
def look : Bus Soc (Nat × Bool) := do
  let divisor ← u.clock.divisor u.config.baudRate
  return (divisor, ← u.isConfigured divisor)

theorem configure_eq : u.configure = (do
    let (divisor, found) ← u.look
    if found then note (.alreadyConfigured divisor) else u.reprogram divisor) := by
  simp only [configure, reprogram, look, bind_assoc, pure_bind]

theorem does_look (mapped : s.Mapped u.registers) : Does u.look s (u.lookTrace s)
    (Baud.divisor (u.clockAt s) u.config.baudRate,
      decide (u.Matches s (Baud.divisor (u.clockAt s) u.config.baudRate))) s.closeLatch := by
  have matched := does_isConfigured u mapped (Baud.divisor (u.clockAt s) u.config.baudRate)
  exact does_bind (does_divisor u s _) (does_map _ matched)

theorem run_configure_of_short (mapped : s.Mapped u.registers) {n : Nat} (short : n < 8) :
    (u.configure.run s n).outcome = none := by
  rw [configure_eq]
  exact (run_bind_of_cut _ ((does_look u mapped).cut n short)).1

theorem run_configure_of_other (mapped : s.Mapped u.registers)
    (other : ¬u.Matches s (Baud.divisor (u.clockAt s) u.config.baudRate)) (left : Nat) :
    let rest := (u.reprogram (Baud.divisor (u.clockAt s) u.config.baudRate)).run s.closeLatch left
    (u.configure.run s (8 + left)).outcome = rest.outcome ∧
      (u.configure.run s (8 + left)).trace = u.lookTrace s ++ rest.trace ∧
      (u.configure.run s (8 + left)).state = rest.state := by
  have after := (does_look u mapped).run_bind (fun found =>
    if found.2 then note (.alreadyConfigured found.1) else u.reprogram found.1) left
  rw [configure_eq]
  simp only [other, decide_false, Bool.false_eq_true, if_false] at after
  obtain ⟨outcome, trace, state, -⟩ := after
  exact ⟨outcome, trace, state⟩

/-- The operation is configuring, and it has no fault to report. -/
theorem run_perform_configure (s : Soc) (n : Nat) :
    ((u.perform .configure).run s n).outcome = (u.configure.run s n).outcome.map Except.ok ∧
      ((u.perform .configure).run s n).trace = (u.configure.run s n).trace ∧
      ((u.perform .configure).run s n).state = (u.configure.run s n).state := by
  have answered := Session.run_map (Except.ok : Unit → Except Fault Unit) u.configure s n
  exact ⟨congrArg Run.outcome answered, congrArg Run.trace answered, congrArg Run.state answered⟩

theorem perform_configure_ends (s : Soc) (n : Nat) :
    ((u.perform .configure).run s n).outcome ≠ none ↔ (u.configure.run s n).outcome ≠ none := by
  rw [(run_perform_configure u s n).1]
  exact not_congr Option.map_eq_none_iff

variable (other : ¬u.Matches s (Baud.divisor (u.clockAt s) u.config.baudRate))
include other

theorem run_configure_busy (mapped : s.Mapped u.registers) (busy : s.Lacks LineStatus.transmitterEmpty k) :
    (u.configure.run s (8 + k)).outcome = none ∧
      (u.configure.run s (8 + k)).trace = u.lookTrace s ++ u.polls (s.statuses k) ∧
      (u.configure.run s (8 + k)).state = s.closeLatch.polled k := by
  obtain ⟨outcome, trace, state⟩ := u.run_configure_of_other mapped other k
  have wait := stalls_reprogram u (s := s.closeLatch) (mapped.keep rfl rfl) (k := k) busy
    (Baud.divisor (u.clockAt s) u.config.baudRate)
  have length : (u.polls (s.closeLatch.statuses k)).length = k := by
    rw [length_polls, Soc.length_statuses]
  have cut := wait.cut k (Nat.le_of_eq length.symm)
  obtain ⟨-, polled, kept⟩ := wait
  rw [length] at polled kept
  exact ⟨outcome.trans cut, by rw [trace, polled]; rfl, state.trans kept⟩

theorem run_configure_idle (mapped : s.Mapped u.registers)
    (idle : s.ShowsAfter LineStatus.transmitterEmpty k) (left : Nat) :
    (u.configure.run s (17 + k + left)).outcome = some () ∧
      (u.configure.run s (17 + k + left)).trace = u.lookTrace s ++ u.polls (s.statuses (k + 1)) ++
        u.programTrace (Baud.divisor (u.clockAt s) u.config.baudRate) ∧
      (u.configure.run s (17 + k + left)).state =
        u.reset (Baud.divisor (u.clockAt s) u.config.baudRate) (s.closeLatch.polled (k + 1)) := by
  have idle' : s.closeLatch.ShowsAfter LineStatus.transmitterEmpty k := ⟨idle.lacks, idle.shown⟩
  have program := does_reprogram u (s := s.closeLatch) (mapped.keep rfl rfl) idle'
    (Baud.divisor (u.clockAt s) u.config.baudRate)
  have budget : 17 + k + left = 8 + ((u.polls (s.closeLatch.statuses (k + 1)) ++
      u.programTrace (Baud.divisor (u.clockAt s) u.config.baudRate)).length + left) := by
    rw [List.length_append, length_polls, Soc.length_statuses, length_programTrace]
    omega
  obtain ⟨ended, made, left, -⟩ := program.ends left
  obtain ⟨outcome, trace, state⟩ := u.run_configure_of_other mapped other _
  rw [budget, List.append_assoc]
  exact ⟨outcome.trans ended, by rw [trace, made]; rfl, state.trans left⟩

theorem idle_of_configured (mapped : s.Mapped u.registers) {n : Nat} (ended : (u.configure.run s n).outcome ≠ none) :
    ∃ k, s.ShowsAfter LineStatus.transmitterEmpty k ∧ 17 + k ≤ n := by
  have looked : 8 ≤ n := by
    refine Nat.le_of_not_lt fun short => ?_
    exact ended (run_configure_of_short u mapped short)
  obtain ⟨left, rfl⟩ := Nat.exists_eq_add_of_le looked
  rcases s.lacks_or_showsAfter LineStatus.transmitterEmpty left with busy | ⟨k, -, idle⟩
  · exact absurd (run_configure_busy u other mapped busy).1 ended
  · have program := does_reprogram u (s := s.closeLatch) (mapped.keep rfl rfl) ⟨idle.lacks, idle.shown⟩
      (Baud.divisor (u.clockAt s) u.config.baudRate)
    rw [(u.run_configure_of_other mapped other left).1] at ended
    obtain ⟨answer, ended⟩ := Option.ne_none_iff_exists'.mp ended
    obtain ⟨-, -, -, enough⟩ := program.done ended
    rw [List.length_append, length_polls, Soc.length_statuses, length_programTrace] at enough
    exact ⟨k, idle, by omega⟩

theorem busy_of_waiting (mapped : s.Mapped u.registers) (k : Nat)
    (waiting : ∀ a ∈ (u.configure.run s (8 + k)).trace, a.showsIdle = false) :
    s.Lacks LineStatus.transmitterEmpty k := by
  rcases s.lacks_or_showsAfter LineStatus.transmitterEmpty k with busy | ⟨j, early, idle⟩
  · exact busy
  · have shown := polls_of_reprogram u (s := s.closeLatch) (mapped.keep rfl rfl) ⟨idle.lacks, idle.shown⟩
      (Baud.divisor (u.clockAt s) u.config.baudRate) early
    rw [Soc.statuses_concat, polls, List.map_append] at shown
    have last := shown.subset (List.mem_append_right _ (List.mem_singleton_self _))
    rw [(u.run_configure_of_other mapped other k).2.1] at waiting
    have busy := waiting _ (List.mem_append_right _ last)
    exact absurd (idle.shown.symm.trans busy) (by decide)

theorem reprograms_iff (mapped : s.Mapped u.registers) (n : Nat) :
    ((u.perform .configure).run s n).outcome ≠ none ↔
      ∃ k, s.ShowsAfter LineStatus.transmitterEmpty k ∧ 17 + k ≤ n := by
  rw [perform_configure_ends]
  refine ⟨idle_of_configured u other mapped, fun ⟨k, idle, enough⟩ => ?_⟩
  obtain ⟨left, rfl⟩ := Nat.exists_eq_add_of_le enough
  rw [(run_configure_idle u other mapped idle left).1]
  exact Option.some_ne_none _

/-- Ended, so an idle answer has come in time, and the eight writes follow it. -/
theorem of_reprogrammed (mapped : s.Mapped u.registers) {n : Nat}
    (ended : ((u.perform .configure).run s n).outcome ≠ none) :
    let divisor := Baud.divisor (u.clockAt s) u.config.baudRate
    let run := (u.perform .configure).run s n
    run.outcome = some (.ok ()) ∧ u.Programmed divisor run.state ∧
      ∃ busy idle, run.trace = u.lookTrace s ++ u.polls (busy ++ [idle]) ++ u.programTrace divisor ∧
        (∀ lsr ∈ busy, Bits.has lsr LineStatus.transmitterEmpty = false) ∧
        Bits.has idle LineStatus.transmitterEmpty = true := by
  intro divisor run
  obtain ⟨outcome, trace, state⟩ := run_perform_configure u s n
  obtain ⟨k, idle, enough⟩ := (reprograms_iff u other mapped n).mp ended
  obtain ⟨left, rfl⟩ := Nat.exists_eq_add_of_le enough
  obtain ⟨done, made, kept⟩ := run_configure_idle u other mapped idle left
  have programmed : u.Programmed divisor run.state := by
    rw [state, kept]
    exact u.programmed_reset divisor _
  refine ⟨by rw [outcome, done]; rfl, programmed, s.statuses k, s.statusAt k, ?_, ?_, idle.shown⟩
  · rw [trace, made, Soc.statuses_concat]
  · exact fun lsr => idle.lacks.mem_statuses

omit other

theorem queues_configure (mapped : s.Mapped u.registers) (n : Nat) :
    (u.configure.run s n).state.sent = s.sent ∧ (u.configure.run s n).state.received = s.received := by
  obtain ⟨accepts, accounts, -⟩ := (orderly_configure u s).run mapped n
  have covered := (within_configure u).mem s n
  have silent : transmitted (u.configure.run s n).trace = [] :=
    transmitted_eq_nil fun a ha => (covered a ha).quiet (by decide)
  have sent := mapped.replay_sent accepts (by
    rintro a ha address value rfl
    exact absurd (covered _ ha).1 (by decide))
  have received := mapped.replay_received accepts (by
    rintro a ha r address value rfl
    have read := (covered _ ha).1
    constructor <;> rintro rfl <;> exact absurd read (by decide))
  rw [silent, List.append_nil] at sent
  rw [accounts]
  exact ⟨Array.toList_inj.mp sent, received⟩

/-- Configuring from any chip and on any budget. A chip that matches is looked at, in eight accesses that leave
out the line status, and differs in the latch bit at most. For any other chip the driver polls the line status
until both transmitter bits show; with that answer the polling stops and the device is programmed, so
configuring ends exactly if such an answer comes while the budget still lasts for the eight writes. Until then
the device is as it was found, with the latch closed. No byte is sent or taken in any case. -/
theorem configure_start_to_end (u : MiniUart) (s : Soc) (mapped : s.Mapped u.registers) (n : Nat) :
    let divisor := Baud.divisor (u.clockAt s) u.config.baudRate
    let run := (u.perform .configure).run s n
    (u.Matches s divisor →
      (run.outcome ≠ none ↔ 8 ≤ n) ∧
      (8 ≤ n → run.outcome = some (.ok ()) ∧ (∀ a ∈ run.trace, a.register? ≠ some .lineStatus) ∧
        run.state = { s with lineControl := Bits.clear s.lineControl latchBit })) ∧
    (¬u.Matches s divisor →
      (run.outcome ≠ none ↔ ∃ k, s.ShowsAfter LineStatus.transmitterEmpty k ∧ 17 + k ≤ n) ∧
      (run.outcome ≠ none →
        run.outcome = some (.ok ()) ∧ u.Programmed divisor run.state ∧
        run.state.divisor = divisor % 0x10000 ∧
        ∃ busy idle, run.trace = u.lookTrace s ++ u.polls (busy ++ [idle]) ++ u.programTrace divisor ∧
          (∀ lsr ∈ busy, Bits.has lsr LineStatus.transmitterEmpty = false) ∧
          Bits.has idle LineStatus.transmitterEmpty = true) ∧
      (8 ≤ n → (∀ a ∈ run.trace, a.showsIdle = false) →
        run.outcome = none ∧ (∃ busy, run.trace = u.lookTrace s ++ u.polls busy) ∧
        run.state = { s with
          lineControl := Bits.clear s.lineControl latchBit
          lineStatusScript := s.lineStatusScript.drop (n - 8) })) ∧
    run.state.sent = s.sent ∧ run.state.received = s.received := by
  intro divisor run
  obtain ⟨outcome, trace, state⟩ := run_perform_configure u s n
  refine ⟨fun same => ?_, fun other =>
    ⟨reprograms_iff u other mapped n, fun ended => ?_, fun looked waiting => ?_⟩, ?_⟩
  · -- Found configured: the run is the look, and nothing but the budget can end it early.
    have look := does_configure u mapped same
    constructor
    · refine ⟨fun ended => Nat.le_of_not_lt fun short => ended (look.cut n short), fun enough => ?_⟩
      obtain ⟨left, rfl⟩ := Nat.exists_eq_add_of_le enough
      rw [show run.outcome = _ from (look.ends left).1]
      exact Option.some_ne_none _
    · intro enough
      obtain ⟨left, rfl⟩ := Nat.exists_eq_add_of_le enough
      obtain ⟨ended, made, kept, -⟩ := look.ends left
      refine ⟨ended, ?_, kept⟩
      rw [show run.trace = _ from made]
      exact lineStatus_not_in_lookTrace u s
  · obtain ⟨ok, programmed, writes⟩ := of_reprogrammed u other mapped ended
    exact ⟨ok, programmed, Soc.divisor_of_bytes programmed.divisorHigh programmed.divisorLow, writes⟩
  · -- No idle answer on the record, so all that is left of the budget went into polls.
    obtain ⟨k, rfl⟩ := Nat.exists_eq_add_of_le looked
    have busy := busy_of_waiting u other mapped k (by rwa [trace] at waiting)
    obtain ⟨cut, made, left⟩ := run_configure_busy u other mapped busy
    refine ⟨?_, ⟨s.statuses k, trace.trans made⟩, ?_⟩
    · rw [show run.outcome = _ from outcome, cut]
      rfl
    · rw [show run.state = _ from state, left, Nat.add_sub_cancel_left]
      rfl
  · rw [show run.state = _ from state]
    exact queues_configure u mapped n

/-- The transmitter turns idle at the third answer, on a chip with its latch open; the chip that is left, with
its latch opened again, is found configured. -/
theorem configure_start_to_end_busy :
    let u : MiniUart := .ofLayout .rpi4
      { Config.rpi4 with baudRate := 9600, lineControl := 0xFB, fifoControl := 0x27 }
    let s : Soc := { Soc.initial .rpi4 4 with
      lineControl := 0x9B, modemControl := 2, received := [7], lineStatusScript := [0x20, 0x40, 0x60] }
    let waiting := (u.perform .configure).run s 10
    let run := (u.perform .configure).run s 19
    let t : Soc := { run.state with lineControl := 0xBB }
    let again := (u.perform .configure).run t 8
    s.Mapped u.registers ∧ t.Mapped u.registers ∧
    Baud.divisor (u.clockAt s) u.config.baudRate = 3255 ∧ Baud.divisor (u.clockAt t) u.config.baudRate = 3255 ∧
    ¬u.Matches s 3255 ∧ u.Matches t 3255 ∧ (∀ a ∈ waiting.trace, a.showsIdle = false) ∧
    s.ShowsAfter LineStatus.transmitterEmpty 2 ∧
    (waiting.outcome = none ∧ waiting.state = { s with
      lineControl := Bits.clear s.lineControl latchBit, lineStatusScript := s.lineStatusScript.drop 2 }) ∧
    (run.outcome = some (.ok ()) ∧ u.Programmed 3255 run.state ∧ run.state.received = s.received) ∧
    (again.outcome = some (.ok ()) ∧
      again.state = { t with lineControl := Bits.clear t.lineControl latchBit }) := by
  intro u s waiting run t again
  have mapped : s.Mapped u.registers := ⟨rfl, rfl, by decide, by decide⟩
  have base : run.state.base = u.registers.base := by decide +kernel
  have stride : run.state.stride = u.registers.stride := by decide +kernel
  have mapped' : t.Mapped u.registers := ⟨base, stride, by decide, by decide⟩
  have divisor : Baud.divisor (u.clockAt s) u.config.baudRate = 3255 := by decide +kernel
  have divisor' : Baud.divisor (u.clockAt t) u.config.baudRate = 3255 := by decide +kernel
  have other : ¬u.Matches s 3255 := by decide +kernel
  have same : u.Matches t 3255 := by decide +kernel
  have polling : ∀ a ∈ waiting.trace, a.showsIdle = false := by decide +kernel
  have busy : ∀ i < 2, Bits.has (s.statusAt i) LineStatus.transmitterEmpty = false := by decide
  have idle : s.ShowsAfter LineStatus.transmitterEmpty 2 := ⟨busy, by decide⟩
  have early := configure_start_to_end u s mapped 10
  have late := configure_start_to_end u s mapped 19
  have found := configure_start_to_end u t mapped' 8
  simp only [divisor] at early late
  simp only [divisor'] at found
  obtain ⟨cut, -, kept⟩ := (early.2.1 other).2.2 (by decide) polling
  have ended := (late.2.1 other).1.mpr ⟨2, idle, by decide⟩
  obtain ⟨ok, programmed, -⟩ := (late.2.1 other).2.1 ended
  obtain ⟨ok', -, closed⟩ := (found.1 same).2 (Nat.le_refl 8)
  exact ⟨mapped, mapped', divisor, divisor', other, same, polling, idle, ⟨cut, kept⟩, ⟨ok, programmed, late.2.2.2⟩,
    ok', closed⟩

end MiniUart

end ConsoleUart
