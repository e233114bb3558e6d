import ConsoleUart.Proofs.Operating
import ConsoleUart.Proofs.Transfers

/-!
# What the byte path reports

Moving bytes reports nothing. A step that moves bytes reports exactly when it is the one that finds out which
UART is in use: then it tells so once, after it has read the pins and before it does anything else.
-/

namespace ConsoleUart.Scenario

variable {c : Console} {board : Board} {step : Step} {uart : Uart} {op : Operation} {budget : Nat}

/-- The step moves bytes, whatever it is performed on. -/
def Step.movesBytes (step : Step) : Bool :=
  match step.operation? with
  | some ⟨op, _⟩ => op.movesBytes
  | none => false

theorem Step.operation_of_movesBytes (moves : step.movesBytes = true) :
    ∃ op reply, step.operation? = some ⟨op, reply⟩ ∧ op.movesBytes = true := by
  unfold movesBytes at moves
  split at moves
  case h_1 op reply asks => exact ⟨op, reply, asks, moves⟩
  case h_2 => cases moves

theorem silent_performOn (moves : op.movesBytes = true) (uart : Uart) (board : Board) (n : Nat) :
    ∀ e ∈ ((c.performOn uart op).run board n).events, e.notice? = none := by
  intro e he
  cases uart with
  | mini =>
    obtain ⟨recorded, within, rfl⟩ := List.mem_map.mp he
    obtain ⟨a, rfl, -⟩ := c.mini.transfers_perform moves board.soc n recorded within
    rfl
  | pl011 =>
    obtain ⟨call, -, rfl⟩ := List.mem_map.mp he
    rfl

theorem notices_of_silent {events : List Event} (silent : ∀ e ∈ events, e.notice? = none) :
    events.filterMap Event.notice? = [] :=
  List.filterMap_eq_nil_iff.mpr silent

/-- The step finds out which UART is in use. -/
def Taken.detects (budget : Nat) (t : Taken) : Prop :=
  t.step.selects = true ∧ t.before.detected = none ∧ 0 < budget

/-- The step reports the UART that it finds, right after it has read the pins, and otherwise nothing. -/
structure Taken.Reports (c : Console) (budget : Nat) (t : Taken) : Prop where
  notices_iff : t.entry.notices ≠ [] ↔ t.detects budget
  detection : t.entry.notices ≠ [] → ∃ word uart others,
    t.entry.events = .bus (.access (.readWord c.layout.pinFunctions word)) ::
      .bus (.notice (.detected uart)) :: others ∧
    uart = Uart.ofPinFunctions word ∧ (∀ e ∈ others, e.notice? = none) ∧
    t.entry.board.detected = some uart

theorem reports_of_probe {t : Taken} {others : List Event} (events : t.entry.events = t.probe c ++ others)
    (silent : ∀ e ∈ others, e.notice? = none) (paid : t.starved budget = false)
    (found : t.step.selects = true → t.entry.board.detected = some (c.routed t.before)) :
    t.Reports c budget := by
  by_cases probing : t.step.selects = true ∧ t.before.detected = none
  · obtain ⟨selects, unknown⟩ := probing
    have routed : c.routed t.before =
        Uart.ofPinFunctions (AddressSpace.loadWord t.before.soc c.layout.pinFunctions) := by
      simp [Console.routed, unknown]
    have access : 0 < budget := by
      have fed : budget ≠ 0 := by simpa [Taken.starved, selects, unknown] using paid
      omega
    have shown : t.entry.events = .bus (.access (.readWord c.layout.pinFunctions
        (AddressSpace.loadWord t.before.soc c.layout.pinFunctions))) ::
        .bus (.notice (.detected (c.routed t.before))) :: others := by
      simp [events, Taken.probe, selects, unknown]
    constructor
    · have told : t.entry.notices = [.detected (c.routed t.before)] := by
        rw [Entry.notices, shown]
        exact congrArg (Notice.detected (c.routed t.before) :: ·) (notices_of_silent silent)
      simp [told, Taken.detects, selects, unknown, access]
    · exact fun _ => ⟨_, _, others, shown, routed, silent, found selects⟩
  · have unprobed : t.probe c = [] := by
      simp only [Taken.probe, Bool.and_eq_true, Option.isNone_iff_eq_none]
      exact if_neg probing
    have nothing : t.entry.notices = [] := by
      rw [Entry.notices, events, unprobed, List.nil_append, notices_of_silent silent]
    have idle : ¬t.detects budget := fun detects => probing ⟨detects.1, detects.2.1⟩
    exact ⟨by simp [nothing, idle], fun told => absurd nothing told⟩

theorem reports_entry (moves : step.movesBytes = true) (board : Board) (budget : Nat) :
    Taken.Reports c budget ⟨board, step, step.entry c budget board⟩ := by
  obtain ⟨op, reply, asks, transfer⟩ := Step.operation_of_movesBytes moves
  rcases entry_of_operation c budget board asks with ⟨-, broke, cut⟩ | ⟨fed, uart, -, shown⟩
  · have quiet : (step.entry c budget board).notices = [] := congrArg Entry.notices cut
    have idle : ¬Taken.detects budget ⟨board, step, step.entry c budget board⟩ := by
      simp [Taken.detects, broke]
    exact ⟨by simp [quiet, idle], fun told => absurd quiet told⟩
  · refine reports_of_probe shown.events (silent_performOn transfer uart board _) fed fun selects => ?_
    rw [shown.detected, if_pos selects]

/-! ### Runs -/

theorem taken_detected {steps : List Step} (known : board.detected ≠ none) :
    ∀ t ∈ taken c budget board steps, t.before.detected ≠ none := by
  refine forall_taken (fun board => board.detected ≠ none) known (fun _ _ _ known => known) ?_
  intro board step _ known _
  rcases Step.entry_detected c board step budget with same | found
  · rwa [same]
  · simp [found]

/-- Over any run, a step that moves bytes reports the UART that it detects and nothing else. Once the UART is
known the byte path is silent, so at most one such step reports. -/
theorem byte_path_reports_detection_only (c : Console) (budget : Nat) (board : Board) (steps : List Step) :
    (∀ t ∈ taken c budget board steps, t.step.movesBytes = true → t.Reports c budget) ∧
    (taken c budget board steps).Pairwise fun t later =>
      t.entry.board.detected ≠ none → later.step.movesBytes = true → later.entry.notices = [] := by
  have reports (board : Board) (steps : List Step) :
      ∀ t ∈ taken c budget board steps, t.step.movesBytes = true → t.Reports c budget :=
    forall_taken (fun _ => True) trivial (fun board _ _ _ moves => reports_entry moves board budget)
      fun _ _ _ _ _ => trivial
  refine ⟨reports board steps, ?_⟩
  induction steps generalizing board with
  | nil => exact List.Pairwise.nil
  | cons step rest ih =>
    obtain ⟨later, split, next⟩ := taken_cons c budget board step rest
    rw [split, List.pairwise_cons]
    rcases next with rfl | rfl
    · exact ⟨List.forall_mem_nil _, List.Pairwise.nil⟩
    · refine ⟨?_, ih _⟩
      intro t ht known moves
      by_contra told
      have detects := (reports _ _ t ht moves).notices_iff.mp told
      exact taken_detected known t ht detects.2.1

/-- The first text that is printed reports the detection, and nothing after it reports again. -/
theorem byte_path_reports_detection_only_first_print :
    let c : Console := { layout := .rpi3, config := .rpi3 }
    let steps : List Step := [.operate .mini .poll, .print "a", .operate .active .poll, .flush]
    (∀ t ∈ taken c 9 (powerUp c) steps, t.step.movesBytes = true → t.Reports c 9) ∧
    (run c 9 (powerUp c) steps).map Entry.notices = [[], [.detected .mini], [], []] := by
  intro c steps
  exact ⟨(byte_path_reports_detection_only c 9 (powerUp c) steps).1, by decide +kernel⟩

/-- The byte path is not silent altogether: the write that finds the UART reports it. -/
theorem first_write_reports_detection : ¬∀ (c : Console) (budget : Nat) (board : Board) (steps : List Step),
    ∀ t ∈ taken c budget board steps, t.step.movesBytes = true → t.entry.notices = [] := by
  intro silent
  let c : Console := { layout := .rpi4, config := .rpi4 }
  let step : Step := .operate .console (.write [0x41])
  have told : (step.entry c 5000 (powerUp c)).notices = [.detected .mini] := by decide +kernel
  have done : (step.entry c 5000 (powerUp c)).reply = some (.number 1) := by decide +kernel
  have first : ⟨powerUp c, step, step.entry c 5000 (powerUp c)⟩ ∈ taken c 5000 (powerUp c) [step] := by
    rw [taken_of_done done]
    exact List.mem_cons_self ..
  have nothing := silent c 5000 (powerUp c) [step] _ first rfl
  rw [told] at nothing
  cases nothing

end ConsoleUart.Scenario
