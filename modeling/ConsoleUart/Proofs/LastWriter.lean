import ConsoleUart.Proofs.Discipline
import ConsoleUart.Proofs.Granting

/-!
# The last request wins

Over a run, each field of the line and its divisor are what the last granted request that names them asks
for. A step that is granted a request settles the line; every other step leaves it alone. By induction the
grants of a run lead from the first line to the last.
-/

namespace ConsoleUart

namespace Soc

/-- The change keeps the mapping and the line. -/
def Change.keepsLine : Change → Bool
  | base _ | stride _ | lineControl _ | divisorLow _ | divisorHigh _ => false
  | _ => true

theorem Change.keepsLatch_of_keepsLine {change : Change} (h : change.keepsLine = true) :
    change.keepsLatch = true := by
  cases change with
  | divisorLow | divisorHigh => rfl
  | _ => exact h

theorem line_applyAll {changes : List Change} (keeps : ∀ change ∈ changes, change.keepsLine = true) (s : Soc) :
    (s.applyAll changes).line = s.line := by
  refine applyAll_keeps (p := fun t => t.line = s.line) ?_ rfl
  intro change hc t h
  have hk := keeps change hc
  cases change with
  | base | stride | lineControl | divisorLow | divisorHigh => exact absurd hk Bool.false_ne_true
  | _ => exact h

end Soc

namespace Scenario

/-- The request that the step was granted by the mini UART, if it was. -/
def Taken.grant? (c : Console) (t : Taken) : Option Grant :=
  match t.step, t.entry.reply with
  | .operate handle (.setAttributes request), some (.attributes _) =>
    if handle.uart c t.before = .mini then some { request, clock := c.mini.clockAt t.before.soc } else none
  | _, _ => none

theorem Taken.of_grant? {c : Console} {t : Taken} {g : Grant} (h : t.grant? c = some g) :
    (∃ handle request, t.step = .operate handle (.setAttributes request)) ∧ t.entry.reply ≠ none ∧
      t.step.target c t.before = some .mini := by
  obtain ⟨before, step, entry⟩ := t
  unfold grant? at h
  split at h
  case h_1 handle request attributes asked answered =>
    split at h
    case isTrue here =>
      cases asked
      exact ⟨⟨handle, request, rfl⟩, by rw [answered]; nofun, congrArg some here⟩
    case isFalse => cases h
  case h_2 => cases h

namespace Step

/-- An operation but configuring, a question that touches no register by name, or a change from outside
that keeps the line. What is asked of the PL011 does not matter. -/
def keepsLine : Step → Bool
  | change soc _ => soc.all Soc.Change.keepsLine
  | operate .pl011 _ => true
  | operate _ .configure => false
  | registers (.read _) | registers (.write ..) => false
  | _ => true

variable {step : Step}

theorem keepsLatch_of_keepsLine (h : step.keepsLine = true) : step.keepsLatch = true := by
  cases step with
  | change soc backend =>
    have each := List.all_eq_true.mp h
    exact List.all_eq_true.mpr fun change hc => Soc.Change.keepsLatch_of_keepsLine (each change hc)
  | registers query =>
    cases query with
    | base => rfl
    | read r => exact absurd h Bool.false_ne_true
    | write r value => exact absurd h Bool.false_ne_true
  | _ => rfl

theorem line_arranged (h : step.keepsLine = true) (s : Soc) : (step.arranged s).line = s.line := by
  cases step with
  | change soc backend => exact Soc.line_applyAll (List.all_eq_true.mp h) s
  | _ => rfl

variable {c : Console} {board : Board}

theorem plain_of_keepsLine (h : step.keepsLine = true) (target : step.target c board = some .mini)
    (other : ∀ handle request, step ≠ .operate handle (.setAttributes request)) : step.footprint.Plain := by
  cases step with
  | operate handle op =>
    have asked : op ≠ .configure := by
      rintro rfl
      cases handle with
      | pl011 => cases target
      | _ => cases h
    exact Operation.footprint_plain asked fun request he => other handle request (by rw [he])
  | flush | print => exact Operation.footprint_plain nofun nofun
  | mini query =>
    cases query with
    | divisor baud => exact ⟨List.forall_mem_nil _, List.forall_mem_nil _⟩
    | _ => decide
  | registers query =>
    cases query with
    | base => decide
    | read r => exact absurd h Bool.false_ne_true
    | write r value => exact absurd h Bool.false_ne_true
  | change | detected | select | pl011 => cases target

theorem settled_setAttributes {handle : Handle} {request : Line.Request} {left : Nat} {lead : List Access}
    (target : (operate handle (.setAttributes request)).target c board = some .mini)
    (mapped : board.soc.Mapped c.mini.registers) (closed : board.soc.latchOpen = false) {e : Entry}
    (follows : Follows c board ((operate handle (.setAttributes request)).direct c.mini) lead left e)
    (done : e.reply ≠ none) : Settled c.config.baudRate board.soc.line
      (Taken.grant? c ⟨board, operate handle (.setAttributes request), e⟩).toList e.board.soc.line := by
  have here : handle.uart c board = .mini := Option.some.inj target
  have map := Session.run_map (Reply.ofAnswer (.setAttributes request)) (c.mini.setAttributes request)
    board.soc left
  have reply : e.reply = ((c.mini.setAttributes request).run board.soc left).outcome.map
      (Reply.ofAnswer (.setAttributes request)) := follows.reply.trans (congrArg Run.outcome map)
  have soc : e.board.soc = ((c.mini.setAttributes request).run board.soc left).state :=
    follows.soc.trans (congrArg Run.state map)
  cases ho : ((c.mini.setAttributes request).run board.soc left).outcome with
  | none =>
    rw [ho] at reply
    exact absurd reply done
  | some answer =>
    rw [ho] at reply
    cases answer with
    | error fault =>
      have refused : Taken.grant? c ⟨board, operate handle (.setAttributes request), e⟩ = none := by
        simp only [Taken.grant?, reply]
        rfl
      rw [refused, soc, c.mini.setAttributes_refused mapped closed ho]
      exact .nil _
    | ok attributes =>
      have granted : Taken.grant? c ⟨board, operate handle (.setAttributes request), e⟩ =
          some ⟨request, c.mini.clockAt board.soc⟩ := by
        simp only [Taken.grant?, reply]
        exact if_pos here
      obtain ⟨honoured, line⟩ := c.mini.line_setAttributes_granted mapped closed ho
      rw [granted, soc, line]
      exact .cons honoured (.nil _)

/-- A completed step settles the line if it is granted a request, and leaves the line alone if not. -/
theorem settled_entry (h : step.keepsLine = true) (mapped : board.soc.Mapped c.mini.registers)
    (closed : board.soc.latchOpen = false) {n : Nat} (done : (step.entry c n board).reply ≠ none) :
    Settled c.config.baudRate board.soc.line
      (Taken.grant? c ⟨board, step, step.entry c n board⟩).toList (step.entry c n board).board.soc.line := by
  have still (none_granted : Taken.grant? c ⟨board, step, step.entry c n board⟩ = none)
      (line : (step.entry c n board).board.soc.line = board.soc.line) :
      Settled c.config.baudRate board.soc.line
        (Taken.grant? c ⟨board, step, step.entry c n board⟩).toList (step.entry c n board).board.soc.line := by
    rw [none_granted, line]
    exact .nil _
  rcases entry_cases c board step n with bypasses | ⟨target, lead, left, -, follows⟩
  · refine still (Option.eq_none_iff_forall_ne_some.mpr fun g granted => ?_) ?_
    · exact done (bypasses.cut (Taken.of_grant? granted).2.2)
    · rw [bypasses.soc, line_arranged h]
  · by_cases asks : ∃ handle request, step = .operate handle (.setAttributes request)
    · obtain ⟨handle, request, rfl⟩ := asks
      exact settled_setAttributes target mapped closed follows done
    · refine still (Option.eq_none_iff_forall_ne_some.mpr fun g granted => ?_) ?_
      · exact asks (Taken.of_grant? granted).1
      · have plain := plain_of_keepsLine h target fun handle request he => asks ⟨handle, request, he⟩
        rw [follows.soc]
        exact (within_direct c.mini step).line plain mapped closed left

end Step

/-! ### Runs -/

/-- A run of completed steps that keep the line, on a mapped chip with its latch closed. -/
structure KeepsLine (c : Console) (budget : Nat) (board : Board) (steps : List Step) : Prop where
  mapped : board.soc.Mapped c.mini.registers
  closed : board.soc.latchOpen = false
  keeps : ∀ step ∈ steps, step.keepsLine = true
  completed : ∀ t ∈ taken c budget board steps, t.entry.reply ≠ none

def grants (c : Console) (budget : Nat) (board : Board) (steps : List Step) : List Grant :=
  (taken c budget board steps).flatMap fun t => (t.grant? c).toList

variable {c : Console} {budget : Nat} {board : Board} {steps : List Step}

theorem settled_run (h : KeepsLine c budget board steps) : Settled c.config.baudRate board.soc.line
    (grants c budget board steps) (ending board (run c budget board steps)).soc.line := by
  induction steps generalizing board with
  | nil => exact .nil _
  | cons step rest ih =>
    obtain ⟨mapped, closed, keeps, completed⟩ := h
    have keep := keeps step (List.mem_cons_self ..)
    cases hr : (step.entry c budget board).reply with
    | none =>
      rw [taken_of_cut hr] at completed
      exact absurd hr (completed _ (List.mem_singleton.mpr rfl))
    | some reply =>
      have done : (step.entry c budget board).reply ≠ none := by
        rw [hr]
        exact Option.some_ne_none reply
      have fitting := Step.fitting_entry (Step.keepsLatch_of_keepsLine keep) mapped closed budget
      have first := Step.settled_entry keep mapped closed done
      rw [taken_of_done hr] at completed
      have others := ih ⟨fitting.mapped, fitting.closed done,
        fun step hs => keeps step (List.mem_cons_of_mem _ hs),
        fun t ht => completed t (List.mem_cons_of_mem _ ht)⟩
      rw [grants, taken_of_done hr, run_of_done hr, List.flatMap_cons]
      exact first.append others

/-- Each field of the line control byte ends with the code that the last granted request to name it asked
for, and with its first code if none did. The latch ends with the divisor of the last granted request to
name a rate. If none did, a divisor that was there stays, and an empty latch is filled with that of the
configured rate by the first granted request to name a field. Grants that name nothing change nothing. From
a line with a divisor, two runs that want the same in the end leave the same line. -/
theorem last_writer_wins (c : Console) (budget : Nat) (board : Board) (steps : List Step)
    (keepsLine : KeepsLine c budget board steps) :
    let start := board.soc
    let final := (ending board (run c budget board steps)).soc
    let granted := grants c budget board steps
    Line.Fields.ofRegister final.lineControl =
      { data := (lastWanted granted).data.getD (Line.Fields.ofRegister start.lineControl).data
        stop := (lastWanted granted).stop.getD (Line.Fields.ofRegister start.lineControl).stop
        parity := (lastWanted granted).parity.getD (Line.Fields.ofRegister start.lineControl).parity } ∧
    final.divisor =
      (lastWanted granted).divisor.getD (keptDivisor c.config.baudRate start.divisor granted) ∧
    ((∀ g ∈ granted, g.request.leavesLine = true) → final.line = start.line) ∧
    (start.divisor ≠ 0 → ∀ budget' board' steps', KeepsLine c budget' board' steps' →
      board'.soc.line = start.line → lastWanted (grants c budget' board' steps') = lastWanted granted →
      (ending board' (run c budget' board' steps')).soc.line = final.line) := by
  intro start final granted
  have settled := settled_run keepsLine
  refine ⟨settled.fields, settled.divisor, settled.untouched, ?_⟩
  intro loaded budget' board' steps' keepsLine' same wanted
  have settled' := settled_run keepsLine'
  rw [same] at settled'
  exact settled.determined settled' loaded wanted

/-- A line found with a parity code that means no parity: one request is refused, one asks for nothing,
and the clock changes between two rates. A single request leads to the same line. -/
theorem last_writer_wins_clock_changed :
    let c : Console := { layout := .rpi4, config := .rpi4 }
    let board : Board := { powerUp c with
      soc := { (powerUp c).soc with lineControl := 0x14, divisorHigh := 0x01, divisorLow := 0x0F } }
    let steps : List Step := [
      .operate .mini (.setAttributes { dataBits := some 9 }), .operate .console (.setAttributes {}),
      .operate .mini (.setAttributes { baudRate := some 9600, stopBits := some .one }),
      .change [.clockDivisor 0x2000] [], .operate .active (.setAttributes { baudRate := some 115200 }),
      .print "ok", .operate .mini (.setAttributes { dataBits := some 8 })]
    let steps' : List Step := [.change [.clockDivisor 0x2000] [],
      .operate .mini (.setAttributes { baudRate := some 115200, dataBits := some 8, stopBits := some .one })]
    let start := board.soc
    let final := (ending board (run c 30 board steps)).soc
    let granted := grants c 30 board steps
    KeepsLine c 30 board steps ∧ start.divisor ≠ 0 ∧ KeepsLine c 30 board steps' ∧
    lastWanted (grants c 30 board steps') = lastWanted granted ∧ granted.length = 4 ∧
    (∀ g ∈ grants c 30 board (steps.take 2), g.request.leavesLine = true) ∧
    Line.Fields.ofRegister final.lineControl =
      { data := (lastWanted granted).data.getD (Line.Fields.ofRegister start.lineControl).data
        stop := (lastWanted granted).stop.getD (Line.Fields.ofRegister start.lineControl).stop
        parity := (lastWanted granted).parity.getD (Line.Fields.ofRegister start.lineControl).parity } ∧
    final.divisor =
      (lastWanted granted).divisor.getD (keptDivisor c.config.baudRate start.divisor granted) ∧
    final.line = { lineControl := 0x13, divisor := 543 } ∧
    (ending board (run c 30 board (steps.take 2))).soc.line = start.line ∧
    (ending board (run c 30 board steps')).soc.line = final.line := by
  intro c board steps steps' start final granted
  have mapped : board.soc.Mapped c.mini.registers := ⟨rfl, rfl, by decide, by decide⟩
  have closed : board.soc.latchOpen = false := by decide
  have keepsLine : KeepsLine c 30 board steps := ⟨mapped, closed, by decide, by decide +kernel⟩
  have few : KeepsLine c 30 board (steps.take 2) := ⟨mapped, closed, by decide, by decide +kernel⟩
  have keepsLine' : KeepsLine c 30 board steps' := ⟨mapped, closed, by decide, by decide +kernel⟩
  have loaded : start.divisor ≠ 0 := by decide
  have wanted : lastWanted (grants c 30 board steps') = lastWanted granted := by decide +kernel
  have idle : ∀ g ∈ grants c 30 board (steps.take 2), g.request.leavesLine = true := by decide +kernel
  obtain ⟨fields, divisor, -, same⟩ := last_writer_wins c 30 board steps keepsLine
  obtain ⟨-, -, still, -⟩ := last_writer_wins c 30 board (steps.take 2) few
  exact ⟨keepsLine, loaded, keepsLine', wanted, by decide +kernel, idle, fields, divisor, by decide +kernel,
    still idle, same loaded 30 board steps' keepsLine' rfl wanted⟩

end Scenario

end ConsoleUart
