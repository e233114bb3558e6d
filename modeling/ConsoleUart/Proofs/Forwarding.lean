import ConsoleUart.Proofs.Operating

/-!
# Forwarding to the PL011

What reaches the back-end. Each operation on the PL011 makes its calls and no others, gives back what the
back-end answers, and changes nothing besides. Opening the device leaves the timeout out, so a request's
timeout makes no difference to a run.
-/

namespace ConsoleUart

/-! ### One operation -/

namespace Backend

/-- The back-end after an operation: only reading changes it. -/
def after (b : Backend) : Operation → Backend
  | .read count => { b with received := b.received.drop count }
  | _ => b

theorem map_failing {α β : Type} (fault : Option Fault) (a : α) (f : α → β) :
    (failing fault a).map f = failing fault (f a) := by
  cases fault <;> rfl

end Backend

namespace Pl011

variable (p : Pl011)

/-- The calls of an operation, when the back-end's clock has this frequency. -/
def calls (clockHz : Nat) : Operation → List Call
  | .configure => [.clockFrequency, .openDevice p.base clockHz {
      baudRate := some p.defaults.baudRate
      receiveFifoDepth := none
      timeoutMicros := none
      parity := some p.defaults.parity
      dataBits := some p.defaults.dataBits
      stopBits := some p.defaults.stopBits }]
  | .write bytes => [.write p.base bytes]
  | .read count => [.read p.base count]
  | .poll => [.poll p.base]
  | .setControl signals => [.setControl p.base signals]
  | .getControl => [.getControl p.base]
  | .setAttributes request =>
    [.clockFrequency, .openDevice p.base clockHz { request with timeoutMicros := none }]

/-- What the back-end answers to the last call of an operation. Configuring leaves the attributes out. -/
def answer (b : Backend) : (op : Operation) → op.Answer
  | .configure => Backend.failing b.openFault ()
  | .write bytes => b.accepted bytes.length
  | .read count => b.received.take count
  | .poll => !b.received.isEmpty
  | .setControl _ => Backend.failing b.setFault ()
  | .getControl => Backend.failing b.getFault b.control
  | .setAttributes request =>
    Backend.failing b.openFault (Backend.attributes { request with timeoutMicros := none })

theorem run_perform (op : Operation) (b : Backend) (n : Nat) :
    (p.perform op).run b n = ⟨some (answer b op), p.calls b.clockHz op, b.after op, n⟩ := by
  cases op with
  | configure =>
    have opened : (p.perform .configure).run b n = ⟨some ((Backend.failing b.openFault
        (Backend.attributes p.defaultRequest)).map fun _ => ()), p.calls b.clockHz .configure, b, n⟩ := rfl
    rw [opened, Backend.map_failing]
    rfl
  | write | read | poll | setControl | getControl | setAttributes => rfl

end Pl011

namespace Scenario

variable {c : Console} {board : Board} {step step' : Step} {budget : Nat} {op : Operation}
  {reply : op.Answer → Reply}

/-! ### One step -/

theorem calls_of_bus (events : List Bus.Event) : (events.map Event.bus).filterMap Event.call? = [] := by
  simp [List.filterMap_map, List.filterMap_eq_nil_iff, Event.call?]

theorem calls_of_link (calls : List Call) : (calls.map Event.call).filterMap Event.call? = calls := by
  rw [List.filterMap_map]
  exact List.filterMap_some

theorem calls_probe (c : Console) (t : Taken) : (t.probe c).filterMap Event.call? = [] := by
  unfold Taken.probe
  split <;> rfl

/-- The step shows the calls of the operation and what the back-end answers, and leaves the rest alone. -/
structure Taken.Forwards (c : Console) (t : Taken) (op : Operation) (reply : op.Answer → Reply) : Prop where
  calls : t.entry.calls = c.pl011.calls t.before.backend.clockHz op
  reply : t.entry.reply = some (reply (Pl011.answer t.before.backend op))
  backend : t.entry.board.backend = t.before.backend.after op
  soc : t.entry.board.soc = t.before.soc

theorem run_performOn_pl011 (c : Console) (op : Operation) (board : Board) (n : Nat) :
    (c.performOn .pl011 op).run board n = ⟨some (Pl011.answer board.backend op),
      (c.pl011.calls board.backend.clockHz op).map Event.call,
      { board with backend := board.backend.after op }, n⟩ := by
  show (Console.onBackend (c.pl011.perform op)).run board n = _
  rw [Console.onBackend, Session.run_within, c.pl011.run_perform]

theorem forwards_of_shows {t : Taken} {n : Nat} (shown : t.Shows c reply ((c.performOn .pl011 op).run t.before n)) :
    t.Forwards c op reply := by
  rw [run_performOn_pl011] at shown
  refine ⟨?_, shown.reply, shown.backend, shown.soc⟩
  rw [Entry.calls, shown.events, List.filterMap_append, calls_probe, calls_of_link, List.nil_append]

theorem forwards_entry (asks : step.operation? = some ⟨op, reply⟩)
    (target : step.target c board = some .pl011)
    (fed : Taken.starved budget ⟨board, step, step.entry c budget board⟩ = false) :
    Taken.Forwards c ⟨board, step, step.entry c budget board⟩ op reply := by
  rcases entry_of_operation c budget board asks with ⟨starved, -⟩ | ⟨-, uart, chosen, shown⟩
  · exact absurd (fed.symm.trans starved) Bool.false_ne_true
  · rw [target] at chosen
    cases chosen
    exact forwards_of_shows shown

/-- The calls that a step makes: none, unless it is for the PL011. -/
def Taken.calls (c : Console) (budget : Nat) (t : Taken) : List Call :=
  if t.starved budget || t.step.target c t.before != some .pl011 then []
  else
    match t.step, t.step.operation? with
    | _, some ⟨op, _⟩ => c.pl011.calls t.before.backend.clockHz op
    | .pl011 .clock, none => [.clockFrequency]
    | _, none => []

theorem calls_entry (c : Console) (budget : Nat) (board : Board) (step : Step) :
    (step.entry c budget board).calls =
      Taken.calls c budget ⟨board, step, step.entry c budget board⟩ := by
  cases asks : step.operation? with
  | some operation =>
    obtain ⟨op, reply⟩ := operation
    rcases entry_of_operation c budget board asks with ⟨starved, -, cut⟩ | ⟨fed, uart, target, shown⟩
    · rw [Taken.calls, starved]
      exact congrArg Entry.calls cut
    · cases uart with
      | mini =>
        have elsewhere : Taken.calls c budget ⟨board, step, step.entry c budget board⟩ = [] := by
          simp [Taken.calls, target]
        rw [Entry.calls, shown.events, List.filterMap_append, calls_probe, elsewhere]
        exact calls_of_bus _
      | pl011 =>
        rw [(forwards_of_shows shown).calls]
        simp [Taken.calls, fed, target, asks]
  | none =>
    cases step with
    | operate | flush | print => cases asks
    | change | detected => rfl
    | select =>
      obtain ⟨detected, soc, backend⟩ := board
      cases detected with
      | some uart => rfl
      | none => cases budget <;> rfl
    | mini query => exact calls_of_bus _
    | registers query => exact calls_of_bus _
    | pl011 query => cases query <;> rfl

/-- A print on the PL011 is one write, complete when the back-end accepts every byte of it. -/
theorem printed_iff {text : String} (target : (Step.print text).target c board = some .pl011)
    (fed : Taken.starved budget ⟨board, .print text, (Step.print text).entry c budget board⟩ = false) :
    ((Step.print text).entry c budget board).calls = [.write c.layout.pl011Base (utf8 text)] ∧
    (((Step.print text).entry c budget board).reply = some (.printed true) ↔
      board.backend.accepted (utf8 text).length = (utf8 text).length) := by
  have forwards := forwards_entry rfl target fed
  refine ⟨forwards.calls, ?_⟩
  rw [forwards.reply]
  simp [Pl011.answer]

/-! ### Timeouts -/

/-- The steps are the same, but for the timeout of a request. -/
inductive Step.SameButTimeout : Step → Step → Prop where
  | same (step : Step) : SameButTimeout step step
  | timeout (handle : Handle) (request : Line.Request) (micros : Option Nat) :
    SameButTimeout (operate handle (.setAttributes request))
      (operate handle (.setAttributes { request with timeoutMicros := micros }))

def Step.setsAttributes : Step → Bool
  | operate _ (.setAttributes _) => true
  | _ => false

theorem select_congr {α : Type} {f g : Uart → Session Board Event α}
    (h : f (c.routed board) = g (c.routed board)) (n : Nat) : (c.select >>= f).run board n = (c.select >>= g).run board n := by
  cases known : board.detected with
  | some uart => rw [c.select_of_detected known, c.select_of_detected known, h]
  | none =>
    cases n with
    | zero => rw [c.select_of_undetected_zero known, c.select_of_undetected_zero known]
    | succ n =>
      have left := c.select_of_undetected_succ known f n
      have right := c.select_of_undetected_succ known g n
      rw [left, right, h]

theorem entry_sameButTimeout (same : step.SameButTimeout step')
    (onPl011 : step.setsAttributes = true → step.target c board = some .pl011) :
    step'.entry c budget board = step.entry c budget board := by
  cases same with
  | same => rfl
  | timeout handle request micros =>
    have target := onPl011 rfl
    have untimed : c.performOn .pl011 (.setAttributes { request with timeoutMicros := micros }) =
        c.performOn .pl011 (.setAttributes request) := rfl
    have routed (h : c.routed board = .pl011) (n : Nat) :
        (c.select >>= fun uart => Reply.ofAnswer (.setAttributes { request with timeoutMicros := micros }) <$>
          c.performOn uart (.setAttributes { request with timeoutMicros := micros })).run board n =
        (c.select >>= fun uart => Reply.ofAnswer (.setAttributes request) <$>
          c.performOn uart (.setAttributes request)).run board n :=
      select_congr (by rw [h]; rfl) n
    unfold Step.entry
    rw [Step.session_operate, Step.session_operate]
    cases handle with
    | console | active => simp only [routed (Option.some.inj target)]
    | mini => cases target
    | pl011 => rfl

/-! ### Runs -/

theorem calls_run (c : Console) (budget : Nat) (board : Board) (steps : List Step) :
    (run c budget board steps).flatMap Entry.calls =
      (taken c budget board steps).flatMap (Taken.calls c budget) := by
  have each : ∀ t ∈ taken c budget board steps, t.entry.calls = t.calls c budget :=
    forall_taken (fun _ => True) trivial (fun board step _ _ => calls_entry c budget board step)
      fun _ _ _ _ _ => trivial
  rw [← taken_map_entry, List.flatMap_map]
  exact List.flatMap_congr each

theorem run_sameButTimeout {steps steps' : List Step} (same : List.Forall₂ Step.SameButTimeout steps steps')
    (onPl011 : ∀ t ∈ taken c budget board steps, t.step.setsAttributes = true →
      t.step.target c t.before = some .pl011) :
    run c budget board steps' = run c budget board steps := by
  induction same generalizing board with
  | nil => rfl
  | @cons step step' rest rest' one _ ih =>
    cases done : (step.entry c budget board).reply with
    | none =>
      rw [taken_of_cut done] at onPl011
      have first : step'.entry c budget board = step.entry c budget board :=
        entry_sameButTimeout one (onPl011 _ (List.mem_cons_self ..))
      rw [run_of_cut done, run_of_cut (by rw [first, done]), first]
    | some answer =>
      rw [taken_of_done done] at onPl011
      have first : step'.entry c budget board = step.entry c budget board :=
        entry_sameButTimeout one (onPl011 _ (List.mem_cons_self ..))
      have others := ih fun t ht => onPl011 t (List.mem_cons_of_mem _ ht)
      rw [run_of_done done, run_of_done (by rw [first, done]), first, others]

/-- The run makes the calls of its steps on the PL011 and no others, and gives back what the back-end
answers. Only a step that cannot read the pins is cut short. -/
structure ForwardsAll (c : Console) (budget : Nat) (board : Board) (steps : List Step) : Prop where
  calls : (run c budget board steps).flatMap Entry.calls =
    (taken c budget board steps).flatMap (Taken.calls c budget)
  forwards : ∀ t ∈ taken c budget board steps, ∀ op reply, t.step.operation? = some ⟨op, reply⟩ →
    t.step.target c t.before = some .pl011 →
    if t.starved budget then t.entry = ⟨none, [], [], t.before⟩ else t.Forwards c op reply
  prints : ∀ t ∈ taken c budget board steps, ∀ text, t.step = .print text →
    t.step.target c t.before = some .pl011 → t.starved budget = false →
    t.entry.calls = [.write c.layout.pl011Base (utf8 text)] ∧
    (t.entry.reply = some (.printed true) ↔
      t.before.backend.accepted (utf8 text).length = (utf8 text).length)
  /-- The run is the same for other timeouts. -/
  untimed : (∀ t ∈ taken c budget board steps, t.step.setsAttributes = true →
      t.step.target c t.before = some .pl011) →
    ∀ steps', List.Forall₂ Step.SameButTimeout steps steps' →
      run c budget board steps' = run c budget board steps

theorem pl011_forwards_throughout (c : Console) (budget : Nat) (board : Board) (steps : List Step) :
    ForwardsAll c budget board steps where
  calls := calls_run c budget board steps
  forwards := by
    refine forall_taken (fun _ => True) trivial ?_ fun _ _ _ _ _ => trivial
    intro board step _ _ op reply asks target
    split
    case isFalse fed => exact forwards_entry asks target (by simpa using fed)
    case isTrue starved =>
      rcases entry_of_operation c budget board asks with ⟨-, -, cut⟩ | ⟨fed, -⟩
      · exact cut
      · exact absurd (fed.symm.trans starved) Bool.false_ne_true
  prints := by
    refine forall_taken (fun _ => True) trivial ?_ fun _ _ _ _ _ => trivial
    rintro board step - - text rfl target fed
    exact printed_iff target fed
  untimed := fun onPl011 _ same => run_sameButTimeout same onPl011

/-- The PL011 is detected, opened twice and takes three of four bytes; another timeout changes nothing. -/
theorem pl011_forwards_throughout_short_write :
    let c : Console := { layout := .rpi3, config := .rpi3 }
    let board : Board := { soc := { (powerUp c).soc with pinFunctions := 0x24000 }
                           backend := { writeLimit := some 3, setFault := some .device } }
    let steps (micros : Nat) : List Step := [.operate .console .configure,
      .operate .active (.setAttributes { baudRate := some 9600, timeoutMicros := some micros }),
      .print "four", .flush, .operate .pl011 (.setControl 0x80000000)]
    ForwardsAll c 1 board (steps 5) ∧ run c 1 board (steps 7) = run c 1 board (steps 5) ∧
    (run c 1 board (steps 5)).map Entry.reply = [some .done,
      some (.attributes { baudRate := 9600, receiveFifoDepth := 32, timeoutMicros := 777,
                          parity := .mark, dataBits := 6, stopBits := .two }),
      some (.printed false), some .nothing, some (.refused .device)] ∧
    (run c 1 board (steps 5)).flatMap Entry.calls = [
      .clockFrequency, .openDevice 0x3F201000 48000000 { baudRate := some 115200, parity := some .none,
                                                         dataBits := some 8, stopBits := some .one },
      .clockFrequency, .openDevice 0x3F201000 48000000 { baudRate := some 9600 },
      .write 0x3F201000 [0x66, 0x6F, 0x75, 0x72], .write 0x3F201000 [],
      .setControl 0x3F201000 0x80000000] := by
  intro c board steps
  have forwards := pl011_forwards_throughout c 1 board (steps 5)
  have onPl011 : ∀ t ∈ taken c 1 board (steps 5), t.step.setsAttributes = true →
      t.step.target c t.before = some .pl011 := by decide +kernel
  have same : List.Forall₂ Step.SameButTimeout (steps 5) (steps 7) := by
    exact .cons (.same _) (.cons (.timeout .active _ _) (.cons (.same _) (.cons (.same _) (.cons (.same _) .nil))))
  exact ⟨forwards, forwards.untimed onPl011 _ same, by decide +kernel, by decide +kernel⟩

end Scenario

end ConsoleUart
