import ConsoleUart.Proofs.Detection

/-!
# Steps that operate a UART

What a step shows that comes to an operation: the probe of the pins, if it needs one, and then what the
operation does on its UART. Only a step that needs a probe and has no access to make it with is cut short
before its operation begins.
-/

namespace ConsoleUart.Scenario

variable {board : Board} {step : Step} {uart : Uart} {op : Operation} {reply : op.Answer → Reply}
  {budget : Nat}

/-- The operation goes to the selected UART or to a fixed one. -/
theorem Step.operation_cases (c : Console) (asks : step.operation? = some ⟨op, reply⟩) :
    (step.selects = true ∧ (∀ board, step.target c board = some (c.routed board)) ∧
      step.session c = c.select >>= fun uart => reply <$> c.performOn uart op) ∨
    ∃ uart, step.selects = false ∧ (∀ board, step.target c board = some uart) ∧
      step.session c = reply <$> c.performOn uart op := by
  cases step with
  | operate handle =>
    cases asks
    cases handle with
    | console => exact Or.inl ⟨rfl, fun _ => rfl, session_operate .console op⟩
    | active => exact Or.inl ⟨rfl, fun _ => rfl, session_operate .active op⟩
    | mini => exact Or.inr ⟨.mini, rfl, fun _ => rfl, rfl⟩
    | pl011 => exact Or.inr ⟨.pl011, rfl, fun _ => rfl, rfl⟩
  | flush =>
    cases asks
    exact Or.inl ⟨rfl, fun _ => rfl, session_flush⟩
  | print text =>
    cases asks
    exact Or.inl ⟨rfl, fun _ => rfl, session_print text⟩
  | change | detected | select | mini | registers | pl011 => cases asks

theorem oblivious_performOn (c : Console) (uart : Uart) (op : Operation) :
    Console.Oblivious (c.performOn uart op) := by
  cases uart with
  | mini => exact Console.oblivious_onSoc (c.mini.perform op)
  | pl011 => exact Console.oblivious_onBackend (c.pl011.perform op)

namespace Taken

/-- The step has to probe the pins and has no access to do it with. -/
def starved (budget : Nat) (t : Taken) : Bool :=
  t.step.selects && t.before.detected.isNone && budget == 0

/-- The entry shows the probe and then the run `r`, whose answer becomes the reply. -/
structure Shows (c : Console) (t : Taken) {α : Type} (reply : α → Reply) (r : Run Board Event α) :
    Prop where
  reply : t.entry.reply = r.outcome.map reply
  events : t.entry.events = t.probe c ++ r.events
  sent : t.entry.sent = r.state.soc.sent.toList.drop t.before.soc.sent.size
  soc : t.entry.board.soc = r.state.soc
  backend : t.entry.board.backend = r.state.backend
  detected : t.entry.board.detected =
    if t.step.selects then some (c.routed t.before) else t.before.detected

end Taken

variable {c : Console}

theorem entry_of_starved
    (session : step.session c = c.select >>= fun uart => reply <$> c.performOn uart op)
    (unknown : board.detected = none) : step.entry c 0 board = ⟨none, [], [], board⟩ := by
  rw [Step.entry, session, c.select_of_undetected_zero unknown]
  simp

theorem shows_of_direct (selects : step.selects = false)
    (session : step.session c = reply <$> c.performOn uart op) :
    Taken.Shows c ⟨board, step, step.entry c budget board⟩ reply
      ((c.performOn uart op).run board (step.share budget board.detected.isSome)) := by
  have oblivious := oblivious_performOn c uart op
  have share : step.share budget board.detected.isSome = budget := by simp [Step.share, selects]
  have probe (e : Entry) : Taken.probe c ⟨board, step, e⟩ = [] := by simp [Taken.probe, selects]
  unfold Step.entry
  rw [session, Session.run_map]
  constructor <;> simp [share, probe, selects, oblivious.detected]

theorem shows_of_known (budget : Nat) (selects : step.selects = true)
    (session : step.session c = c.select >>= fun uart => reply <$> c.performOn uart op)
    (known : board.detected = some uart) :
    Taken.Shows c ⟨board, step, step.entry c budget board⟩ reply
      ((c.performOn uart op).run board (step.share budget board.detected.isSome)) := by
  have kept := ((oblivious_performOn c uart op).detected board budget).trans known
  have share : step.share budget board.detected.isSome = budget := by simp [Step.share, known]
  have probe (e : Entry) : Taken.probe c ⟨board, step, e⟩ = [] := by simp [Taken.probe, known]
  have routed : c.routed board = uart := by simp [Console.routed, known]
  unfold Step.entry
  rw [session, c.select_of_detected known, Session.run_map, routed]
  constructor <;> simp [share, probe, selects, kept, routed]

theorem shows_of_probed (left : Nat) (selects : step.selects = true)
    (session : step.session c = c.select >>= fun uart => reply <$> c.performOn uart op)
    (unknown : board.detected = none) :
    Taken.Shows c ⟨board, step, step.entry c (left + 1) board⟩ reply
      ((c.performOn (c.routed board) op).run board (step.share (left + 1) board.detected.isSome)) := by
  have oblivious := oblivious_performOn c (c.routed board) op
  have share : step.share (left + 1) false = left := by simp [Step.share, selects]
  unfold Step.entry
  rw [session, c.select_of_undetected_succ unknown, Session.run_map,
    oblivious board (some (c.routed board))]
  constructor <;> simp [Taken.probe, share, selects, unknown]

/-- The operation runs on the budget that a probe leaves, unless that is none. -/
theorem entry_of_operation (c : Console) (budget : Nat) (board : Board)
    (asks : step.operation? = some ⟨op, reply⟩) :
    let t : Taken := ⟨board, step, step.entry c budget board⟩
    (t.starved budget = true ∧ budget = 0 ∧ t.entry = ⟨none, [], [], board⟩) ∨
    (t.starved budget = false ∧ ∃ uart, step.target c board = some uart ∧
      t.Shows c reply ((c.performOn uart op).run board (step.share budget board.detected.isSome))) := by
  intro t
  rcases Step.operation_cases c asks with ⟨selects, target, session⟩ | ⟨uart, direct, target, session⟩
  · cases detected : board.detected with
    | some uart =>
      have routed : c.routed board = uart := by simp [Console.routed, detected]
      refine Or.inr ⟨by simp [t, Taken.starved, detected], uart, by rw [target, routed], ?_⟩
      have shown := shows_of_known budget selects session detected
      rwa [detected] at shown
    | none =>
      cases budget with
      | zero =>
        exact Or.inl ⟨by simp [t, Taken.starved, selects, detected], rfl,
          entry_of_starved session detected⟩
      | succ left =>
        refine Or.inr ⟨by simp [t, Taken.starved], c.routed board, target board, ?_⟩
        have shown := shows_of_probed left selects session detected
        rwa [detected] at shown
  · exact Or.inr ⟨by simp [t, Taken.starved, direct], uart, target board, shows_of_direct direct session⟩

end ConsoleUart.Scenario
