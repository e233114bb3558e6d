import Mathlib.Data.List.Forall2
import ConsoleUart.Proofs.Routing
import ConsoleUart.Proofs.Runs

/-!
# Detecting once

A step that needs the UART selected is the same step made directly on the UART that is selected, after at
most one read of the pin functions. The other steps neither ask which UART was detected nor change it. So a
run with detection goes the way of a run that makes every step directly, whatever becomes of the pins once
they have been read.
-/

namespace ConsoleUart

/-- The handle that reaches a UART whatever the pins carry. -/
def Uart.handle : Uart → Scenario.Handle
  | mini => .mini
  | pl011 => .pl011

namespace Console

variable {α β : Type}

/-- A session that neither asks which UART was detected nor changes it. -/
def Oblivious (x : Session Board Event α) : Prop := ∀ board detected n,
  x.run { board with detected } n =
    { x.run board n with state := { (x.run board n).state with detected } }

theorem oblivious_onSoc (x : Bus Soc α) : Oblivious (onSoc x) := fun _ _ _ => rfl

theorem oblivious_onBackend (x : Link α) : Oblivious (onBackend x) := fun _ _ _ => rfl

theorem oblivious_map {x : Session Board Event α} (h : Oblivious x) (f : α → β) : Oblivious (f <$> x) := by
  intro board detected n
  rw [Session.run_map, Session.run_map, h]

theorem Oblivious.detected {x : Session Board Event α} (h : Oblivious x) (board : Board) (n : Nat) :
    (x.run board n).state.detected = board.detected :=
  congrArg (fun r : Run Board Event α => r.state.detected) (h board board.detected n)

end Console

namespace Scenario

variable {c : Console} {board : Board} {step : Step} {uart : Uart}

namespace Step

/-- The step needs the UART selected. -/
def selects : Step → Bool
  | operate .console _ | operate .active _ | flush | print _ | select => true
  | _ => false

/-- The step made directly on a UART. Asking for the selection comes to nothing there. -/
def on (uart : Uart) : Step → Step
  | operate .console op | operate .active op => operate uart.handle op
  | flush => operate uart.handle (.write [])
  | print text => operate uart.handle (.write (utf8 text))
  | select => change [] []
  | step => step

/-- The reply to a step, from the reply to the step made directly on the UART. -/
def answer (uart : Uart) (detected : Option Uart) : Step → Reply → Reply
  | flush, _ => .nothing
  | print text, .number count => .printed (count == (utf8 text).length)
  | select, _ => .selected uart
  | .detected, _ => .detected detected
  | _, reply => reply

theorem on_of_not_selects (h : step.selects = false) (uart : Uart) : step.on uart = step := by
  cases step with
  | operate handle op =>
    cases handle with
    | console | active => cases h
    | mini | pl011 => rfl
  | flush | print | select => cases h
  | _ => rfl

theorem on_not_selects (uart : Uart) (step : Step) : (step.on uart).selects = false := by
  cases step with
  | operate handle op => cases handle <;> cases uart <;> rfl
  | flush | print => cases uart <;> rfl
  | _ => rfl

/-! ### Steps that need the selection -/

theorem session_select (detected : Option Uart) : select.session c = c.select >>= fun uart =>
    select.answer uart detected <$> (select.on uart).session c := by
  have idle (uart : Uart) : select.answer uart detected <$> (select.on uart).session c =
      pure (Reply.selected uart) := by
    funext board n
    rfl
  simp only [idle]
  exact map_eq_pure_bind Reply.selected c.select

theorem session_on_handle (uart : Uart) (op : Operation) :
    (operate uart.handle op).session c = Reply.ofAnswer op <$> c.performOn uart op := by
  cases uart <;> rfl

theorem session_of_selects (h : step.selects = true) (detected : Option Uart) : step.session c =
    c.select >>= fun uart => step.answer uart detected <$> (step.on uart).session c := by
  cases step with
  | operate handle op =>
    cases handle with
    | console =>
      refine (session_operate .console op).trans (bind_congr fun uart => ?_)
      exact ((id_map' _).trans (session_on_handle uart op)).symm
    | active =>
      refine (session_operate .active op).trans (bind_congr fun uart => ?_)
      exact ((id_map' _).trans (session_on_handle uart op)).symm
    | mini | pl011 => cases h
  | flush =>
    refine session_flush.trans (bind_congr fun uart => ?_)
    rw [on, session_on_handle, Functor.map_map]
    rfl
  | print text =>
    refine (session_print text).trans (bind_congr fun uart => ?_)
    rw [on, session_on_handle, Functor.map_map]
    rfl
  | select => exact session_select detected
  | change | detected | mini | registers | pl011 => cases h

/-! ### Steps that do not -/

theorem oblivious_session (h : step.selects = false) (silent : step ≠ .detected) :
    Console.Oblivious (step.session c) := by
  cases step with
  | change soc backend => exact fun _ _ _ => rfl
  | operate handle op =>
    rw [session_operate]
    cases handle with
    | console | active => cases h
    | mini => exact Console.oblivious_map (Console.oblivious_onSoc _) _
    | pl011 => exact Console.oblivious_map (Console.oblivious_onBackend _) _
  | flush | print | select => cases h
  | detected => exact absurd rfl silent
  | mini query => exact Console.oblivious_onSoc _
  | registers query => exact Console.oblivious_onSoc _
  | pl011 query => exact Console.oblivious_onBackend _

theorem answer_of_not_selects (h : step.selects = false) (silent : step ≠ .detected) (uart : Uart)
    (detected : Option Uart) (reply : Reply) : step.answer uart detected reply = reply := by
  cases step with
  | operate handle op => cases handle <;> rfl
  | flush | print | select => cases h
  | detected => exact absurd rfl silent
  | _ => rfl

theorem on_ne_detected (h : step.selects = true) (uart : Uart) : step.on uart ≠ .detected := by
  cases step with
  | operate handle op => cases handle <;> nofun
  | flush | print | select => nofun
  | change | detected | mini | registers | pl011 => cases h

theorem covers_of_not_selects (h : step.selects = false) (board : Board) (n : Nat) :
    ∀ a ∈ (step.entry c n board).trace, step.footprint.Covers c.mini a := by
  have straight (hs : step.session c = Console.onSoc (step.direct c.mini)) :
      ∀ a ∈ (step.entry c n board).trace, step.footprint.Covers c.mini a := by
    have follows : Follows c board (step.direct c.mini) [] n (step.entry c n board) := follows_of_onSoc hs n
    rw [follows.trace]
    exact (within_direct c.mini step).mem board.soc n
  have aside {x : Session Board Event Reply} (hs : step.session c = x) (ha : Console.Aside x) :
      ∀ a ∈ (step.entry c n board).trace, step.footprint.Covers c.mini a := by
    have quiet : (step.entry c n board).trace = [] := by
      unfold entry
      rw [hs]
      exact (ha board n).1
    rw [quiet]
    exact List.forall_mem_nil _
  cases step with
  | change soc backend => exact List.forall_mem_nil _
  | operate handle op =>
    cases handle with
    | console | active => cases h
    | mini => exact straight ((session_operate .mini op).trans (Console.map_onSoc _ (c.mini.perform op)))
    | pl011 => exact aside (session_operate .pl011 op) (Console.aside_map (Console.aside_onBackend _))
  | flush | print | select => cases h
  | detected => exact List.forall_mem_nil _
  | mini query => exact straight rfl
  | registers query => exact straight rfl
  | pl011 query => exact aside rfl (Console.aside_onBackend (query.ask c.pl011))

/-- Made directly, a step that needs the selection is an operation, or nothing at all. -/
theorem on_cases (h : step.selects = true) (uart : Uart) :
    (∃ op, step.on uart = operate uart.handle op) ∨ step.on uart = change [] [] := by
  cases step with
  | operate handle op =>
    cases handle with
    | console | active => exact Or.inl ⟨op, rfl⟩
    | mini | pl011 => cases h
  | flush | print => exact Or.inl ⟨_, rfl⟩
  | select => exact Or.inr rfl
  | change | detected | mini | registers | pl011 => cases h

theorem trace_on_pl011 (h : step.selects = true) (board : Board) (n : Nat) :
    ((step.on .pl011).entry c n board).trace = [] := by
  rcases on_cases h .pl011 with ⟨op, he⟩ | he
  · rw [he, entry, session_on_handle]
    exact (Console.aside_map (Console.aside_onBackend (c.pl011.perform op)) board n).1
  · rw [he]
    rfl

theorem calls_on_mini (h : step.selects = true) (board : Board) (n : Nat) :
    ((step.on .mini).entry c n board).calls = [] := by
  rcases on_cases h .mini with ⟨op, he⟩ | he
  · rw [he, entry, session_on_handle]
    show (((Reply.ofAnswer op <$> Console.onSoc (c.mini.perform op)).run board n).events.filterMap _) = []
    rw [Console.map_onSoc, Console.onSoc, Session.run_within, List.filterMap_map]
    exact List.filterMap_eq_nil_iff.mpr fun _ _ => rfl
  · rw [he]
    rfl

end Step

/-! ### A step beside its direct counterpart -/

/-- What a step does to detect the UART: nothing unless it needs one and none is known. -/
def Taken.probe (c : Console) (t : Taken) : List Event :=
  if t.step.selects && t.before.detected.isNone then
    [.bus (.access (.readWord c.layout.pinFunctions
        (AddressSpace.loadWord t.before.soc c.layout.pinFunctions))),
      .bus (.notice (.detected (c.routed t.before)))]
  else []

/-- The step made directly shows the same entry, but for the probe and for which UART is known. -/
structure Routed (c : Console) (uart : Uart) (t : Taken) (e : Entry) : Prop where
  reply : t.entry.reply = e.reply.map (t.step.answer uart t.before.detected)
  events : t.entry.events = t.probe c ++ e.events
  sent : t.entry.sent = e.sent
  board : e.board = { t.entry.board with detected := none }

/-- The budget of the step made directly: a probe takes one access. -/
def Step.share (budget : Nat) (known : Bool) (step : Step) : Nat :=
  if step.selects && !known then budget - 1 else budget

theorem routed_selecting (h : step.selects = true) (target : c.routed board = uart) {budget : Nat}
    (paid : 0 < budget) :
    Routed c uart ⟨board, step, step.entry c budget board⟩
        ((step.on uart).entry c (step.share budget board.detected.isSome) { board with detected := none }) ∧
      (step.entry c budget board).board.detected = some uart := by
  have oblivious : Console.Oblivious ((step.on uart).session c) :=
    Step.oblivious_session (Step.on_not_selects uart step) (Step.on_ne_detected h uart)
  have session := Step.session_of_selects (c := c) h board.detected
  unfold Step.entry
  rw [session]
  cases hd : board.detected with
  | some known =>
    have share : step.share budget true = budget := by simp [Step.share]
    have probe (e : Entry) : Taken.probe c ⟨board, step, e⟩ = [] := by simp [Taken.probe, hd]
    rw [c.select_of_detected hd, target, Session.run_map, Option.isSome_some, share, oblivious board none]
    refine ⟨⟨?_, (congrArg (· ++ _) (probe _)).symm, rfl, rfl⟩, ?_⟩
    · rw [hd]
    · rw [oblivious.detected, hd, ← target, Console.routed, hd]
      rfl
  | none =>
    obtain ⟨left, rfl⟩ := Nat.exists_eq_add_one.mpr paid
    have share : step.share (left + 1) false = left := by simp [Step.share, h]
    have probe (e : Entry) : Taken.probe c ⟨board, step, e⟩ =
        [.bus (.access (.readWord c.layout.pinFunctions
            (AddressSpace.loadWord board.soc c.layout.pinFunctions))),
          .bus (.notice (.detected (c.routed board)))] := by simp [Taken.probe, h, hd]
    rw [c.select_of_undetected_succ hd, target, Session.run_map, oblivious board (some uart),
      Option.isSome_none, share, oblivious board none]
    refine ⟨⟨?_, ?_, rfl, rfl⟩, rfl⟩
    · rw [hd]
    · rw [probe, target]

theorem routed_other (h : step.selects = false) (uart : Uart) (budget : Nat) :
    Routed c uart ⟨board, step, step.entry c budget board⟩
        ((step.on uart).entry c (step.share budget board.detected.isSome) { board with detected := none }) ∧
      (step.entry c budget board).board.detected = board.detected := by
  have share (known : Bool) : step.share budget known = budget := by simp [Step.share, h]
  have probe (e : Entry) : Taken.probe c ⟨board, step, e⟩ = [] := by simp [Taken.probe, h]
  rw [Step.on_of_not_selects h, share]
  by_cases silent : step = .detected
  · subst silent
    exact ⟨⟨rfl, rfl, rfl, rfl⟩, rfl⟩
  · have oblivious : Console.Oblivious (step.session c) := Step.oblivious_session h silent
    have same : step.answer uart board.detected = id :=
      funext (Step.answer_of_not_selects h silent uart board.detected)
    unfold Step.entry
    rw [oblivious board none]
    refine ⟨⟨?_, (congrArg (· ++ _) (probe _)).symm, rfl, rfl⟩, oblivious.detected board budget⟩
    rw [same, Option.map_id_fun]
    rfl

theorem routed_entry (target : step.selects = true → c.routed board = uart) {budget : Nat}
    (paid : 0 < budget) :
    Routed c uart ⟨board, step, step.entry c budget board⟩
        ((step.on uart).entry c (step.share budget board.detected.isSome) { board with detected := none }) ∧
      (step.entry c budget board).board.detected =
        if step.selects = true then some uart else board.detected := by
  cases h : step.selects with
  | true => exact routed_selecting h (target h) paid
  | false => exact routed_other h uart budget

/-- Apart from its probe the step leaves the pin functions alone, and if it needs the selection it stays
with the selected UART. -/
structure Stays (c : Console) (uart : Uart) (t : Taken) : Prop where
  trace : ∃ others, t.entry.trace = (t.probe c).filterMap Event.access? ++ others ∧
    (∀ word, Access.readWord c.layout.pinFunctions word ∉ others) ∧
    (t.step.selects = true → uart = .pl011 → others = [])
  calls : t.step.selects = true → uart = .mini → t.entry.calls = []

theorem stays_entry (apart : c.layout.pinFunctions ≠ c.layout.clockDivisor)
    (target : step.selects = true → c.routed board = uart) {budget : Nat} (paid : 0 < budget) :
    Stays c uart ⟨board, step, step.entry c budget board⟩ := by
  obtain ⟨routed, -⟩ := routed_entry target paid
  have events := routed.events
  constructor
  · refine ⟨_, (congrArg (List.filterMap Event.access?) events).trans (List.filterMap_append ..), ?_, ?_⟩
    · intro word read
      have covered := Step.covers_of_not_selects (Step.on_not_selects uart step) _ _ _ read
      exact apart covered
    · rintro selects rfl
      exact Step.trace_on_pl011 selects _ _
  · rintro selects rfl
    have calls := (congrArg (List.filterMap Event.call?) events).trans (List.filterMap_append ..)
    have none_probed : (Taken.probe c ⟨board, step, step.entry c budget board⟩).filterMap Event.call? = [] := by
      unfold Taken.probe
      split <;> rfl
    rw [none_probed] at calls
    exact calls.trans (Step.calls_on_mini selects _ _)

/-! ### Runs -/

/-- The entries of the steps, each made directly on a UART. The first that needs the selection gets one
access less, unless the UART is `known`. -/
def directly (c : Console) (uart : Uart) (budget : Nat) : Bool → Board → List Step → List Entry
  | _, _, [] => []
  | known, board, step :: rest =>
    let entry := (step.on uart).entry c (step.share budget known) board
    match entry.reply with
    | none => [entry]
    | some _ => entry :: directly c uart budget (known || step.selects) entry.board rest

variable {budget : Nat} {steps : List Step}

theorem routed_run (apart : c.layout.pinFunctions ≠ c.layout.clockDivisor) (paid : 0 < budget)
    (target : ∀ t ∈ taken c budget board steps, t.step.selects = true → c.routed t.before = uart) :
    List.Forall₂ (fun t e => Stays c uart t ∧ Routed c uart t e) (taken c budget board steps)
      (directly c uart budget board.detected.isSome { board with detected := none } steps) := by
  induction steps generalizing board with
  | nil => exact .nil
  | cons step rest ih =>
    cases hr : (step.entry c budget board).reply with
    | none =>
      rw [taken_of_cut hr] at target ⊢
      have here := target _ (List.mem_singleton.mpr rfl)
      obtain ⟨routed, -⟩ := routed_entry here paid
      have reply := Option.map_eq_none_iff.mp (routed.reply.symm.trans hr)
      simp only [directly, reply]
      exact .cons ⟨stays_entry apart here paid, routed⟩ .nil
    | some answer =>
      rw [taken_of_done hr] at target ⊢
      have here := target _ (List.mem_cons_self ..)
      obtain ⟨routed, after⟩ := routed_entry here paid
      obtain ⟨_, reply, -⟩ := Option.map_eq_some_iff.mp (routed.reply.symm.trans hr)
      have others := ih fun t ht => target t (List.mem_cons_of_mem _ ht)
      have known : (step.entry c budget board).board.detected.isSome =
          (board.detected.isSome || step.selects) := by
        rw [after]
        cases step.selects <;> simp
      rw [known, ← routed.board] at others
      simp only [directly, reply]
      exact .cons ⟨stays_entry apart here paid, routed⟩ others

theorem entry_known (known : board.detected = some uart) (step : Step) (paid : 0 < budget) :
    (step.entry c budget board).board.detected = some uart := by
  have target (_ : step.selects = true) : c.routed board = uart := by
    rw [Console.routed, known, Option.getD_some]
  obtain ⟨-, after⟩ := routed_entry target paid
  rw [after, known, ite_self]

theorem taken_known (paid : 0 < budget) (known : board.detected = some uart) :
    ∀ t ∈ taken c budget board steps, t.before.detected = some uart ∧ t.entry.board.detected = some uart :=
  forall_taken (fun board => board.detected = some uart) known
    (fun _ step _ known => ⟨known, entry_known known step paid⟩)
    fun _ step _ known _ => entry_known known step paid

/-- No UART is needed and none is known before `rest`. Its first step needs one and finds it, and it stays
known. -/
structure Selecting (c : Console) (uart : Uart) (before rest : List Taken) : Prop where
  quiet : ∀ t ∈ before, t.step.selects = false ∧ t.before.detected = none ∧ t.entry.board.detected = none
  finds : ∀ first later, rest = first :: later → first.step.selects = true ∧
    first.before.detected = none ∧ c.routed first.before = uart ∧ first.entry.board.detected = some uart
  known : ∀ first later, rest = first :: later →
    ∀ t ∈ later, t.before.detected = some uart ∧ t.entry.board.detected = some uart

theorem selecting_nil {before : List Taken} (quiet : ∀ t ∈ before, t.step.selects = false ∧
    t.before.detected = none ∧ t.entry.board.detected = none) : Selecting c uart before [] :=
  ⟨quiet, fun _ _ split => (nomatch split), fun _ _ split => (nomatch split)⟩

theorem Selecting.routed {before rest : List Taken} (h : Selecting c uart before rest) :
    ∀ t ∈ before ++ rest, t.step.selects = true → c.routed t.before = uart := by
  intro t ht selects
  rcases List.mem_append.mp ht with ht | ht
  · rw [(h.quiet t ht).1] at selects
    cases selects
  · obtain ⟨first, later, hl⟩ := List.exists_cons_of_ne_nil (List.ne_nil_of_mem ht)
    rw [hl] at ht
    rcases List.mem_cons.mp ht with rfl | ht
    · exact (h.finds t later hl).2.2.1
    · rw [Console.routed, (h.known first later hl t ht).1, Option.getD_some]

theorem taken_selecting (steps : List Step) (paid : 0 < budget) (fresh : board.detected = none) :
    ∃ uart before rest, taken c budget board steps = before ++ rest ∧ Selecting c uart before rest := by
  induction steps generalizing board with
  | nil => exact ⟨.mini, [], [], rfl, selecting_nil (List.forall_mem_nil _)⟩
  | cons step rest ih =>
    obtain ⟨later, split, next⟩ := taken_cons c budget board step rest
    rw [split]
    cases h : step.selects with
    | false =>
      have still : (step.entry c budget board).board.detected = none :=
        (routed_other h .mini budget).2.trans fresh
      have onward : ∃ uart before rest, later = before ++ rest ∧ Selecting c uart before rest := by
        rcases next with rfl | rfl
        · exact ⟨.mini, [], [], rfl, selecting_nil (List.forall_mem_nil _)⟩
        · exact ih still
      obtain ⟨uart, before, rest, rfl, selecting⟩ := onward
      refine ⟨uart, _ :: before, rest, rfl, ?_, selecting.finds, selecting.known⟩
      exact List.forall_mem_cons.mpr ⟨⟨h, fresh, still⟩, selecting.quiet⟩
    | true =>
      have found : (step.entry c budget board).board.detected = some (c.routed board) :=
        (routed_selecting h rfl paid).2
      have known : ∀ t ∈ later, t.before.detected = some (c.routed board) ∧
          t.entry.board.detected = some (c.routed board) := by
        rcases next with rfl | rfl
        · exact List.forall_mem_nil _
        · exact taken_known paid found
      refine ⟨c.routed board, [], _, rfl, List.forall_mem_nil _, ?_, ?_⟩
      · intro first later' he
        cases he
        exact ⟨h, fresh, rfl, found⟩
      · intro first later' he
        cases he
        exact known

theorem Stays.avoids {t : Taken} (stays : Stays c uart t) (unprobed : t.probe c = []) (word : Word) :
    Access.readWord c.layout.pinFunctions word ∉ t.entry.trace := by
  obtain ⟨others, trace, avoids, -⟩ := stays.trace
  rw [trace, unprobed]
  exact avoids word

/-- The run reads the pin functions once, as the first access of the first step that needs the UART
selected, and goes to that UART for good. -/
structure DetectsOnce (c : Console) (budget : Nat) (board : Board) (steps : List Step) (uart : Uart)
    (before rest : List Taken) : Prop where
  split : taken c budget board steps = before ++ rest
  /-- No UART is known before, and the pin functions are not read. -/
  undetected : ∀ t ∈ before, t.step.selects = false ∧ t.before.detected = none ∧
    t.entry.board.detected = none ∧ ∀ word, Access.readWord c.layout.pinFunctions word ∉ t.entry.trace
  /-- What the pins carry then decides. -/
  detects : ∀ first later, rest = first :: later → first.step.selects = true ∧
    first.before.detected = none ∧ first.entry.board.detected = some uart ∧
    ∃ word others, first.entry.trace = .readWord c.layout.pinFunctions word :: others ∧
      word = AddressSpace.loadWord first.before.soc c.layout.pinFunctions ∧
      (uart = if word &&& 0x3F000 = 0x24000 then .pl011 else .mini) ∧
      ∀ word, Access.readWord c.layout.pinFunctions word ∉ others
  /-- The decision stands, and the pin functions are not read again. -/
  detected : ∀ first later, rest = first :: later → ∀ t ∈ later, t.before.detected = some uart ∧
    t.entry.board.detected = some uart ∧
    ∀ word, Access.readWord c.layout.pinFunctions word ∉ t.entry.trace
  /-- Each step replies, accesses and calls as the step made directly, but for that one read. -/
  routed : List.Forall₂ (Routed c uart) (taken c budget board steps)
    (directly c uart budget false board steps)
  /-- The steps that need the selection leave the other UART alone. -/
  stays : ∀ t ∈ taken c budget board steps, t.step.selects = true →
    (uart = .pl011 → t.entry.trace = (t.probe c).filterMap Event.access?) ∧
    (uart = .mini → t.entry.calls = [])

/-- Whatever steps a fresh run takes and whatever becomes of the pins, it detects its UART once. -/
theorem detects_once_then_routes (c : Console) (budget : Nat) (board : Board) (steps : List Step)
    (fresh : board.detected = none) (paid : 0 < budget)
    (apart : c.layout.pinFunctions ≠ c.layout.clockDivisor) :
    ∃ uart before rest, DetectsOnce c budget board steps uart before rest := by
  obtain ⟨uart, before, rest, split, selecting⟩ := taken_selecting (c := c) steps paid fresh
  have target : ∀ t ∈ taken c budget board steps, t.step.selects = true → c.routed t.before = uart := by
    rw [split]
    exact selecting.routed
  have both := routed_run apart paid target
  have same : { board with detected := none } = board := by rw [← fresh]
  rw [fresh, Option.isSome_none, same] at both
  obtain ⟨stays, routed⟩ := (List.forall₂_and_left _ _).mp both
  refine ⟨uart, before, rest, {
    split, undetected := ?undetected, detects := ?detects, detected := ?detected, routed, stays := ?stays }⟩
  case undetected =>
    intro t ht
    obtain ⟨idle, unknown, still⟩ := selecting.quiet t ht
    have unprobed : t.probe c = [] := by simp [Taken.probe, idle]
    exact ⟨idle, unknown, still, (stays t (by simp [split, ht])).avoids unprobed⟩
  case detects =>
    intro first later hl
    obtain ⟨selects, unknown, chosen, found⟩ := selecting.finds first later hl
    obtain ⟨others, trace, avoids, -⟩ := (stays first (by simp [split, hl])).trace
    have choice : uart = Uart.ofPinFunctions
        (AddressSpace.loadWord first.before.soc c.layout.pinFunctions) := by
      rw [← chosen, Console.routed, unknown, Option.getD_none]
    refine ⟨selects, unknown, found, _, others, ?_, rfl, choice, avoids⟩
    rw [trace]
    simp [Taken.probe, selects, unknown, Event.access?, Bus.Event.access?]
  case detected =>
    intro first later hl t ht
    obtain ⟨before, after⟩ := selecting.known first later hl t ht
    have unprobed : t.probe c = [] := by simp [Taken.probe, before]
    exact ⟨before, after, (stays t (by simp [split, hl, ht])).avoids unprobed⟩
  case stays =>
    intro t ht selects
    refine ⟨fun pl011 => ?_, (stays t ht).calls selects⟩
    obtain ⟨others, trace, -, nothing⟩ := (stays t ht).trace
    rw [trace, nothing selects pl011, List.append_nil]

/-- The pins carry the PL011 when the first text is printed, and the mini UART right after. -/
theorem detects_once_then_routes_pins_moved :
    let c : Console := { layout := .rpi3, config := .rpi3 }
    let steps : List Step := [.detected, .mini (.divisor 9600), .change [.pinFunctions 0x24000] [],
      .print "a", .change [.pinFunctions 0x12000] [], .operate .active .poll, .flush, .detected, .select]
    (powerUp c).detected = none ∧ 0 < 2 ∧ c.layout.pinFunctions ≠ c.layout.clockDivisor ∧
    (run c 2 (powerUp c) steps).map Entry.reply = [some (.detected none), some (.number 1628),
      some .nothing, some (.printed true), some .nothing, some (.flag false), some .nothing,
      some (.detected (some .pl011)), some (.selected .pl011)] ∧
    ∃ uart before rest, DetectsOnce c 2 (powerUp c) steps uart before rest := by
  intro c steps
  have apart : c.layout.pinFunctions ≠ c.layout.clockDivisor := by decide
  exact ⟨rfl, by decide, apart, by decide +kernel,
    detects_once_then_routes c 2 (powerUp c) steps rfl (by decide) apart⟩

end Scenario

end ConsoleUart
