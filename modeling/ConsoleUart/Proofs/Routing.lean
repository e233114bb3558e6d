import ConsoleUart.Proofs.Footprint
import ConsoleUart.Scenario

/-!
# Routing

Where a step of a scenario goes. A step that goes to the mini UART does to the chip what its operation
does when it is made there directly, after at most one read of the pin functions; a step that goes
elsewhere does nothing to the chip.
-/

namespace ConsoleUart

def Run.accesses {α : Type} (r : Run Board Event α) : List Access := r.events.filterMap Event.access?

namespace Console

variable {α β : Type} (c : Console)

/-- The UART that the next routed operation goes to. -/
def routed (board : Board) : Uart :=
  board.detected.getD (Uart.ofPinFunctions (AddressSpace.loadWord board.soc c.layout.pinFunctions))

/-- A session that makes no access and leaves chip and detection alone. -/
def Aside (x : Session Board Event α) : Prop :=
  ∀ board n, (x.run board n).accesses = [] ∧ (x.run board n).state.soc = board.soc ∧
    (x.run board n).state.detected = board.detected

theorem aside_pure (a : α) : Aside (pure a) := fun _ _ => ⟨rfl, rfl, rfl⟩

theorem aside_map {f : α → β} {x : Session Board Event α} (h : Aside x) : Aside (f <$> x) := by
  intro board n
  rw [Session.run_map]
  exact h board n

theorem aside_onBackend (x : Link α) : Aside (onBackend x) := by
  intro board n
  refine ⟨?_, rfl, rfl⟩
  show ((x.run board.backend n).events.map Event.call).filterMap Event.access? = []
  rw [List.filterMap_map]
  exact List.filterMap_eq_nil_iff.mpr fun _ _ => rfl

theorem accesses_onSoc (x : Bus Soc α) (board : Board) (n : Nat) :
    ((onSoc x).run board n).accesses = (x.run board.soc n).trace := by
  show ((x.run board.soc n).events.map Event.bus).filterMap Event.access? = _
  rw [List.filterMap_map]
  rfl

theorem map_onSoc (f : α → β) (x : Bus Soc α) : f <$> onSoc x = onSoc (f <$> x) := by
  funext board n
  have hl := Session.run_map f (onSoc x) board n
  have hr := Session.run_map f x board.soc n
  show (f <$> onSoc x).run board n = (onSoc (f <$> x)).run board n
  rw [hl, onSoc, onSoc, Session.run_within, Session.run_within, hr]

/-! ### Selecting a UART -/

theorem select_of_detected {board : Board} {uart : Uart} (h : board.detected = some uart)
    (f : Uart → Session Board Event α) (n : Nat) :
    (c.select >>= f).run board n = (f (c.routed board)).run board n := by
  obtain ⟨detected, soc, backend⟩ := board
  cases h
  rfl

theorem select_of_undetected_zero {board : Board} (h : board.detected = none)
    (f : Uart → Session Board Event α) : (c.select >>= f).run board 0 = ⟨none, [], board, 0⟩ := by
  obtain ⟨detected, soc, backend⟩ := board
  cases h
  rfl

theorem select_of_undetected_succ {board : Board} (h : board.detected = none)
    (f : Uart → Session Board Event α) (n : Nat) :
    let next := (f (c.routed board)).run { board with detected := some (c.routed board) } n
    (c.select >>= f).run board (n + 1) =
      { next with
        events := [.bus (.access (.readWord c.layout.pinFunctions
            (AddressSpace.loadWord board.soc c.layout.pinFunctions))),
          .bus (.notice (.detected (c.routed board)))] ++ next.events } := by
  obtain ⟨detected, soc, backend⟩ := board
  cases h
  rfl

end Console

namespace Scenario

variable {c : Console} {board : Board} {step : Step}

def Handle.uart (c : Console) (board : Board) : Handle → Uart
  | .console | .active => c.routed board
  | .mini => .mini
  | .pl011 => .pl011

namespace Step

/-- The UART that the step acts on, if it acts on one. -/
def target (c : Console) (board : Board) : Step → Option Uart
  | operate handle _ => some (handle.uart c board)
  | flush | print _ => some (c.routed board)
  | mini _ | registers _ => some .mini
  | pl011 _ => some .pl011
  | change .. | detected | select => none

/-- The chip that the accesses of the step meet: changed from outside if the step says so. -/
def arranged (s : Soc) : Step → Soc
  | change soc _ => s.applyAll soc
  | _ => s

theorem arranged_of_target {uart : Uart} (h : step.target c board = some uart) (s : Soc) :
    step.arranged s = s := by
  cases step with
  | change soc backend => exact absurd h (Option.some_ne_none uart).symm
  | _ => rfl

/-- The operation that the step comes to, with the reply that its answer becomes. -/
def operation? : Step → Option ((op : Operation) × (op.Answer → Reply))
  | operate _ op => some ⟨op, Reply.ofAnswer op⟩
  | flush => some ⟨.write [], fun _ => .nothing⟩
  | print text => some ⟨.write (utf8 text), fun (written : Nat) => .printed (written == (utf8 text).length)⟩
  | _ => none

/-- The step made directly on the mini UART. -/
def direct (u : MiniUart) (step : Step) : Bus Soc Reply :=
  match step with
  | mini query => query.ask u
  | registers query => query.ask u.registers
  | _ =>
    match step.operation? with
    | some ⟨op, reply⟩ => reply <$> u.perform op
    | none => return .nothing

/-- The registers that the step may access when it is made on the mini UART. -/
def footprint (step : Step) : Footprint :=
  match step with
  | mini .transmitterEmpty | mini .receiverReady => { reads := [.lineStatus], writes := [] }
  | mini .flowWritable => { reads := [.modemStatus], writes := [] }
  | registers (.read r) => { reads := [r], writes := [] }
  | registers (.write r _) => { reads := [], writes := [r] }
  | _ =>
    match step.operation? with
    | some ⟨op, _⟩ => op.footprint
    | none => { reads := [], writes := [] }

theorem within_direct (u : MiniUart) (step : Step) :
    Bus.Within (step.footprint.Covers u) (step.direct u) := by
  cases step with
  | operate handle op => exact Bus.within_map (u.within_perform op)
  | flush => exact Bus.within_map (u.within_perform (.write []))
  | print text => exact Bus.within_map (u.within_perform (.write (utf8 text)))
  | mini query =>
    cases query with
    | transmitterEmpty => exact Bus.within_map (u.within_transmitterEmpty (List.mem_singleton.mpr rfl))
    | receiverReady => exact Bus.within_map (u.within_receiverReady (List.mem_singleton.mpr rfl))
    | flowWritable => exact Bus.within_map (u.within_flowWritable (List.mem_singleton.mpr rfl))
    | divisor baud => exact Bus.within_map (u.within_divisor baud)
    | config => exact Bus.within_pure _
  | registers query =>
    cases query with
    | base => exact Bus.within_pure _
    | read r =>
      have covered (value : Byte) : (registers (.read r)).footprint.Covers u
          (.read r (u.registers.address r) value) := ⟨List.mem_singleton.mpr rfl, rfl⟩
      exact Bus.within_bind (Bus.within_read covered) fun _ => Bus.within_pure _
    | write r value =>
      have covered : (registers (.write r value)).footprint.Covers u
          (.write r (u.registers.address r) value) := ⟨List.mem_singleton.mpr rfl, rfl⟩
      exact Bus.within_bind (Bus.within_write covered) fun _ => Bus.within_pure _
  | change | detected | select | pl011 => exact Bus.within_pure _

/-! ### Steps by way of the selection -/

theorem session_flush : flush.session c = c.select >>= fun uart =>
    (fun _ => Reply.nothing) <$> c.performOn uart (.write []) := by
  simp only [session, Console.flush, Console.perform, bind_assoc, map_eq_pure_bind, pure_bind]

theorem session_print (text : String) : (print text).session c = c.select >>= fun uart =>
    (fun (written : Nat) => Reply.printed (written == (utf8 text).length)) <$>
      c.performOn uart (.write (utf8 text)) := by
  have complete (x : Session Board Event Nat) :
      Reply.printed <$> (x >>= fun written => pure (written == (utf8 text).length)) =
        (fun (written : Nat) => Reply.printed (written == (utf8 text).length)) <$> x := by
    rw [bind_pure_comp, Functor.map_map]
  refine (complete _).trans ?_
  exact map_bind _ c.select fun uart => c.performOn uart (.write (utf8 text))

theorem session_operate (handle : Handle) (op : Operation) : (operate handle op).session c =
    match handle with
    | .console | .active => c.select >>= fun uart => Reply.ofAnswer op <$> c.performOn uart op
    | .mini => Reply.ofAnswer op <$> c.performOn .mini op
    | .pl011 => Reply.ofAnswer op <$> c.performOn .pl011 op := by
  cases handle <;> simp only [session, Handle.perform, Console.perform, map_bind]

/-! ### What an entry shows -/

/-- A step that needs the UART selected was cut short before that, or went on after at most one read of
the pin functions. -/
theorem entry_of_select (board : Board) {f : Uart → Session Board Event Reply}
    (hs : step.session c = c.select >>= f) (n : Nat) :
    ((step.entry c n board).reply = none ∧ (step.entry c n board).trace = [] ∧
      (step.entry c n board).board = board) ∨
    ∃ lead left, (lead = [] ∨ ∃ word, lead = [.readWord c.layout.pinFunctions word]) ∧
      lead.length + left = n ∧
      let r := (f (c.routed board)).run { board with detected := some (c.routed board) } left
      (step.entry c n board).reply = r.outcome ∧ (step.entry c n board).trace = lead ++ r.accesses ∧
        (step.entry c n board).board = r.state := by
  unfold entry
  rw [hs]
  cases hd : board.detected with
  | some uart =>
    have hb : { board with detected := some (c.routed board) } = board := by
      rw [Console.routed, hd, Option.getD_some, ← hd]
    rw [c.select_of_detected hd f n, hb]
    exact Or.inr ⟨[], n, Or.inl rfl, Nat.zero_add n, rfl, rfl, rfl⟩
  | none =>
    cases n with
    | zero =>
      rw [c.select_of_undetected_zero hd f]
      exact Or.inl ⟨rfl, rfl, rfl⟩
    | succ n =>
      rw [c.select_of_undetected_succ hd f n]
      exact Or.inr ⟨[_], n, Or.inr ⟨_, rfl⟩, Nat.add_comm 1 n, rfl, rfl, rfl⟩

theorem forall_mem_lead {p : Access → Prop} {lead : List Access} {address : Nat}
    (h : lead = [] ∨ ∃ word, lead = [.readWord address word]) (hp : ∀ word, p (.readWord address word)) :
    ∀ a ∈ lead, p a := by
  rcases h with rfl | ⟨word, rfl⟩
  · exact List.forall_mem_nil _
  · exact List.forall_mem_singleton.mpr (hp word)

/-- The entry shows what `x` does on the chip, with `lead` before it. -/
structure Follows (c : Console) (board : Board) (x : Bus Soc Reply) (lead : List Access) (left : Nat)
    (e : Entry) : Prop where
  start : lead = [] ∨ ∃ word, lead = [.readWord c.layout.pinFunctions word]
  reply : e.reply = (x.run board.soc left).outcome
  trace : e.trace = lead ++ (x.run board.soc left).trace
  soc : e.board.soc = (x.run board.soc left).state
  detected : e.board.detected = board.detected ∨ e.board.detected = some (c.routed board)

theorem follows_of_onSoc {x : Bus Soc Reply} (hs : step.session c = Console.onSoc x) (n : Nat) :
    Follows c board x [] n (step.entry c n board) := by
  unfold entry
  rw [hs]
  exact ⟨Or.inl rfl, rfl, Console.accesses_onSoc x board n, rfl, Or.inl rfl⟩

theorem follows_of_select {x : Bus Soc Reply} {f : Uart → Session Board Event Reply}
    (hs : step.session c = c.select >>= f) (hf : f (c.routed board) = Console.onSoc x) (n : Nat) :
    ((step.entry c n board).reply = none ∧ (step.entry c n board).trace = [] ∧
      (step.entry c n board).board = board) ∨
    ∃ lead left, lead.length + left = n ∧ Follows c board x lead left (step.entry c n board) := by
  rcases entry_of_select board hs n with hc | ⟨lead, left, hl, hn, hr, ht, hb⟩
  · exact Or.inl hc
  · rw [hf] at hr ht hb
    rw [Console.accesses_onSoc] at ht
    exact Or.inr ⟨lead, left, hn, hl, hr, ht, by rw [hb]; rfl, Or.inr (by rw [hb]; rfl)⟩

theorem entry_on_mini (h : step.target c board = some .mini) (n : Nat) :
    ((step.entry c n board).reply = none ∧ (step.entry c n board).trace = [] ∧
      (step.entry c n board).board = board) ∨
    ∃ lead left, lead.length + left = n ∧
      Follows c board (step.direct c.mini) lead left (step.entry c n board) := by
  have straight {x : Bus Soc Reply} (hs : step.session c = Console.onSoc x) :
      ∃ lead left, lead.length + left = n ∧ Follows c board x lead left (step.entry c n board) :=
    ⟨[], n, Nat.zero_add n, follows_of_onSoc hs n⟩
  have operated (op : Operation) (reply : op.Answer → Reply) :
      reply <$> c.performOn .mini op = Console.onSoc (reply <$> c.mini.perform op) :=
    Console.map_onSoc reply (c.mini.perform op)
  cases step with
  | operate handle op =>
    cases handle with
    | console =>
      have hm : c.routed board = .mini := Option.some.inj h
      exact follows_of_select (session_operate .console op) (by rw [hm]; exact operated op _) n
    | active =>
      have hm : c.routed board = .mini := Option.some.inj h
      exact follows_of_select (session_operate .active op) (by rw [hm]; exact operated op _) n
    | mini => exact Or.inr (straight ((session_operate .mini op).trans (operated op _)))
    | pl011 => exact absurd h (by simp [target, Handle.uart])
  | flush =>
    have hm : c.routed board = .mini := Option.some.inj h
    exact follows_of_select session_flush (by rw [hm]; exact operated (.write []) _) n
  | print text =>
    have hm : c.routed board = .mini := Option.some.inj h
    exact follows_of_select (session_print text) (by rw [hm]; exact operated (.write (utf8 text)) _) n
  | mini query => exact Or.inr (straight rfl)
  | registers query => exact Or.inr (straight rfl)
  | pl011 query => exact absurd h (by simp [target])
  | change soc backend => exact absurd h (by simp [target])
  | detected => exact absurd h (by simp [target])
  | select => exact absurd h (by simp [target])

/-- The entry shows no access but for a read of the pin functions, and a chip that only its surroundings
have changed. A step for the mini UART has then been cut short. -/
structure Bypasses (c : Console) (board : Board) (step : Step) (e : Entry) : Prop where
  trace : e.trace = [] ∨ ∃ word, e.trace = [.readWord c.layout.pinFunctions word]
  soc : e.board.soc = step.arranged board.soc
  detected : e.board.detected = board.detected ∨ e.board.detected = some (c.routed board)
  cut : step.target c board = some .mini → e.reply = none

theorem bypasses_of_aside {x : Session Board Event Reply} (hs : step.session c = x)
    (ha : Console.Aside x) (hc : step.arranged board.soc = board.soc)
    (ht : step.target c board ≠ some .mini) (n : Nat) :
    Bypasses c board step (step.entry c n board) := by
  unfold entry
  rw [hs]
  obtain ⟨htr, hsoc, hd⟩ := ha board n
  exact ⟨Or.inl htr, by rw [hc, ← hsoc], Or.inl hd, fun h => absurd h ht⟩

theorem bypasses_of_select {f : Uart → Session Board Event Reply} (hs : step.session c = c.select >>= f)
    (ha : Console.Aside (f (c.routed board))) (hc : step.arranged board.soc = board.soc)
    (ht : step.target c board ≠ some .mini) (n : Nat) :
    Bypasses c board step (step.entry c n board) := by
  rcases entry_of_select board hs n with ⟨-, htr, hb⟩ | ⟨lead, left, hl, -, -, htr, hb⟩
  · exact ⟨Or.inl htr, by rw [hb, hc], Or.inl (by rw [hb]), fun h => absurd h ht⟩
  · obtain ⟨hempty, hsoc, hd⟩ := ha { board with detected := some (c.routed board) } left
    rw [hempty, List.append_nil] at htr
    rw [← htr] at hl
    exact ⟨hl, by rw [hb, hsoc, hc], Or.inr (by rw [hb, hd]), fun h => absurd h ht⟩

theorem entry_elsewhere (h : step.target c board ≠ some .mini) (n : Nat) :
    Bypasses c board step (step.entry c n board) := by
  have away (op : Operation) (reply : op.Answer → Reply) (hp : c.routed board ≠ .mini) :
      Console.Aside (reply <$> c.performOn (c.routed board) op) := by
    cases hr : c.routed board with
    | mini => exact absurd hr hp
    | pl011 => exact Console.aside_map (Console.aside_onBackend _)
  cases step with
  | operate handle op =>
    cases handle with
    | console =>
      have ha := away op (Reply.ofAnswer op) fun he => h (congrArg some he)
      exact bypasses_of_select (session_operate .console op) ha rfl h n
    | active =>
      have ha := away op (Reply.ofAnswer op) fun he => h (congrArg some he)
      exact bypasses_of_select (session_operate .active op) ha rfl h n
    | mini => exact absurd rfl h
    | pl011 =>
      have ha : Console.Aside (Reply.ofAnswer op <$> c.performOn .pl011 op) :=
        Console.aside_map (Console.aside_onBackend _)
      exact bypasses_of_aside (session_operate .pl011 op) ha rfl h n
  | flush =>
    have ha := away (.write []) (fun _ => .nothing) fun he => h (congrArg some he)
    exact bypasses_of_select session_flush ha rfl h n
  | print text =>
    have ha := away (.write (utf8 text)) (fun (written : Nat) => .printed (written == (utf8 text).length))
      fun he => h (congrArg some he)
    exact bypasses_of_select (session_print text) ha rfl h n
  | mini query => exact absurd rfl h
  | registers query => exact absurd rfl h
  | pl011 query =>
    have hs : (Step.pl011 query).session c = Console.onBackend (query.ask c.pl011) := rfl
    exact bypasses_of_aside hs (Console.aside_onBackend _) rfl h n
  | change soc backend => exact ⟨Or.inl rfl, rfl, Or.inl rfl, fun ht => absurd ht h⟩
  | detected => exact bypasses_of_aside rfl (fun _ _ => ⟨rfl, rfl, rfl⟩) rfl h n
  | select =>
    have hs : Step.select.session c = c.select >>= fun uart => pure (Reply.selected uart) :=
      map_eq_pure_bind Reply.selected c.select
    exact bypasses_of_select hs (Console.aside_pure _) rfl h n

/-! ### Every step -/

/-- A step bypasses the chip, or is for the mini UART and follows its direct session there. -/
theorem entry_cases (c : Console) (board : Board) (step : Step) (n : Nat) :
    Bypasses c board step (step.entry c n board) ∨
      step.target c board = some .mini ∧ ∃ lead left, lead.length + left = n ∧
        Follows c board (step.direct c.mini) lead left (step.entry c n board) := by
  by_cases ht : step.target c board = some .mini
  · rcases entry_on_mini ht n with ⟨hr, htr, hb⟩ | hf
    · have hs : (step.entry c n board).board.soc = step.arranged board.soc := by
        rw [hb, arranged_of_target ht]
      exact Or.inl ⟨Or.inl htr, hs, Or.inl (by rw [hb]), fun _ => hr⟩
    · exact Or.inr ⟨ht, hf⟩
  · exact Or.inl (entry_elsewhere ht n)

theorem entry_detected (c : Console) (board : Board) (step : Step) (n : Nat) :
    (step.entry c n board).board.detected = board.detected ∨
      (step.entry c n board).board.detected = some (c.routed board) := by
  rcases entry_cases c board step n with hb | ⟨-, _, _, -, hf⟩
  · exact hb.detected
  · exact hf.detected

/-- Whatever UART a step is for, its accesses to the chip stay within its footprint, but for a read of
the pin functions. -/
theorem covers_entry (c : Console) (board : Board) (step : Step) (n : Nat) :
    ∀ a ∈ (step.entry c n board).trace,
      (∃ word, a = .readWord c.layout.pinFunctions word) ∨ step.footprint.Covers c.mini a := by
  rcases entry_cases c board step n with hb | ⟨-, first, left, -, hf⟩
  · exact forall_mem_lead hb.trace fun word => Or.inl ⟨word, rfl⟩
  · rw [hf.trace]
    intro a ha
    rcases List.mem_append.mp ha with ha | ha
    · exact Or.inl (forall_mem_lead (p := fun a => ∃ word, a = .readWord c.layout.pinFunctions word)
        hf.start (fun word => ⟨word, rfl⟩) a ha)
    · exact Or.inr ((within_direct c.mini step).mem board.soc left a ha)

end Step

end Scenario

end ConsoleUart
