import ConsoleUart.Proofs.ModemControl
import ConsoleUart.Proofs.Reception
import ConsoleUart.Proofs.Waiting

/-!
# Progress of reception

A read ends if and only if enough bytes have arrived and the peer shows them. With flow control on the read
sees to that itself: it raises RTS after each status without a byte, so that a byte held back shows up at the
next one. The bound on its accesses is kept as a potential, so many for each byte and so many for each
scripted status that is left.
-/

namespace ConsoleUart

namespace Bits

theorem meets_assign_rts (mcr : Byte) : meets (assign mcr ModemControl.rts true) ModemControl.rts = true := by
  revert mcr
  decide

end Bits

variable {σ α β : Type}

namespace Bus

/-- From `s` the session takes at most `cost` accesses, answers `a` and leaves `t`. -/
def Finishes (x : Bus σ α) (s : σ) (cost : Nat) (a : α) (t : σ) : Prop :=
  ∃ trace, trace.length ≤ cost ∧ Does x s trace a t

variable {x : Bus σ α} {s t u : σ} {a : α} {c d : Nat}

theorem Finishes.outcome (h : Finishes x s c a t) {n : Nat} (enough : c ≤ n) : (x.run s n).outcome = some a := by
  obtain ⟨trace, length, does⟩ := h
  obtain ⟨left, rfl⟩ := Nat.exists_eq_add_of_le (show trace.length ≤ n by omega)
  exact (does.ends left).1

theorem Finishes.length_le (h : Finishes x s c a t) {n : Nat} (enough : c ≤ n) :
    (x.run s n).trace.length ≤ c := by
  obtain ⟨trace, length, does⟩ := h
  obtain ⟨left, rfl⟩ := Nat.exists_eq_add_of_le (show trace.length ≤ n by omega)
  rw [(does.ends left).2.1]
  exact length

theorem Does.finishes {trace : List Access} (h : Does x s trace a t) : Finishes x s trace.length a t :=
  ⟨trace, Nat.le_refl _, h⟩

theorem Finishes.mono (h : Finishes x s c a t) (le : c ≤ d) : Finishes x s d a t := by
  obtain ⟨trace, length, does⟩ := h
  exact ⟨trace, by omega, does⟩

theorem finishes_pure (a : α) (s : σ) : Finishes (pure a : Bus σ α) s 0 a s :=
  ⟨[], Nat.le_refl 0, does_pure a s⟩

theorem Finishes.bind {f : α → Bus σ β} {b : β} (hx : Finishes x s c a t) (hf : Finishes (f a) t d b u) :
    Finishes (x >>= f) s (c + d) b u := by
  obtain ⟨l, hl, first⟩ := hx
  obtain ⟨r, hr, second⟩ := hf
  refine ⟨l ++ r, ?_, does_bind first second⟩
  rw [List.length_append]
  omega

variable {check : Bus σ Bool}

theorem Finishes.await (paid : Pays check) (h : Finishes check s c true t) :
    Finishes (Session.await check) s c () t := by
  obtain ⟨trace, length, does⟩ := h
  exact ⟨trace, length, paid.does_await does⟩

theorem Finishes.again (paid : Pays check) (h : Finishes check s c false t)
    (later : Finishes (Session.await check) t d () u) : Finishes (Session.await check) s (c + d) () u := by
  rw [paid.await_eq]
  exact h.bind later

end Bus

namespace MiniUart
open Bus

variable (u : MiniUart) {s : Soc} {base : Option Byte} {bytes : List Byte}

theorem pays_lookForByte (base : Option Byte) : Pays (u.lookForByte base : Bus Soc Bool) := by
  intro s n failed
  cases n with
  | zero => cases failed
  | succ n =>
    cases ready : Bits.has (AddressSpace.load s (u.registers.address .lineStatus)).1 LineStatus.receiveReady with
    | true => simp [lookForByte, receiverReady, Session.run_bind, ready] at failed
    | false =>
      have left : ((u.lookForByte base).run s (n + 1)).budget ≤ n := by
        cases base with
        | none => simp [lookForByte, receiverReady, Session.run_map, pace]
        | some mcr =>
          cases n <;> simp [lookForByte, receiverReady, Session.run_bind, Session.run_map, ready, pace]
      omega

/-! ### What a byte costs -/

/-- A byte takes one status and the byte itself. With pacing RTS goes down in between, and before that the
byte may have to be invited: one more status, and RTS goes up. -/
def byteCost : Option Byte → Nat
  | none => 2
  | some _ => 5

/-- What an answer without a byte costs: with pacing RTS goes up after it. -/
def answerCost : Option Byte → Nat
  | none => 1
  | some _ => 2

/-- The accesses that these many bytes take at most, and the scripted answers that are left. -/
def cost (base : Option Byte) (n : Nat) (s : Soc) : Nat :=
  byteCost base * n + answerCost base * s.lineStatusScript.length

/-- The bytes are waiting, and they show up: an unpaced reception needs RTS up if the peer holds back. -/
structure Awaits (u : MiniUart) (base : Option Byte) (s : Soc) (bytes : List Byte) : Prop
    extends s.Holds bytes where
  mapped : s.Mapped u.registers
  shown : base = none → s.holdsBack = true → Bits.meets s.modemControl ModemControl.rts = true

namespace Awaits
variable {u}

theorem polled (h : u.Awaits base s bytes) : u.Awaits base (s.polled 1) bytes := by
  have holds := h.toHolds.readLineStatus.1
  rw [s.readLineStatus_eq] at holds
  exact ⟨holds, h.mapped.keep rfl rfl, h.shown⟩

theorem paced (h : u.Awaits base s bytes) (rts : Bool) :
    u.Awaits base { s with modemControl := MiniUart.paced s.modemControl base rts } bytes := by
  refine ⟨⟨h.closed, h.quiet, h.received⟩, h.mapped.keep rfl rfl, ?_⟩
  rintro rfl
  exact h.shown rfl

/-- A byte that cannot be seen is held back, so reception is paced. -/
theorem paced_of_hidden (h : u.Awaits base s bytes) (nonempty : bytes ≠ []) (hidden : s.receiveVisible = false) :
    ∃ mcr, base = some mcr := by
  cases base with
  | some mcr => exact ⟨mcr, rfl⟩
  | none =>
    have shown := h.shown rfl
    have waiting : s.received.isEmpty = false := by
      rw [h.received]
      simpa using nonempty
    rw [Soc.receiveVisible, waiting] at hidden
    cases back : s.holdsBack with
    | false => simp [back] at hidden
    | true => simp [back, shown back] at hidden

theorem visible_of_raised (h : u.Awaits base s bytes) (nonempty : bytes ≠ [])
    (raised : Bits.meets s.modemControl ModemControl.rts = true) : s.receiveVisible = true := by
  rw [Soc.receiveVisible, h.received, raised]
  simpa using nonempty

end Awaits

/-! ### One byte -/

theorem finishes_pace (mapped : s.Mapped u.registers) (base : Option Byte) (rts : Bool) :
    Finishes (u.pace base rts) s (answerCost base - 1) ()
      { s with modemControl := paced s.modemControl base rts } := by
  cases base with
  | none => exact finishes_pure () s
  | some mcr => exact (does_write mapped .modemControl _).finishes

theorem finishes_look (mapped : s.Mapped u.registers)
    (ready : Bits.has (s.statusAt 0) LineStatus.receiveReady = true) :
    Finishes (u.lookForByte base) s 1 true (s.polled 1) := by
  have check := does_shows u LineStatus.receiveReady mapped
  rw [ready] at check
  have look : Does (u.lookForByte base) s _ true (s.polled 1) := does_bind check (does_pure true _)
  exact look.finishes

theorem finishes_look_unready (mapped : s.Mapped u.registers) (base : Option Byte)
    (unready : Bits.has (s.statusAt 0) LineStatus.receiveReady = false) :
    Finishes (u.lookForByte base) s (answerCost base) false
      { s.polled 1 with modemControl := paced s.modemControl base true } := by
  have check := does_shows u LineStatus.receiveReady mapped
  rw [unready] at check
  have pace := finishes_pace u (s := s.polled 1) (mapped.keep rfl rfl) base true
  have look : Finishes (u.lookForByte base) s (1 + (answerCost base - 1 + 0)) false _ :=
    check.finishes.bind (pace.bind (finishes_pure false _))
  cases base <;> exact look

theorem ready_of_unscripted (unscripted : s.lineStatusScript = []) :
    Bits.has (s.statusAt 0) LineStatus.receiveReady = s.receiveVisible := by
  rw [Soc.statusAt_zero_of_nil unscripted, Soc.lineStatus, Bits.has_assign_receiveReady]

theorem finishes_wait_visible (h : u.Awaits base s bytes) (unscripted : s.lineStatusScript = [])
    (visible : s.receiveVisible = true) :
    Finishes (Session.await (u.lookForByte base)) s 1 () (s.polled 1) := by
  have ready := (ready_of_unscripted unscripted).trans visible
  exact (finishes_look u h.mapped ready).await (pays_lookForByte u base)

theorem finishes_wait_hidden (h : u.Awaits base s bytes) (nonempty : bytes ≠ [])
    (unscripted : s.lineStatusScript = []) (hidden : s.receiveVisible = false) :
    base ≠ none ∧ ∃ t, Finishes (Session.await (u.lookForByte base)) s 3 () t ∧ u.Awaits base t bytes ∧
      t.lineStatusScript = [] := by
  obtain ⟨mcr, rfl⟩ := h.paced_of_hidden nonempty hidden
  -- RTS goes up, and the peer shows the byte at the next status.
  have unready := (ready_of_unscripted unscripted).trans hidden
  have look := finishes_look_unready u h.mapped (some mcr) unready
  have invited := h.polled.paced true
  have left (k : Nat) : (s.polled k).lineStatusScript = [] := by
    rw [Soc.polled, unscripted, List.drop_nil]
  have found := finishes_wait_visible u invited (left 1)
    (invited.visible_of_raised nonempty (Bits.meets_assign_rts mcr))
  exact ⟨Option.some_ne_none mcr, _, look.again (pays_lookForByte u _) found, invited.polled,
    (congrArg (List.drop 1) (left 1)).trans List.drop_nil⟩

/-- The wait pays for its polls with the scripted answers and leaves enough to take the byte. -/
theorem finishes_wait (h : u.Awaits base s bytes) (nonempty : bytes ≠ []) :
    ∃ c t, Finishes (Session.await (u.lookForByte base)) s c () t ∧ u.Awaits base t bytes ∧
      c + answerCost base + cost base 0 t ≤ cost base 1 s := by
  generalize script : s.lineStatusScript = answers
  induction answers generalizing s with
  | nil =>
    cases visible : s.receiveVisible with
    | true =>
      refine ⟨1, s.polled 1, finishes_wait_visible u h script visible, h.polled, ?_⟩
      cases base <;> simp [cost, byteCost, answerCost, Soc.polled, script]
    | false =>
      obtain ⟨paced, t, wait, awaits, left⟩ := finishes_wait_hidden u h nonempty script visible
      refine ⟨3, t, wait, awaits, ?_⟩
      cases base with
      | none => exact absurd rfl paced
      | some mcr => simp [cost, byteCost, answerCost, script, left]
  | cons lsr answers ih =>
    have unready : Bits.has (s.statusAt 0) LineStatus.receiveReady = false := by
      rw [Soc.statusAt_zero_of_cons script]
      exact h.quiet lsr (by simp [script])
    have look := finishes_look_unready u h.mapped base unready
    have left : (s.polled 1).lineStatusScript = answers := by
      rw [Soc.polled, script, List.drop_succ_cons, List.drop_zero]
    obtain ⟨c, t, wait, awaits, paying⟩ := ih (h.polled.paced true) left
    refine ⟨_, t, look.again (pays_lookForByte u base) wait, awaits, ?_⟩
    cases base <;> simp only [cost, byteCost, answerCost, left, script, List.length_cons] at * <;> omega

theorem finishes_receiveByte {byte : Byte} (h : u.Awaits base s (byte :: bytes)) :
    ∃ c t, Finishes (u.receiveByte base) s c byte t ∧ u.Awaits base t bytes ∧
      c + cost base 0 t ≤ cost base 1 s := by
  obtain ⟨c, t, wait, awaits, paying⟩ := finishes_wait u h (List.cons_ne_nil byte bytes)
  have lowered := awaits.paced false
  have take := does_read lowered.mapped .receiveBuffer
  rw [show Register.receiveBuffer.offset = 0 from rfl, lowered.toHolds.readPlace] at take
  have lower := finishes_pace u awaits.mapped base false
  refine ⟨_, _, wait.bind (lower.bind take.finishes),
    ⟨⟨lowered.closed, lowered.quiet, rfl⟩, lowered.mapped.keep rfl rfl, lowered.shown⟩, ?_⟩
  cases base <;> simp only [cost, byteCost, answerCost, List.length_singleton] at * <;> omega

/-! ### Reading -/

theorem finishes_receiveBytes (h : u.Awaits base s bytes) {n : Nat} (enough : n ≤ bytes.length) :
    ∃ t, Finishes (u.receiveBytes base n) s (cost base n s) (bytes.take n) t := by
  induction n generalizing s bytes with
  | zero => exact ⟨s, (finishes_pure [] s).mono (Nat.zero_le _)⟩
  | succ n ih =>
    cases bytes with
    | nil => cases enough
    | cons byte bytes =>
      obtain ⟨c, t, first, awaits, paying⟩ := finishes_receiveByte u h
      obtain ⟨t', others⟩ := ih awaits (Nat.le_of_succ_le_succ enough)
      have all : Finishes (u.receiveBytes base (n + 1)) s (c + (cost base n t + 0))
          (byte :: bytes.take n) t' := first.bind (others.bind (finishes_pure _ t'))
      refine ⟨t', all.mono ?_⟩
      cases base <;> simp only [cost, byteCost, answerCost] at * <;> omega

theorem finishes_read_paced (h : s.Holds bytes) (mapped : s.Mapped u.registers)
    (enabled : u.config.flow.enabled = true) {n : Nat} (positive : 0 < n) (enough : n ≤ bytes.length) :
    ∃ t, Finishes (u.read n) s (1 + 5 * n + 2 * s.lineStatusScript.length) (bytes.take n) t := by
  have awaits : u.Awaits (some s.modemControl) s bytes := ⟨h, mapped, nofun⟩
  obtain ⟨t, finishes⟩ := finishes_receiveBytes u awaits enough
  have base : Finishes (u.registers.read .modemControl) s 1 s.modemControl s :=
    (does_read mapped .modemControl).finishes
  have all := base.bind (f := fun mcr => u.receiveBytes (some mcr) n) finishes
  refine ⟨t, ?_⟩
  unfold read pacingBase
  rw [if_neg (by omega), if_pos enabled, bind_assoc]
  simp only [pure_bind]
  exact all.mono (by simp only [cost, byteCost, answerCost]; omega)

theorem finishes_read_unpaced (h : s.Holds bytes) (mapped : s.Mapped u.registers)
    (disabled : u.config.flow.enabled = false)
    (shown : s.holdsBack = true → Bits.meets s.modemControl ModemControl.rts = true) {n : Nat}
    (positive : 0 < n) (enough : n ≤ bytes.length) :
    ∃ t, Finishes (u.read n) s (2 * n + s.lineStatusScript.length) (bytes.take n) t := by
  have awaits : u.Awaits none s bytes := ⟨h, mapped, fun _ => shown⟩
  obtain ⟨t, finishes⟩ := finishes_receiveBytes u awaits enough
  refine ⟨t, ?_⟩
  unfold read pacingBase
  rw [if_neg (by omega), if_neg (by rw [disabled]; decide), pure_bind]
  exact finishes.mono (by simp only [cost, byteCost, answerCost]; omega)

/-! ### Waiting for good -/

theorem lacks_of_hidden (h : s.Holds bytes) (hidden : s.receiveVisible = false) (k : Nat) :
    s.Lacks LineStatus.receiveReady k := by
  intro i _
  rw [Soc.statusAt, List.getD_eq_getElem?_getD]
  cases answer : s.lineStatusScript[i]? with
  | some lsr => exact h.quiet lsr (List.mem_of_getElem? answer)
  | none =>
    show Bits.has s.lineStatus LineStatus.receiveReady = false
    rw [Soc.lineStatus, Bits.has_assign_receiveReady, hidden]

/-- An unpaced read of a byte that the peer holds back polls the line status for as long as it may. -/
theorem stalls_read_unpaced (h : s.Holds bytes) (mapped : s.Mapped u.registers)
    (disabled : u.config.flow.enabled = false) (hidden : s.receiveVisible = false) {n : Nat}
    (positive : 0 < n) (k : Nat) : Stalls (u.read n) s (u.polls (s.statuses k)) (s.polled k) := by
  obtain ⟨n, rfl⟩ := Nat.exists_eq_add_one.mpr positive
  have plain : u.lookForByte none = u.shows LineStatus.receiveReady := by
    rw [← receiverReady_eq]
    simp [lookForByte, pace]
  have wait := stalls_await_shows u mapped (lacks_of_hidden h hidden k)
  rw [← plain] at wait
  unfold read pacingBase
  rw [if_neg (by omega), if_neg (by rw [disabled]; decide), pure_bind]
  exact (wait.bind _).bind _

theorem read_short (h : s.Holds bytes) (mapped : s.Mapped u.registers) {n : Nat} (short : bytes.length < n)
    (budget : Nat) : ((u.read n).run s budget).outcome = none := by
  cases ended : ((u.read n).run s budget).outcome with
  | none => rfl
  | some taken =>
    -- A read that ends has taken its bytes from the front of the queue.
    obtain ⟨length, rest, split, -⟩ := ((orderly_receive u h n).run mapped budget).2.2 taken ended
    rw [split, List.length_append] at short
    omega

/-- While no scripted status announces a byte, a read of some bytes ends if and only if they have arrived and
the peer shows them, with the first bytes of the queue and within a bound on its accesses. Flow control sees
to it that the peer shows them; without it a byte that is held back stays where it is. -/
theorem read_progresses (u : MiniUart) (s : Soc) (mapped : s.Mapped u.registers)
    (closed : s.latchOpen = false)
    (quiet : ∀ lsr ∈ s.lineStatusScript, Bits.has lsr LineStatus.receiveReady = false) (n : Nat)
    (positive : 0 < n) :
    let run := (u.read n).run s
    let k := s.lineStatusScript.length
    (u.config.flow.enabled = true → n ≤ s.received.length →
      ∀ budget, 1 + 5 * n + 2 * k ≤ budget → (run budget).outcome = some (s.received.take n)) ∧
    (u.config.flow.enabled = false →
      (s.holdsBack = false ∨ Bits.meets s.modemControl ModemControl.rts = true) → n ≤ s.received.length →
      ∀ budget, 2 * n + k ≤ budget → (run budget).outcome = some (s.received.take n)) ∧
    (u.config.flow.enabled = false →
      s.holdsBack = true → Bits.meets s.modemControl ModemControl.rts = false →
      ∀ budget, (run budget).outcome = none ∧ (run budget).state.received = s.received) ∧
    (s.received.length < n → ∀ budget, (run budget).outcome = none) := by
  intro run k
  have holds : s.Holds s.received := ⟨closed, quiet, rfl⟩
  refine ⟨fun enabled enough budget lasts => ?_, fun disabled shown enough budget lasts => ?_,
    fun disabled back down budget => ?_, fun short budget => read_short u holds mapped short budget⟩
  · obtain ⟨t, finishes⟩ := finishes_read_paced u holds mapped enabled positive enough
    exact finishes.outcome lasts
  · have open' : s.holdsBack = true → Bits.meets s.modemControl ModemControl.rts = true := by
      intro back
      rcases shown with free | up
      · exact absurd (free.symm.trans back) (by decide)
      · exact up
    obtain ⟨t, finishes⟩ := finishes_read_unpaced u holds mapped disabled open' positive enough
    exact finishes.outcome lasts
  · have hidden : s.receiveVisible = false := by simp [Soc.receiveVisible, back, down]
    have stalls := stalls_read_unpaced u holds mapped disabled hidden positive budget
    have length : (u.polls (s.statuses budget)).length = budget := by rw [length_polls, Soc.length_statuses]
    have state := stalls.state
    rw [length] at state
    refine ⟨stalls.cut budget (by omega), ?_⟩
    rw [show (run budget).state = s.polled budget from state]
    rfl

/-- With flow control on, two bytes that are held back come one by one after their invitations, on the whole
bound; with flow control off they stay. -/
theorem read_progresses_held_back :
    let paced : MiniUart :=
      .ofLayout .rpi4 { Config.rpi4 with flow := { enabled := true, detectCable := false } }
    let plain : MiniUart := .ofLayout .rpi4 Config.rpi4
    let s : Soc := { Soc.initial .rpi4 4 with
      modemControl := 0x09, holdsBack := true, received := [7, 8], lineStatusScript := [0x60, 0x20] }
    s.Mapped paced.registers ∧ s.Mapped plain.registers ∧ s.latchOpen = false ∧
    (∀ lsr ∈ s.lineStatusScript, Bits.has lsr LineStatus.receiveReady = false) ∧
    paced.config.flow.enabled = true ∧ plain.config.flow.enabled = false ∧
    Bits.meets s.modemControl ModemControl.rts = false ∧
    ((paced.read 2).run s (1 + 5 * 2 + 2 * 2)).outcome = some [7, 8] ∧
    (∀ budget, ((paced.read 3).run s budget).outcome = none) ∧
    (∀ budget, ((plain.read 1).run s budget).outcome = none ∧
      ((plain.read 1).run s budget).state.received = [7, 8]) ∧
    ((plain.read 2).run { s with modemControl := 0x0B } (2 * 2 + 2)).outcome = some [7, 8] := by
  intro paced plain s
  have mapped : s.Mapped paced.registers := ⟨rfl, rfl, by decide, by decide⟩
  have mapped' : s.Mapped plain.registers := ⟨rfl, rfl, by decide, by decide⟩
  have raised : ({ s with modemControl := 0x0B } : Soc).Mapped plain.registers := mapped'.keep rfl rfl
  have closed : s.latchOpen = false := by decide
  have quiet : ∀ lsr ∈ s.lineStatusScript, Bits.has lsr LineStatus.receiveReady = false := by decide
  have invited := (read_progresses paced s mapped closed quiet 2 (by decide)).1 rfl (by decide) _ (Nat.le_refl _)
  have short := (read_progresses paced s mapped closed quiet 3 (by decide)).2.2.2 (by decide)
  have held := (read_progresses plain s mapped' closed quiet 1 (by decide)).2.2.1 rfl rfl (by decide)
  have shown := (read_progresses plain { s with modemControl := 0x0B } raised closed quiet 2 (by decide)).2.1 rfl
    (Or.inr (by decide)) (by decide) _ (Nat.le_refl _)
  exact ⟨mapped, mapped', closed, quiet, rfl, rfl, by decide, invited, short, held, shown⟩

end MiniUart

end ConsoleUart
