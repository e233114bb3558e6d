import ConsoleUart.Proofs.Discipline
import ConsoleUart.Proofs.ModemControl

/-!
# DTR and RTS over runs

Each completed step writes the modem control register once at most, as far as can be seen from where it
ends. Over a run DTR and RTS are what the last of these writes gave them, and the other bits stay as they are
until the device is programmed.
-/

namespace ConsoleUart

open ModemControl (Write)

namespace ModemControl.Write

/-! ### Many writes -/

def lastDtr (writes : List Write) : Option Bool := (writes.filterMap dtr?).getLast?

def lastRts (writes : List Write) : Option Bool := (writes.filterMap rts?).getLast?

theorem has_dtr_foldl (mcr : Byte) (writes : List Write) :
    Bits.has (writes.foldl apply mcr) dtr = (lastDtr writes).getD (Bits.has mcr dtr) :=
  last_foldl (fun mcr => Bits.has mcr dtr) has_dtr_apply mcr writes

theorem has_rts_foldl (mcr : Byte) (writes : List Write) :
    Bits.has (writes.foldl apply mcr) rts = (lastRts writes).getD (Bits.has mcr rts) :=
  last_foldl (fun mcr => Bits.has mcr rts) has_rts_apply mcr writes

theorem clear_lines_foldl (mcr : Byte) (writes : List Write) :
    Bits.clear (writes.foldl apply mcr) lines = if .reset ∈ writes then 0 else Bits.clear mcr lines := by
  induction writes generalizing mcr with
  | nil => rfl
  | cons w later ih =>
    rw [List.foldl_cons, ih]
    by_cases reset : w = .reset
    · subst reset
      have gone : Bits.clear (apply mcr .reset) lines = 0 := by
        show Bits.clear 0 lines = 0
        decide
      rw [if_pos (List.mem_cons_self ..), gone, ite_self]
    · have same : Write.reset ∈ w :: later ↔ Write.reset ∈ later := by simp [Ne.symm reset]
      simp only [same, clear_lines_apply mcr reset]

end ModemControl.Write

namespace Soc

/-- The change keeps the registers in their places, the latch as it is and the modem control register. -/
def Change.keepsModem : Change → Bool
  | modemControl _ => false
  | change => change.keepsLatch

theorem Change.keepsLatch_of_keepsModem {change : Change} (h : change.keepsModem = true) :
    change.keepsLatch = true := by
  cases change with
  | modemControl => rfl
  | _ => exact h

theorem modemControl_applyAll {changes : List Change} (keeps : ∀ change ∈ changes, change.keepsModem = true)
    (s : Soc) : (s.applyAll changes).modemControl = s.modemControl := by
  refine applyAll_keeps (p := fun t => t.modemControl = s.modemControl) ?_ rfl
  intro change hc t h
  have hk := keeps change hc
  cases change with
  | modemControl => exact absurd hk Bool.false_ne_true
  | _ => exact h

end Soc

namespace Scenario

namespace Step

/-- The step keeps the latch, and its changes from outside keep the modem control register as well. -/
def keepsModem : Step → Bool
  | change soc _ => soc.all Soc.Change.keepsModem
  | step => step.keepsLatch

variable {step : Step}

theorem keepsLatch_of_keepsModem (h : step.keepsModem = true) : step.keepsLatch = true := by
  cases step with
  | change soc backend =>
    have each := List.all_eq_true.mp h
    exact List.all_eq_true.mpr fun change hc => Soc.Change.keepsLatch_of_keepsModem (each change hc)
  | _ => exact h

theorem modemControl_arranged (h : step.keepsModem = true) (s : Soc) :
    (step.arranged s).modemControl = s.modemControl := by
  cases step with
  | change soc backend => exact Soc.modemControl_applyAll (List.all_eq_true.mp h) s
  | _ => rfl

/-! ### One step -/

/-- What the step makes of the modem control register on the mini UART: configuring resets it where it
programs the device, signals count where they are accepted, and reception where it is paced. -/
def modemWrite? (u : MiniUart) (s : Soc) : Step → Reply → Option Write
  | operate _ .configure, _ =>
    if u.Matches s (Baud.divisor (u.clockAt s) u.config.baudRate) then none else some .reset
  | operate _ (.setControl signals), .done => some (MiniUart.signalled signals)
  | operate _ (.read count), _ => if count = 0 then none else u.pacingWrite false
  | operate _ .poll, .flag ready => u.pacingWrite (!ready)
  | _, _ => none

/-- An operation that may write the register, made directly. -/
theorem orderly_direct_modem (u : MiniUart) {s : Soc} (closed : s.latchOpen = false) (handle : Handle)
    {op : Operation} (writes : .modemControl ∈ op.footprint.writes) :
    Bus.Orderly u.registers ((operate handle op).direct u)
      (fun reply t => t.modemControl = Write.after s.modemControl ((operate handle op).modemWrite? u s reply))
      s := by
  have start : s.Modem s.modemControl := ⟨closed, rfl⟩
  cases op with
  | configure =>
    refine Bus.orderly_map (Bus.orderly_map (Bus.orderly_mono (u.orderly_configure s) fun _ t h => ?_))
    exact h.modemControl
  | read count =>
    exact Bus.orderly_map (Bus.orderly_mono (u.orderly_read_modem start count) fun _ _ h => h.modemControl)
  | poll => exact Bus.orderly_map (Bus.orderly_mono (u.orderly_poll_modem start) fun _ _ h => h.modemControl)
  | setControl signals =>
    refine Bus.orderly_map (Bus.orderly_mono (u.orderly_setControl_modem start signals) fun answer t h => ?_)
    obtain ⟨answered, h⟩ := h
    rw [h.modemControl, answered]
    cases Signals.onlySettable signals <;> rfl
  | write | getControl | setAttributes => exact absurd writes (by simp [Operation.footprint])

theorem modemControl_direct (u : MiniUart) {s : Soc} (mapped : s.Mapped u.registers)
    (closed : s.latchOpen = false) (keeps : step.keepsLatch = true) {n : Nat} {reply : Reply}
    (answered : ((step.direct u).run s n).outcome = some reply) :
    ((step.direct u).run s n).state.modemControl =
      Write.after s.modemControl (step.modemWrite? u s reply) := by
  have still (other : .modemControl ∉ step.footprint.writes) :
      ((step.direct u).run s n).state.modemControl = s.modemControl :=
    (within_direct u step).modemControl other mapped n
  cases step with
  | operate handle op =>
    by_cases writes : .modemControl ∈ op.footprint.writes
    · exact ((orderly_direct_modem u closed handle writes).run mapped n).2.2 reply answered
    · rw [still writes]
      cases op with
      | write | getControl | setAttributes => rfl
      | _ => exact absurd (by simp [Operation.footprint]) writes
  | registers query =>
    cases query with
    | write r value => exact absurd keeps Bool.false_ne_true
    | _ => exact still List.not_mem_nil
  | mini query => cases query <;> exact still List.not_mem_nil
  | flush | print => exact still (by simp [footprint, operation?, Operation.footprint])
  | change | detected | select | pl011 => exact still List.not_mem_nil

end Step

/-- What the step wrote to the modem control register of the mini UART, if it did. -/
def Taken.modemWrite? (c : Console) (t : Taken) : Option Write :=
  if t.step.target c t.before = some .mini then
    t.entry.reply.bind (t.step.modemWrite? c.mini t.before.soc)
  else none

variable {c : Console} {budget : Nat} {board : Board} {step : Step} {steps : List Step}

theorem Step.modemControl_entry (keeps : step.keepsModem = true) (mapped : board.soc.Mapped c.mini.registers)
    (closed : board.soc.latchOpen = false) {n : Nat} (done : (step.entry c n board).reply ≠ none) :
    (step.entry c n board).board.soc.modemControl =
      Write.after board.soc.modemControl (Taken.modemWrite? c ⟨board, step, step.entry c n board⟩) := by
  rcases entry_cases c board step n with bypasses | ⟨target, lead, left, -, follows⟩
  · have elsewhere : step.target c board ≠ some .mini := fun target => done (bypasses.cut target)
    rw [bypasses.soc, modemControl_arranged keeps, Taken.modemWrite?, if_neg elsewhere]
    rfl
  · obtain ⟨reply, answered⟩ := Option.ne_none_iff_exists'.mp done
    have direct := modemControl_direct c.mini mapped closed (keepsLatch_of_keepsModem keeps)
      (follows.reply.symm.trans answered)
    rw [follows.soc, direct, Taken.modemWrite?, if_pos target, answered]
    rfl

/-! ### Runs -/

/-- A run of completed steps that keep the latch and the modem control register from outside, on a mapped
chip with its latch closed. -/
structure KeepsModem (c : Console) (budget : Nat) (board : Board) (steps : List Step) : Prop where
  mapped : board.soc.Mapped c.mini.registers
  closed : board.soc.latchOpen = false
  keeps : ∀ step ∈ steps, step.keepsModem = true
  completed : ∀ t ∈ taken c budget board steps, t.entry.reply ≠ none

def modemWrites (c : Console) (entries : List Taken) : List Write := entries.filterMap (Taken.modemWrite? c)

theorem KeepsModem.forall_taken {p : Taken → Prop} (h : KeepsModem c budget board steps)
    (holds : ∀ board, ∀ step ∈ steps, board.soc.Mapped c.mini.registers → board.soc.latchOpen = false →
      (step.entry c budget board).reply ≠ none → p ⟨board, step, step.entry c budget board⟩) :
    ∀ t ∈ taken c budget board steps, p t := by
  have keeps : ∀ step ∈ steps, step.keepsLatch = true :=
    fun step hs => Step.keepsLatch_of_keepsModem (h.keeps step hs)
  have each : ∀ t ∈ taken c budget board steps, t.entry.reply ≠ none → p t :=
    forall_taken_closed h.mapped h.closed keeps holds
  exact fun t ht => each t ht (h.completed t ht)

/-- The writes of the steps lead from the register as the run found it to the register as they leave it. -/
theorem KeepsModem.modemControl (h : KeepsModem c budget board steps) {earlier later : List Taken}
    (split : taken c budget board steps = earlier ++ later) :
    (ending board (earlier.map Taken.entry)).soc.modemControl =
      (modemWrites c earlier).foldl Write.apply board.soc.modemControl := by
  have each : ∀ t ∈ taken c budget board steps,
      t.entry.board.soc.modemControl = Write.after t.before.soc.modemControl (t.modemWrite? c) :=
    h.forall_taken fun _ step hs mapped closed done =>
      Step.modemControl_entry (h.keeps step hs) mapped closed done
  refine part_of_ending (fun board => board.soc.modemControl) split fun t ht => each t ?_
  rw [split]
  exact List.mem_append_left later ht

/-! ### Control signals -/

namespace Step

theorem entry_getControl {handle : Handle} (target : (operate handle .getControl).target c board = some .mini)
    (mapped : board.soc.Mapped c.mini.registers) (closed : board.soc.latchOpen = false) {n : Nat}
    (done : ((operate handle .getControl).entry c n board).reply ≠ none) : ∃ msr lsr,
    ((operate handle .getControl).entry c n board).reply =
      some (.signals (Signals.ofRegisters c.config.flow.enabled msr board.soc.modemControl lsr)) := by
  rcases entry_cases c board (operate handle .getControl) n with bypasses | ⟨-, lead, left, -, follows⟩
  · exact absurd (bypasses.cut target) done
  · obtain ⟨reply, answered⟩ := Option.ne_none_iff_exists'.mp done
    have shown : Bus.Orderly c.mini.registers ((operate handle .getControl).direct c.mini)
        (fun reply _ => ∃ msr lsr,
          reply = .signals (Signals.ofRegisters c.config.flow.enabled msr board.soc.modemControl lsr))
        board.soc := by
      refine Bus.orderly_map (Bus.orderly_map (Bus.orderly_mono (c.mini.orderly_getControl ⟨closed, rfl⟩) ?_))
      rintro signals _ ⟨msr, lsr, rfl⟩
      exact ⟨msr, lsr, rfl⟩
    obtain ⟨msr, lsr, rfl⟩ := (shown.run mapped left).2.2 reply (follows.reply.symm.trans answered)
    exact ⟨msr, lsr, answered⟩

/-- Setting signals is refused for the mask alone, before the chip is asked for anything. -/
theorem entry_setControl {handle : Handle} {mask : Word}
    (target : (operate handle (.setControl mask)).target c board = some .mini)
    (mapped : board.soc.Mapped c.mini.registers) (closed : board.soc.latchOpen = false) {n : Nat}
    (done : ((operate handle (.setControl mask)).entry c n board).reply ≠ none) :
    let e := (operate handle (.setControl mask)).entry c n board
    e.reply = some (if Signals.onlySettable mask then .done else .refused .unsupported) ∧
      (Signals.onlySettable mask = false →
        e.board.soc = board.soc ∧ ∀ a ∈ e.trace, a.register? = none) := by
  intro e
  rcases entry_cases c board (operate handle (.setControl mask)) n with bypasses | ⟨-, lead, left, -, follows⟩
  · exact absurd (bypasses.cut target) done
  cases settable : Signals.onlySettable mask with
  | false =>
    have refuses : (operate handle (.setControl mask)).direct c.mini =
        (pure (.refused .unsupported) : Bus Soc Reply) := by
      show Reply.ofAnswer (.setControl mask) <$> c.mini.setControl mask = _
      rw [MiniUart.setControl, settable]
      rfl
    rw [refuses] at follows
    refine ⟨follows.reply, fun _ => ⟨follows.soc, ?_⟩⟩
    rw [follows.trace]
    simp only [Session.run_pure, Run.trace, List.filterMap_nil, List.append_nil]
    exact forall_mem_lead follows.start fun _ => rfl
  | true =>
    obtain ⟨reply, answered⟩ := Option.ne_none_iff_exists'.mp done
    have accepted : Bus.Orderly c.mini.registers ((operate handle (.setControl mask)).direct c.mini)
        (fun reply _ => reply = .done) board.soc := by
      refine Bus.orderly_map (Bus.orderly_mono (c.mini.orderly_setControl_modem ⟨closed, rfl⟩ mask) ?_)
      rintro _ _ ⟨rfl, -⟩
      rw [settable]
      rfl
    have ok := (accepted.run mapped left).2.2 reply (follows.reply.symm.trans answered)
    refine ⟨?_, nofun⟩
    rw [if_pos rfl, ← ok]
    exact answered

end Step

open ModemControl in
/-- Over a run DTR is what the last accepted control signals or the last programming gave it, and RTS what the
last of these or of the paced receptions gave it. The other bits of the modem control register stay as they
were until the device is programmed, which clears them. At any time the signals shown are these, with the
flow control that is configured. Control signals are refused exactly if the mask names a bit that cannot be
set, and then no register has been touched. -/
theorem modem_lines_last_written (c : Console) (budget : Nat) (board : Board) (steps : List Step)
    (keepsModem : KeepsModem c budget board steps) :
    let all := taken c budget board steps
    let start := board.soc.modemControl
    let final := (ending board (run c budget board steps)).soc.modemControl
    Bits.clear final lines = (if .reset ∈ modemWrites c all then 0 else Bits.clear start lines) ∧
    Bits.has final dtr = (Write.lastDtr (modemWrites c all)).getD (Bits.has start dtr) ∧
    Bits.has final rts = (Write.lastRts (modemWrites c all)).getD (Bits.has start rts) ∧
    ∀ earlier t later, all = earlier ++ t :: later → t.step.target c t.before = some .mini →
      (∀ handle, t.step = .operate handle .getControl → ∃ signals, t.entry.reply = some (.signals signals) ∧
        Bits.has signals Signals.dataTerminalReady =
          (Write.lastDtr (modemWrites c earlier)).getD (Bits.has start dtr) ∧
        Bits.has signals Signals.requestToSend =
          (Write.lastRts (modemWrites c earlier)).getD (Bits.has start rts) ∧
        Bits.has signals Signals.hardwareFlowControl = c.config.flow.enabled) ∧
      (∀ handle mask, t.step = .operate handle (.setControl mask) →
        (t.entry.reply = some (.refused .unsupported) ↔ Bits.clear mask 0x4003 ≠ 0) ∧
        (t.entry.reply ≠ some (.refused .unsupported) → t.entry.reply = some .done) ∧
        (t.entry.reply = some (.refused .unsupported) →
          t.entry.board.soc = t.before.soc ∧ ∀ a ∈ t.entry.trace, a.register? = none)) := by
  intro all start final
  have ends : final = (modemWrites c all).foldl Write.apply start := by
    show (ending board (run c budget board steps)).soc.modemControl = _
    rw [← taken_map_entry]
    exact keepsModem.modemControl (List.append_nil all).symm
  have shows : ∀ t ∈ all, t.step.target c t.before = some .mini → ∀ handle,
      t.step = .operate handle .getControl → ∃ msr lsr, t.entry.reply =
        some (.signals (Signals.ofRegisters c.config.flow.enabled msr t.before.soc.modemControl lsr)) := by
    refine keepsModem.forall_taken fun board step _ mapped closed done target handle asked => ?_
    cases asked
    exact Step.entry_getControl target mapped closed done
  have sets : ∀ t ∈ all, t.step.target c t.before = some .mini → ∀ handle mask,
      t.step = .operate handle (.setControl mask) →
        t.entry.reply = some (if Signals.onlySettable mask then .done else .refused .unsupported) ∧
          (Signals.onlySettable mask = false →
            t.entry.board.soc = t.before.soc ∧ ∀ a ∈ t.entry.trace, a.register? = none) := by
    refine keepsModem.forall_taken fun board step _ mapped closed done target handle mask asked => ?_
    cases asked
    exact Step.entry_setControl target mapped closed done
  rw [ends]
  refine ⟨Write.clear_lines_foldl .., Write.has_dtr_foldl .., Write.has_rts_foldl .., ?_⟩
  intro earlier t later split target
  have member : t ∈ all := by
    rw [split]
    exact List.mem_append_right earlier (List.mem_cons_self ..)
  constructor
  · intro handle asked
    obtain ⟨msr, lsr, reply⟩ := shows t member target handle asked
    have before : t.before.soc.modemControl = (modemWrites c earlier).foldl Write.apply start := by
      rw [before_eq_ending split]
      exact keepsModem.modemControl split
    rw [before] at reply
    obtain ⟨dtr, rts, flow⟩ := Signals.has_ofRegisters c.config.flow.enabled msr
      ((modemWrites c earlier).foldl Write.apply start) lsr
    exact ⟨_, reply, dtr.trans (Write.has_dtr_foldl ..), rts.trans (Write.has_rts_foldl ..), flow⟩
  · intro handle mask asked
    obtain ⟨reply, untouched⟩ := sets t member target handle mask asked
    rw [reply, ← Signals.onlySettable_eq_false]
    cases settable : Signals.onlySettable mask with
    | true => simp
    | false => simpa using untouched settable

open ModemControl in
/-- Reception is paced, the register is found with loopback and unnamed bits set, and one mask is refused. The
device is programmed at the end of the longer run. -/
theorem modem_lines_last_written_paced :
    let c : Console := {
      layout := .rpi4, config := { Config.rpi4 with flow := { enabled := true, detectCable := false } } }
    let board : Board := { powerUp c with soc := { (powerUp c).soc with modemControl := 0xBD } }
    let steps : List Step := [
      .operate .mini (.setControl 0x4002), .change [.receive [0x41]] [], .operate .console (.read 1),
      .operate .mini .poll, .operate .active (.setControl 0x8001), .print "ok",
      .operate .mini (.setAttributes { dataBits := some 7 }), .operate .console .getControl,
      .operate .mini .configure, .operate .mini (.setControl 0x0001)]
    let final (count : Nat) := (ending board (run c 30 board (steps.take count))).soc.modemControl
    KeepsModem c 30 board (steps.take 8) ∧ KeepsModem c 30 board steps ∧
    modemWrites c (taken c 30 board steps) =
      [.signals false true, .pace false, .pace true, .reset, .signals true false] ∧
    Bits.clear (final 8) lines = 0xBC ∧ Bits.has (final 8) dtr = false ∧ Bits.has (final 8) rts = true ∧
    Bits.clear (final 10) lines = 0 ∧ Bits.has (final 10) dtr = true ∧ Bits.has (final 10) rts = false ∧
    ∃ refused ∈ taken c 30 board steps, ∃ shown ∈ taken c 30 board steps, ∃ signals,
      refused.entry.reply = some (.refused .unsupported) ∧ refused.entry.board.soc = refused.before.soc ∧
      shown.entry.reply = some (.signals signals) ∧ Bits.has signals Signals.dataTerminalReady = false ∧
      Bits.has signals Signals.requestToSend = true ∧ Bits.has signals Signals.hardwareFlowControl = true := by
  intro c board steps final
  have mapped : board.soc.Mapped c.mini.registers := ⟨rfl, rfl, by decide, by decide⟩
  have closed : board.soc.latchOpen = false := by decide
  have few : KeepsModem c 30 board (steps.take 8) := ⟨mapped, closed, by decide, by decide +kernel⟩
  have all : KeepsModem c 30 board steps := ⟨mapped, closed, by decide, by decide +kernel⟩
  have writes : modemWrites c (taken c 30 board steps) =
      [.signals false true, .pace false, .pace true, .reset, .signals true false] := by decide +kernel
  have fewer : modemWrites c (taken c 30 board (steps.take 8)) =
      [.signals false true, .pace false, .pace true] := by decide +kernel
  obtain ⟨others, dtr, rts, -⟩ := modem_lines_last_written c 30 board (steps.take 8) few
  obtain ⟨others', dtr', rts', each⟩ := modem_lines_last_written c 30 board steps all
  rw [fewer] at others dtr rts
  rw [writes] at others' dtr' rts'
  have split (i : Fin (taken c 30 board steps).length) : taken c 30 board steps =
      (taken c 30 board steps).take i ++
        (taken c 30 board steps).get i :: (taken c 30 board steps).drop (i + 1) := by
    rw [List.get_eq_getElem, ← List.drop_eq_getElem_cons, List.take_append_drop]
  obtain ⟨-, refuses⟩ := each _ _ _ (split ⟨4, by decide +kernel⟩) (by decide +kernel)
  obtain ⟨refused, -, untouched⟩ := refuses .active 0x8001 (by decide +kernel)
  obtain ⟨shows, -⟩ := each _ _ _ (split ⟨7, by decide +kernel⟩) (by decide +kernel)
  obtain ⟨signals, reply, shownDtr, shownRts, flow⟩ := shows .console (by decide +kernel)
  have earlier : modemWrites c ((taken c 30 board steps).take 7) =
      [.signals false true, .pace false, .pace true] := by decide +kernel
  rw [earlier] at shownDtr shownRts
  have unsettable := refused.mpr (by decide)
  have kept : Bits.clear (final 8) lines = 0xBC := others.trans (by decide)
  have cleared : Bits.clear (final 10) lines = 0 := others'.trans (by decide)
  exact ⟨few, all, writes, kept, dtr, rts, cleared, dtr', rts', _, List.get_mem _ _, _, List.get_mem _ _,
    signals, unsettable, (untouched unsettable).1, reply, shownDtr, shownRts, flow⟩

end Scenario

end ConsoleUart
