import ConsoleUart.Proofs.Programming

/-!
# The modem control register

What each operation makes of the modem control register. Programming the device clears it, setting control
signals replaces DTR and RTS, and pacing reception replaces RTS. Reception reads the register once and
writes it from that value from then on, so that what a whole read makes of it is the last of these writes.
-/

namespace ConsoleUart

namespace ModemControl

/-- The two bits with a name. -/
def lines : Byte := dtr ||| rts

inductive Write where
  | reset
  | signals (dtr rts : Bool)
  | pace (rts : Bool)
deriving DecidableEq, Repr

namespace Write

def apply (mcr : Byte) : Write → Byte
  | reset => 0
  | signals dtr rts => Bits.assign (Bits.assign mcr ModemControl.dtr dtr) ModemControl.rts rts
  | pace rts => Bits.assign mcr ModemControl.rts rts

/-- The register after a write, if there was one. -/
def after (mcr : Byte) (w : Option Write) : Byte := w.elim mcr (apply mcr)

/-! What a write gives to a bit, `none` if it leaves the bit alone. -/

def dtr? : Write → Option Bool
  | reset => some false
  | signals dtr _ => some dtr
  | pace _ => none

def rts? : Write → Option Bool
  | reset => some false
  | signals _ rts => some rts
  | pace rts => some rts

theorem has_dtr_apply (mcr : Byte) (w : Write) :
    Bits.has (w.apply mcr) dtr = w.dtr?.getD (Bits.has mcr dtr) := by
  cases w with
  | reset =>
    show Bits.has 0 dtr = false
    decide
  | signals d r =>
    revert mcr d r
    decide
  | pace r =>
    revert mcr r
    decide

theorem has_rts_apply (mcr : Byte) (w : Write) :
    Bits.has (w.apply mcr) rts = w.rts?.getD (Bits.has mcr rts) := by
  cases w with
  | reset =>
    show Bits.has 0 rts = false
    decide
  | signals d r =>
    revert mcr d r
    decide
  | pace r =>
    revert mcr r
    decide

theorem clear_lines_apply (mcr : Byte) {w : Write} (h : w ≠ .reset) :
    Bits.clear (w.apply mcr) lines = Bits.clear mcr lines := by
  cases w with
  | reset => exact absurd rfl h
  | signals d r =>
    revert mcr d r
    decide
  | pace r =>
    revert mcr r
    decide

end Write

end ModemControl

open ModemControl (Write)

/-! ### Signals -/

theorem Signals.has_ofRegisters (flow : Bool) (msr mcr lsr : Byte) :
    Bits.has (ofRegisters flow msr mcr lsr) dataTerminalReady = Bits.has mcr ModemControl.dtr ∧
      Bits.has (ofRegisters flow msr mcr lsr) requestToSend = Bits.has mcr ModemControl.rts ∧
      Bits.has (ofRegisters flow msr mcr lsr) hardwareFlowControl = flow := by
  unfold ofRegisters
  generalize Bits.has msr ModemStatus.cts = cts
  generalize Bits.has msr ModemStatus.dsr = dsr
  generalize Bits.has msr ModemStatus.ri = ri
  generalize Bits.has msr ModemStatus.dcd = dcd
  generalize Bits.has mcr ModemControl.dtr = dtr
  generalize Bits.has mcr ModemControl.rts = rts
  generalize Bits.has lsr LineStatus.transmitterEmpty = idle
  generalize (!Bits.has lsr LineStatus.receiveReady) = empty
  revert flow cts dsr ri dcd dtr rts idle empty
  decide

theorem Signals.onlySettable_eq_false {mask : Word} :
    onlySettable mask = false ↔ Bits.clear mask 0x4003 ≠ 0 := by
  rw [onlySettable, beq_eq_false_iff_ne]
  rfl

/-! ### Sessions that leave the register alone -/

namespace Soc

variable {s : Soc} {b : RegisterBlock}

theorem writePlace_modemControl {i : Nat} (other : i ≠ 4) (value : Byte) :
    (s.writePlace value i).modemControl = s.modemControl := by
  unfold writePlace
  split <;> (try split) <;> simp_all

theorem Mapped.apply_modemControl (h : s.Mapped b) {a : Access} (placed : a.InPlace b)
    (other : ∀ address value, a ≠ .write .modemControl address value) :
    (Access.apply s a).modemControl = s.modemControl := by
  cases a with
  | read r address value =>
    cases placed
    rw [h.apply_read]
    obtain ⟨_, _, _, hf⟩ := s.readPlace_frame r.offset
    rw [hf]
  | write r address value =>
    cases placed
    rw [h.apply_write]
    refine writePlace_modemControl (fun hr => ?_) value
    cases r <;> simp [Register.offset] at hr
    exact other _ _ rfl
  | readWord address value => rfl

theorem Mapped.replay_modemControl {trace : List Access} (h : s.Mapped b)
    (other : ∀ a ∈ trace, a.InPlace b ∧ ∀ address value, a ≠ .write .modemControl address value) :
    (ConsoleUart.replay s trace).modemControl = s.modemControl := by
  induction trace generalizing s with
  | nil => rfl
  | cons a rest ih =>
    obtain ⟨placed, elsewhere⟩ := other a (List.mem_cons_self ..)
    have others := ih (h.apply placed) fun a ha => other a (List.mem_cons_of_mem _ ha)
    exact others.trans (h.apply_modemControl placed elsewhere)

end Soc

theorem Bus.Within.modemControl {α : Type} {s : Soc} {u : MiniUart} {f : Footprint} {x : Bus Soc α}
    (h : Within (f.Covers u) x) (other : .modemControl ∉ f.writes) (mapped : s.Mapped u.registers) (n : Nat) :
    (x.run s n).state.modemControl = s.modemControl := by
  rw [h.state_eq_replay]
  refine mapped.replay_modemControl fun a ha => ?_
  have covered := h.mem s n a ha
  cases a with
  | read r address value => exact ⟨covered.2, nofun⟩
  | write r address value =>
    refine ⟨covered.2, fun _ _ he => ?_⟩
    cases he
    exact other covered.1
  | readWord address value => exact ⟨trivial, nofun⟩

/-! ### Sessions that write the register -/

/-- The latch is closed and the modem control register holds this byte. -/
structure Soc.Modem (s : Soc) (mcr : Byte) : Prop where
  closed : s.latchOpen = false
  modemControl : s.modemControl = mcr

theorem Soc.Modem.readPlace {s : Soc} {mcr : Byte} (h : s.Modem mcr) (i : Nat) :
    (s.readPlace i).2.Modem mcr := by
  obtain ⟨_, _, _, hf⟩ := s.readPlace_frame i
  rw [hf]
  exact ⟨h.closed, h.modemControl⟩

namespace MiniUart
open Bus

variable (u : MiniUart) {s : Soc} {mcr : Byte} {base : Option Byte}

/-- What pacing writes with this policy: RTS, if reception is paced at all. -/
def pacingWrite (rts : Bool) : Option Write := if u.config.flow.enabled then some (.pace rts) else none

/-- The register after pacing on top of `base`. -/
def paced (mcr : Byte) (base : Option Byte) (rts : Bool) : Byte :=
  base.elim mcr fun base => Bits.assign base ModemControl.rts rts

theorem orderly_receiverReady_modem (h : s.Modem mcr) :
    Orderly u.registers u.receiverReady (fun _ t => t.Modem mcr) s :=
  orderly_bind (orderly_read rfl (orderly_pure (h.readPlace _)))

theorem orderly_read_modemControl (h : s.Modem mcr) :
    Orderly u.registers (u.registers.read .modemControl) (fun value t => value = mcr ∧ t.Modem mcr) s :=
  orderly_read rfl ⟨h.modemControl, h⟩

theorem orderly_pace_modem (h : s.Modem mcr) (rts : Bool) :
    Orderly u.registers (u.pace base rts) (fun _ t => t.Modem (paced mcr base rts)) s := by
  cases base with
  | none => exact orderly_pure h
  | some value => exact orderly_write_modemControl ⟨h.closed, rfl⟩

/-- While the driver waits for a byte, the register changes only if reception is paced. -/
def Waiting (mcr : Byte) (base : Option Byte) (s : Soc) : Prop :=
  ∃ current, s.Modem current ∧ ∀ rts, paced current base rts = paced mcr base rts

theorem orderly_lookForByte_modem (h : Waiting mcr base s) :
    Orderly u.registers (u.lookForByte base) (fun _ t => Waiting mcr base t) s := by
  obtain ⟨current, h, same⟩ := h
  refine orderly_bind (orderly_mono (orderly_receiverReady_modem u h) fun ready t ht => ?_)
  refine orderly_ite (fun _ => orderly_pure ⟨current, ht, same⟩) fun _ => orderly_bind ?_
  refine orderly_mono (orderly_pace_modem u ht true) fun _ t ht => orderly_pure ⟨_, ht, fun rts => ?_⟩
  cases base with
  | none => exact same rts
  | some value => rfl

theorem orderly_receiveByte_modem (h : s.Modem mcr) :
    Orderly u.registers (u.receiveByte base) (fun _ t => t.Modem (paced mcr base false)) s := by
  have waiting : Orderly u.registers (Session.await (u.lookForByte base)) (fun _ t => Waiting mcr base t) s := by
    refine orderly_await (Waiting mcr base) (fun t ht => ?_) ⟨mcr, h, fun _ => rfl⟩
    refine orderly_mono (orderly_lookForByte_modem u ht) fun ready t ht => ?_
    cases ready <;> exact ht
  refine orderly_bind (orderly_mono waiting fun _ t ht => orderly_bind ?_)
  obtain ⟨current, ht, same⟩ := ht
  refine orderly_mono (orderly_pace_modem u ht false) fun _ t ht => ?_
  rw [same] at ht
  exact orderly_read ht.closed.symm (ht.readPlace _)

theorem orderly_receiveBytes_modem (h : s.Modem mcr) (n : Nat) :
    Orderly u.registers (u.receiveBytes base n)
      (fun _ t => t.Modem (if n = 0 then mcr else paced mcr base false)) s := by
  induction n generalizing s mcr with
  | zero => exact orderly_pure h
  | succ n ih =>
    refine orderly_bind (orderly_mono (orderly_receiveByte_modem u h) fun byte t ht => orderly_bind ?_)
    refine orderly_mono (ih ht) fun rest t ht => orderly_pure ?_
    have again : paced (paced mcr base false) base false = paced mcr base false := by cases base <;> rfl
    rw [again, ite_self] at ht
    exact ht

theorem orderly_pacingBase (h : s.Modem mcr) : Orderly u.registers u.pacingBase
    (fun base t => t.Modem mcr ∧ ∀ rts, paced mcr base rts = Write.after mcr (u.pacingWrite rts)) s := by
  unfold pacingWrite
  refine orderly_ite (fun enabled => orderly_bind ?_) fun disabled => orderly_pure ⟨h, fun rts => ?_⟩
  · refine orderly_mono (orderly_read_modemControl u h) fun value t ht => orderly_pure ⟨ht.2, fun rts => ?_⟩
    rw [if_pos enabled, ht.1]
    rfl
  · rw [if_neg disabled]
    rfl

/-! ### Operations -/

/-- A read that takes anything leaves RTS low, if reception is paced. -/
theorem orderly_read_modem (h : s.Modem mcr) (count : Nat) : Orderly u.registers (u.read count)
    (fun _ t => t.Modem (Write.after mcr (if count = 0 then none else u.pacingWrite false))) s := by
  refine orderly_ite (fun none => ?_) fun some => orderly_bind ?_
  · rw [if_pos none]
    exact orderly_pure h
  · refine orderly_mono (orderly_pacingBase u h) fun base t hb => ?_
    refine orderly_mono (orderly_receiveBytes_modem u hb.1 count) fun _ t ht => ?_
    rw [if_neg some, hb.2] at ht
    rw [if_neg some]
    exact ht

theorem orderly_poll_modem (h : s.Modem mcr) : Orderly u.registers u.poll
    (fun ready t => t.Modem (Write.after mcr (u.pacingWrite (!ready)))) s := by
  refine orderly_bind (orderly_mono (orderly_receiverReady_modem u h) fun ready t ht => orderly_bind ?_)
  refine orderly_mono (orderly_pacingBase u ht) fun base t hb => orderly_bind ?_
  refine orderly_mono (orderly_pace_modem u hb.1 _) fun _ t ht => orderly_pure ?_
  rw [hb.2] at ht
  exact ht

def signalled (signals : Word) : Write :=
  .signals (Bits.has signals Signals.dataTerminalReady) (Bits.has signals Signals.requestToSend)

theorem orderly_setControl_modem (h : s.Modem mcr) (signals : Word) :
    Orderly u.registers (u.setControl signals)
      (fun answer t => answer = (if Signals.onlySettable signals then .ok () else .error .unsupported) ∧
        t.Modem (Write.after mcr (if Signals.onlySettable signals then some (signalled signals) else none))) s := by
  refine orderly_ite (fun settable => orderly_bind ?_) fun other => orderly_pure ?_
  · refine orderly_mono (orderly_read_modemControl u h) fun value t ht => ?_
    obtain ⟨rfl, ht⟩ := ht
    simp only [settable, if_true]
    exact orderly_bind (orderly_write_modemControl (orderly_pure ⟨rfl, ht.closed, rfl⟩))
  · rw [if_neg other, if_neg other]
    exact ⟨rfl, h⟩

theorem orderly_getControl (h : s.Modem mcr) : Orderly u.registers u.getControl
    (fun signals _ => ∃ msr lsr, signals = Signals.ofRegisters u.config.flow.enabled msr mcr lsr) s := by
  refine orderly_bind (orderly_read rfl (orderly_bind ?_))
  refine orderly_mono (orderly_read_modemControl u (h.readPlace _)) fun value t ht => ?_
  obtain ⟨rfl, ht⟩ := ht
  exact orderly_bind (orderly_read rfl (orderly_pure ⟨_, _, rfl⟩))

theorem Configures.modemControl {u : MiniUart} {t : Soc} (h : u.Configures s t) :
    t.modemControl = Write.after s.modemControl
      (if u.Matches s (Baud.divisor (u.clockAt s) u.config.baudRate) then none else some .reset) := by
  unfold Configures at h
  split at h
  case isTrue same =>
    rw [if_pos same, h]
    rfl
  case isFalse other =>
    rw [if_neg other, h.modemControl]
    rfl

end MiniUart

end ConsoleUart
