import ConsoleUart.Proofs.Exact
import ConsoleUart.Proofs.Transfers

/-!
# Sessions that commute with a change

A session commutes with a change of the state when it does the same whether the change comes before it or
after it. Without flow control, and with a peer that does not hold bytes back, moving bytes commutes with any
change to the modem side of the chip. A change that changes nothing shows that it leaves that side alone.
-/

namespace ConsoleUart

namespace Session

variable {σ ε α β : Type} {inv : σ → Prop} {f : σ → σ}

/-- Where `inv` holds, the session keeps it, and does the same after `f` as before it. -/
def Commutes (inv : σ → Prop) (f : σ → σ) (x : Session σ ε α) : Prop := ∀ s n, inv s →
  inv (x.run s n).state ∧ x.run (f s) n = { x.run s n with state := f (x.run s n).state }

theorem commutes_pure (a : α) : Commutes inv f (pure a : Session σ ε α) := fun _ _ h => ⟨h, rfl⟩

theorem commutes_halt : Commutes inv f (halt : Session σ ε α) := fun _ _ h => ⟨h, rfl⟩

theorem commutes_bind {x : Session σ ε α} {g : α → Session σ ε β} (hx : Commutes inv f x)
    (hg : ∀ a, Commutes inv f (g a)) : Commutes inv f (x >>= g) := by
  intro s n h
  obtain ⟨kept, same⟩ := hx s n h
  rw [run_bind, run_bind, same]
  generalize x.run s n = r at kept ⊢
  obtain ⟨outcome, events, s', n'⟩ := r
  cases outcome with
  | none => exact ⟨kept, rfl⟩
  | some a =>
    obtain ⟨kept, same⟩ := hg a s' n' kept
    rw [resume_some, resume_some, same]
    exact ⟨kept, rfl⟩

theorem commutes_map {x : Session σ ε α} (hx : Commutes inv f x) (g : α → β) : Commutes inv f (g <$> x) := by
  rw [← bind_pure_comp]
  exact commutes_bind hx fun a => commutes_pure (g a)

theorem commutes_ite {c : Prop} [Decidable c] {x y : Session σ ε α} (hx : Commutes inv f x)
    (hy : Commutes inv f y) : Commutes inv f (if c then x else y) := by
  split
  · exact hx
  · exact hy

theorem commutes_await {check : Session σ ε Bool} (h : Commutes inv f check) :
    Commutes inv f (await check) := by
  refine await_induction ?_ commutes_halt fun y hy =>
    commutes_bind h fun _ => commutes_ite (commutes_pure ()) hy
  intro x same s n holds
  obtain ⟨y, hy, runs⟩ := same n
  rw [runs, runs]
  exact hy s n holds

end Session

/-! ### The modem side of a chip -/

structure ModemPart where
  control : Byte
  status : Byte
  statusScript : List Byte
deriving DecidableEq, Repr

namespace Soc

variable {s : Soc} {b : RegisterBlock} (modem : ModemPart)

def modemPart (s : Soc) : ModemPart := ⟨s.modemControl, s.modemStatus, s.modemStatusScript⟩

def withModemPart (s : Soc) (modem : ModemPart) : Soc := { s with
  modemControl := modem.control
  modemStatus := modem.status
  modemStatusScript := modem.statusScript }

/-- The chip is mapped and its peer shows a received byte whatever RTS says. -/
structure Forthcoming (s : Soc) (b : RegisterBlock) : Prop where
  mapped : s.Mapped b
  unheld : s.holdsBack = false

theorem readPlace_withModemPart (shown : s.holdsBack = false) {i : Nat} (apart : i ≠ 4 ∧ i ≠ 6) :
    (s.withModemPart modem).readPlace i = ((s.readPlace i).1, (s.readPlace i).2.withModemPart modem) := by
  obtain ⟨hc, hs⟩ := apart
  unfold readPlace
  split
  case h_1 =>
    have same : (s.withModemPart modem).latchOpen = s.latchOpen := rfl
    rw [same]
    split
    · rfl
    · unfold receive
      cases hr : s.received <;> simp [withModemPart, hr]
  case h_5 => exact absurd rfl hc
  case h_6 =>
    have status : (s.withModemPart modem).lineStatus = s.lineStatus := by
      simp [lineStatus, receiveVisible, withModemPart, shown]
    unfold readLineStatus
    rw [status]
    cases hl : s.lineStatusScript <;> simp [withModemPart, hl]
  case h_7 => exact absurd rfl hs
  all_goals rfl

theorem writePlace_withModemPart {i : Nat} (apart : i ≠ 4) (value : Byte) :
    (s.withModemPart modem).writePlace value i = (s.writePlace value i).withModemPart modem := by
  have same : (s.withModemPart modem).latchOpen = s.latchOpen := rfl
  unfold writePlace
  split
  case h_5 => exact absurd rfl apart
  all_goals (try rw [same]; split) <;> rfl

theorem Forthcoming.readPlace (h : s.Forthcoming b) (i : Nat) : (s.readPlace i).2.Forthcoming b := by
  obtain ⟨_, _, _, frame⟩ := s.readPlace_frame i
  rw [frame]
  exact ⟨h.mapped.keep rfl rfl, h.unheld⟩

theorem Forthcoming.writePlace (h : s.Forthcoming b) (value : Byte) (i : Nat) :
    (s.writePlace value i).Forthcoming b := by
  obtain ⟨_, _, _, _, _, _, _, frame⟩ := s.writePlace_frame value i
  rw [frame]
  exact ⟨h.mapped.keep rfl rfl, h.unheld⟩

end Soc

/-! ### Moving bytes -/

namespace MiniUart
open Session

variable {u : MiniUart} {modem : ModemPart} {α : Type}

/-- The session does not depend on the modem side of the chip and leaves it alone. -/
def IgnoresModem (u : MiniUart) (modem : ModemPart) (x : Bus Soc α) : Prop :=
  Commutes (fun s => s.Forthcoming u.registers) (fun s => s.withModemPart modem) x

theorem ignoresModem_load {r : Register} (apart : r.offset ≠ 4 ∧ r.offset ≠ 6) :
    u.IgnoresModem modem (u.registers.read r) := by
  intro s n h
  cases n with
  | zero => exact ⟨h, rfl⟩
  | succ n =>
    have other : (s.withModemPart modem).Mapped u.registers := h.mapped.keep rfl rfl
    have place := Soc.readPlace_withModemPart modem h.unheld apart
    rw [RegisterBlock.run_read_succ, RegisterBlock.run_read_succ, h.mapped.load_address,
      other.load_address, place]
    exact ⟨h.readPlace r.offset, rfl⟩

theorem ignoresModem_store {r : Register} (apart : r.offset ≠ 4) (value : Byte) :
    u.IgnoresModem modem (u.registers.write r value) := by
  intro s n h
  cases n with
  | zero => exact ⟨h, rfl⟩
  | succ n =>
    have other : (s.withModemPart modem).Mapped u.registers := h.mapped.keep rfl rfl
    have place := Soc.writePlace_withModemPart (s := s) modem apart value
    rw [RegisterBlock.run_write_succ, RegisterBlock.run_write_succ, h.mapped.store_address,
      other.store_address, place]
    exact ⟨h.writePlace value r.offset, rfl⟩

theorem ignoresModem_transmitterEmpty : u.IgnoresModem modem u.transmitterEmpty :=
  commutes_bind (ignoresModem_load (by decide)) fun _ => commutes_pure _

theorem ignoresModem_receiverReady : u.IgnoresModem modem u.receiverReady :=
  commutes_bind (ignoresModem_load (by decide)) fun _ => commutes_pure _

theorem ignoresModem_receiveByte : u.IgnoresModem modem (u.receiveByte none) := by
  have look : u.IgnoresModem modem (u.lookForByte none) :=
    commutes_bind ignoresModem_receiverReady fun _ =>
      commutes_ite (commutes_pure _) (commutes_bind (commutes_pure ()) fun _ => commutes_pure _)
  refine commutes_bind (commutes_await look) fun _ => commutes_bind (commutes_pure ()) fun _ => ?_
  exact ignoresModem_load (by decide)

theorem ignoresModem_receiveBytes (n : Nat) : u.IgnoresModem modem (u.receiveBytes none n) := by
  induction n with
  | zero => exact commutes_pure []
  | succ n ih =>
    exact commutes_bind ignoresModem_receiveByte fun _ => commutes_bind ih fun _ => commutes_pure _

section
variable (off : u.config.flow.enabled = false)
include off

theorem ignoresModem_gate : u.IgnoresModem modem (await u.flowWritable) := by
  rw [flowWritable_of_off off]
  exact commutes_await (commutes_pure true)

theorem ignoresModem_sendByte (byte : Byte) : u.IgnoresModem modem (u.sendByte byte) :=
  commutes_bind (ignoresModem_gate off) fun _ => ignoresModem_store (by decide) byte

theorem ignoresModem_sendBursts (depth room : Nat) (bytes : List Byte) :
    u.IgnoresModem modem (u.sendBursts depth room bytes) := by
  induction bytes generalizing room with
  | nil =>
    cases room <;> exact commutes_pure ()
  | cons byte rest ih =>
    cases room with
    | zero =>
      refine commutes_bind (commutes_await ignoresModem_transmitterEmpty) fun _ => ?_
      exact commutes_bind (ignoresModem_sendByte off byte) fun _ => ih _
    | succ room => exact commutes_bind (ignoresModem_sendByte off byte) fun _ => ih room

theorem ignoresModem_write (bytes : List Byte) : u.IgnoresModem modem (u.write bytes) := by
  cases bytes with
  | nil =>
    have flush : u.IgnoresModem modem u.flush :=
      commutes_bind (commutes_await ignoresModem_transmitterEmpty) fun _ => ignoresModem_gate off
    exact commutes_bind flush fun _ => commutes_pure _
  | cons byte rest =>
    exact commutes_bind (ignoresModem_sendBursts off _ _ _) fun _ => commutes_pure _

theorem ignoresModem_perform {op : Operation} (moves : op.movesBytes = true) :
    u.IgnoresModem modem (u.perform op) := by
  cases op with
  | write bytes => exact ignoresModem_write off bytes
  | read count =>
    refine commutes_ite (commutes_pure []) ?_
    rw [pacingBase_of_off off, pure_bind]
    exact ignoresModem_receiveBytes count
  | poll =>
    refine commutes_bind ignoresModem_receiverReady fun ready => ?_
    rw [pacingBase_of_off off, pure_bind]
    exact commutes_bind (commutes_pure ()) fun _ => commutes_pure ready
  | configure | setControl | getControl | setAttributes => cases moves

end

end MiniUart

end ConsoleUart
