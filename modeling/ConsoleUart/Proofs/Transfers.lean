import ConsoleUart.Proofs.Footprint

/-!
# What moving bytes records

Writing, reading and polling record accesses and nothing else: they report nothing about themselves. The
accesses are to the line status and the buffers, and to the modem registers only under flow control.
-/

namespace ConsoleUart

namespace Session

variable {σ ε α β : Type} {p : ε → Prop}

/-- Every event that the session records satisfies `p`, whatever the state and the budget. -/
def Records (p : ε → Prop) (x : Session σ ε α) : Prop := ∀ s n, ∀ e ∈ (x.run s n).events, p e

theorem records_pure (a : α) : Records p (pure a : Session σ ε α) := fun _ _ => List.forall_mem_nil _

theorem records_halt : Records p (halt : Session σ ε α) := fun _ _ => List.forall_mem_nil _

theorem records_bind {x : Session σ ε α} {f : α → Session σ ε β} (hx : Records p x)
    (hf : ∀ a, Records p (f a)) : Records p (x >>= f) := by
  intro s n e he
  have first := hx s n
  rw [run_bind] at he
  generalize x.run s n = r at first he
  obtain ⟨outcome, events, s', n'⟩ := r
  cases outcome with
  | none => exact first e he
  | some a =>
    rw [resume_some] at he
    rcases List.mem_append.mp he with he | he
    · exact first e he
    · exact hf a s' n' e he

theorem records_ite {c : Prop} [Decidable c] {x y : Session σ ε α} (hx : c → Records p x)
    (hy : ¬c → Records p y) : Records p (if c then x else y) := by
  split
  case isTrue h => exact hx h
  case isFalse h => exact hy h

theorem records_await {check : Session σ ε Bool} (h : Records p check) : Records p (await check) := by
  refine await_induction ?_ records_halt fun y hy =>
    records_bind h fun _ => records_ite (fun _ => records_pure ()) fun _ => hy
  intro x same s n
  obtain ⟨y, hy, runs⟩ := same n
  rw [runs]
  exact hy s n

end Session

/-- The operation moves bytes, or asks whether one is waiting. -/
def Operation.movesBytes : Operation → Bool
  | write _ | read _ | poll => true
  | _ => false

namespace MiniUart
open Session

variable {σ α β : Type} [AddressSpace σ] (u : MiniUart)

/-- The registers that moving bytes may access. -/
def transferFootprint : Footprint where
  reads := [.lineStatus, .receiveBuffer] ++
    if u.config.flow.enabled then [.modemStatus, .modemControl] else []
  writes := .transmitBuffer :: if u.config.flow.enabled then [.modemControl] else []

/-- The session records accesses only, and only such as moving bytes may make. -/
def Transfers (x : Bus σ α) : Prop :=
  Records (fun e => ∃ a, e = .access a ∧ u.transferFootprint.Covers u a) x

variable {u : MiniUart}

theorem transfers_load {r : Register} (hr : r ∈ u.transferFootprint.reads) :
    u.Transfers (u.registers.read r : Bus σ Byte) := by
  intro s n e he
  cases n with
  | zero => cases he
  | succ n => exact ⟨_, List.mem_singleton.mp he, hr, rfl⟩

theorem transfers_store {r : Register} (hr : r ∈ u.transferFootprint.writes) (value : Byte) :
    u.Transfers (u.registers.write r value : Bus σ Unit) := by
  intro s n e he
  cases n with
  | zero => cases he
  | succ n => exact ⟨_, List.mem_singleton.mp he, hr, rfl⟩

/-! ### Waiting -/

variable (u)

theorem transfers_transmitterEmpty : u.Transfers (u.transmitterEmpty : Bus σ Bool) :=
  records_bind (transfers_load (by simp [transferFootprint])) fun _ => records_pure _

theorem transfers_receiverReady : u.Transfers (u.receiverReady : Bus σ Bool) :=
  records_bind (transfers_load (by simp [transferFootprint])) fun _ => records_pure _

theorem transfers_flowWritable : u.Transfers (u.flowWritable : Bus σ Bool) := by
  refine records_ite (fun _ => records_pure _) fun enabled => ?_
  have on : u.config.flow.enabled = true := by simpa [FlowControl.isDisabled] using enabled
  exact records_bind (transfers_load (by simp [transferFootprint, on])) fun _ => records_pure _

/-! ### Sending -/

theorem transfers_sendByte (byte : Byte) : u.Transfers (u.sendByte byte : Bus σ Unit) :=
  records_bind (records_await (transfers_flowWritable u)) fun _ =>
    transfers_store (by simp [transferFootprint]) byte

theorem transfers_sendBursts (depth room : Nat) (bytes : List Byte) :
    u.Transfers (u.sendBursts depth room bytes : Bus σ Unit) := by
  induction bytes generalizing room with
  | nil =>
    cases room <;> exact records_pure ()
  | cons byte rest ih =>
    have one (room : Nat) :
        u.Transfers (u.sendByte byte >>= fun _ => u.sendBursts depth room rest : Bus σ Unit) :=
      records_bind (transfers_sendByte u byte) fun _ => ih room
    cases room with
    | zero => exact records_bind (records_await (transfers_transmitterEmpty u)) fun _ => one _
    | succ room => exact one room

theorem transfers_write (bytes : List Byte) : u.Transfers (u.write bytes : Bus σ Nat) := by
  cases bytes with
  | nil =>
    have flush : u.Transfers (u.flush : Bus σ Unit) :=
      records_bind (records_await (transfers_transmitterEmpty u)) fun _ =>
        records_await (transfers_flowWritable u)
    exact records_bind flush fun _ => records_pure _
  | cons byte rest => exact records_bind (transfers_sendBursts u _ _ _) fun _ => records_pure _

/-! ### Receiving -/

/-- Reception is paced under flow control only. -/
def Paces (mcr : Option Byte) : Prop := mcr.isSome = true → u.config.flow.enabled = true

variable {u} {mcr : Option Byte}

theorem transfers_pacingBase {f : Option Byte → Bus σ β}
    (hf : ∀ mcr, u.Paces mcr → u.Transfers (f mcr)) : u.Transfers (u.pacingBase >>= f) := by
  unfold pacingBase
  split
  case isTrue on =>
    rw [bind_assoc]
    refine records_bind (transfers_load (by simp [transferFootprint, on])) fun mcr => ?_
    exact hf (some mcr) fun _ => on
  case isFalse off => exact hf none (fun some => nomatch some)

theorem transfers_pace (paced : u.Paces mcr) (rts : Bool) : u.Transfers (u.pace mcr rts : Bus σ Unit) := by
  cases mcr with
  | none => exact records_pure ()
  | some mcr =>
    have on := paced rfl
    exact transfers_store (by simp [transferFootprint, on]) _

theorem transfers_lookForByte (paced : u.Paces mcr) : u.Transfers (u.lookForByte mcr : Bus σ Bool) := by
  refine records_bind (transfers_receiverReady u) fun ready => ?_
  refine records_ite (fun _ => records_pure _) fun _ => ?_
  exact records_bind (transfers_pace paced true) fun _ => records_pure _

theorem transfers_receiveByte (paced : u.Paces mcr) : u.Transfers (u.receiveByte mcr : Bus σ Byte) := by
  refine records_bind (records_await (transfers_lookForByte paced)) fun _ => ?_
  refine records_bind (transfers_pace paced false) fun _ => ?_
  exact transfers_load (by simp [transferFootprint])

theorem transfers_receiveBytes (paced : u.Paces mcr) (n : Nat) :
    u.Transfers (u.receiveBytes mcr n : Bus σ (List Byte)) := by
  induction n with
  | zero => exact records_pure []
  | succ n ih =>
    exact records_bind (transfers_receiveByte paced) fun _ => records_bind ih fun _ => records_pure _

variable (u)

theorem transfers_read (count : Nat) : u.Transfers (u.read count : Bus σ (List Byte)) :=
  records_ite (fun _ => records_pure []) fun _ =>
    transfers_pacingBase fun _ paced => transfers_receiveBytes paced count

theorem transfers_poll : u.Transfers (u.poll : Bus σ Bool) := by
  refine records_bind (transfers_receiverReady u) fun ready => transfers_pacingBase fun mcr paced => ?_
  exact records_bind (transfers_pace paced (!ready)) fun _ => records_pure ready

theorem transfers_perform {op : Operation} (moves : op.movesBytes = true) :
    u.Transfers (u.perform op : Bus σ op.Answer) := by
  cases op with
  | write bytes => exact transfers_write u bytes
  | read count => exact transfers_read u count
  | poll => exact transfers_poll u
  | configure | setControl | getControl | setAttributes => cases moves

end MiniUart

end ConsoleUart
