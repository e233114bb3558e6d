import ConsoleUart.MiniUart.Operations
import ConsoleUart.Proofs.Replay

/-!
# Footprints

Which registers an operation of the mini UART reads and writes, whatever it finds in them. The
footprint also fixes the addresses: each register is accessed in its own place, and the one word that an
operation reads is the clock's.
-/

namespace ConsoleUart

structure Footprint where
  reads : List Register
  writes : List Register
deriving DecidableEq, Repr

def Footprint.Covers (f : Footprint) (u : MiniUart) : Access → Prop
  | .read r address _ => r ∈ f.reads ∧ address = u.registers.address r
  | .write r address _ => r ∈ f.writes ∧ address = u.registers.address r
  | .readWord address _ => address = u.clock.address

def Operation.footprint : Operation → Footprint
  | configure => {
      reads := [.lineControl, .divisorHigh, .divisorLow, .lineStatus]
      writes := [.lineControl, .divisorHigh, .divisorLow, .fifoControl, .interruptEnable, .modemControl] }
  | write _ => { reads := [.lineStatus, .modemStatus], writes := [.transmitBuffer] }
  | read _ => { reads := [.modemControl, .lineStatus, .receiveBuffer], writes := [.modemControl] }
  | poll => { reads := [.modemControl, .lineStatus], writes := [.modemControl] }
  | setControl _ => { reads := [.modemControl], writes := [.modemControl] }
  | getControl => { reads := [.modemStatus, .modemControl, .lineStatus], writes := [] }
  | setAttributes _ => {
      reads := [.lineControl, .divisorHigh, .divisorLow]
      writes := [.lineControl, .divisorHigh, .divisorLow] }

variable {σ : Type} [AddressSpace σ] {f : Footprint} {u : MiniUart} {r : Register}

@[simp] theorem Footprint.covers_read {address : Nat} {value : Byte} :
    f.Covers u (.read r address value) ↔ r ∈ f.reads ∧ address = u.registers.address r := Iff.rfl

@[simp] theorem Footprint.covers_write {address : Nat} {value : Byte} :
    f.Covers u (.write r address value) ↔ r ∈ f.writes ∧ address = u.registers.address r := Iff.rfl

@[simp] theorem Footprint.covers_readWord {address : Nat} {value : Word} :
    f.Covers u (.readWord address value) ↔ address = u.clock.address := Iff.rfl

namespace MiniUart
open Bus

variable (u : MiniUart)

/-! ### Waiting -/

theorem within_transmitterEmpty (hr : .lineStatus ∈ f.reads) :
    Within (f.Covers u) (u.transmitterEmpty : Bus σ Bool) :=
  within_bind (within_read fun _ => ⟨hr, rfl⟩) fun _ => within_pure _

theorem within_receiverReady (hr : .lineStatus ∈ f.reads) :
    Within (f.Covers u) (u.receiverReady : Bus σ Bool) :=
  within_bind (within_read fun _ => ⟨hr, rfl⟩) fun _ => within_pure _

theorem within_flowWritable (hr : .modemStatus ∈ f.reads) :
    Within (f.Covers u) (u.flowWritable : Bus σ Bool) :=
  within_ite (within_pure _) (within_bind (within_read fun _ => ⟨hr, rfl⟩) fun _ => within_pure _)

/-! ### Moving bytes -/

theorem within_sendByte (hr : .modemStatus ∈ f.reads) (hw : .transmitBuffer ∈ f.writes) (byte : Byte) :
    Within (f.Covers u) (u.sendByte byte : Bus σ Unit) :=
  within_bind (within_await (within_flowWritable u hr)) fun _ => within_write ⟨hw, rfl⟩

theorem within_sendBursts (hl : .lineStatus ∈ f.reads) (hm : .modemStatus ∈ f.reads)
    (hw : .transmitBuffer ∈ f.writes) (depth room : Nat) (bytes : List Byte) :
    Within (f.Covers u) (u.sendBursts depth room bytes : Bus σ Unit) := by
  induction bytes generalizing room with
  | nil =>
    cases room <;> exact within_pure _
  | cons byte rest ih =>
    cases room with
    | zero =>
      refine within_bind (within_await (within_transmitterEmpty u hl)) fun _ => ?_
      exact within_bind (within_sendByte u hm hw byte) fun _ => ih _
    | succ room => exact within_bind (within_sendByte u hm hw byte) fun _ => ih _

theorem within_send (bytes : List Byte) :
    Within ((Operation.write bytes).footprint.Covers u) (u.write bytes : Bus σ Nat) := by
  have hl : .lineStatus ∈ (Operation.write bytes).footprint.reads := by simp [Operation.footprint]
  have hm : .modemStatus ∈ (Operation.write bytes).footprint.reads := by simp [Operation.footprint]
  have hw : .transmitBuffer ∈ (Operation.write bytes).footprint.writes := by simp [Operation.footprint]
  cases bytes with
  | nil =>
    refine within_bind (within_bind (within_await (within_transmitterEmpty u hl)) fun _ => ?_)
      fun _ => within_pure _
    exact within_await (within_flowWritable u hm)
  | cons byte rest => exact within_bind (within_sendBursts u hl hm hw _ _ _) fun _ => within_pure _

theorem within_pace (hw : .modemControl ∈ f.writes) (mcr : Option Byte) (rts : Bool) :
    Within (f.Covers u) (u.pace mcr rts : Bus σ Unit) := by
  cases mcr with
  | none => exact within_pure _
  | some mcr => exact within_write ⟨hw, rfl⟩

theorem within_pacingBase (hr : .modemControl ∈ f.reads) :
    Within (f.Covers u) (u.pacingBase : Bus σ (Option Byte)) :=
  within_ite (within_bind (within_read fun _ => ⟨hr, rfl⟩) fun _ => within_pure _) (within_pure _)

theorem within_lookForByte (hl : .lineStatus ∈ f.reads) (hw : .modemControl ∈ f.writes)
    (mcr : Option Byte) : Within (f.Covers u) (u.lookForByte mcr : Bus σ Bool) := by
  refine within_bind (within_receiverReady u hl) fun _ => within_ite (within_pure _) ?_
  exact within_bind (within_pace u hw mcr true) fun _ => within_pure _

theorem within_receiveByte (hl : .lineStatus ∈ f.reads) (hb : .receiveBuffer ∈ f.reads)
    (hw : .modemControl ∈ f.writes) (mcr : Option Byte) :
    Within (f.Covers u) (u.receiveByte mcr : Bus σ Byte) := by
  refine within_bind (within_await (within_lookForByte u hl hw mcr)) fun _ => ?_
  exact within_bind (within_pace u hw mcr false) fun _ => within_read fun _ => ⟨hb, rfl⟩

theorem within_receiveBytes (hl : .lineStatus ∈ f.reads) (hb : .receiveBuffer ∈ f.reads)
    (hw : .modemControl ∈ f.writes) (mcr : Option Byte) (n : Nat) :
    Within (f.Covers u) (u.receiveBytes mcr n : Bus σ (List Byte)) := by
  induction n with
  | zero => exact within_pure _
  | succ n ih =>
    refine within_bind (within_receiveByte u hl hb hw mcr) fun _ => ?_
    exact within_bind ih fun _ => within_pure _

theorem within_receive (count : Nat) :
    Within ((Operation.read count).footprint.Covers u) (u.read count : Bus σ _) := by
  have hl : .lineStatus ∈ (Operation.read count).footprint.reads := by simp [Operation.footprint]
  have hb : .receiveBuffer ∈ (Operation.read count).footprint.reads := by simp [Operation.footprint]
  have hr : .modemControl ∈ (Operation.read count).footprint.reads := by simp [Operation.footprint]
  have hw : .modemControl ∈ (Operation.read count).footprint.writes := by simp [Operation.footprint]
  refine within_ite (within_pure _) (within_bind (within_pacingBase u hr) fun mcr => ?_)
  exact within_receiveBytes u hl hb hw mcr count

theorem within_poll : Within (Operation.poll.footprint.Covers u) (u.poll : Bus σ Bool) := by
  refine within_bind (within_receiverReady u (by decide)) fun ready => ?_
  refine within_bind (within_pacingBase u (by decide)) fun mcr => ?_
  exact within_bind (within_pace u (by decide) mcr (!ready)) fun _ => within_pure _

/-! ### Modem control -/

theorem within_setControl (signals : Word) :
    Within ((Operation.setControl signals).footprint.Covers u)
      (u.setControl signals : Bus σ _) := by
  refine within_ite (within_bind (within_read fun _ => ?_) fun _ => ?_) (within_pure _)
  · simp [Operation.footprint]
  · exact within_bind (within_write (by simp [Operation.footprint])) fun _ => within_pure _

theorem within_getControl :
    Within (Operation.getControl.footprint.Covers u) (u.getControl : Bus σ Word) := by
  refine within_bind (within_read fun _ => ⟨by decide, rfl⟩) fun _ => ?_
  refine within_bind (within_read fun _ => ⟨by decide, rfl⟩) fun _ => ?_
  exact within_bind (within_read fun _ => ⟨by decide, rfl⟩) fun _ => within_pure _

/-! ### The divisor latch -/

theorem within_readDivisor (hl : .lineControl ∈ f.reads) (hh : .divisorHigh ∈ f.reads)
    (hd : .divisorLow ∈ f.reads) (hw : .lineControl ∈ f.writes) :
    Within (f.Covers u) (u.registers.readDivisor : Bus σ Nat) := by
  refine within_bind (within_read fun _ => ⟨hl, rfl⟩) fun _ => ?_
  refine within_bind (within_write ⟨hw, rfl⟩) fun _ => ?_
  refine within_bind (within_read fun _ => ⟨hh, rfl⟩) fun _ => ?_
  refine within_bind (within_read fun _ => ⟨hd, rfl⟩) fun _ => ?_
  refine within_bind (within_read fun _ => ⟨hl, rfl⟩) fun _ => ?_
  exact within_bind (within_write ⟨hw, rfl⟩) fun _ => within_pure _

theorem within_loadDivisor (hl : .lineControl ∈ f.writes) (hh : .divisorHigh ∈ f.writes)
    (hd : .divisorLow ∈ f.writes) (divisor : Nat) :
    Within (f.Covers u) (u.registers.loadDivisor divisor : Bus σ Unit) := by
  refine within_bind (within_write ⟨hl, rfl⟩) fun _ => ?_
  exact within_bind (within_write ⟨hh, rfl⟩) fun _ => within_write ⟨hd, rfl⟩

theorem within_frequency : Within (f.Covers u) (u.clock.frequency : Bus σ Nat) :=
  within_bind (within_readWord fun _ => rfl) fun _ => within_pure _

theorem within_divisor (baud : Nat) : Within (f.Covers u) (u.clock.divisor baud : Bus σ Nat) :=
  within_bind (within_frequency u) fun _ => within_pure _

/-! ### Configuring -/

theorem within_isConfigured (divisor : Nat) :
    Within (Operation.configure.footprint.Covers u) (u.isConfigured divisor : Bus σ Bool) := by
  refine within_bind (within_read fun _ => ⟨by decide, rfl⟩) fun _ => ?_
  refine within_bind ?_ fun _ => within_pure _
  exact within_readDivisor u (by decide) (by decide) (by decide) (by decide)

theorem within_program (divisor : Nat) :
    Within (Operation.configure.footprint.Covers u) (u.program divisor : Bus σ Unit) := by
  refine within_bind (within_await (within_transmitterEmpty u (by decide))) fun _ => ?_
  refine within_bind (within_loadDivisor u (by decide) (by decide) (by decide) divisor) fun _ => ?_
  refine within_bind (within_write ⟨by decide, rfl⟩) fun _ => ?_
  refine within_bind (within_write ⟨by decide, rfl⟩) fun _ => ?_
  refine within_bind (within_write ⟨by decide, rfl⟩) fun _ => ?_
  exact within_bind (within_write ⟨by decide, rfl⟩) fun _ => within_write ⟨by decide, rfl⟩

theorem within_configure :
    Within (Operation.configure.footprint.Covers u) (u.configure : Bus σ Unit) := by
  refine within_bind (within_divisor u u.config.baudRate) fun divisor => ?_
  refine within_bind (within_isConfigured u divisor) fun _ => within_ite (within_note _) ?_
  have announced (notice : Notice) : Within (Operation.configure.footprint.Covers u)
      (do note notice; u.program divisor : Bus σ Unit) :=
    within_bind (within_note notice) fun _ => within_program u divisor
  exact within_ite (within_bind (within_note _) fun _ => announced _) (announced _)

/-! ### Line attributes -/

theorem within_speedFor (baud : Nat) : Within (f.Covers u) (u.speedFor baud : Bus σ _) :=
  within_ite (within_pure _) (within_bind (within_divisor u baud) fun _ => within_pure _)

theorem within_currentSpeed (hl : .lineControl ∈ f.reads) (hh : .divisorHigh ∈ f.reads)
    (hd : .divisorLow ∈ f.reads) (hw : .lineControl ∈ f.writes) :
    Within (f.Covers u) (u.currentSpeed : Bus σ _) := by
  refine within_bind (within_readDivisor u hl hh hd hw) fun _ => ?_
  refine within_ite (within_speedFor u _) ?_
  exact within_bind (within_frequency u) fun _ => within_pure _

theorem within_plan (hl : .lineControl ∈ f.reads) (hh : .divisorHigh ∈ f.reads)
    (hd : .divisorLow ∈ f.reads) (hw : .lineControl ∈ f.writes) (request : Line.Request) :
    Within (f.Covers u) (u.plan request : Bus σ _) := by
  unfold plan
  cases request.baudRate with
  | some baud =>
    refine within_bind (within_speedFor u baud) fun speed => ?_
    cases speed with
    | error fault => exact within_pure _
    | ok speed => exact within_bind (within_read fun _ => ⟨hl, rfl⟩) fun _ => within_pure _
  | none =>
    refine within_bind (within_read fun _ => ⟨hl, rfl⟩) fun lcr => ?_
    cases request.resolve lcr with
    | error fault => exact within_pure _
    | ok line => exact within_bind (within_currentSpeed u hl hh hd hw) fun _ => within_pure _

theorem within_setAttributes (request : Line.Request) :
    Within ((Operation.setAttributes request).footprint.Covers u)
      (u.setAttributes request : Bus σ _) := by
  have hr : ∀ r ∈ [Register.lineControl, .divisorHigh, .divisorLow],
      r ∈ (Operation.setAttributes request).footprint.reads := fun _ hr => hr
  have hw : ∀ r ∈ [Register.lineControl, .divisorHigh, .divisorLow],
      r ∈ (Operation.setAttributes request).footprint.writes := fun _ hr => hr
  refine within_bind (within_plan u (hr _ (by decide)) (hr _ (by decide)) (hr _ (by decide))
    (hw _ (by decide)) request) fun plan => ?_
  cases plan with
  | error fault => exact within_pure _
  | ok plan =>
    refine within_ite (within_pure _) (within_bind ?_ fun _ => within_pure _)
    refine within_bind (within_loadDivisor u (hw _ (by decide)) (hw _ (by decide)) (hw _ (by decide)) _)
      fun _ => ?_
    exact within_bind (within_write ⟨hw _ (by decide), rfl⟩) fun _ => within_note _

theorem within_perform (op : Operation) :
    Within (op.footprint.Covers u) (u.perform op : Bus σ op.Answer) := by
  cases op with
  | configure => exact within_map (within_configure u)
  | write bytes => exact within_send u bytes
  | read count => exact within_receive u count
  | poll => exact within_poll u
  | setControl signals => exact within_setControl u signals
  | getControl => exact within_map (within_getControl u)
  | setAttributes request => exact within_setAttributes u request

end MiniUart

end ConsoleUart
