import ConsoleUart.Proofs.Grammar
import ConsoleUart.Proofs.ModemControl

/-!
# Reception paced by RTS

What a paced reception puts on the bus, as a grammar, and what follows from the grammar: RTS is down whenever
a byte is taken, it goes up only right after a line status without a byte, no other modem line moves, and the
bytes returned are those taken, in their order.
-/

namespace ConsoleUart
open scoped Computability

namespace Access

def taken? : Access → Option Byte
  | read .receiveBuffer _ value => some value
  | _ => none

end Access

def takenBytes (trace : List Access) : List Byte := trace.filterMap Access.taken?

theorem takenBytes_concat (past : List Access) (a : Access) :
    takenBytes (past ++ [a]) = takenBytes past ++ a.taken?.toList := by
  rw [takenBytes, List.filterMap_append]
  cases h : a.taken? with
  | none => rw [List.filterMap_cons_none h, List.filterMap_nil, Option.toList_none, takenBytes]
  | some value => rw [List.filterMap_cons_some h, List.filterMap_nil, Option.toList_some, takenBytes]

namespace Bits

theorem clear_assign_rts (mcr : Byte) (on : Bool) :
    clear (assign mcr ModemControl.rts on) ModemControl.rts = clear mcr ModemControl.rts := by
  revert mcr on
  decide

theorem has_rts_clear (mcr : Byte) : has (clear mcr ModemControl.rts) ModemControl.rts = false := by
  revert mcr
  decide

end Bits

namespace MiniUart

/-! ### The grammar -/

section
variable (u : MiniUart)

def statusRead (ready : Bool) : Language Access := {word | ∃ lsr,
  Bits.has lsr LineStatus.receiveReady = ready ∧ word ∈ u.registers.reads .lineStatus lsr}

def paceWrite (mcr : Byte) (rts : Bool) : Language Access :=
  u.registers.writes .modemControl (Bits.assign mcr ModemControl.rts rts)

/-- One byte: invitations for as long as there is none, then RTS goes down before the byte is taken. -/
def reception (mcr byte : Byte) : Language Access :=
  (u.statusRead false * u.paceWrite mcr true)∗ *
    (u.statusRead true * (u.paceWrite mcr false * u.registers.reads .receiveBuffer byte))

/-- A whole read: the modem control is read once, and the bytes follow one by one. -/
def receptions (mcr : Byte) (bytes : List Byte) : Language Access :=
  u.registers.reads .modemControl mcr * (bytes.map (u.reception mcr)).prod

end

/-! ### Reading keeps to the grammar -/

section
open Bus

variable {σ : Type} [AddressSpace σ] (u : MiniUart) (mcr : Byte)

theorem speaks_receiverReady (s : σ) : Speaks u.statusRead u.receiverReady s :=
  speaks_bind_pure (speaks_read _ _ s) fun lsr _ member => ⟨lsr, rfl, member⟩

theorem speaks_pace (rts : Bool) (s : σ) : Speaks (fun _ => u.paceWrite mcr rts) (u.pace (some mcr) rts) s :=
  speaks_write _ _ _ s

theorem speaks_lookForByte (s : σ) :
    Speaks (fun ready => u.statusRead ready * if ready then 1 else u.paceWrite mcr true)
      (u.lookForByte (some mcr)) s := by
  refine speaks_bind (w := fun found ready =>
    {word | ready = found ∧ word ∈ if found then 1 else u.paceWrite mcr true}) (speaks_receiverReady u s) ?_ ?_
  · intro found t
    cases found with
    | true => exact speaks_pure t ⟨rfl, Language.nil_mem_one⟩
    | false => exact speaks_bind_pure (speaks_pace u mcr true t) fun _ _ member => ⟨rfl, member⟩
  · rintro found _ l hl r ⟨rfl, hr⟩
    exact Language.append_mem_mul hl hr

theorem speaks_receiveByte (s : σ) : Speaks (u.reception mcr) (u.receiveByte (some mcr)) s := by
  have ready : ∃ word, word ∈ u.statusRead true * (1 : Language Access) := by
    rw [mul_one]
    exact ⟨_, LineStatus.receiveReady, rfl, rfl⟩
  have lowered (t : σ) : Speaks (fun byte => u.paceWrite mcr false * u.registers.reads .receiveBuffer byte)
      (do u.pace (some mcr) false; u.registers.read .receiveBuffer) t :=
    speaks_bind (speaks_pace u mcr false t) (fun _ t => speaks_read _ _ t)
      fun _ _ _ hl _ hr => Language.append_mem_mul hl hr
  have found := speaks_await (speaks_lookForByte u mcr) ready s
  rw [if_pos rfl, mul_one, if_neg Bool.false_ne_true] at found
  refine speaks_bind found (fun _ t => lowered t) fun _ byte l hl r hr => ?_
  rw [reception, ← mul_assoc]
  exact Language.append_mem_mul hl hr

theorem speaks_receiveBytes (n : Nat) (s : σ) :
    Speaks (fun bytes => {word | bytes.length = n ∧ word ∈ (bytes.map (u.reception mcr)).prod})
      (u.receiveBytes (some mcr) n) s := by
  induction n generalizing s with
  | zero => exact speaks_pure s ⟨rfl, Language.nil_mem_one⟩
  | succ n ih =>
    refine speaks_bind (w := fun byte bytes => {word | ∃ others, bytes = byte :: others ∧
      others.length = n ∧ word ∈ (others.map (u.reception mcr)).prod}) (speaks_receiveByte u mcr s) ?_ ?_
    · intro byte t
      exact speaks_bind_pure (ih t) fun others _ member => ⟨others, rfl, member⟩
    · rintro byte _ l hl r ⟨others, rfl, length, hr⟩
      rw [List.map_cons, List.prod_cons]
      exact ⟨congrArg Nat.succ length, Language.append_mem_mul hl hr⟩

/-- A paced read keeps to the grammar, with the modem control that it found. -/
theorem speaks_read_paced (enabled : u.config.flow.enabled = true) {count : Nat} (positive : 0 < count) (s : σ) :
    Speaks (fun bytes => {word | bytes.length = count ∧
        word ∈ u.receptions (AddressSpace.load s (u.registers.address .modemControl)).1 bytes})
      (u.read count) s := by
  unfold read pacingBase
  rw [if_neg (by omega), if_pos enabled, bind_assoc]
  simp only [pure_bind]
  refine speaks_bind (speaks_read_value _ _ s) (fun mcr t => speaks_receiveBytes u mcr count t) ?_
  rintro mcr bytes l ⟨rfl, hl⟩ r ⟨length, hr⟩
  exact ⟨length, Language.append_mem_mul hl hr⟩

end

/-! ### What the grammar gives -/

/-- The last access read a line status that did or did not announce a byte. -/
def Told (ready : Bool) (past : List Access) : Prop := ∃ earlier address lsr,
  past = earlier ++ [.read .lineStatus address lsr] ∧ Bits.has lsr LineStatus.receiveReady = ready

/-- The modem control is that of the start with RTS down. -/
def Lowered (s : Soc) (past : List Access) : Prop :=
  (replay s past).modemControl = Bits.clear s.modemControl ModemControl.rts

/-- How an access of a paced read follows on those before it. -/
structure Bracketed (s : Soc) (past : List Access) (a : Access) : Prop where
  lowered : a.register? = some .receiveBuffer → Lowered s past
  invited : Bits.has (replay s past).modemControl ModemControl.rts = false →
    Bits.has (replay s (past ++ [a])).modemControl ModemControl.rts = true → Told false past
  others : Bits.clear (replay s (past ++ [a])).modemControl ModemControl.rts =
    Bits.clear s.modemControl ModemControl.rts

/-- Where a paced read stands after some accesses: it has taken these bytes and moved no line but RTS. -/
structure Stands (u : MiniUart) (s : Soc) (bytes : List Byte) (past : List Access) : Prop where
  mapped : (replay s past).Mapped u.registers
  others : Bits.clear (replay s past).modemControl ModemControl.rts =
    Bits.clear s.modemControl ModemControl.rts
  taken : takenBytes past = bytes

section
variable {u : MiniUart} {s : Soc} {bytes : List Byte} {past : List Access}

theorem Stands.concat (h : u.Stands s bytes past) {a : Access} (placed : a.InPlace u.registers)
    (others : Bits.clear (replay s (past ++ [a])).modemControl ModemControl.rts =
      Bits.clear s.modemControl ModemControl.rts) :
    u.Stands s (bytes ++ a.taken?.toList) (past ++ [a]) := by
  constructor
  · rw [replay_concat]
    exact h.mapped.apply placed
  · exact others
  · rw [takenBytes_concat, h.taken]

theorem Stands.modemControl_read (h : u.Stands s bytes past) (r : Register) (value : Byte) :
    (replay s (past ++ [.read r (u.registers.address r) value])).modemControl =
      (replay s past).modemControl := by
  rw [replay_concat]
  exact h.mapped.apply_modemControl rfl nofun

theorem Stands.modemControl_pace (h : u.Stands s bytes past) (value : Byte) :
    (replay s (past ++ [.write .modemControl (u.registers.address .modemControl) value])).modemControl =
      value := by
  rw [replay_concat, h.mapped.apply_write]
  rfl

theorem Stands.read (h : u.Stands s bytes past) {r : Register} (value : Byte)
    (lowered : r = .receiveBuffer → Lowered s past) :
    Bracketed s past (.read r (u.registers.address r) value) ∧
      u.Stands s (bytes ++ (Access.read r (u.registers.address r) value).taken?.toList)
        (past ++ [.read r (u.registers.address r) value]) := by
  -- A read leaves the modem control as it is, so RTS cannot go up with it.
  have same := h.modemControl_read r value
  have others := (congrArg (Bits.clear · ModemControl.rts) same).trans h.others
  refine ⟨⟨fun register => lowered (Option.some.inj register), fun down up => ?_, others⟩, h.concat rfl others⟩
  rw [same, down] at up
  exact absurd up Bool.false_ne_true

theorem Stands.pace (h : u.Stands s bytes past) (on : Bool) (told : on = true → Told false past) :
    let write : Access := .write .modemControl (u.registers.address .modemControl)
      (Bits.assign s.modemControl ModemControl.rts on)
    Bracketed s past write ∧ u.Stands s bytes (past ++ [write]) ∧ (on = false → Lowered s (past ++ [write])) := by
  intro write
  have set := h.modemControl_pace (Bits.assign s.modemControl ModemControl.rts on)
  have others : Bits.clear (replay s (past ++ [write])).modemControl ModemControl.rts =
      Bits.clear s.modemControl ModemControl.rts := by
    rw [set, Bits.clear_assign_rts]
  have stands := h.concat (a := write) rfl others
  rw [show write.taken?.toList = [] from rfl, List.append_nil] at stands
  refine ⟨⟨nofun, fun _ up => ?_, others⟩, stands, ?_⟩
  · rw [set] at up
    cases on with
    | true => exact told rfl
    | false => exact absurd ((Bits.has_rts_clear _).symm.trans up) Bool.false_ne_true
  · rintro rfl
    exact set

variable (u s bytes)

theorem leads_statusRead (ready : Bool) : (Monitor.recording (Bracketed s)).Leads (u.Stands s bytes)
    (u.statusRead ready) (fun past => u.Stands s bytes past ∧ Told ready past) := by
  rintro past h word ⟨lsr, shown, member⟩
  have lead : (Monitor.recording (Bracketed s)).Leads (u.Stands s bytes) (u.registers.reads .lineStatus lsr)
      (fun past => u.Stands s bytes past ∧ Told ready past) := by
    refine Monitor.leads_reads fun past h => ?_
    obtain ⟨bracketed, stands⟩ := h.read (r := .lineStatus) lsr nofun
    rw [show (Access.read .lineStatus (u.registers.address .lineStatus) lsr).taken?.toList = [] from rfl,
      List.append_nil] at stands
    exact ⟨bracketed, stands, past, _, lsr, rfl, shown⟩
  exact lead past h word member

theorem leads_reception (byte : Byte) : (Monitor.recording (Bracketed s)).Leads (u.Stands s bytes)
    (u.reception s.modemControl byte)
    (fun past => u.Stands s (bytes ++ [byte]) past ∧ Lowered s past) := by
  have raised : (Monitor.recording (Bracketed s)).Leads (fun past => u.Stands s bytes past ∧ Told false past)
      (u.paceWrite s.modemControl true) (u.Stands s bytes) := by
    refine Monitor.leads_writes fun past h => ?_
    obtain ⟨bracketed, stands, -⟩ := h.1.pace true fun _ => h.2
    exact ⟨bracketed, stands⟩
  have lowered : (Monitor.recording (Bracketed s)).Leads (fun past => u.Stands s bytes past ∧ Told true past)
      (u.paceWrite s.modemControl false) (fun past => u.Stands s bytes past ∧ Lowered s past) := by
    refine Monitor.leads_writes fun past h => ?_
    obtain ⟨bracketed, stands, down⟩ := h.1.pace false nofun
    exact ⟨bracketed, stands, down rfl⟩
  have taken : (Monitor.recording (Bracketed s)).Leads (fun past => u.Stands s bytes past ∧ Lowered s past)
      (u.registers.reads .receiveBuffer byte)
      (fun past => u.Stands s (bytes ++ [byte]) past ∧ Lowered s past) := by
    refine Monitor.leads_reads fun past h => ?_
    obtain ⟨bracketed, stands⟩ := h.1.read (r := .receiveBuffer) byte fun _ => h.2
    exact ⟨bracketed, stands, (h.1.modemControl_read _ _).trans h.2⟩
  -- An invitation leads back to where it started from, so it may be repeated.
  have waiting := Monitor.leads_kstar (Monitor.leads_mul (leads_statusRead u s bytes false) raised)
  exact Monitor.leads_mul waiting
    (Monitor.leads_mul (leads_statusRead u s bytes true) (Monitor.leads_mul lowered taken))

theorem leads_bytes (rest : List Byte) : (Monitor.recording (Bracketed s)).Leads
    (fun past => u.Stands s bytes past ∧ (bytes ≠ [] → Lowered s past))
    (rest.map (u.reception s.modemControl)).prod
    (fun past => u.Stands s (bytes ++ rest) past ∧ (bytes ++ rest ≠ [] → Lowered s past)) := by
  induction rest generalizing bytes with
  | nil =>
    rw [List.append_nil, List.map_nil, List.prod_nil]
    exact Monitor.leads_one _ _
  | cons byte rest ih =>
    have later := ih (bytes ++ [byte])
    rw [List.append_assoc, List.singleton_append] at later
    rw [List.map_cons, List.prod_cons]
    refine Monitor.leads_mul (q := fun past => u.Stands s (bytes ++ [byte]) past ∧
      (bytes ++ [byte] ≠ [] → Lowered s past)) (fun past h word member => ?_) later
    obtain ⟨accepted, stands, down⟩ := leads_reception u s bytes byte past h.1 word member
    exact ⟨accepted, stands, fun _ => down⟩

theorem leads_receptions (rest : List Byte) : (Monitor.recording (Bracketed s)).Leads (u.Stands s [])
    (u.receptions s.modemControl rest)
    (fun past => u.Stands s rest past ∧ (rest ≠ [] → Lowered s past)) := by
  refine Monitor.leads_mul (Monitor.leads_reads fun past h => ?_) (leads_bytes u s [] rest)
  obtain ⟨bracketed, stands⟩ := h.read (r := .modemControl) s.modemControl nofun
  exact ⟨bracketed, stands, fun none => absurd rfl none⟩

end

/-- Whatever the line status answers and wherever the budget ends, a paced read of some bytes reads the modem
control and then keeps to the grammar, byte by byte. So RTS is down when a byte is taken and goes up only
right after a line status without a byte, no other modem line moves, and a read that ends returns the bytes
that it has taken and leaves RTS down. -/
theorem reception_bracketed (u : MiniUart) (s : Soc) (mapped : s.Mapped u.registers)
    (enabled : u.config.flow.enabled = true) (count : Nat) (positive : 0 < count) (n : Nat) :
    let run := (u.read count).run s n
    (∃ bytes, bytes.length = count ∧ ∃ word ∈ u.receptions s.modemControl bytes, run.trace <+: word) ∧
    (∀ bytes, run.outcome = some bytes →
      bytes.length = count ∧ run.trace ∈ u.receptions s.modemControl bytes ∧
      takenBytes run.trace = bytes ∧
      run.state.modemControl = Bits.clear s.modemControl ModemControl.rts) ∧
    run.state = replay s run.trace ∧
    ∀ before a after, run.trace = before ++ a :: after → Bracketed s before a := by
  intro run
  have load : (AddressSpace.load s (u.registers.address .modemControl)).1 = s.modemControl := by
    rw [mapped.load_address]
    rfl
  have speaks := speaks_read_paced u enabled positive s
  rw [load] at speaks
  have start : u.Stands s [] [] := ⟨mapped, rfl, rfl⟩
  obtain ⟨bytes, word, ⟨length, member⟩, part⟩ := speaks.part n
  have accounts : run.state = replay s run.trace := (within_receive u count).state_eq_replay s n
  refine ⟨⟨bytes, length, word, member, part⟩, fun bytes ended => ?_, accounts, fun before a after split => ?_⟩
  · obtain ⟨length, member⟩ := speaks.word ended
    obtain ⟨-, stands, down⟩ := leads_receptions u s bytes [] start _ member
    rw [Monitor.after_recording, List.nil_append] at stands down
    refine ⟨length, member, stands.taken, ?_⟩
    rw [accounts]
    refine down ?_
    rintro rfl
    exact absurd length (by simpa using positive.ne)
  · obtain ⟨later, rfl⟩ := part
    obtain ⟨accepted, -⟩ := leads_receptions u s bytes [] start _ member
    rw [Monitor.accepts_append] at accepted
    have allowed := accepted.1.allows split
    rw [Monitor.after_recording, List.nil_append] at allowed
    exact allowed

/-- The peer holds its bytes back until RTS invites them, each of them once more. -/
theorem reception_bracketed_held_back :
    let u : MiniUart :=
      .ofLayout .rpi4 { Config.rpi4 with flow := { enabled := true, detectCable := false } }
    let s : Soc := { Soc.initial .rpi4 4 with
      modemControl := 0x1B, holdsBack := true, received := [7, 8, 9], lineStatusScript := [0x60, 0x00] }
    let whole := (u.read 2).run s 13
    let cut := (u.read 2).run s 10
    s.Mapped u.registers ∧ u.config.flow.enabled = true ∧ 0 < 2 ∧
    (whole.outcome = some [7, 8] ∧ whole.trace ∈ u.receptions 0x1B [7, 8] ∧
      takenBytes whole.trace = [7, 8] ∧ whole.state.modemControl = 0x19) ∧
    cut.outcome = none ∧ (∃ bytes, bytes.length = 2 ∧ ∃ word ∈ u.receptions 0x1B bytes, cut.trace <+: word) ∧
    ∀ before a after, cut.trace = before ++ a :: after → Bracketed s before a := by
  intro u s whole cut
  have mapped : s.Mapped u.registers := ⟨rfl, rfl, by decide, by decide⟩
  have early := reception_bracketed u s mapped rfl 2 (by decide) 10
  have late := reception_bracketed u s mapped rfl 2 (by decide) 13
  have ended : whole.outcome = some [7, 8] := by decide +kernel
  have waiting : cut.outcome = none := by decide +kernel
  obtain ⟨-, word, taken, down⟩ := late.2.1 [7, 8] ended
  exact ⟨mapped, rfl, by decide, ⟨ended, word, taken, down.trans (by decide)⟩, waiting, early.1, early.2.2.2⟩

end MiniUart

end ConsoleUart
