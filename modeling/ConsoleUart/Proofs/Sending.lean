import ConsoleUart.MiniUart.Transfer
import ConsoleUart.Proofs.Monitor

/-!
# Sending bytes

What a write puts on the bus, after any past. A read of the line status that shows the transmitter idle
gives credit for as many bytes as the FIFO is deep; each byte sent takes one off, and the gate is asked
right before it. The bytes come out in their order, all of them if the write ends and a first part of
them if it is cut short.
-/

namespace ConsoleUart

namespace Access

/-- The byte that the access hands to the transmitter. -/
def transmitted? : Access → Option Byte
  | write .transmitBuffer _ value => some value
  | _ => none

/-- A read of the line status with both transmitter bits set. -/
def showsIdle : Access → Bool
  | read .lineStatus _ value => Bits.has value LineStatus.transmitterEmpty
  | _ => false

end Access

def transmitted (trace : List Access) : List Byte := trace.filterMap Access.transmitted?

theorem transmitted_append (l r : List Access) : transmitted (l ++ r) = transmitted l ++ transmitted r :=
  List.filterMap_append ..

theorem transmitted_concat_none {a : Access} (past : List Access) (h : a.transmitted? = none) :
    transmitted (past ++ [a]) = transmitted past := by
  rw [transmitted_append, transmitted, transmitted, List.filterMap_cons_none h, List.filterMap_nil,
    List.append_nil]

theorem transmitted_concat_some {a : Access} {value : Byte} (past : List Access)
    (h : a.transmitted? = some value) : transmitted (past ++ [a]) = transmitted past ++ [value] := by
  rw [transmitted_append]
  congr 1
  rw [transmitted, List.filterMap_cons_some h, List.filterMap_nil]

theorem transmitted_eq_nil {trace : List Access} (h : ∀ a ∈ trace, a.transmitted? = none) :
    transmitted trace = [] :=
  List.filterMap_eq_nil_iff.mpr h

/-! ### Credit and gate -/

/-- No more than `depth - room` bytes were sent since the last read that showed the transmitter idle. -/
def Credit (depth room : Nat) (past : List Access) : Prop :=
  ∃ before idle since, past = before ++ idle :: since ∧ idle.showsIdle = true ∧
    (∀ a ∈ since, a.showsIdle = false) ∧ (transmitted since).length + room ≤ depth

/-- With flow control on, the last access read a modem status that lets a byte pass. -/
def Gated (flow : FlowControl) (past : List Access) : Prop :=
  flow.enabled = true → ∃ before address msr,
    past = before ++ [.read .modemStatus address msr] ∧ flow.writable msr = true

theorem credit_of_idle {a : Access} (depth : Nat) (past : List Access) (h : a.showsIdle = true) :
    Credit depth depth (past ++ [a]) := by
  refine ⟨past, a, [], rfl, h, List.forall_mem_nil _, ?_⟩
  show 0 + depth ≤ depth
  omega

theorem Credit.concat {depth room : Nat} {past : List Access} (h : Credit depth room past) {a : Access}
    (busy : a.showsIdle = false) {left : Nat} (paid : (transmitted [a]).length + left ≤ room) :
    Credit depth left (past ++ [a]) := by
  obtain ⟨before, idle, since, hp, hi, hs, hl⟩ := h
  have hsince : ∀ b ∈ since ++ [a], b.showsIdle = false := by
    intro b hb
    rcases List.mem_append.mp hb with hb | hb
    · exact hs b hb
    · rw [List.mem_singleton.mp hb]
      exact busy
  have hlen : (transmitted (since ++ [a])).length + left ≤ depth := by
    rw [transmitted_append, List.length_append]
    omega
  refine ⟨before, idle, since ++ [a], ?_, hi, hsince, hlen⟩
  rw [hp, List.append_assoc, List.cons_append]

/-- Judges each byte sent by all the accesses before it. -/
def Bus.pacing (depth : Nat) (flow : FlowControl) : Monitor (List Access) where
  next past a := past ++ [a]
  allows past a := a.transmitted? ≠ none → Credit depth 1 past ∧ Gated flow past

namespace Bus

variable {depth : Nat} {flow : FlowControl}

theorem after_pacing (past trace : List Access) : (pacing depth flow).after past trace = past ++ trace :=
  Monitor.after_recording _ past trace

theorem accepts_pacing_of_quiet {trace : List Access} (h : ∀ a ∈ trace, a.transmitted? = none)
    (past : List Access) : (pacing depth flow).Accepts past trace := by
  induction trace generalizing past with
  | nil => trivial
  | cons a rest ih =>
    have first : a.transmitted? = none := h a (List.mem_cons_self ..)
    exact ⟨fun hs => absurd first hs, ih (fun b hb => h b (List.mem_cons_of_mem _ hb)) (past ++ [a])⟩

end Bus

namespace MiniUart
open Bus

variable {σ : Type} [AddressSpace σ] (u : MiniUart) {depth : Nat} {s : σ} {past : List Access}

/-! ### Waiting -/

theorem ensures_transmitterIdle (s : σ) (past : List Access) :
    Ensures (pacing depth u.config.flow) (Session.await u.transmitterEmpty)
      (fun _ _ now => transmitted now = transmitted past ∧ Credit depth depth now)
      (fun _ now => transmitted now = transmitted past) s past := by
  refine ensures_await (fun _ now => transmitted now = transmitted past) (fun _ _ h => h) ?_ rfl
  intro s now h
  refine ensures_bind (ensures_read h (fun hs => absurd rfl hs) (ensures_pure ?_))
  have same (address : Nat) (value : Byte) :
      transmitted (now ++ [.read .lineStatus address value]) = transmitted past := by
    rw [transmitted_concat_none now rfl, h]
  split
  · next hidle => exact ⟨same _ _, credit_of_idle depth now hidle⟩
  · exact same _ _

theorem ensures_gate {room : Nat} (s : σ) (credit : Credit depth room past) :
    Ensures (pacing depth u.config.flow) (Session.await u.flowWritable)
      (fun _ _ now => transmitted now = transmitted past ∧ Credit depth room now ∧ Gated u.config.flow now)
      (fun _ now => transmitted now = transmitted past) s past := by
  refine ensures_await (fun _ now => transmitted now = transmitted past ∧ Credit depth room now)
    (fun _ _ h => h.1) ?_ ⟨rfl, credit⟩
  intro s now h
  obtain ⟨hsame, hcredit⟩ := h
  refine ensures_ite (fun disabled => ensures_pure ?_) fun _ => ?_
  · have enabled : u.config.flow.enabled = false := by
      simpa only [FlowControl.isDisabled, Bool.not_eq_true'] using disabled
    exact ⟨hsame, hcredit, fun h => absurd (enabled.symm.trans h) Bool.false_ne_true⟩
  · refine ensures_bind (ensures_read hsame (fun hs => absurd rfl hs) (ensures_pure ?_))
    have same (address : Nat) (msr : Byte) :
        transmitted (now ++ [.read .modemStatus address msr]) = transmitted past := by
      rw [transmitted_concat_none now rfl, hsame]
    have kept (address : Nat) (msr : Byte) : Credit depth room (now ++ [.read .modemStatus address msr]) :=
      hcredit.concat rfl (Nat.le_of_eq (Nat.zero_add room))
    split
    · next pass => exact ⟨same _ _, kept _ _, fun _ => ⟨now, _, _, rfl, pass⟩⟩
    · exact ⟨same _ _, kept _ _⟩

/-! ### Bursts -/

theorem ensures_sendByte {room : Nat} (s : σ) (credit : Credit depth (room + 1) past) (byte : Byte) :
    Ensures (pacing depth u.config.flow) (u.sendByte byte)
      (fun _ _ now => transmitted now = transmitted past ++ [byte] ∧ Credit depth room now)
      (fun _ now => transmitted now = transmitted past) s past := by
  refine ensures_bind (ensures_mono (ensures_gate u s credit) ?_ fun _ _ h => h)
  intro _ s now h
  obtain ⟨hsame, hcredit, hgate⟩ := h
  have allowed : Credit depth 1 now := by
    obtain ⟨before, idle, since, hp, hi, hs, hl⟩ := hcredit
    exact ⟨before, idle, since, hp, hi, hs, by omega⟩
  refine ensures_write hsame (fun _ => ⟨allowed, hgate⟩) ⟨?_, ?_⟩
  · show transmitted (now ++ [_]) = _
    rw [transmitted_concat_some now rfl, hsame]
  · refine hcredit.concat rfl ?_
    show 1 + room ≤ room + 1
    omega

/-- After the past, the bytes have been sent and nothing else. -/
def Sent (past : List Access) (bytes : List Byte) (now : List Access) : Prop :=
  transmitted now = transmitted past ++ bytes

/-- After the past, a first part of the bytes has been sent and nothing else. -/
def SentPart (past : List Access) (bytes : List Byte) (now : List Access) : Prop :=
  ∃ part, part <+: bytes ∧ Sent past part now

theorem sentPart_nil {now : List Access} (bytes : List Byte) (h : transmitted now = transmitted past) :
    SentPart past bytes now :=
  ⟨[], List.nil_prefix, h.trans (List.append_nil _).symm⟩

theorem Sent.cons {mid now : List Access} {byte : Byte} {rest : List Byte}
    (first : transmitted mid = transmitted past ++ [byte]) (h : Sent mid rest now) :
    Sent past (byte :: rest) now := by
  rw [Sent, h, first, List.append_assoc, List.singleton_append]

theorem ensures_sendBursts (positive : 0 < depth) (bytes : List Byte) (room : Nat) (s : σ)
    (past : List Access) (credit : 0 < room → Credit depth room past) :
    Ensures (pacing depth u.config.flow) (u.sendBursts depth room bytes)
      (fun _ _ now => Sent past bytes now) (fun _ now => SentPart past bytes now) s past := by
  induction bytes generalizing room s past with
  | nil =>
    have nothing : Sent past [] past := (List.append_nil _).symm
    cases room <;> exact ensures_pure nothing
  | cons byte rest ih =>
    -- One byte with credit for it, then the rest: common to a burst that goes on and one that begins.
    have burst (room : Nat) (s : σ) (now : List Access) (same : transmitted now = transmitted past)
        (credit : Credit depth (room + 1) now) :
        Ensures (pacing depth u.config.flow) (do u.sendByte byte; u.sendBursts depth room rest)
          (fun _ _ now => Sent past (byte :: rest) now)
          (fun _ now => SentPart past (byte :: rest) now) s now := by
      refine ensures_bind (ensures_mono (ensures_sendByte u s credit byte) ?_ ?_)
      · intro _ s mid h
        have first : transmitted mid = transmitted past ++ [byte] := by rw [h.1, same]
        refine ensures_mono (ih room s mid fun _ => h.2) ?_ ?_
        · intro _ _ now hd
          exact hd.cons first
        · intro _ now hc
          obtain ⟨part, hp, hpart⟩ := hc
          exact ⟨byte :: part, (List.prefix_cons_inj byte).mpr hp, hpart.cons first⟩
      · intro _ mid h
        exact sentPart_nil _ (h.trans same)
    cases room with
    | zero =>
      refine ensures_bind (ensures_mono (ensures_transmitterIdle u s past) ?_ ?_)
      · intro _ s now h
        -- The idle read gives credit for the whole depth, and the byte in hand takes one off.
        obtain ⟨d, rfl⟩ : ∃ d, depth = d + 1 := ⟨depth - 1, by omega⟩
        exact burst d s now h.1 h.2
      · intro _ now h
        exact sentPart_nil _ h
    | succ room => exact burst room s past rfl (credit (Nat.succ_pos room))

/-- A write sends its bytes in turn, each with credit and past the gate, and returns their number. -/
theorem ensures_send (bytes : List Byte) (s : σ) (past : List Access) :
    Ensures (pacing (max 1 u.config.fifoDepth) u.config.flow) (u.write bytes)
      (fun count _ now => count = bytes.length ∧ Sent past bytes now)
      (fun _ now => SentPart past bytes now) s past := by
  have positive : 0 < max 1 u.config.fifoDepth := by omega
  cases bytes with
  | nil =>
    refine ensures_bind (ensures_bind (ensures_mono (ensures_transmitterIdle u s past) ?_ ?_))
    · intro _ s mid h
      refine ensures_mono (ensures_gate u s h.2) ?_ ?_
      · intro _ _ now hg
        have nothing : Sent past [] now := by rw [Sent, List.append_nil, hg.1, h.1]
        exact ensures_pure ⟨rfl, nothing⟩
      · intro _ now hg
        exact sentPart_nil _ (hg.trans h.1)
    · intro _ now h
      exact sentPart_nil _ h
  | cons byte rest =>
    have bursts := ensures_sendBursts u positive (byte :: rest) 0 s past nofun
    exact ensures_bind (ensures_mono bursts (fun _ _ _ h => ensures_pure ⟨rfl, h⟩) fun _ _ h => h)

end MiniUart

end ConsoleUart
