import Mathlib.Algebra.Order.Floor.Div
import ConsoleUart.Proofs.Waiting

/-!
# What sending costs

A write waits at two places: once before each burst for an idle transmitter, and before each byte for the peer's
consent. On a chip that would let it through, a wait goes on only while a script answers in the chip's place, and
each answer that holds it up is used up by that. So the scripts are a potential: a look that fails is paid for by
the answer it has consumed, and what a write costs beyond that is one access for each burst, each byte and each
byte's look at the gate. On a chip that would never let it through, the wait for what is missing lasts for ever.
-/

namespace ConsoleUart

variable {σ α β : Type}

namespace Bits

theorem has_assign_transmitterEmpty (status : Byte) (on : Bool) :
    has (assign status LineStatus.receiveReady on) LineStatus.transmitterEmpty =
      has status LineStatus.transmitterEmpty := by
  revert status on
  decide

end Bits

namespace Soc

variable {s : Soc} {status : Byte} {rest : List Byte}

theorem readLineStatus_of_nil (h : s.lineStatusScript = []) : s.readLineStatus = (s.lineStatus, s) := by
  simp only [readLineStatus, h]

theorem readLineStatus_of_cons (h : s.lineStatusScript = status :: rest) :
    s.readLineStatus = (status, { s with lineStatusScript := rest }) := by
  simp only [readLineStatus, h]

theorem readModemStatus_of_nil (h : s.modemStatusScript = []) : s.readModemStatus = (s.modemStatus, s) := by
  simp only [readModemStatus, h]

theorem readModemStatus_of_cons (h : s.modemStatusScript = status :: rest) :
    s.readModemStatus = (status, { s with modemStatusScript := rest }) := by
  simp only [readModemStatus, h]

end Soc

namespace Bus

variable {check : Bus σ Bool} {s t : σ} {trace : List Access} {a : Access}

theorem Pays.length_pos (paid : Pays check) (h : Does check s trace false t) : 0 < trace.length := by
  obtain ⟨failed, -, -, left⟩ := h.ends 0
  have spent := paid s _ failed
  omega

/-- A wait whose check fails and changes nothing uses up any budget. -/
theorem Pays.stalls_replicate (paid : Pays check) (starved : Stalls check s [] s)
    (fails : Does check s [a] false s) (k : Nat) : Stalls (Session.await check) s (List.replicate k a) s := by
  induction k with
  | zero => exact paid.stalls_await starved
  | succ k ih => exact paid.stalls_again fails ih

end Bus

namespace MiniUart
open Bus

variable (u : MiniUart)

/-- What a byte costs at the flow-control gate. -/
def gateCost : Nat := if u.config.flow.enabled then 1 else 0

/-- The accesses of a write that no script holds up: one for each byte and what the gate costs, and one more for
each burst. A write of no bytes looks at both conditions once. -/
def writeCost (n : Nat) : Nat :=
  if n = 0 then 1 + u.gateCost else (1 + u.gateCost) * n + n ⌈/⌉ max 1 u.config.fifoDepth

/-- The scripted answers that a write may meet. -/
def scripted (s : Soc) : Nat := s.lineStatusScript.length + u.gateCost * s.modemStatusScript.length

/-- When the scripts are over, the chip lets a write through. -/
structure Ready (s : Soc) : Prop where
  mapped : s.Mapped u.registers
  closed : s.latchOpen = false
  idle : Bits.has s.transmitStatus LineStatus.transmitterEmpty = true
  passes : u.config.flow.enabled = true → u.config.flow.writable s.modemStatus = true

/-- The session sends these bytes and answers `a`, for `cost` accesses and at most one more for each scripted
answer that it uses up. -/
structure Sends (x : Bus Soc α) (s : Soc) (bytes : List Byte) (cost : Nat) (a : α) (t : Soc) : Prop where
  ready : u.Ready t
  sent : t.sent.toList = s.sent.toList ++ bytes
  does : ∃ trace, Does x s trace a t ∧ written trace = bytes.map (Prod.mk .transmitBuffer) ∧
    cost ≤ trace.length ∧ trace.length + u.scripted t ≤ cost + u.scripted s

variable {u} {x : Bus Soc α} {s t : Soc} {bytes : List Byte} {cost : Nat} {a : α}

theorem Ready.keep (h : u.Ready s) (lineStatusScript modemStatusScript : List Byte) (sent : Array Byte) :
    u.Ready { s with lineStatusScript, modemStatusScript, sent } :=
  ⟨h.mapped.keep rfl rfl, h.closed, h.idle, h.passes⟩

theorem sends_pure (ready : u.Ready s) (a : α) : u.Sends (pure a) s [] 0 a s :=
  ⟨ready, (List.append_nil _).symm, [], does_pure a s, rfl, Nat.le_refl 0, Nat.le_refl _⟩

theorem Sends.bind {f : α → Bus Soc β} {more : List Byte} {d : Nat} {b : β} {t' : Soc}
    (h : u.Sends x s bytes cost a t) (later : u.Sends (f a) t more d b t') :
    u.Sends (x >>= f) s (bytes ++ more) (cost + d) b t' := by
  obtain ⟨-, sent, l, first, wl, least, most⟩ := h
  obtain ⟨ready, sent', r, second, wr, least', most'⟩ := later
  refine ⟨ready, by rw [sent', sent, List.append_assoc], l ++ r, does_bind first second, ?_, ?_, ?_⟩
  · rw [written_append, wl, wr, List.map_append]
  · rw [List.length_append]
    omega
  · rw [List.length_append]
    omega

/-! ### Waits -/

/-- A look that fails costs nothing: the answer that it has used up pays for it. Scripts are finite, so the
wait ends, at the cost of the look that holds. -/
theorem sends_await {check : Bus Soc Bool} {cost : Nat} (paid : Pays check)
    (look : ∀ s, u.Ready s → ∃ ok t, u.Sends check s [] (if ok then cost else 0) ok t) (ready : u.Ready s) :
    ∃ t, u.Sends (Session.await check) s [] cost () t := by
  induction left : u.scripted s using Nat.strong_induction_on generalizing s with
  | _ left' ih =>
    obtain ⟨ok, t, looks⟩ := look s ready
    cases ok with
    | true =>
      obtain ⟨ready', sent, trace, does, rest⟩ := looks
      exact ⟨t, ready', sent, trace, paid.does_await does, rest⟩
    | false =>
      simp only [Bool.false_eq_true, if_false] at looks
      obtain ⟨trace, does, -, -, most⟩ := looks.does
      have taken := paid.length_pos does
      obtain ⟨t', waits⟩ := ih (u.scripted t) (by omega) looks.ready rfl
      have all := looks.bind (f := fun ok => if ok then pure () else Session.await check) waits
      rw [← paid.await_eq, Nat.zero_add] at all
      exact ⟨t', all⟩

theorem sends_look (ready : u.Ready s) (r : Register) (test : Byte → Bool) {value : Byte}
    (place : s.readPlace r.offset = (value, t)) (after : u.Ready t) (sent : t.sent = s.sent)
    (pays : 1 + u.scripted t ≤ (if test value then 1 else 0) + u.scripted s) :
    u.Sends (do return test (← u.registers.read r)) s [] (if test value then 1 else 0) (test value) t := by
  have read := does_read ready.mapped r
  rw [place] at read
  refine ⟨after, by rw [sent, List.append_nil], _, does_bind read (does_pure _ t), rfl, ?_, pays⟩
  split <;> simp

theorem sends_idle (ready : u.Ready s) : ∃ t, u.Sends (Session.await u.transmitterEmpty) s [] 1 () t := by
  refine sends_await (pays_shows u _) (fun s ready => ?_) ready
  cases script : s.lineStatusScript with
  | nil =>
    have idle : Bits.has s.lineStatus LineStatus.transmitterEmpty = true :=
      (Bits.has_assign_transmitterEmpty ..).trans ready.idle
    have place := Soc.readLineStatus_of_nil script
    exact ⟨_, s, sends_look ready .lineStatus _ place ready rfl (by simp [idle])⟩
  | cons lsr rest =>
    have place := Soc.readLineStatus_of_cons script
    have after := ready.keep rest s.modemStatusScript s.sent
    refine ⟨_, _, sends_look ready .lineStatus _ place after rfl ?_⟩
    simp only [scripted, script, List.length_cons]
    split <;> omega

theorem pays_flowWritable (u : MiniUart) : Pays (u.flowWritable : Bus Soc Bool) := by
  intro s n failed
  cases enabled : u.config.flow.enabled with
  | false =>
    rw [flowWritable_of_off enabled] at failed
    cases failed
  | true =>
    rw [flowWritable_of_on enabled] at failed ⊢
    exact pays_look _ _ _ s n failed

theorem sends_gate (ready : u.Ready s) : ∃ t, u.Sends (Session.await u.flowWritable) s [] u.gateCost () t := by
  refine sends_await (pays_flowWritable u) (fun s ready => ?_) ready
  cases enabled : u.config.flow.enabled with
  | false =>
    rw [flowWritable_of_off enabled]
    have free : u.gateCost = 0 := by simp [gateCost, enabled]
    rw [free]
    exact ⟨true, s, sends_pure ready true⟩
  | true =>
    have one : u.gateCost = 1 := by simp [gateCost, enabled]
    rw [flowWritable_of_on enabled, one]
    cases script : s.modemStatusScript with
    | nil =>
      have place := Soc.readModemStatus_of_nil script
      exact ⟨_, s, sends_look ready .modemStatus _ place ready rfl (by simp [ready.passes enabled])⟩
    | cons msr rest =>
      have place := Soc.readModemStatus_of_cons script
      have after := ready.keep s.lineStatusScript rest s.sent
      refine ⟨_, _, sends_look ready .modemStatus _ place after rfl ?_⟩
      simp only [scripted, script, one, List.length_cons]
      omega

/-! ### Bursts -/

theorem sends_transmit (ready : u.Ready s) (byte : Byte) :
    ∃ t, u.Sends (u.registers.write .transmitBuffer byte) s [byte] 1 () t := by
  have write := does_write ready.mapped .transmitBuffer byte
  have place : s.writePlace byte Register.transmitBuffer.offset = { s with sent := s.sent.push byte } := by
    simp [Soc.writePlace, Register.offset, ready.closed]
  rw [place] at write
  have after := ready.keep s.lineStatusScript s.modemStatusScript (s.sent.push byte)
  exact ⟨_, after, Array.toList_push, _, write, rfl, Nat.le_refl _, Nat.le_refl _⟩

theorem sends_sendByte (ready : u.Ready s) (byte : Byte) :
    ∃ t, u.Sends (u.sendByte byte) s [byte] (u.gateCost + 1) () t := by
  obtain ⟨t, gate⟩ := sends_gate ready
  obtain ⟨t', write⟩ := sends_transmit gate.ready byte
  exact ⟨t', gate.bind write⟩

/-- The first of some bytes opens a burst, with room for `depth - 1` more. -/
theorem bursts_succ {depth : Nat} (positive : 0 < depth) (n : Nat) :
    (n + 1) ⌈/⌉ depth = 1 + (n - (depth - 1)) ⌈/⌉ depth := by
  have full : n + 1 + depth - 1 = n + depth := by omega
  rw [Nat.ceilDiv_eq_add_pred_div, Nat.ceilDiv_eq_add_pred_div, full, Nat.add_div_right n positive,
    Nat.add_comm 1]
  by_cases more : depth - 1 ≤ n
  · rw [show n - (depth - 1) + depth - 1 = n by omega]
  · rw [Nat.div_eq_of_lt (show n < depth by omega), Nat.div_eq_of_lt (by omega)]

theorem sends_sendBursts {depth : Nat} (positive : 0 < depth) (bytes : List Byte) (room : Nat)
    (ready : u.Ready s) : ∃ t, u.Sends (u.sendBursts depth room bytes) s bytes
      ((u.gateCost + 1) * bytes.length + (bytes.length - room) ⌈/⌉ depth) () t := by
  -- Each byte takes a place of the room that is left, or opens a burst when there is none.
  induction bytes generalizing room s with
  | nil =>
    have none : (([] : List Byte).length - room) ⌈/⌉ depth = 0 := by simp
    rw [none]
    exact ⟨s, sends_pure ready ()⟩
  | cons byte rest ih =>
    rw [List.length_cons, Nat.mul_succ]
    cases room with
    | zero =>
      obtain ⟨t, idle⟩ := sends_idle ready
      obtain ⟨t', first⟩ := sends_sendByte idle.ready byte
      obtain ⟨t'', others⟩ := ih (depth - 1) first.ready
      have sum : (u.gateCost + 1) * rest.length + (u.gateCost + 1) + (1 + (rest.length - (depth - 1)) ⌈/⌉ depth) =
          1 + (u.gateCost + 1 + ((u.gateCost + 1) * rest.length + (rest.length - (depth - 1)) ⌈/⌉ depth)) := by
        omega
      rw [Nat.sub_zero, bursts_succ positive, sum]
      exact ⟨t'', idle.bind (first.bind others)⟩
    | succ room =>
      obtain ⟨t, first⟩ := sends_sendByte ready byte
      obtain ⟨t', others⟩ := ih room first.ready
      have sum : (u.gateCost + 1) * rest.length + (u.gateCost + 1) + (rest.length - room) ⌈/⌉ depth =
          u.gateCost + 1 + ((u.gateCost + 1) * rest.length + (rest.length - room) ⌈/⌉ depth) := by
        omega
      rw [Nat.add_sub_add_right, sum]
      exact ⟨t', first.bind others⟩

theorem sends_write (ready : u.Ready s) (bytes : List Byte) :
    ∃ t, u.Sends (u.write bytes) s bytes (u.writeCost bytes.length) bytes.length t := by
  cases bytes with
  | nil =>
    obtain ⟨t, idle⟩ := sends_idle ready
    obtain ⟨t', gate⟩ := sends_gate idle.ready
    have flush : u.Sends u.flush s ([] ++ []) (1 + u.gateCost) () t' := idle.bind gate
    have all : u.Sends (u.write []) s ([] ++ [] ++ []) (1 + u.gateCost + 0) 0 t' :=
      flush.bind (sends_pure flush.ready 0)
    exact ⟨t', all⟩
  | cons byte rest =>
    have positive : 0 < max 1 u.config.fifoDepth := by omega
    obtain ⟨t, bursts⟩ := sends_sendBursts positive (byte :: rest) 0 ready
    have all : u.Sends (u.write (byte :: rest)) s (byte :: rest ++ []) _ (byte :: rest).length t :=
      bursts.bind (sends_pure bursts.ready _)
    have some : (byte :: rest).length ≠ 0 := by simp
    rw [Nat.add_zero, Nat.sub_zero, List.append_nil, Nat.add_comm u.gateCost] at all
    rw [writeCost, if_neg some]
    exact ⟨t, all⟩

/-! ### Waiting for good -/

/-- On a budget of `n` the session uses all of it and needs more, and it has written and sent nothing. -/
def Hangs (x : Bus Soc α) (s : Soc) (n : Nat) : Prop :=
  ∃ trace t, trace.length = n ∧ Stalls x s trace t ∧ written trace = [] ∧ t.sent = s.sent

variable {n : Nat}

theorem Hangs.bind (h : Hangs x s n) (f : α → Bus Soc β) : Hangs (x >>= f) s n := by
  obtain ⟨trace, t, length, stalls, quiet⟩ := h
  exact ⟨trace, t, length, stalls.bind f, quiet⟩

theorem Hangs.run (h : Hangs x s n) :
    (x.run s n).outcome = none ∧ written (x.run s n).trace = [] ∧ (x.run s n).state.sent = s.sent := by
  obtain ⟨trace, t, rfl, stalls, writes, sent⟩ := h
  rw [stalls.trace, stalls.state]
  exact ⟨stalls.cut _ (Nat.le_refl _), writes, sent⟩

theorem hangs_idle (mapped : s.Mapped u.registers) (lacks : s.Lacks LineStatus.transmitterEmpty n) :
    Hangs (Session.await u.transmitterEmpty) s n := by
  refine ⟨_, _, ?_, stalls_await_shows u mapped lacks, written_polls .., rfl⟩
  rw [length_polls, Soc.length_statuses]

theorem lacks_of_busy (unscripted : s.lineStatusScript = [])
    (busy : Bits.has s.transmitStatus LineStatus.transmitterEmpty = false) (n : Nat) :
    s.Lacks LineStatus.transmitterEmpty n := by
  intro i _
  rw [Soc.statusAt, unscripted, List.getD_nil]
  exact (Bits.has_assign_transmitterEmpty ..).trans busy

theorem hangs_gate (mapped : s.Mapped u.registers) (enabled : u.config.flow.enabled = true)
    (unscripted : s.modemStatusScript = []) (shut : u.config.flow.writable s.modemStatus = false) (n : Nat) :
    Hangs (Session.await u.flowWritable) s n := by
  have place : s.readPlace Register.modemStatus.offset = (s.modemStatus, s) :=
    Soc.readModemStatus_of_nil unscripted
  have read := does_read mapped .modemStatus
  rw [place] at read
  have fails : Does (u.flowWritable : Bus Soc Bool) s
      [.read .modemStatus (u.registers.address .modemStatus) s.modemStatus] false s := by
    rw [flowWritable_of_on enabled, ← shut]
    exact does_bind read (does_pure _ s)
  have starved : Stalls (u.flowWritable : Bus Soc Bool) s [] s := by
    rw [flowWritable_of_on enabled]
    exact starved_look ..
  have waits := (pays_flowWritable u).stalls_replicate starved fails n
  refine ⟨_, s, List.length_replicate, waits, ?_, rfl⟩
  rw [written, List.filterMap_replicate_of_none rfl]

theorem hangs_flush (mapped : s.Mapped u.registers) (enabled : u.config.flow.enabled = true)
    (unscripted : s.modemStatusScript = []) (shut : u.config.flow.writable s.modemStatus = false) (n : Nat) :
    Hangs u.flush s n := by
  -- It is up to the script of the line status whether the gate is reached on this budget.
  rcases s.lacks_or_showsAfter LineStatus.transmitterEmpty n with lacks | ⟨k, hk, shows⟩
  · exact (hangs_idle mapped lacks).bind _
  · have idle := does_await_shows u mapped shows
    have after : (s.polled (k + 1)).Mapped u.registers := mapped.keep rfl rfl
    obtain ⟨trace, t, length, gate, writes, sent⟩ := hangs_gate after enabled unscripted shut (n - (k + 1))
    refine ⟨_, t, ?_, idle.stalls gate, ?_, sent⟩
    · rw [List.length_append, length_polls, Soc.length_statuses]
      omega
    · rw [written_append, written_polls, writes, List.append_nil]

/-- Every write begins with the two waits of a flush. -/
theorem write_eq_flush_bind (u : MiniUart) (bytes : List Byte) :
    ∃ rest : Unit → Bus Soc Nat, u.write bytes = u.flush >>= rest := by
  cases bytes with
  | nil => exact ⟨fun _ => pure 0, rfl⟩
  | cons byte rest =>
    refine ⟨fun _ => do
      u.registers.write .transmitBuffer byte
      u.sendBursts (max 1 u.config.fifoDepth) (max 1 u.config.fifoDepth - 1) rest
      return (byte :: rest).length, ?_⟩
    simp only [write, flush, sendBursts, sendByte, bind_assoc]

theorem Hangs.write (h : Hangs u.flush s n) (bytes : List Byte) : Hangs (u.write bytes) s n := by
  obtain ⟨rest, split⟩ := write_eq_flush_bind u bytes
  rw [split]
  exact h.bind rest

/-! ### Writing -/

/-- A write on a chip whose latch is closed. If the chip, left to itself, shows an idle transmitter and a peer that
takes bytes, the write ends with all its bytes sent, at its cost and at most one access more for each scripted
answer; with no scripts its cost is exact. If one of the two is missing for good, the write goes on for as long as
the budget does and sends nothing. -/
theorem write_ends_or_hangs (u : MiniUart) (s : Soc) (mapped : s.Mapped u.registers)
    (closed : s.latchOpen = false) (bytes : List Byte) :
    let run := (u.write bytes).run s
    let depth := max 1 u.config.fifoDepth
    let gate := if u.config.flow.enabled then 1 else 0
    let cost := if bytes = [] then 1 + gate else (1 + gate) * bytes.length + bytes.length ⌈/⌉ depth
    let scripts := s.lineStatusScript.length + gate * s.modemStatusScript.length
    let idle := Bits.has s.transmitStatus LineStatus.transmitterEmpty
    let passes := u.config.flow.writable s.modemStatus
    (idle = true → (u.config.flow.enabled = true → passes = true) → ∀ budget, cost + scripts ≤ budget →
      (run budget).outcome = some bytes.length ∧
      (run budget).state.sent.toList = s.sent.toList ++ bytes ∧
      written (run budget).trace = bytes.map (Prod.mk .transmitBuffer) ∧
      cost ≤ (run budget).trace.length ∧ (run budget).trace.length ≤ cost + scripts ∧
      (s.lineStatusScript = [] → s.modemStatusScript = [] → (run budget).trace.length = cost)) ∧
    (s.lineStatusScript = [] → idle = false → ∀ budget, (run budget).outcome = none ∧
      written (run budget).trace = [] ∧ (run budget).state.sent = s.sent) ∧
    (u.config.flow.enabled = true → s.modemStatusScript = [] → passes = false → ∀ budget,
      (run budget).outcome = none ∧ written (run budget).trace = [] ∧ (run budget).state.sent = s.sent) := by
  intro run depth gate cost scripts idle passes
  refine ⟨fun isIdle isPassing budget enough => ?_, fun unscripted busy budget => ?_,
    fun enabled unscripted shut budget => ?_⟩
  · have ready : u.Ready s := ⟨mapped, closed, isIdle, isPassing⟩
    obtain ⟨t, -, sent, trace, does, writes, least, most⟩ := sends_write ready bytes
    have same : u.writeCost bytes.length = cost := by
      simp only [writeCost, List.length_eq_zero_iff]
      rfl
    have potential : u.scripted s = scripts := rfl
    rw [same] at least most
    rw [potential] at most
    obtain ⟨left, rfl⟩ := Nat.exists_eq_add_of_le (show trace.length ≤ budget by omega)
    obtain ⟨outcome, made, state, -⟩ := does.ends left
    have length : (run (trace.length + left)).trace.length = trace.length := by rw [made]
    refine ⟨outcome, by rw [state, sent], by rw [made, writes], by omega, by omega, fun noLsr noMsr => ?_⟩
    have none : scripts = 0 := by simp [scripts, noLsr, noMsr]
    omega
  · exact (((hangs_idle mapped (lacks_of_busy unscripted busy budget)).bind _).write bytes).run
  · exact ((hangs_flush mapped enabled unscripted shut budget).write bytes).run

/-- An extended FIFO of no size takes one byte in each burst, and scripts hold the write up by three accesses. Two
full bursts take two looks at the transmitter. A transmitter that stays half empty, or a peer without consent, holds
up every write, one of no bytes included. -/
theorem write_ends_or_hangs_unsized :
    let paced : MiniUart := .ofLayout .rpi4 { Config.rpi4 with
      fifoControl := 0x21, extendedFifoSize := 0, flow := { enabled := true, detectCable := true } }
    let plain : MiniUart := .ofLayout .rpi4 { Config.rpi4 with fifoControl := 0x01 }
    let fresh : Soc := { Soc.initial .rpi4 4 with modemStatus := 0x30 }
    let s : Soc := { fresh with lineStatusScript := [0x00, 0x20], modemStatusScript := [0x20] }
    let busy : Soc := { fresh with transmitStatus := 0x20 }
    let shut : Soc := { fresh with modemStatus := 0x20, lineStatusScript := [0x20, 0x60] }
    let bytes := List.replicate 32 0x55
    (s.Mapped paced.registers ∧ fresh.Mapped paced.registers ∧ fresh.Mapped plain.registers ∧
      busy.Mapped plain.registers ∧ shut.Mapped paced.registers) ∧
    s.latchOpen = false ∧ paced.config.fifoDepth = 0 ∧ plain.config.fifoDepth = 16 ∧
    (((paced.write [7, 8, 9]).run s 12).outcome = some 3 ∧
      ((paced.write [7, 8, 9]).run s 12).state.sent.toList = [7, 8, 9] ∧
      ((paced.write [7, 8, 9]).run s 12).trace.length ≤ 12) ∧
    ((plain.write bytes).run fresh 34).outcome = some 32 ∧ ((plain.write bytes).run fresh 34).trace.length = 34 ∧
    ((paced.write []).run fresh 2).outcome = some 0 ∧ ((paced.write []).run fresh 2).trace.length = 2 ∧
    (∀ budget, ((plain.write []).run busy budget).outcome = none) ∧
    (∀ budget, ((paced.write [7]).run shut budget).outcome = none ∧
      written ((paced.write [7]).run shut budget).trace = [] ∧
      ((paced.write [7]).run shut budget).state.sent = #[]) := by
  intro paced plain fresh s busy shut bytes
  have mapped : fresh.Mapped paced.registers := ⟨rfl, rfl, by decide, by decide⟩
  have mapped' : fresh.Mapped plain.registers := ⟨rfl, rfl, by decide, by decide⟩
  have closed : s.latchOpen = false := by decide
  have scripted : s.Mapped paced.registers := mapped.keep rfl rfl
  have delayed : busy.Mapped plain.registers := mapped'.keep rfl rfl
  have refused : shut.Mapped paced.registers := mapped.keep rfl rfl
  obtain ⟨ends, sent, -, -, within, -⟩ := (write_ends_or_hangs paced s scripted closed [7, 8, 9]).1
    (by decide) (fun _ => by decide) 12 (by decide)
  obtain ⟨bursts, -, -, -, -, exactly⟩ := (write_ends_or_hangs plain fresh mapped' closed bytes).1
    (by decide) (fun _ => by decide) 34 (by decide)
  obtain ⟨flush, -, -, -, -, exactly'⟩ := (write_ends_or_hangs paced fresh mapped closed []).1
    (by decide) (fun _ => by decide) 2 (by decide)
  have stuck := (write_ends_or_hangs plain busy delayed closed []).2.1 rfl (by decide)
  have held := (write_ends_or_hangs paced shut refused closed [7]).2.2 rfl rfl (by decide)
  exact ⟨⟨scripted, mapped, mapped', delayed, refused⟩, closed, by decide, by decide,
    ⟨ends, sent, within.trans (by decide)⟩, bursts, (exactly rfl rfl).trans (by decide), flush,
    (exactly' rfl rfl).trans (by decide), fun budget => (stuck budget).1, held⟩

end MiniUart

end ConsoleUart
