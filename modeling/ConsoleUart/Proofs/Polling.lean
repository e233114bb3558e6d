import Mathlib.Data.List.Chain
import ConsoleUart.Proofs.Progress

/-!
# Polls in a row

A poll looks at the line status once and, with flow control on, leaves RTS up exactly if it has found nothing.
So a byte that the peer holds back is hidden from one poll and shown to the next, and a poll that finds a byte
may hide it again from the poll after it, but not from a read: the read invites the byte once more.
-/

namespace ConsoleUart

open ModemControl (Write)

namespace Bus

variable {σ α : Type} {x : Bus σ α} {s t : σ} {trace : List Access} {a : α}

theorem Does.outcome_eq (h : Does x s trace a t) (n : Nat) :
    (x.run s n).outcome = if trace.length ≤ n then some a else none := by
  by_cases enough : trace.length ≤ n
  · obtain ⟨left, rfl⟩ := Nat.exists_eq_add_of_le enough
    rw [if_pos enough, (h.ends left).1]
  · rw [if_neg enough, h.cut n (by omega)]

end Bus

namespace MiniUart
open Bus

section
variable {σ : Type} [AddressSpace σ] (u : MiniUart)

/-- Polls one after another and lists their answers. -/
def pollTimes : Nat → Bus σ (List Bool)
  | 0 => pure []
  | n + 1 => do
    let ready ← u.poll
    let rest ← pollTimes n
    return ready :: rest

theorem within_pollTimes (n : Nat) :
    Within (Operation.poll.footprint.Covers u) (u.pollTimes n : Bus σ (List Bool)) := by
  induction n with
  | zero => exact within_pure []
  | succ n ih => exact within_bind (within_poll u) fun _ => within_bind ih fun _ => within_pure _

end

variable (u : MiniUart) {s t : Soc} {byte : Byte} {bytes : List Byte} {n : Nat}

/-- The accesses of one poll: the line status, and under flow control a read and a write of RTS. -/
def pollCost : Nat := if u.config.flow.enabled then 3 else 1

/-- The chip after a poll that no script has answered. -/
def afterPoll (s : Soc) : Soc :=
  { s with modemControl := Write.after s.modemControl (u.pacingWrite (!s.receiveVisible)) }

def pollAnswers : Nat → Soc → List Bool
  | 0, _ => []
  | n + 1, s => s.receiveVisible :: pollAnswers n (u.afterPoll s)

theorem length_pollAnswers (n : Nat) (s : Soc) : (u.pollAnswers n s).length = n := by
  induction n generalizing s with
  | zero => rfl
  | succ n ih => simp [pollAnswers, ih]

/-! ### What a poll does -/

theorem polled_of_unscripted (unscripted : s.lineStatusScript = []) : s.polled 1 = s := by
  have none : s.lineStatusScript.drop 1 = s.lineStatusScript := by simp [unscripted]
  rw [Soc.polled, none]

theorem does_poll (mapped : s.Mapped u.registers) (unscripted : s.lineStatusScript = []) :
    ∃ trace, Does u.poll s trace s.receiveVisible (u.afterPoll s) ∧ trace.length = u.pollCost := by
  have check := does_shows u LineStatus.receiveReady mapped
  rw [ready_of_unscripted unscripted, polled_of_unscripted unscripted] at check
  unfold poll pollCost afterPoll pacingWrite
  rw [receiverReady_eq]
  cases enabled : u.config.flow.enabled with
  | false =>
    refine ⟨u.polls [s.statusAt 0] ++ [], does_bind check ?_, rfl⟩
    rw [pacingBase_of_off enabled, pure_bind]
    exact does_pure _ s
  | true =>
    have mcr := does_map some (does_read mapped .modemControl)
    rw [← pacingBase_of_on enabled] at mcr
    have pace := does_write mapped .modemControl
      (Bits.assign s.modemControl ModemControl.rts (!s.receiveVisible))
    exact ⟨_, does_bind check (does_bind mcr (does_bind pace (does_pure _ _))), rfl⟩

theorem does_pollTimes (mapped : s.Mapped u.registers) (unscripted : s.lineStatusScript = []) (n : Nat) :
    ∃ trace, Does (u.pollTimes n) s trace (u.pollAnswers n s) (u.afterPoll^[n] s) ∧
      trace.length = u.pollCost * n := by
  induction n generalizing s with
  | zero => exact ⟨[], does_pure [] s, rfl⟩
  | succ n ih =>
    obtain ⟨first, poll, hf⟩ := does_poll u mapped unscripted
    have mapped' : (u.afterPoll s).Mapped u.registers := mapped.keep rfl rfl
    obtain ⟨others, polls, ho⟩ := ih mapped' unscripted
    refine ⟨first ++ (others ++ []), does_bind poll (does_bind polls (does_pure _ _)), ?_⟩
    simp only [List.length_append, List.length_nil, hf, ho, Nat.mul_succ]
    omega

/-! ### What polls find -/

/-- Polls change RTS and nothing else. -/
theorem afterPoll_iterate (n : Nat) (s : Soc) :
    u.afterPoll^[n] s = { s with modemControl := (u.afterPoll^[n] s).modemControl } := by
  induction n generalizing s with
  | zero => rfl
  | succ n ih => exact ih (u.afterPoll s)

theorem pollAnswers_of_empty (empty : s.received = []) (n : Nat) : u.pollAnswers n s = List.replicate n false := by
  induction n generalizing s with
  | zero => rfl
  | succ n ih =>
    have hidden : s.receiveVisible = false := by simp [Soc.receiveVisible, empty]
    rw [pollAnswers, hidden, ih (s := u.afterPoll s) empty, List.replicate_succ]

/-- A poll that misses a byte invites it. -/
theorem visible_after_miss (enabled : u.config.flow.enabled = true) (waiting : s.received ≠ [])
    (hidden : s.receiveVisible = false) : (u.afterPoll s).receiveVisible = true := by
  have raised : Bits.meets (u.afterPoll s).modemControl ModemControl.rts = true := by
    simp [afterPoll, pacingWrite, enabled, hidden, Write.after, Write.apply, Bits.meets_assign_rts]
  have same : (u.afterPoll s).received = s.received := rfl
  simp [Soc.receiveVisible, raised, same, waiting]

theorem pollAnswers_chain (enabled : u.config.flow.enabled = true) (waiting : s.received ≠ []) (n : Nat) :
    (u.pollAnswers n s).IsChain fun a b => a = true ∨ b = true := by
  induction n generalizing s with
  | zero => exact List.IsChain.nil
  | succ n ih =>
    have later := ih (s := u.afterPoll s) waiting
    cases n with
    | zero => exact List.IsChain.singleton _
    | succ n =>
      refine List.isChain_cons_cons.mpr ⟨?_, later⟩
      cases found : s.receiveVisible with
      | true => exact Or.inl rfl
      | false => exact Or.inr (visible_after_miss u enabled waiting found)

theorem afterPoll_of_off (disabled : u.config.flow.enabled = false) (s : Soc) : u.afterPoll s = s := by
  simp [afterPoll, pacingWrite, disabled, Write.after]

/-- With flow control off, all polls find the same. -/
theorem pollAnswers_of_off (disabled : u.config.flow.enabled = false) (n : Nat) (s : Soc) :
    u.pollAnswers n s = List.replicate n s.receiveVisible := by
  induction n with
  | zero => rfl
  | succ n ih => rw [pollAnswers, afterPoll_of_off u disabled, ih, List.replicate_succ]

theorem waiting_of_found (found : (u.pollAnswers n s).getLast? = some true) : s.received ≠ [] := by
  intro empty
  rw [u.pollAnswers_of_empty empty n] at found
  have last := List.eq_of_mem_replicate (List.mem_of_getLast? found)
  exact absurd last (by decide)

/-! ### The read after a poll -/

theorem does_read_visible (h : s.Holds (byte :: bytes)) (mapped : s.Mapped u.registers)
    (unscripted : s.lineStatusScript = []) (disabled : u.config.flow.enabled = false)
    (visible : s.receiveVisible = true) : ∃ trace t, Does (u.read 1) s trace [byte] t ∧ trace.length = 2 := by
  have check := does_shows u LineStatus.receiveReady mapped
  rw [ready_of_unscripted unscripted, visible, polled_of_unscripted unscripted] at check
  have look : Does (u.lookForByte none) s (u.polls [s.statusAt 0] ++ []) true s := does_bind check (does_pure true s)
  have wait := (pays_lookForByte u none).does_await look
  have take := does_read mapped .receiveBuffer
  rw [show Register.receiveBuffer.offset = 0 from rfl, h.readPlace] at take
  have one : Does (u.receiveByte none) s _ byte { s with received := bytes } :=
    does_bind wait (does_bind (does_pure () s) take)
  have all : Does (u.receiveBytes none 1) s _ [byte] { s with received := bytes } :=
    does_bind one (does_bind (does_pure [] _) (does_pure [byte] _))
  have plain : (u.read 1 : Bus Soc _) = u.receiveBytes none 1 := by simp [read, pacingBase, disabled]
  rw [plain]
  exact ⟨_, _, all, rfl⟩

theorem after_polls (h : s.Holds bytes) (mapped : s.Mapped u.registers) (unscripted : s.lineStatusScript = [])
    (n : Nat) : (u.afterPoll^[n] s).Holds bytes ∧ (u.afterPoll^[n] s).Mapped u.registers ∧
      (u.afterPoll^[n] s).lineStatusScript = [] := by
  rw [u.afterPoll_iterate n s]
  exact ⟨⟨h.closed, h.quiet, h.received⟩, mapped.keep rfl rfl, unscripted⟩

/-- A read of one byte, given for each budget, ends with this byte as soon as the budget allows. -/
structure Takes (byte : Byte) (read : Nat → Run Soc Bus.Event (List Byte)) : Prop where
  paced : u.config.flow.enabled = true →
    ∀ n, 6 ≤ n → (read n).outcome = some [byte] ∧ (read n).trace.length ≤ 6
  unpaced : u.config.flow.enabled = false →
    ∀ n, 2 ≤ n → (read n).outcome = some [byte] ∧ (read n).trace.length = 2

theorem takes_of_found (h : s.Holds (byte :: bytes)) (mapped : s.Mapped u.registers)
    (unscripted : s.lineStatusScript = []) (found : (u.pollAnswers n s).getLast? = some true) :
    u.Takes byte ((u.read 1).run (u.afterPoll^[n] s)) := by
  constructor
  · intro enabled m enough
    obtain ⟨holds, mapped', unscripted'⟩ := after_polls u h mapped unscripted n
    have one : 1 ≤ (byte :: bytes).length := by simp
    obtain ⟨t, finishes⟩ := finishes_read_paced u holds mapped' enabled Nat.one_pos one
    rw [unscripted'] at finishes
    exact ⟨finishes.outcome enough, finishes.length_le enough⟩
  · -- Without flow control the polls have changed nothing, so the byte is still there to see.
    intro disabled m enough
    have still : u.afterPoll^[n] s = s := Function.iterate_fixed (afterPoll_of_off u disabled s) n
    rw [u.pollAnswers_of_off disabled] at found
    have visible : s.receiveVisible = true := (List.eq_of_mem_replicate (List.mem_of_getLast? found)).symm
    obtain ⟨trace, t, read, two⟩ := does_read_visible u h mapped unscripted disabled visible
    obtain ⟨left, rfl⟩ := Nat.exists_eq_add_of_le enough
    obtain ⟨outcome, made, -⟩ := read.ends left
    rw [two] at outcome made
    rw [still]
    exact ⟨outcome, by rw [made, two]⟩

/-! ### Sequences of polls -/

/-- Polls in a row, on a chip whose line status is its own. However far they get, they take no byte. They end
exactly if the budget covers each of them. With nothing received every poll says so; with flow control on and a
byte received, of two adjacent polls one finds it at least. If the last poll has found a byte, a read that comes
next takes the first one received, in two accesses or, with flow control on, in six at most. -/
theorem polls_neither_starve_nor_lie (u : MiniUart) (s : Soc) (mapped : s.Mapped u.registers)
    (closed : s.latchOpen = false) (unscripted : s.lineStatusScript = []) (n : Nat) :
    let run := (u.pollTimes n).run s
    (∀ budget, (run budget).state.received = s.received) ∧
    ∃ answers : List Bool, answers.length = n ∧
      (∀ budget, (run budget).outcome = if u.pollCost * n ≤ budget then some answers else none) ∧
      (s.received = [] → ∀ found ∈ answers, found = false) ∧
      (u.config.flow.enabled = true → s.received ≠ [] → answers.IsChain fun a b => a = true ∨ b = true) ∧
      (answers.getLast? = some true → ∃ byte rest, s.received = byte :: rest ∧
        ∀ budget, u.pollCost * n ≤ budget → u.Takes byte ((u.read 1).run (run budget).state)) := by
  intro run
  obtain ⟨trace, polls, length⟩ := does_pollTimes u mapped unscripted n
  have outcome (budget : Nat) :
      (run budget).outcome = if u.pollCost * n ≤ budget then some (u.pollAnswers n s) else none := by
    have all := polls.outcome_eq budget
    rwa [length] at all
  refine ⟨(within_pollTimes u n).received (by decide) (by decide) mapped closed, u.pollAnswers n s,
    u.length_pollAnswers n s, outcome, ?_, fun enabled waiting => u.pollAnswers_chain enabled waiting n, ?_⟩
  · intro empty found member
    rw [u.pollAnswers_of_empty empty n] at member
    exact List.eq_of_mem_replicate member
  · intro found
    obtain ⟨byte, rest, received⟩ := List.exists_cons_of_ne_nil (u.waiting_of_found found)
    refine ⟨byte, rest, received, fun budget enough => ?_⟩
    have holds : s.Holds (byte :: rest) := ⟨closed, by simp [Soc.Quiet, unscripted], received⟩
    have ended : (run budget).outcome = some (u.pollAnswers n s) := by rw [outcome, if_pos enough]
    have state : (run budget).state = u.afterPoll^[n] s := (polls.done ended).2.2.1
    rw [state]
    exact takes_of_found u holds mapped unscripted found

/-- The peer holds two bytes back. Every other poll finds the first one, and the read invites it again; without
flow control, and with a peer that shows its bytes, every poll finds it and the read takes it at once. -/
theorem polls_neither_starve_nor_lie_held_back :
    let paced : MiniUart :=
      .ofLayout .rpi4 { Config.rpi4 with flow := { enabled := true, detectCable := true } }
    let plain : MiniUart := .ofLayout .rpi4 Config.rpi4
    let s : Soc := { Soc.initial .rpi4 4 with modemControl := 0x0B, holdsBack := true, received := [7, 8] }
    let shown : Soc := { s with holdsBack := false }
    let silent : Soc := { s with received := [] }
    let run := (paced.pollTimes 3).run s 9
    let run' := (plain.pollTimes 2).run shown 2
    s.Mapped paced.registers ∧ shown.Mapped plain.registers ∧ silent.Mapped paced.registers ∧
    s.latchOpen = false ∧ s.lineStatusScript = [] ∧
    paced.config.flow.enabled = true ∧ plain.config.flow.enabled = false ∧ s.received ≠ [] ∧
    (run.outcome = some [true, false, true] ∧ run.state.received = [7, 8] ∧ run.state.modemControl = 0x09 ∧
      ([true, false, true].IsChain fun a b => a = true ∨ b = true) ∧
      ((paced.read 1).run run.state 6).outcome = some [7]) ∧
    (run'.outcome = some [true, true] ∧ ((plain.read 1).run run'.state 2).outcome = some [7] ∧
      ((plain.read 1).run run'.state 2).trace.length = 2) ∧
    ((paced.pollTimes 4).run silent 12).outcome = some [false, false, false, false] := by
  intro paced plain s shown silent run run'
  have mapped : s.Mapped paced.registers := ⟨rfl, rfl, by decide, by decide⟩
  have mapped' : shown.Mapped plain.registers := ⟨rfl, rfl, by decide, by decide⟩
  have mapped'' : silent.Mapped paced.registers := mapped.keep rfl rfl
  have closed : s.latchOpen = false := by decide
  obtain ⟨kept, answers, -, outcome, -, chain, takes⟩ := polls_neither_starve_nor_lie paced s mapped closed rfl 3
  obtain ⟨-, answers', -, outcome', -, -, takes'⟩ := polls_neither_starve_nor_lie plain shown mapped' closed rfl 2
  obtain ⟨-, nothing, length, outcome'', none, -, -⟩ :=
    polls_neither_starve_nor_lie paced silent mapped'' closed rfl 4
  have answered : run.outcome = some [true, false, true] := by decide +kernel
  have answered' : run'.outcome = some [true, true] := by decide +kernel
  obtain rfl : answers = [true, false, true] := (Option.some.inj (answered.symm.trans (outcome 9))).symm
  obtain rfl : answers' = [true, true] := (Option.some.inj (answered'.symm.trans (outcome' 2))).symm
  obtain rfl : nothing = [false, false, false, false] := List.eq_replicate_iff.mpr ⟨length, none rfl⟩
  obtain ⟨byte, rest, received, taken⟩ := takes rfl
  obtain ⟨byte', rest', received', taken'⟩ := takes' rfl
  cases received
  cases received'
  have invited := (taken 9 (by decide)).paced rfl 6 (by decide)
  have direct := (taken' 2 (by decide)).unpaced rfl 2 (by decide)
  exact ⟨mapped, mapped', mapped'', closed, rfl, rfl, rfl, by decide,
    ⟨answered, kept 9, by decide +kernel, chain rfl (by decide), invited.1⟩, ⟨answered', direct⟩, outcome'' 12⟩

end MiniUart

end ConsoleUart
