import ConsoleUart.Proofs.Pacing
import ConsoleUart.Proofs.Steady

/-!
# Transmission over runs

While the accesses fit the latch, the chip transmits what its trace hands to the transmitter and nothing
else: a divisor never gets into the output. So a run transmits the bytes of its writes and texts, in order
and each once.
-/

namespace ConsoleUart

namespace Soc

variable {s : Soc} {b : RegisterBlock}

theorem Mapped.apply_sent (h : s.Mapped b) {a : Access} (placed : a.InPlace b) (fits : a.Fits s.latchOpen)
    (forward : ∀ address value, a ≠ .write .receiveBuffer address value) :
    (Access.apply s a).sent.toList = s.sent.toList ++ a.transmitted?.toList := by
  cases a with
  | read r address value =>
    cases placed
    obtain ⟨_, _, _, hf⟩ := s.readPlace_frame r.offset
    rw [h.apply_read, hf]
    exact (List.append_nil _).symm
  | readWord address word => exact (List.append_nil _).symm
  | write r address value =>
    cases placed
    rw [h.apply_write]
    cases r with
    | transmitBuffer =>
      have closed : s.latchOpen = false := (fits .transmitBuffer rfl).symm
      have place : s.writePlace value 0 = { s with sent := s.sent.push value } := by
        simp only [writePlace, closed, Bool.false_eq_true, if_false]
      show (s.writePlace value 0).sent.toList = _
      rw [place]
      exact Array.toList_push
    | receiveBuffer => exact absurd rfl (forward _ value)
    | divisorLow =>
      -- The place of the transmit buffer, but with the latch open.
      have opened : s.latchOpen = true := (fits .divisorLow rfl).symm
      rw [writePlace_sent (Or.inr opened)]
      exact (List.append_nil _).symm
    | _ =>
      rw [writePlace_sent (Or.inl (by decide))]
      exact (List.append_nil _).symm

theorem Mapped.replay_sent {trace : List Access} (h : s.Mapped b)
    (ha : (Bus.discipline b).Accepts s trace)
    (forward : ∀ a ∈ trace, ∀ address value, a ≠ .write .receiveBuffer address value) :
    (ConsoleUart.replay s trace).sent.toList = s.sent.toList ++ transmitted trace :=
  h.replay_queue (fun s => s.sent.toList) Access.transmitted?
    (fun _ _ mapped placed fits forward => mapped.apply_sent placed fits forward) ha forward

theorem applyAll_sent (s : Soc) (changes : List Change) : (s.applyAll changes).sent = s.sent := by
  refine applyAll_keeps (p := fun t => t.sent = s.sent) ?_ rfl
  intro change _ t h
  cases change <;> exact h

end Soc

namespace Scenario

namespace Step

variable {step : Step}

theorem arranged_sent (step : Step) (s : Soc) : (step.arranged s).sent = s.sent := by
  cases step with
  | change soc backend => exact s.applyAll_sent soc
  | _ => rfl

theorem raw_of_steady (h : step.steady = true) (value : Byte) :
    step ≠ .registers (.write .transmitBuffer value) := by
  rintro rfl
  exact absurd h Bool.false_ne_true

theorem footprint_forward (h : step.steady = true) : .receiveBuffer ∉ step.footprint.writes := by
  cases step with
  | operate handle op => cases op <;> simp [footprint, operation?, Operation.footprint]
  | mini query => cases query <;> exact List.not_mem_nil
  | registers query =>
    cases query with
    | base => exact List.not_mem_nil
    | read r => exact List.not_mem_nil
    | write r value => exact absurd h Bool.false_ne_true
  | flush | print => simp [footprint, operation?, Operation.footprint]
  | change | detected | select | pl011 => exact List.not_mem_nil

/-- What a step transmits: its bytes, or a first part of them if it is cut short. -/
structure Transmits (board : Board) (step : Step) (e : Entry) : Prop where
  sent : e.board.soc.sent.toList = board.soc.sent.toList ++ e.sent
  part : e.sent <+: step.payload
  whole : e.reply ≠ none → e.sent = step.payload
  replied : e.reply ≠ none →
    ∀ bytes reply, step.writes? = some (bytes, reply) → e.reply = some (reply bytes.length)

variable {c : Console} {board : Board}

theorem operation_of_writes {bytes : List Byte} {reply : Nat → Reply}
    (h : step.writes? = some (bytes, reply)) : step.operation? ≠ none := by
  unfold writes? at h
  split at h <;> cases h <;> exact Option.some_ne_none _

theorem transmits_entry (h : OnMini c board) (steady : step.steady = true) (n : Nat) :
    Transmits board step (step.entry c n board) := by
  have hf := h.fitting steady n
  have hp := paced_entry (c := c) (raw_of_steady steady) board n
  have forward : ∀ a ∈ (step.entry c n board).trace, ∀ address value,
      a ≠ .write .receiveBuffer address value := by
    rintro a ha address value rfl
    rcases covers_entry c board step n _ ha with ⟨word, hw⟩ | covered
    · cases hw
    · exact absurd covered.1 (footprint_forward steady)
  have after : (step.entry c n board).board.soc.sent.toList =
      board.soc.sent.toList ++ transmitted (step.entry c n board).trace := by
    have mapped := (arranged_mapped (keepsLatch_of_steady steady) h.mapped).1
    rw [hf.accounts, mapped.replay_sent hf.accepts forward, arranged_sent]
  have sent : (step.entry c n board).sent = transmitted (step.entry c n board).trace := by
    have drop : (step.entry c n board).sent =
        (step.entry c n board).board.soc.sent.toList.drop board.soc.sent.size := rfl
    rw [drop, after, ← Array.length_toList, List.drop_left]
  rw [← sent] at after
  refine ⟨after, by rw [sent]; exact hp.part, fun done => ?_, fun done bytes reply hw => ?_⟩
  · rcases writes_or_quiet (raw_of_steady steady) with ⟨bytes, reply, hw⟩ | ⟨-, hq, -⟩
    · rw [sent]
      exact hp.whole (h.target steady (operation_of_writes hw)) done
    · have none : transmitted (step.entry c n board).trace <+: [] := by
        rw [← hq]
        exact hp.part
      rw [sent, hq]
      exact List.prefix_nil.mp none
  · exact hp.replied (h.target steady (operation_of_writes hw)) done bytes reply hw

end Step

/-! ### Runs -/

theorem flatMap_prefix {α β : Type} {f g : α → List β} {l : List α} (short : l.length ≤ 1)
    (h : ∀ a ∈ l, f a <+: g a) : l.flatMap f <+: l.flatMap g := by
  cases l with
  | nil => exact List.prefix_rfl
  | cons a rest =>
    have empty : rest = [] := by
      rw [List.length_cons] at short
      exact List.length_eq_zero_iff.mp (by omega)
    rw [empty, List.flatMap_singleton, List.flatMap_singleton]
    exact h a (List.mem_cons_self ..)

/-- Over a whole run the chip transmits the bytes of the completed writes and texts, in order and each
once, and after them a first part of the bytes of a write or text that was cut short. -/
theorem sent_is_payloads (c : Console) (budget : Nat) (board : Board) (steps : List Step)
    (mapped : board.soc.Mapped c.mini.registers) (closed : board.soc.latchOpen = false)
    (routed : c.routed board = .mini) (steady : ∀ step ∈ steps, step.steady = true) :
    ∃ completed blocked, taken c budget board steps = completed ++ blocked ∧
      (∀ t ∈ completed, t.entry.reply ≠ none) ∧ (∀ t ∈ blocked, t.entry.reply = none) ∧
      blocked.length ≤ 1 ∧
      (∃ part, part <+: blocked.flatMap (fun t => t.step.payload) ∧
        (ending board (run c budget board steps)).soc.sent.toList =
          board.soc.sent.toList ++ completed.flatMap (fun t => t.step.payload) ++ part) ∧
      (∀ t ∈ completed, t.entry.sent = t.step.payload ∧
        (∀ handle bytes, t.step = .operate handle (.write bytes) →
          t.entry.reply = some (.number bytes.length)) ∧
        (∀ text, t.step = .print text → t.entry.reply = some (.printed true))) ∧
      ∀ t ∈ blocked, t.entry.sent <+: t.step.payload := by
  have each : ∀ t ∈ taken c budget board steps, Step.Transmits t.before t.step t.entry :=
    forall_taken_onMini ⟨mapped, closed, routed⟩ steady fun board step hs h =>
      Step.transmits_entry h (steady step hs) budget
  have total := balance (fun board => board.soc.sent.toList) (fun _ => []) (fun t => t.entry.sent) steps
    fun t ht => (each t ht).sent
  obtain ⟨completed, blocked, split, hc, hb, hl⟩ := taken_split c budget board steps
  rw [split] at each total
  have eachCompleted : ∀ t ∈ completed, Step.Transmits t.before t.step t.entry := fun t ht =>
    each t (List.mem_append_left _ ht)
  have eachBlocked : ∀ t ∈ blocked, Step.Transmits t.before t.step t.entry := fun t ht =>
    each t (List.mem_append_right _ ht)
  have whole : completed.map (fun t => t.entry.sent) = completed.map (fun t => t.step.payload) :=
    List.map_congr_left fun t ht => (eachCompleted t ht).whole (hc t ht)
  have part : blocked.flatMap (fun t => t.entry.sent) <+: blocked.flatMap (fun t => t.step.payload) :=
    flatMap_prefix hl fun t ht => (eachBlocked t ht).part
  refine ⟨completed, blocked, split, hc, hb, hl, ⟨_, part, ?_⟩, fun t ht => ?_,
    fun t ht => (eachBlocked t ht).part⟩
  · rw [List.flatMap_eq_nil_iff.mpr fun _ _ => rfl, List.nil_append, List.flatMap_append,
      List.flatMap_def, whole, ← List.flatMap_def] at total
    rw [total, List.append_assoc]
  · have transmits := eachCompleted t ht
    refine ⟨transmits.whole (hc t ht), fun handle bytes he => ?_, fun text he => ?_⟩
    · exact transmits.replied (hc t ht) bytes Reply.number (by rw [he]; rfl)
    · have replied := transmits.replied (hc t ht) (utf8 text) _ (by rw [he]; rfl)
      rw [replied, beq_self_eq_true]

/-- The console is configured and writes a text; then the transmitter turns idle twice more and no longer,
so that the next write stops after two of its three bytes. -/
theorem sent_is_payloads_stalled :
    let c : Console := {
      layout := .rpi3, config := { Config.rpi3 with fifoControl := 0x21, extendedFifoSize := 0 } }
    let steps : List Step := [.operate .console .configure, .print "ok", .operate .active .poll,
      .change [.lineStatusScript [0x60, 0x60], .transmitStatus 0] [], .operate .mini (.write [7, 8, 9])]
    (powerUp c).soc.Mapped c.mini.registers ∧ (powerUp c).soc.latchOpen = false ∧
    c.routed (powerUp c) = .mini ∧ (∀ step ∈ steps, step.steady = true) ∧
    (run c 20 (powerUp c) steps).map Entry.sent = [[], [0x6F, 0x6B], [], [], [7, 8]] ∧
    ∃ completed blocked, taken c 20 (powerUp c) steps = completed ++ blocked ∧
      (∀ t ∈ completed, t.entry.reply ≠ none) ∧ (∀ t ∈ blocked, t.entry.reply = none) ∧
      blocked.length ≤ 1 ∧
      (∃ part, part <+: blocked.flatMap (fun t => t.step.payload) ∧
        (ending (powerUp c) (run c 20 (powerUp c) steps)).soc.sent.toList =
          (powerUp c).soc.sent.toList ++ completed.flatMap (fun t => t.step.payload) ++ part) ∧
      (∀ t ∈ completed, t.entry.sent = t.step.payload ∧
        (∀ handle bytes, t.step = .operate handle (.write bytes) →
          t.entry.reply = some (.number bytes.length)) ∧
        (∀ text, t.step = .print text → t.entry.reply = some (.printed true))) ∧
      ∀ t ∈ blocked, t.entry.sent <+: t.step.payload := by
  intro c steps
  have mapped : (powerUp c).soc.Mapped c.mini.registers := powerUp_mapped (by decide) (by decide)
  have closed : (powerUp c).soc.latchOpen = false := powerUp_closed c
  have routed : c.routed (powerUp c) = .mini := by decide
  have steady : ∀ step ∈ steps, step.steady = true := by decide
  have sent : (run c 20 (powerUp c) steps).map Entry.sent = [[], [0x6F, 0x6B], [], [], [7, 8]] := by
    decide +kernel
  exact ⟨mapped, closed, routed, steady, sent,
    sent_is_payloads c 20 (powerUp c) steps mapped closed routed steady⟩

end Scenario

end ConsoleUart
