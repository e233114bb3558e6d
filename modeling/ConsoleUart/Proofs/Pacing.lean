import ConsoleUart.Proofs.Routing
import ConsoleUart.Proofs.Runs
import ConsoleUart.Proofs.Sending

/-!
# Pacing over runs

Only a write sends bytes, and it waits for the transmitter before its first one. So it does not matter
what the bus has seen before a step: the bytes of every step are paced, and with them those of a run.
-/

namespace ConsoleUart

namespace Bits

theorem has_transmitterEmpty (lsr : Byte) : has lsr LineStatus.transmitterEmpty =
    (has lsr LineStatus.transmitEmpty && has lsr LineStatus.transmitIdle) := by
  revert lsr
  decide

theorem gate_of_cable (msr : Byte) :
    (msr &&& (ModemStatus.dsr ||| ModemStatus.cts) == ModemStatus.dsr ||| ModemStatus.cts) =
      (has msr ModemStatus.dsr && has msr ModemStatus.cts) := by
  revert msr
  decide

theorem gate_of_consent (msr : Byte) :
    (msr &&& (ModemStatus.dsr ||| ModemStatus.cts) != ModemStatus.dsr) =
      !(has msr ModemStatus.dsr && !has msr ModemStatus.cts) := by
  revert msr
  decide

end Bits

theorem FlowControl.writable_of_enabled {f : FlowControl} (enabled : f.enabled = true) (msr : Byte) :
    f.writable msr =
      if f.detectCable then Bits.has msr ModemStatus.dsr && Bits.has msr ModemStatus.cts
      else !(Bits.has msr ModemStatus.dsr && !Bits.has msr ModemStatus.cts) := by
  have on : f.isDisabled = false := by rw [isDisabled, enabled, Bool.not_true]
  rw [writable, on, if_neg Bool.false_ne_true, Bits.gate_of_cable, Bits.gate_of_consent]

theorem Access.showsIdle_eq_true {a : Access} (h : a.showsIdle = true) : ∃ address lsr,
    a = .read .lineStatus address lsr ∧ Bits.has lsr LineStatus.transmitEmpty = true ∧
      Bits.has lsr LineStatus.transmitIdle = true := by
  cases a with
  | write r address value => exact absurd h Bool.false_ne_true
  | readWord address word => exact absurd h Bool.false_ne_true
  | read r address lsr =>
    cases r with
    | lineStatus =>
      have both : Bits.has lsr LineStatus.transmitterEmpty = true := h
      rw [Bits.has_transmitterEmpty, Bool.and_eq_true] at both
      exact ⟨address, lsr, rfl, both.1, both.2⟩
    | _ => exact absurd h Bool.false_ne_true

theorem Footprint.Covers.quiet {f : Footprint} {u : MiniUart} {a : Access} (h : f.Covers u a)
    (hw : .transmitBuffer ∉ f.writes) : a.transmitted? = none := by
  cases a with
  | read r address value => rfl
  | readWord address word => rfl
  | write r address value =>
    cases r with
    | transmitBuffer => exact absurd h.1 hw
    | _ => rfl

namespace Scenario

namespace Step

/-- The bytes that the step asks to be sent. -/
def payload : Step → List Byte
  | operate _ (.write bytes) => bytes
  | print text => utf8 text
  | _ => []

/-- What a step that writes has to send, and its reply to the number of bytes sent. -/
def writes? : Step → Option (List Byte × (Nat → Reply))
  | operate _ (.write bytes) => some (bytes, Reply.number)
  | flush => some ([], fun _ => .nothing)
  | print text => some (utf8 text, fun sent => .printed (sent == (utf8 text).length))
  | _ => none

variable {step : Step} {bytes : List Byte} {reply : Nat → Reply}

theorem payload_of_writes (h : step.writes? = some (bytes, reply)) : step.payload = bytes := by
  unfold writes? at h
  split at h <;> cases h <;> rfl

theorem direct_of_writes (h : step.writes? = some (bytes, reply)) (u : MiniUart) :
    step.direct u = reply <$> u.write bytes := by
  unfold writes? at h
  split at h <;> cases h <;> rfl

theorem writes_or_quiet (raw : ∀ value, step ≠ .registers (.write .transmitBuffer value)) :
    (∃ bytes reply, step.writes? = some (bytes, reply)) ∨
      step.writes? = none ∧ step.payload = [] ∧ .transmitBuffer ∉ step.footprint.writes := by
  cases step with
  | operate handle op =>
    cases op with
    | write bytes => exact Or.inl ⟨bytes, _, rfl⟩
    | _ => exact Or.inr ⟨rfl, rfl, by simp [footprint, operation?, Operation.footprint]⟩
  | flush => exact Or.inl ⟨[], _, rfl⟩
  | print text => exact Or.inl ⟨utf8 text, _, rfl⟩
  | mini query => cases query <;> exact Or.inr ⟨rfl, rfl, List.not_mem_nil⟩
  | registers query =>
    cases query with
    | base => exact Or.inr ⟨rfl, rfl, List.not_mem_nil⟩
    | read r => exact Or.inr ⟨rfl, rfl, List.not_mem_nil⟩
    | write r value =>
      refine Or.inr ⟨rfl, rfl, fun hr => ?_⟩
      have same : Register.transmitBuffer = r := List.mem_singleton.mp hr
      exact raw value (by rw [same])
  | change | detected | select | pl011 => exact Or.inr ⟨rfl, rfl, List.not_mem_nil⟩

/-! ### One step -/

/-- What a step sends, whatever the bus has seen before: its bytes, each paced, or a first part of them.
Where a step for the mini UART is completed, all of them have been sent and the reply says so. -/
structure Paced (c : Console) (board : Board) (step : Step) (e : Entry) : Prop where
  accepts : ∀ past, (Bus.pacing (max 1 c.config.fifoDepth) c.config.flow).Accepts past e.trace
  part : transmitted e.trace <+: step.payload
  whole : step.target c board = some .mini → e.reply ≠ none → transmitted e.trace = step.payload
  replied : step.target c board = some .mini → e.reply ≠ none →
    ∀ bytes reply, step.writes? = some (bytes, reply) → e.reply = some (reply bytes.length)

variable {c : Console} {board : Board}

theorem paced_of_writes {lead : List Access} {left : Nat} {e : Entry}
    (h : step.writes? = some (bytes, reply))
    (hf : Follows c board (step.direct c.mini) lead left e) : Paced c board step e := by
  have hp : step.payload = bytes := payload_of_writes h
  have quiet : ∀ a ∈ lead, a.transmitted? = none := forall_mem_lead hf.start fun _ => rfl
  rw [direct_of_writes h] at hf
  -- Acceptance is needed after any past, but what was sent shows best after the empty one.
  obtain ⟨r, hr⟩ : ∃ r, (reply <$> c.mini.write bytes).run board.soc left = r := ⟨_, rfl⟩
  have meets (past : List Access) : r.Meets (Bus.pacing (max 1 c.config.fifoDepth) c.config.flow)
      (fun answer _ now => answer = reply bytes.length ∧ MiniUart.Sent past bytes now)
      (fun _ now => MiniUart.SentPart past bytes now) past := by
    rw [← hr]
    refine Bus.ensures_map (Bus.ensures_mono (c.mini.ensures_send bytes board.soc past) ?_ ?_) left
    · intro count _ now hd
      exact ⟨congrArg reply hd.1, hd.2⟩
    · intro _ now hc
      exact hc
  have accepts (past : List Access) :
      (Bus.pacing (max 1 c.config.fifoDepth) c.config.flow).Accepts past e.trace := by
    rw [hf.trace, hr, Monitor.accepts_append]
    exact ⟨Bus.accepts_pacing_of_quiet quiet past, (meets _).1⟩
  have trace : transmitted e.trace = transmitted r.trace := by
    rw [hf.trace, hr, transmitted_append, transmitted_eq_nil quiet, List.nil_append]
  have answered : e.reply = r.outcome := by rw [hf.reply, hr]
  have ended := (meets []).2
  rw [Bus.after_pacing, List.nil_append] at ended
  cases ho : r.outcome with
  | none =>
    rw [ho] at ended answered
    obtain ⟨part, hpart, hsent⟩ := ended
    have hsent : transmitted r.trace = part := hsent
    exact ⟨accepts, by rw [trace, hsent, hp]; exact hpart, fun _ hd => absurd answered hd,
      fun _ hd => absurd answered hd⟩
  | some answer =>
    rw [ho] at ended answered
    have whole : transmitted e.trace = step.payload := by
      rw [trace, hp]
      exact ended.2
    refine ⟨accepts, ⟨[], by rw [List.append_nil, whole]⟩, fun _ _ => whole, ?_⟩
    intro _ _ bytes' reply' h'
    rw [h] at h'
    cases h'
    rw [answered, ended.1]

theorem paced_entry (raw : ∀ value, step ≠ .registers (.write .transmitBuffer value)) (board : Board)
    (n : Nat) : Paced c board step (step.entry c n board) := by
  rcases entry_cases c board step n with hb | ⟨ht, lead, left, -, hf⟩
  · have quiet : ∀ a ∈ (step.entry c n board).trace, a.transmitted? = none :=
      forall_mem_lead hb.trace fun _ => rfl
    have part : transmitted (step.entry c n board).trace <+: step.payload := by
      rw [transmitted_eq_nil quiet]
      exact List.nil_prefix
    exact ⟨Bus.accepts_pacing_of_quiet quiet, part, fun ht hd => absurd (hb.cut ht) hd,
      fun ht hd => absurd (hb.cut ht) hd⟩
  · rcases writes_or_quiet raw with ⟨bytes, reply, hw⟩ | ⟨hn, hp, hw⟩
    · exact paced_of_writes hw hf
    · have quiet : ∀ a ∈ (step.entry c n board).trace, a.transmitted? = none := by
        intro a ha
        rcases covers_entry c board step n a ha with ⟨word, rfl⟩ | covered
        · rfl
        · exact covered.quiet hw
      have nothing : transmitted (step.entry c n board).trace = step.payload := by
        rw [transmitted_eq_nil quiet, hp]
      have part : transmitted (step.entry c n board).trace <+: step.payload :=
        ⟨[], by rw [List.append_nil, nothing]⟩
      refine ⟨Bus.accepts_pacing_of_quiet quiet, part, fun _ _ => nothing, ?_⟩
      intro _ _ bytes reply h
      rw [hn] at h
      exact absurd h (Option.some_ne_none _).symm

end Step

/-! ### Runs -/

/-- Each byte sent over a whole run has credit from a read that showed the transmitter idle, and with
flow control on it directly follows a read of the modem status that lets it pass. -/
theorem transmissions_paced (c : Console) (budget : Nat) (board : Board) (steps : List Step)
    (raw : ∀ step ∈ steps, ∀ value, step ≠ .registers (.write .transmitBuffer value)) :
    ∀ done address value rest,
      (run c budget board steps).flatMap Entry.trace =
        done ++ .write .transmitBuffer address value :: rest →
      (∃ before place lsr since, done = before ++ .read .lineStatus place lsr :: since ∧
        Bits.has lsr LineStatus.transmitEmpty = true ∧ Bits.has lsr LineStatus.transmitIdle = true ∧
        (∀ a ∈ since, a.showsIdle = false) ∧
        (transmitted since).length + 1 ≤ max 1 c.config.fifoDepth) ∧
      (c.config.flow.enabled = true → ∃ before place msr,
        done = before ++ [.read .modemStatus place msr] ∧
        if c.config.flow.detectCable then
          Bits.has msr ModemStatus.dsr = true ∧ Bits.has msr ModemStatus.cts = true
        else ¬(Bits.has msr ModemStatus.dsr = true ∧ Bits.has msr ModemStatus.cts = false)) := by
  intro done address value rest split
  have entries : ∀ e ∈ run c budget board steps, ∀ past,
      (Bus.pacing (max 1 c.config.fifoDepth) c.config.flow).Accepts past e.trace :=
    forall_run (fun board step hs => (Step.paced_entry (raw step hs) board budget).accepts) board
  have accepts := Monitor.accepts_flatMap _ entries []
  have allowed := accepts.allows split (Option.some_ne_none value)
  rw [Bus.after_pacing, List.nil_append] at allowed
  obtain ⟨⟨before, idle, since, hdone, hidle, hsince, hcount⟩, gated⟩ := allowed
  obtain ⟨place, lsr, rfl, hempty, hshift⟩ := Access.showsIdle_eq_true hidle
  refine ⟨⟨before, place, lsr, since, hdone, hempty, hshift, hsince, hcount⟩, fun enabled => ?_⟩
  obtain ⟨before, place, msr, hdone, pass⟩ := gated enabled
  refine ⟨before, place, msr, hdone, ?_⟩
  rw [FlowControl.writable_of_enabled enabled] at pass
  cases hd : c.config.flow.detectCable with
  | true =>
    rw [hd, if_pos rfl, Bool.and_eq_true] at pass
    exact pass
  | false =>
    rw [hd, if_neg Bool.false_ne_true] at pass
    intro held
    rw [held.1, held.2] at pass
    exact absurd pass (by decide)

/-- Two writes and a text behind a gate that opens late, on a FIFO of two bytes; the text is cut short. -/
theorem transmissions_paced_late_gate :
    let c : Console := {
      layout := .rpi3
      config := { Config.rpi3 with
        fifoControl := 0x21, extendedFifoSize := 2, flow := { enabled := true, detectCable := true } } }
    let steps : List Step := [.change [.modemStatusScript [0x20, 0x20, 0x30], .modemStatus 0x30] [],
      .operate .console (.write [1, 2, 3]), .operate .mini (.write [4]), .print "okay!"]
    (∀ step ∈ steps, ∀ value, step ≠ .registers (.write .transmitBuffer value)) ∧
    transmitted ((run c 12 (powerUp c) steps).flatMap Entry.trace) =
      [1, 2, 3, 4, 0x6F, 0x6B, 0x61, 0x79] ∧
    ∀ done address value rest,
      (run c 12 (powerUp c) steps).flatMap Entry.trace =
        done ++ .write .transmitBuffer address value :: rest →
      (∃ before place lsr since, done = before ++ .read .lineStatus place lsr :: since ∧
        Bits.has lsr LineStatus.transmitEmpty = true ∧ Bits.has lsr LineStatus.transmitIdle = true ∧
        (∀ a ∈ since, a.showsIdle = false) ∧
        (transmitted since).length + 1 ≤ max 1 c.config.fifoDepth) ∧
      (c.config.flow.enabled = true → ∃ before place msr,
        done = before ++ [.read .modemStatus place msr] ∧
        if c.config.flow.detectCable then
          Bits.has msr ModemStatus.dsr = true ∧ Bits.has msr ModemStatus.cts = true
        else ¬(Bits.has msr ModemStatus.dsr = true ∧ Bits.has msr ModemStatus.cts = false)) := by
  intro c steps
  have raw : ∀ step ∈ steps, ∀ value, step ≠ .registers (.write .transmitBuffer value) := by
    simp [steps]
  have bytes : transmitted ((run c 12 (powerUp c) steps).flatMap Entry.trace) =
      [1, 2, 3, 4, 0x6F, 0x6B, 0x61, 0x79] := by
    decide +kernel
  exact ⟨raw, bytes, transmissions_paced c 12 (powerUp c) steps raw⟩

end Scenario

end ConsoleUart
