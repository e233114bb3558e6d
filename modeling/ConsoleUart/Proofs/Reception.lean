import ConsoleUart.Proofs.Steady

/-!
# Reception over runs

While no scripted line status announces a byte that is not there, a read takes exactly the bytes it
delivers, in order, and nothing else takes any: the divisor low byte lies in the place of the receive
buffer, but it is read with the latch open. So what a run delivers and what it leaves in the queue make up
what has arrived.
-/

namespace ConsoleUart

namespace Bits

theorem has_assign_receiveReady (status : Byte) (on : Bool) :
    has (assign status LineStatus.receiveReady on) LineStatus.receiveReady = on := by
  revert status on
  decide

end Bits

namespace Soc

/-- No scripted line status announces a received byte. -/
def Quiet (s : Soc) : Prop := ∀ lsr ∈ s.lineStatusScript, Bits.has lsr LineStatus.receiveReady = false

variable {s : Soc} {b : RegisterBlock} {bytes : List Byte}

/-! ### Scripts -/

theorem readPlace_script (s : Soc) (i : Nat) :
    ∀ lsr ∈ (s.readPlace i).2.lineStatusScript, lsr ∈ s.lineStatusScript := by
  intro lsr h
  unfold readPlace at h
  split at h
  · split at h
    · exact h
    · unfold receive at h
      split at h <;> exact h
  · exact h
  · exact h
  · exact h
  · exact h
  · unfold readLineStatus at h
    split at h
    · exact h
    · next value rest hs =>
      rw [hs]
      exact List.mem_cons_of_mem value h
  · unfold readModemStatus at h
    split at h <;> exact h
  · exact h

theorem Quiet.apply (h : s.Quiet) (a : Access) : (Access.apply s a).Quiet := by
  rcases s.apply_cases a with he | ⟨i, he⟩ | ⟨value, i, he⟩
  · rw [he]
    exact h
  · rw [he]
    exact fun lsr hl => h lsr (s.readPlace_script i lsr hl)
  · obtain ⟨_, _, _, _, _, _, _, hf⟩ := s.writePlace_frame value i
    rw [he, hf]
    exact h

theorem Quiet.replay (h : s.Quiet) (trace : List Access) : (ConsoleUart.replay s trace).Quiet :=
  replay_keeps (fun _ a quiet => quiet.apply a) h trace

/-! ### The queue -/

theorem Mapped.apply_received (h : s.Mapped b) {a : Access} (placed : a.InPlace b)
    (fits : a.Fits s.latchOpen)
    (inert : ∀ r address value, a = .read r address value → r ≠ .receiveBuffer ∧ r ≠ .transmitBuffer) :
    (Access.apply s a).received = s.received := by
  cases a with
  | readWord address word => rfl
  | write r address value =>
    cases placed
    rw [h.apply_write, writePlace_received]
  | read r address value =>
    cases placed
    rw [h.apply_read]
    cases r with
    | receiveBuffer => exact absurd rfl (inert _ _ _ rfl).1
    | transmitBuffer => exact absurd rfl (inert _ _ _ rfl).2
    | divisorLow =>
      have opened : s.latchOpen = true := (fits .divisorLow rfl).symm
      exact readPlace_received (Or.inr opened)
    | _ => exact readPlace_received (Or.inl (by decide))

theorem Mapped.replay_received {trace : List Access} (h : s.Mapped b)
    (ha : (Bus.discipline b).Accepts s trace)
    (inert : ∀ a ∈ trace, ∀ r address value, a = .read r address value →
      r ≠ .receiveBuffer ∧ r ≠ .transmitBuffer) :
    (ConsoleUart.replay s trace).received = s.received := by
  have kept := h.replay_queue (fun s => s.received) (fun _ => none)
    (fun _ _ mapped placed fits inert => by
      rw [mapped.apply_received placed fits inert, Option.toList_none, List.append_nil]) ha inert
  rw [kept, List.filterMap_eq_nil_iff.mpr fun _ _ => rfl, List.append_nil]

/-- The latch is closed, no script announces a byte and these bytes are waiting. -/
structure Holds (s : Soc) (bytes : List Byte) : Prop where
  closed : s.latchOpen = false
  quiet : s.Quiet
  received : s.received = bytes

theorem Holds.readLineStatus (h : s.Holds bytes) : s.readLineStatus.2.Holds bytes ∧
    (Bits.has s.readLineStatus.1 LineStatus.receiveReady = true → bytes ≠ []) := by
  cases hs : s.lineStatusScript with
  | nil =>
    have read : s.readLineStatus = (s.lineStatus, s) := by rw [Soc.readLineStatus, hs]
    rw [read]
    refine ⟨h, fun ready => ?_⟩
    rw [lineStatus, Bits.has_assign_receiveReady, receiveVisible, Bool.and_eq_true, h.received] at ready
    rintro rfl
    exact absurd ready.1 Bool.false_ne_true
  | cons lsr rest =>
    have read : s.readLineStatus = (lsr, { s with lineStatusScript := rest }) := by
      rw [Soc.readLineStatus, hs]
    have silent : Bits.has lsr LineStatus.receiveReady = false := by
      refine h.quiet lsr ?_
      rw [hs]
      exact List.mem_cons_self ..
    have later : ({ s with lineStatusScript := rest } : Soc).Quiet := by
      intro value hv
      refine h.quiet value ?_
      rw [hs]
      exact List.mem_cons_of_mem lsr hv
    rw [read]
    refine ⟨⟨h.closed, later, h.received⟩, fun ready => ?_⟩
    exact absurd (silent.symm.trans ready) Bool.false_ne_true

theorem Holds.readPlace {byte : Byte} (h : s.Holds (byte :: bytes)) :
    s.readPlace 0 = (byte, { s with received := bytes }) := by
  simp only [Soc.readPlace, h.closed, Soc.receive, h.received, Bool.false_eq_true, if_false]

end Soc

/-- A session that reads neither buffer takes nothing from the queue, whether it ends or not. -/
theorem Bus.Within.received {α : Type} {s : Soc} {u : MiniUart} {f : Footprint} {x : Bus Soc α}
    (h : Within (f.Covers u) x) (plain : f.Plain) (inert : .receiveBuffer ∉ f.reads ∧ .transmitBuffer ∉ f.reads)
    (mapped : s.Mapped u.registers) (closed : s.latchOpen = false) (n : Nat) :
    (x.run s n).state.received = s.received := by
  have accepts := (mapped.accepts_closed closed fun a ha => plain.access (h.mem s n a ha)).1
  rw [h.state_eq_replay]
  refine mapped.replay_received accepts ?_
  rintro a ha r address value rfl
  have covered : r ∈ f.reads := (h.mem s n _ ha).1
  constructor
  · rintro rfl
    exact inert.1 covered
  · rintro rfl
    exact inert.2 covered

/-! ### Reading -/

namespace MiniUart
open Bus

variable (u : MiniUart) {b : RegisterBlock} {s : Soc} {bytes : List Byte}

theorem orderly_receiverReady (h : s.Holds bytes) : Orderly u.registers u.receiverReady
    (fun ready t => t.Holds bytes ∧ (ready = true → bytes ≠ [])) s :=
  orderly_bind (orderly_read rfl (orderly_pure h.readLineStatus))

theorem orderly_pace (h : s.Holds bytes) (mcr : Option Byte) (rts : Bool) :
    Orderly u.registers (u.pace mcr rts) (fun _ t => t.Holds bytes) s := by
  cases mcr with
  | none => exact orderly_pure h
  | some mcr => exact orderly_write_modemControl ⟨h.closed, h.quiet, h.received⟩

theorem orderly_lookForByte (h : s.Holds bytes) (mcr : Option Byte) :
    Orderly u.registers (u.lookForByte mcr)
      (fun ready t => t.Holds bytes ∧ (ready = true → bytes ≠ [])) s := by
  refine orderly_bind (orderly_mono (orderly_receiverReady u h) fun ready t hr => ?_)
  refine orderly_ite (fun _ => orderly_pure hr) fun _ => orderly_bind ?_
  exact orderly_mono (orderly_pace u hr.1 mcr true) fun _ _ hp => orderly_pure ⟨hp, hr.2⟩

theorem orderly_receiveByte (h : s.Holds bytes) (mcr : Option Byte) :
    Orderly u.registers (u.receiveByte mcr)
      (fun byte t => ∃ rest, bytes = byte :: rest ∧ t.Holds rest) s := by
  have waiting : Orderly u.registers (Session.await (u.lookForByte mcr))
      (fun _ t => t.Holds bytes ∧ bytes ≠ []) s := by
    refine orderly_await (fun t => t.Holds bytes) (fun t ht => ?_) h
    refine orderly_mono (orderly_lookForByte u ht mcr) fun ready t hr => ?_
    cases ready with
    | true => exact ⟨hr.1, hr.2 rfl⟩
    | false => exact hr.1
  -- Lowering RTS may hide the byte that was seen, but does not take it back.
  refine orderly_bind (orderly_mono waiting fun _ t hw => orderly_bind ?_)
  obtain ⟨byte, rest, rfl⟩ := List.exists_cons_of_ne_nil hw.2
  refine orderly_mono (orderly_pace u hw.1 mcr false) fun _ t ht => ?_
  refine orderly_read ht.closed.symm ⟨rest, ?_, ?_⟩
  · show byte :: rest = (t.readPlace 0).1 :: rest
    rw [ht.readPlace]
  · show (t.readPlace 0).2.Holds rest
    rw [ht.readPlace]
    exact ⟨ht.closed, ht.quiet, rfl⟩

theorem orderly_receiveBytes (h : s.Holds bytes) (mcr : Option Byte) (n : Nat) :
    Orderly u.registers (u.receiveBytes mcr n)
      (fun taken t => taken.length = n ∧ ∃ rest, bytes = taken ++ rest ∧ t.Holds rest) s := by
  induction n generalizing s bytes with
  | zero => exact orderly_pure ⟨rfl, bytes, rfl, h⟩
  | succ n ih =>
    refine orderly_bind (orderly_mono (orderly_receiveByte u h mcr) fun byte t ht => ?_)
    obtain ⟨rest, rfl, hrest⟩ := ht
    refine orderly_bind (orderly_mono (ih hrest) fun taken t ht => ?_)
    obtain ⟨hlen, left, rfl, hleft⟩ := ht
    exact orderly_pure ⟨congrArg Nat.succ hlen, left, rfl, hleft⟩

/-- A read that ends has taken as many bytes as it was asked for from the front of the queue. -/
theorem orderly_receive (h : s.Holds bytes) (count : Nat) : Orderly u.registers (u.read count)
    (fun (taken : List Byte) t =>
      taken.length = count ∧ ∃ rest, bytes = taken ++ rest ∧ t.Holds rest) s := by
  refine orderly_ite (fun none => orderly_pure ⟨none.symm, bytes, rfl, h⟩) fun _ => orderly_bind ?_
  have based : Orderly u.registers u.pacingBase (fun _ t => t.Holds bytes) s :=
    orderly_ite (fun _ => orderly_bind (orderly_read rfl (orderly_pure h))) fun _ => orderly_pure h
  exact orderly_mono based fun mcr t ht => orderly_receiveBytes u ht mcr count

end MiniUart

/-! ### Steps -/

namespace Soc

def Change.arrivals : Change → List Byte
  | receive bytes => bytes
  | _ => []

/-- The change scripts no line status that announces a byte. -/
def Change.quiet : Change → Bool
  | lineStatusScript values => values.all fun lsr => !Bits.has lsr LineStatus.receiveReady
  | _ => true

theorem applyAll_received (s : Soc) (changes : List Change) :
    (s.applyAll changes).received = s.received ++ changes.flatMap Change.arrivals := by
  induction changes generalizing s with
  | nil => exact (List.append_nil _).symm
  | cons change rest ih =>
    have first : (s.apply change).received = s.received ++ change.arrivals := by
      cases change with
      | receive bytes => rfl
      | _ => exact (List.append_nil _).symm
    rw [List.flatMap_cons, ← List.append_assoc, ← first]
    exact ih (s.apply change)

theorem Quiet.applyAll {s : Soc} {changes : List Change} (h : s.Quiet)
    (quiet : ∀ change ∈ changes, change.quiet = true) : (s.applyAll changes).Quiet := by
  refine applyAll_keeps ?_ h
  intro change hc t ht
  have hq := quiet change hc
  cases change with
  | lineStatusScript values =>
    intro lsr hl
    rcases List.mem_append.mp hl with hl | hl
    · exact ht lsr hl
    · have silent := List.all_eq_true.mp hq lsr hl
      rw [Bool.not_eq_true'] at silent
      exact silent
  | _ => exact ht

end Soc

namespace Scenario

namespace Step

def arrivals : Step → List Byte
  | change soc _ => soc.flatMap Soc.Change.arrivals
  | _ => []

/-- The step does not script a line status that announces a byte. -/
def quiet : Step → Bool
  | change soc _ => soc.all Soc.Change.quiet
  | _ => true

variable {step : Step}

theorem arranged_received (step : Step) (s : Soc) :
    (step.arranged s).received = s.received ++ step.arrivals := by
  cases step with
  | change soc backend => exact s.applyAll_received soc
  | _ => exact (List.append_nil _).symm

theorem arranged_quiet {s : Soc} (h : s.Quiet) (quiet : step.quiet = true) : (step.arranged s).Quiet := by
  cases step with
  | change soc backend => exact h.applyAll (List.all_eq_true.mp quiet)
  | _ => exact h

theorem reads_or_inert (steady : step.steady = true) :
    (∃ handle count, step = .operate handle (.read count)) ∨
      .receiveBuffer ∉ step.footprint.reads ∧ .transmitBuffer ∉ step.footprint.reads := by
  cases step with
  | operate handle op =>
    cases op with
    | read count => exact Or.inl ⟨handle, count, rfl⟩
    | _ => exact Or.inr (by simp [footprint, operation?, Operation.footprint])
  | flush | print => exact Or.inr (by simp [footprint, operation?, Operation.footprint])
  | mini query => cases query <;> exact Or.inr (by simp [footprint, operation?])
  | registers query =>
    cases query with
    | base => exact Or.inr ⟨List.not_mem_nil, List.not_mem_nil⟩
    | read r => exact absurd steady Bool.false_ne_true
    | write r value => exact absurd steady Bool.false_ne_true
  | change | detected | select | pl011 => exact Or.inr ⟨List.not_mem_nil, List.not_mem_nil⟩

variable {c : Console} {board : Board}

theorem entry_quiet (h : OnMini c board) (scripts : board.soc.Quiet) (steady : step.steady = true)
    (quiet : step.quiet = true) (n : Nat) : (step.entry c n board).board.soc.Quiet := by
  rw [(h.fitting steady n).accounts]
  exact (arranged_quiet scripts quiet).replay _

theorem orderly_direct_read (u : MiniUart) {s : Soc} {bytes : List Byte} (h : s.Holds bytes)
    (handle : Handle) (count : Nat) :
    Bus.Orderly u.registers ((operate handle (.read count)).direct u)
      (fun reply t => ∃ taken, taken.length = count ∧ reply = .buffer count taken ∧
        taken ++ t.received = bytes) s := by
  refine Bus.orderly_map (Bus.orderly_mono (u.orderly_receive h count) ?_)
  intro (taken : List Byte) t ht
  obtain ⟨hlen, rest, hbytes, hrest⟩ := ht
  have full : Reply.ofAnswer (.read count) taken = .buffer count taken := by
    show Reply.buffer taken.length (taken ++ List.replicate (count - taken.length) 0) = _
    rw [hlen, Nat.sub_self, List.replicate_zero, List.append_nil]
  exact ⟨taken, hlen, full, by rw [hrest.received, hbytes]⟩

theorem entry_of_read {handle : Handle} {count : Nat} (hs : step = .operate handle (.read count))
    (h : OnMini c board) (scripts : board.soc.Quiet) (steady : step.steady = true) {n : Nat}
    (done : (step.entry c n board).reply ≠ none) :
    ∃ bytes, bytes.length = count ∧ (step.entry c n board).reply = some (.buffer count bytes) ∧
      bytes ++ (step.entry c n board).board.soc.received = board.soc.received := by
  have asks : step.operation? ≠ none := by
    rw [hs]
    exact Option.some_ne_none _
  rcases entry_cases c board step n with hb | ⟨-, lead, left, -, hf⟩
  · exact absurd (hb.cut (h.target steady asks)) done
  · have holds : board.soc.Holds board.soc.received := ⟨h.closed, scripts, rfl⟩
    obtain ⟨reply, hr⟩ := Option.ne_none_iff_exists'.mp done
    have outcome : ((step.direct c.mini).run board.soc left).outcome = some reply :=
      hf.reply.symm.trans hr
    have reads := orderly_direct_read c.mini holds handle count
    rw [← hs] at reads
    obtain ⟨bytes, hlen, hreply, hrest⟩ := (reads.run h.mapped left).2.2 reply outcome
    refine ⟨bytes, hlen, ?_, ?_⟩
    · rw [hr, hreply]
    · rw [hf.soc]
      exact hrest

theorem entry_of_inert (h : OnMini c board) (steady : step.steady = true)
    (other : ∀ handle count, step ≠ .operate handle (.read count)) (n : Nat) :
    (step.entry c n board).board.soc.received = board.soc.received ++ step.arrivals := by
  have hf := h.fitting steady n
  have mapped := (arranged_mapped (keepsLatch_of_steady steady) h.mapped).1
  have inert : ∀ a ∈ (step.entry c n board).trace, ∀ r address value, a = .read r address value →
      r ≠ .receiveBuffer ∧ r ≠ .transmitBuffer := by
    rcases reads_or_inert steady with ⟨handle, count, hs⟩ | ⟨hr, ht⟩
    · exact absurd hs (other handle count)
    · rintro a ha r address value rfl
      rcases covers_entry c board step n _ ha with ⟨word, hw⟩ | covered
      · cases hw
      · refine ⟨?_, ?_⟩
        · rintro rfl
          exact hr covered.1
        · rintro rfl
          exact ht covered.1
  rw [hf.accounts, mapped.replay_received hf.accepts inert, arranged_received]

/-- A completed read delivers what it takes from the front of the queue; no other step takes anything,
completed or not. -/
structure Receives (board : Board) (step : Step) (e : Entry) : Prop where
  delivered : ∀ handle count, step = .operate handle (.read count) → e.reply ≠ none →
    ∃ bytes, bytes.length = count ∧ e.reply = some (.buffer count bytes) ∧
      bytes ++ e.board.soc.received = board.soc.received
  untouched : (∀ handle count, step ≠ .operate handle (.read count)) →
    e.board.soc.received = board.soc.received ++ step.arrivals

theorem receives_entry (h : OnMini c board) (scripts : board.soc.Quiet) (steady : step.steady = true)
    (n : Nat) : Receives board step (step.entry c n board) :=
  ⟨fun _ _ hs done => entry_of_read hs h scripts steady done,
    fun other => entry_of_inert h steady other n⟩

end Step

/-! ### Runs -/

/-- The buffer that the step filled, if it is a read that was completed. -/
def Taken.filled (t : Taken) : List Byte :=
  match t.step, t.entry.reply with
  | .operate _ (.read _), some (.buffer _ bytes) => bytes
  | _, _ => []

theorem Taken.filled_append {t : Taken} (h : Step.Receives t.before t.step t.entry)
    (done : t.entry.reply ≠ none) :
    t.filled ++ t.entry.board.soc.received = t.before.soc.received ++ t.step.arrivals := by
  by_cases hs : ∃ handle count, t.step = .operate handle (.read count)
  · obtain ⟨handle, count, hs⟩ := hs
    obtain ⟨bytes, -, hr, hrest⟩ := h.delivered handle count hs done
    have filled : t.filled = bytes := by rw [Taken.filled, hs, hr]
    rw [filled, hrest, hs]
    exact (List.append_nil _).symm
  · have other : ∀ handle count, t.step ≠ .operate handle (.read count) :=
      fun handle count he => hs ⟨handle, count, he⟩
    have filled : t.filled = [] := by
      unfold Taken.filled
      split
      · next handle count _ bytes he _ => exact absurd he (other handle count)
      · rfl
    rw [filled, h.untouched other, List.nil_append]

/-- Over a whole run of completed steps, the buffers that the reads have filled and the bytes that are
still waiting make up the bytes that were waiting at first and all that have arrived since. -/
theorem received_is_delivered (c : Console) (budget : Nat) (board : Board) (steps : List Step)
    (mapped : board.soc.Mapped c.mini.registers) (closed : board.soc.latchOpen = false)
    (routed : c.routed board = .mini)
    (scripts : ∀ lsr ∈ board.soc.lineStatusScript, Bits.has lsr LineStatus.receiveReady = false)
    (steady : ∀ step ∈ steps, step.steady = true) (quiet : ∀ step ∈ steps, step.quiet = true)
    (completed : ∀ e ∈ run c budget board steps, e.reply ≠ none) :
    (taken c budget board steps).map Taken.step = steps ∧
    (taken c budget board steps).flatMap Taken.filled ++
        (ending board (run c budget board steps)).soc.received =
      board.soc.received ++ steps.flatMap Step.arrivals ∧
    ∀ t ∈ taken c budget board steps,
      (∀ handle count, t.step = .operate handle (.read count) →
        ∃ bytes, bytes.length = count ∧ t.entry.reply = some (.buffer count bytes)) ∧
      ((∀ handle count, t.step ≠ .operate handle (.read count)) →
        t.entry.board.soc.received = t.before.soc.received ++ t.step.arrivals) := by
  have done : ∀ t ∈ taken c budget board steps, t.entry.reply ≠ none := by
    intro t ht
    have entry : t.entry ∈ run c budget board steps := by
      rw [← taken_map_entry]
      exact List.mem_map.mpr ⟨t, ht, rfl⟩
    exact completed t.entry entry
  have each : ∀ t ∈ taken c budget board steps, Step.Receives t.before t.step t.entry := by
    have start : OnMini c board ∧ board.soc.Quiet := ⟨⟨mapped, closed, routed⟩, scripts⟩
    refine forall_taken (fun board => OnMini c board ∧ board.soc.Quiet) start ?_ ?_
    · intro board step hs h
      exact Step.receives_entry h.1 h.2 (steady step hs) budget
    · intro board step hs h done
      exact ⟨h.1.entry (steady step hs) done,
        Step.entry_quiet h.1 h.2 (steady step hs) (quiet step hs) budget⟩
  have all : (taken c budget board steps).map Taken.step = steps := taken_map_step done
  have total := balance (fun board => board.soc.received) Taken.filled (fun t => t.step.arrivals) steps
    fun t ht => Taken.filled_append (each t ht) (done t ht)
  have arrivals : (taken c budget board steps).flatMap (fun t => t.step.arrivals) =
      steps.flatMap Step.arrivals := by
    rw [← List.flatMap_map Taken.step Step.arrivals, all]
  rw [arrivals] at total
  refine ⟨all, total, fun t ht => ⟨fun handle count hs => ?_, (each t ht).untouched⟩⟩
  obtain ⟨bytes, hlen, hr, -⟩ := (each t ht).delivered handle count hs (done t ht)
  exact ⟨bytes, hlen, hr⟩

/-- The peer holds its bytes back until RTS invites them; reading, polling and programming are mixed. -/
theorem received_is_delivered_invited :
    let c : Console := {
      layout := .rpi3, config := { Config.rpi3 with flow := { enabled := true, detectCable := false } } }
    let steps : List Step := [.change [.holdsBack true, .receive [1, 2, 3]] [],
      .operate .console .configure, .operate .console (.read 2), .operate .active (.setAttributes { baudRate := some 9600 }),
      .change [.lineStatusScript [0x60, 0x20], .receive [4]] [], .operate .mini .poll,
      .operate .console (.read 1)]
    (powerUp c).soc.Mapped c.mini.registers ∧ (powerUp c).soc.latchOpen = false ∧
    c.routed (powerUp c) = .mini ∧
    (∀ lsr ∈ (powerUp c).soc.lineStatusScript, Bits.has lsr LineStatus.receiveReady = false) ∧
    (∀ step ∈ steps, step.steady = true) ∧ (∀ step ∈ steps, step.quiet = true) ∧
    (∀ e ∈ run c 20 (powerUp c) steps, e.reply ≠ none) ∧
    (ending (powerUp c) (run c 20 (powerUp c) steps)).soc.received = [4] ∧
    (taken c 20 (powerUp c) steps).map Taken.step = steps ∧
    (taken c 20 (powerUp c) steps).flatMap Taken.filled ++
        (ending (powerUp c) (run c 20 (powerUp c) steps)).soc.received =
      (powerUp c).soc.received ++ steps.flatMap Step.arrivals ∧
    ∀ t ∈ taken c 20 (powerUp c) steps,
      (∀ handle count, t.step = .operate handle (.read count) →
        ∃ bytes, bytes.length = count ∧ t.entry.reply = some (.buffer count bytes)) ∧
      ((∀ handle count, t.step ≠ .operate handle (.read count)) →
        t.entry.board.soc.received = t.before.soc.received ++ t.step.arrivals) := by
  intro c steps
  have mapped : (powerUp c).soc.Mapped c.mini.registers := powerUp_mapped (by decide) (by decide)
  have closed : (powerUp c).soc.latchOpen = false := powerUp_closed c
  have routed : c.routed (powerUp c) = .mini := by decide
  have scripts : ∀ lsr ∈ (powerUp c).soc.lineStatusScript, Bits.has lsr LineStatus.receiveReady = false :=
    List.forall_mem_nil _
  have steady : ∀ step ∈ steps, step.steady = true := by decide
  have quiet : ∀ step ∈ steps, step.quiet = true := by decide
  have completed : ∀ e ∈ run c 20 (powerUp c) steps, e.reply ≠ none := by decide +kernel
  have left : (ending (powerUp c) (run c 20 (powerUp c) steps)).soc.received = [4] := by decide +kernel
  exact ⟨mapped, closed, routed, scripts, steady, quiet, completed, left,
    received_is_delivered c 20 (powerUp c) steps mapped closed routed scripts steady quiet completed⟩

end Scenario

end ConsoleUart
