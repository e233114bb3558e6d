import ConsoleUart.Proofs.Programming
import ConsoleUart.Proofs.Routing
import ConsoleUart.Proofs.Runs

/-!
# The latch discipline over runs

A step starts on the chip as the surroundings leave it. From there its trace accounts for all it does to
the chip; the accesses fit the latch, and a step that is completed leaves the latch closed. By induction
this holds for all steps of a run, whatever their order and wherever the last one is cut short.
-/

namespace ConsoleUart

namespace Soc

/-- The change leaves the registers in their places and the latch as it is. -/
def Change.keepsLatch : Change → Bool
  | base _ | stride _ | lineControl _ => false
  | _ => true

theorem applyAll_keeps {p : Soc → Prop} {changes : List Change} {s : Soc}
    (one : ∀ change ∈ changes, ∀ s, p s → p (s.apply change)) (start : p s) : p (s.applyAll changes) := by
  induction changes generalizing s with
  | nil => exact start
  | cons change rest ih =>
    have first : p (s.apply change) := one change (List.mem_cons_self ..) s start
    exact ih (fun change hc => one change (List.mem_cons_of_mem _ hc)) first

theorem Mapped.applyAll {s : Soc} {b : RegisterBlock} {changes : List Change}
    (keeps : ∀ change ∈ changes, change.keepsLatch = true) (mapped : s.Mapped b) :
    (s.applyAll changes).Mapped b ∧ (s.applyAll changes).lineControl = s.lineControl := by
  refine applyAll_keeps (p := fun t => t.Mapped b ∧ t.lineControl = s.lineControl) ?_ ⟨mapped, rfl⟩
  intro change hc t h
  have hk := keeps change hc
  obtain ⟨⟨hb, hs, ha, hr⟩, hl⟩ := h
  cases change with
  | base | stride | lineControl => exact absurd hk Bool.false_ne_true
  | _ => exact ⟨⟨hb, hs, ha, hr⟩, hl⟩

end Soc

namespace Scenario

namespace Step

/-- An operation or a question, or a change from outside that keeps the latch. A register may be read
directly if it is not one of the latch; none is written directly. -/
def keepsLatch : Step → Bool
  | change soc _ => soc.all Soc.Change.keepsLatch
  | registers (.read r) => decide (r.Fits false)
  | registers (.write ..) => false
  | _ => true

theorem arranged_mapped {step : Step} {s : Soc} {b : RegisterBlock} (keeps : step.keepsLatch = true)
    (mapped : s.Mapped b) :
    (step.arranged s).Mapped b ∧ (step.arranged s).lineControl = s.lineControl := by
  cases step with
  | change soc backend => exact mapped.applyAll fun change hc => List.all_eq_true.mp keeps change hc
  | _ => exact ⟨mapped, rfl⟩

variable {step : Step}

/-! ### One step -/

theorem orderly_direct (u : MiniUart) {s : Soc} (keeps : step.keepsLatch = true)
    (closed : s.latchOpen = false) :
    Bus.Orderly u.registers (step.direct u) (fun _ t => t.latchOpen = false) s := by
  have plainly (plain : step.footprint.Plain) :
      Bus.Orderly u.registers (step.direct u) (fun _ t => t.latchOpen = false) s :=
    Bus.orderly_of_within (within_direct u step) plain closed
  cases step with
  | operate handle op => exact Bus.orderly_map (u.orderly_perform closed op)
  | flush | print => exact plainly (Operation.footprint_plain nofun nofun)
  | mini query =>
    cases query with
    | divisor baud => exact plainly ⟨List.forall_mem_nil _, List.forall_mem_nil _⟩
    | _ => exact plainly (by decide)
  | registers query =>
    cases query with
    | base => exact plainly (by decide)
    | read r =>
      have fits : r.Fits false := of_decide_eq_true keeps
      exact plainly ⟨List.forall_mem_singleton.mpr fits, List.forall_mem_nil _⟩
    | write r value => exact absurd keeps Bool.false_ne_true
  | change | detected | select | pl011 => exact plainly ⟨List.forall_mem_nil _, List.forall_mem_nil _⟩

/-- What a step does to the chip: its accesses fit and account for the change, and the latch is closed
where the step is completed. -/
structure Fitting (c : Console) (board : Board) (step : Step) (e : Entry) : Prop where
  accepts : (Bus.discipline c.mini.registers).Accepts (step.arranged board.soc) e.trace
  accounts : e.board.soc = replay (step.arranged board.soc) e.trace
  mapped : e.board.soc.Mapped c.mini.registers
  closed : e.reply ≠ none → e.board.soc.latchOpen = false

variable {c : Console} {board : Board}

theorem accepts_lead {lead : List Access} {b : RegisterBlock} {address : Nat}
    (h : lead = [] ∨ ∃ word, lead = [.readWord address word]) (s : Soc) :
    (Bus.discipline b).Accepts s lead ∧ replay s lead = s := by
  rcases h with rfl | ⟨word, rfl⟩
  · exact ⟨trivial, rfl⟩
  · exact ⟨⟨⟨trivial, nofun⟩, trivial⟩, rfl⟩

theorem fitting_entry (keeps : step.keepsLatch = true) (mapped : board.soc.Mapped c.mini.registers)
    (closed : board.soc.latchOpen = false) (n : Nat) :
    Fitting c board step (step.entry c n board) := by
  rcases entry_cases c board step n with hb | ⟨ht, lead, left, -, hf⟩
  · obtain ⟨ha, hr⟩ := accepts_lead (b := c.mini.registers) hb.trace (step.arranged board.soc)
    obtain ⟨hm, hl⟩ := arranged_mapped keeps mapped
    refine ⟨ha, by rw [hb.soc, hr], by rw [hb.soc]; exact hm, fun _ => ?_⟩
    rw [hb.soc, Soc.latchOpen, hl]
    exact closed
  · -- The lead leaves the chip as it was, so the direct session starts where the step does.
    obtain ⟨hla, hlr⟩ := accepts_lead (b := c.mini.registers) hf.start board.soc
    obtain ⟨ha, hst, hd⟩ := (orderly_direct c.mini keeps closed).run mapped left
    have accepts : (Bus.discipline c.mini.registers).Accepts board.soc (step.entry c n board).trace := by
      rw [hf.trace, Monitor.accepts_append]
      refine ⟨hla, ?_⟩
      rw [Bus.discipline, Bus.after_history, hlr]
      exact ha
    have accounts : (step.entry c n board).board.soc = replay board.soc (step.entry c n board).trace := by
      rw [hf.soc, hst, hf.trace, replay_append, hlr]
    have hs : step.arranged board.soc = board.soc := arranged_of_target ht board.soc
    refine ⟨by rw [hs]; exact accepts, by rw [hs]; exact accounts, ?_, fun hr => ?_⟩
    · rw [accounts]
      exact mapped.replay accepts
    · obtain ⟨reply, hr⟩ := Option.ne_none_iff_exists'.mp hr
      rw [hf.soc]
      exact hd reply (hf.reply.symm.trans hr)

end Step

/-! ### Power-up -/

theorem powerUp_mapped {c : Console} (apart : 1 ≤ c.config.registerStride)
    (inRange : c.layout.miniUartBase + 6 * c.config.registerStride < 0x10000000000000000) :
    (powerUp c).soc.Mapped c.mini.registers := ⟨rfl, rfl, apart, inRange⟩

theorem powerUp_closed (c : Console) : (powerUp c).soc.latchOpen = false := by
  show Bits.meets (0 : Byte) latchBit = false
  decide

/-! ### Runs -/

variable {c : Console} {budget : Nat} {board : Board} {steps : List Step}

/-- While the steps keep the latch, each of them starts on a mapped chip with its latch closed. -/
theorem forall_taken_closed {p : Taken → Prop} (mapped : board.soc.Mapped c.mini.registers)
    (closed : board.soc.latchOpen = false) (keeps : ∀ step ∈ steps, step.keepsLatch = true)
    (holds : ∀ board, ∀ step ∈ steps, board.soc.Mapped c.mini.registers → board.soc.latchOpen = false →
      p ⟨board, step, step.entry c budget board⟩) : ∀ t ∈ taken c budget board steps, p t := by
  refine forall_taken (fun board => board.soc.Mapped c.mini.registers ∧ board.soc.latchOpen = false)
    ⟨mapped, closed⟩ ?_ ?_
  · intro board step hs h
    exact holds board step hs h.1 h.2
  · intro board step hs h done
    have hf := Step.fitting_entry (keeps step hs) h.1 h.2 budget
    exact ⟨hf.mapped, hf.closed done⟩

theorem fitting_taken (mapped : board.soc.Mapped c.mini.registers) (closed : board.soc.latchOpen = false)
    (keeps : ∀ step ∈ steps, step.keepsLatch = true) :
    ∀ t ∈ taken c budget board steps, t.step.Fitting c t.before t.entry :=
  forall_taken_closed mapped closed keeps fun _ step hs mapped closed =>
    Step.fitting_entry (keeps step hs) mapped closed budget

/-- Over a whole run, each access goes to the place of the register it is meant for while the latch lets
the place hold that register, and the latch is closed after every completed step. -/
theorem latch_fits_throughout (c : Console) (budget : Nat) (board : Board) (steps : List Step)
    (mapped : board.soc.Mapped c.mini.registers) (closed : board.soc.latchOpen = false)
    (keeps : ∀ step ∈ steps, step.keepsLatch = true) :
    ∀ t ∈ taken c budget board steps,
      (∀ done a rest, t.entry.trace = done ++ a :: rest →
        a.InPlace c.mini.registers ∧ ∀ r isOpen, a.register? = some r → r.latch? = some isOpen →
          (replay (t.step.arranged t.before.soc) done).latchOpen = isOpen) ∧
      t.entry.board.soc = replay (t.step.arranged t.before.soc) t.entry.trace ∧
      (t.entry.reply ≠ none → t.entry.board.soc.latchOpen = false) := by
  intro t ht
  have hf := fitting_taken mapped closed keeps t ht
  refine ⟨fun done a rest split => ?_, hf.accounts, hf.closed⟩
  obtain ⟨placed, fits⟩ := hf.accepts.allows split
  refine ⟨placed, fun r isOpen hr hl => ?_⟩
  have hfit : r.latch?.getD _ = _ := fits r hr
  rw [hl] at hfit
  exact hfit.symm

/-- A console is configured, its speed is set, a byte arrives and two are waited for, in vain. -/
theorem latch_fits_throughout_reprogramming :
    let c : Console := { layout := .rpi3, config := .rpi3 }
    let steps : List Step := [.operate .console .configure,
      .operate .active (.setAttributes { baudRate := some 9600 }), .change [.receive [0x41]] [],
      .operate .mini (.read 2)]
    (powerUp c).soc.Mapped c.mini.registers ∧ (powerUp c).soc.latchOpen = false ∧
    (∀ step ∈ steps, step.keepsLatch = true) ∧
    (run c 30 (powerUp c) steps).map (fun e => e.trace.length) = [18, 6, 0, 30] ∧
    ∀ t ∈ taken c 30 (powerUp c) steps,
      (∀ done a rest, t.entry.trace = done ++ a :: rest →
        a.InPlace c.mini.registers ∧ ∀ r isOpen, a.register? = some r → r.latch? = some isOpen →
          (replay (t.step.arranged t.before.soc) done).latchOpen = isOpen) ∧
      t.entry.board.soc = replay (t.step.arranged t.before.soc) t.entry.trace ∧
      (t.entry.reply ≠ none → t.entry.board.soc.latchOpen = false) := by
  intro c steps
  have mapped : (powerUp c).soc.Mapped c.mini.registers := powerUp_mapped (by decide) (by decide)
  have closed : (powerUp c).soc.latchOpen = false := powerUp_closed c
  have keeps : ∀ step ∈ steps, step.keepsLatch = true := by decide
  have lengths : (run c 30 (powerUp c) steps).map (fun e => e.trace.length) = [18, 6, 0, 30] := by
    decide +kernel
  exact ⟨mapped, closed, keeps, lengths, latch_fits_throughout c 30 (powerUp c) steps mapped closed keeps⟩

end Scenario

end ConsoleUart
