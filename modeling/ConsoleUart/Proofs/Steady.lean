import ConsoleUart.Proofs.Discipline

/-!
# Steady runs on the mini UART

A steady step asks the console or the mini UART for an operation and never touches a register directly;
from outside it changes neither the mapping, nor the latch, nor the words that the driver reads. Steady
steps keep a console on the mini UART with a mapped chip and a closed latch.
-/

namespace ConsoleUart

namespace Soc

/-- The change keeps the latch and the two words. -/
def Change.steady : Change → Bool
  | pinFunctions _ | clockDivisor _ => false
  | change => change.keepsLatch

theorem Change.keepsLatch_of_steady {change : Change} (h : change.steady = true) :
    change.keepsLatch = true := by
  cases change with
  | pinFunctions | clockDivisor => rfl
  | _ => exact h

/-! ### Words -/

theorem loadWord_applyAll {changes : List Change} (steady : ∀ change ∈ changes, change.steady = true)
    (s : Soc) (address : Nat) :
    AddressSpace.loadWord (s.applyAll changes) address = AddressSpace.loadWord s address := by
  refine applyAll_keeps (p := fun t => AddressSpace.loadWord t address = AddressSpace.loadWord s address)
    ?_ rfl
  intro change hc t h
  have hs := steady change hc
  cases change with
  | pinFunctions | clockDivisor => exact absurd hs Bool.false_ne_true
  | _ => exact h

end Soc

namespace Scenario

namespace Step

/-- An operation or a question for the console or the mini UART, or a steady change. -/
def steady : Step → Bool
  | change soc _ => soc.all Soc.Change.steady
  | operate .pl011 _ => false
  | registers (.read _) | registers (.write ..) => false
  | _ => true

variable {step : Step}

theorem keepsLatch_of_steady (h : step.steady = true) : step.keepsLatch = true := by
  cases step with
  | change soc backend =>
    have each := List.all_eq_true.mp h
    exact List.all_eq_true.mpr fun change hc => Soc.Change.keepsLatch_of_steady (each change hc)
  | registers query =>
    cases query with
    | base => rfl
    | read r => exact absurd h Bool.false_ne_true
    | write r value => exact absurd h Bool.false_ne_true
  | _ => rfl

theorem loadWord_arranged (h : step.steady = true) (s : Soc) (address : Nat) :
    AddressSpace.loadWord (step.arranged s) address = AddressSpace.loadWord s address := by
  cases step with
  | change soc backend => exact Soc.loadWord_applyAll (List.all_eq_true.mp h) s address
  | _ => rfl

end Step

/-- The console goes to the mini UART, whose chip is mapped and has its latch closed. -/
structure OnMini (c : Console) (board : Board) : Prop where
  mapped : board.soc.Mapped c.mini.registers
  closed : board.soc.latchOpen = false
  routed : c.routed board = .mini

namespace OnMini

variable {c : Console} {board : Board} {step : Step}

theorem fitting (h : OnMini c board) (steady : step.steady = true) (n : Nat) :
    step.Fitting c board (step.entry c n board) :=
  Step.fitting_entry (Step.keepsLatch_of_steady steady) h.mapped h.closed n

theorem entry (h : OnMini c board) (steady : step.steady = true) {n : Nat}
    (done : (step.entry c n board).reply ≠ none) : OnMini c (step.entry c n board).board := by
  have hf := h.fitting steady n
  have words : AddressSpace.loadWord (step.entry c n board).board.soc c.layout.pinFunctions =
      AddressSpace.loadWord board.soc c.layout.pinFunctions := by
    rw [hf.accounts, Soc.loadWord_replay, Step.loadWord_arranged steady]
  refine ⟨hf.mapped, hf.closed done, ?_⟩
  -- Either the selection is known by now, or the pins still say what they said.
  have routed : c.routed board = .mini := h.routed
  rw [Console.routed] at routed ⊢
  rw [words]
  rcases Step.entry_detected c board step n with hd | hd
  · rw [hd, routed]
  · rw [hd, h.routed, Option.getD_some]

/-- A steady step that asks for an operation asks the mini UART. -/
theorem target (h : OnMini c board) (steady : step.steady = true)
    (asks : step.operation? ≠ none) : step.target c board = some .mini := by
  cases step with
  | operate handle op =>
    cases handle with
    | console => exact congrArg some h.routed
    | active => exact congrArg some h.routed
    | mini => rfl
    | pl011 => exact absurd steady Bool.false_ne_true
  | flush => exact congrArg some h.routed
  | print text => exact congrArg some h.routed
  | change | detected | select | mini | registers | pl011 => exact absurd rfl asks

end OnMini

theorem forall_taken_onMini {c : Console} {budget : Nat} {board : Board} {steps : List Step}
    {p : Taken → Prop} (start : OnMini c board) (steady : ∀ step ∈ steps, step.steady = true)
    (holds : ∀ board, ∀ step ∈ steps, OnMini c board → p ⟨board, step, step.entry c budget board⟩) :
    ∀ t ∈ taken c budget board steps, p t :=
  forall_taken (OnMini c) start holds fun _ step hs h done => h.entry (steady step hs) done

end Scenario

end ConsoleUart
