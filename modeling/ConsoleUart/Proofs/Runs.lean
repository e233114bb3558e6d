import ConsoleUart.Scenario

/-!
# Runs of a scenario

The steps that a run takes, each with the board that it starts from. What every completed step keeps
holds before each of them, and queues that balance over each step balance over the run. What the steps write
to a part of the board adds up, and each component of that part ends as the last write to it left it.
-/

namespace ConsoleUart

theorem getLast?_filterMap_cons {ω β : Type} (code : ω → Option β) (w : ω) (later : List ω) (b : β) :
    (((w :: later).filterMap code).getLast?).getD b =
      ((later.filterMap code).getLast?).getD ((code w).getD b) := by
  cases hc : code w with
  | none => rw [List.filterMap_cons_none hc, Option.getD_none]
  | some c => rw [List.filterMap_cons_some hc, List.getLast?_cons, Option.getD_some, Option.getD_some]

/-- A component that each write replaces or keeps ends as the last write that replaces it left it. -/
theorem last_foldl {α ω β : Type} {apply : α → ω → α} (component : α → β) {code : ω → Option β}
    (one : ∀ a w, component (apply a w) = (code w).getD (component a)) (a : α) (writes : List ω) :
    component (writes.foldl apply a) = ((writes.filterMap code).getLast?).getD (component a) := by
  induction writes generalizing a with
  | nil => rfl
  | cons w later ih => rw [List.foldl_cons, ih, one, getLast?_filterMap_cons]

namespace Scenario

structure Taken where
  before : Board
  step : Step
  entry : Entry

/-- The steps of a run, up to and including the first that is cut short. -/
def taken (c : Console) (budget : Nat) : Board → List Step → List Taken
  | _, [] => []
  | board, step :: rest =>
    let entry := step.entry c budget board
    match entry.reply with
    | none => [{ before := board, step, entry }]
    | some _ => { before := board, step, entry } :: taken c budget entry.board rest

/-- The board that the last of the entries leaves behind. -/
def ending (board : Board) (entries : List Entry) : Board := entries.foldl (fun _ e => e.board) board

/-- The board with its chip just powered up, where the console looks for it. -/
def powerUp (c : Console) : Board where
  soc := .initial c.layout c.config.registerStride
  backend := {}

variable {c : Console} {budget : Nat} {board : Board} {step : Step} {rest : List Step}

/-! ### One more step -/

theorem taken_of_cut (h : (step.entry c budget board).reply = none) :
    taken c budget board (step :: rest) = [⟨board, step, step.entry c budget board⟩] := by
  simp only [taken, h]

theorem run_of_cut (h : (step.entry c budget board).reply = none) :
    run c budget board (step :: rest) = [step.entry c budget board] := by
  simp only [run, h]

theorem taken_of_done {reply : Reply} (h : (step.entry c budget board).reply = some reply) :
    taken c budget board (step :: rest) =
      ⟨board, step, step.entry c budget board⟩ ::
        taken c budget (step.entry c budget board).board rest := by
  rw [taken]
  simp only [h]

/-- What comes after the first step is a run from the board that it leaves, or nothing. -/
theorem taken_cons (c : Console) (budget : Nat) (board : Board) (step : Step) (rest : List Step) :
    ∃ later, taken c budget board (step :: rest) = ⟨board, step, step.entry c budget board⟩ :: later ∧
      (later = [] ∨ later = taken c budget (step.entry c budget board).board rest) := by
  cases h : (step.entry c budget board).reply with
  | none => exact ⟨[], taken_of_cut h, Or.inl rfl⟩
  | some reply => exact ⟨_, taken_of_done h, Or.inr rfl⟩

theorem run_of_done {reply : Reply} (h : (step.entry c budget board).reply = some reply) :
    run c budget board (step :: rest) =
      step.entry c budget board :: run c budget (step.entry c budget board).board rest := by
  rw [run]
  simp only [h]

/-! ### What a run takes -/

theorem taken_map_entry (board : Board) (steps : List Step) :
    (taken c budget board steps).map Taken.entry = run c budget board steps := by
  induction steps generalizing board with
  | nil => rfl
  | cons step rest ih =>
    cases h : (step.entry c budget board).reply with
    | none => rw [taken_of_cut h, run_of_cut h, List.map_singleton]
    | some reply => rw [taken_of_done h, run_of_done h, List.map_cons, ih]

theorem taken_map_step {steps : List Step}
    (completed : ∀ t ∈ taken c budget board steps, t.entry.reply ≠ none) :
    (taken c budget board steps).map Taken.step = steps := by
  induction steps generalizing board with
  | nil => rfl
  | cons step rest ih =>
    cases h : (step.entry c budget board).reply with
    | none =>
      rw [taken_of_cut h] at completed
      exact absurd h (completed _ (List.mem_singleton.mpr rfl))
    | some reply =>
      rw [taken_of_done h] at completed ⊢
      rw [List.map_cons, ih fun t ht => completed t (List.mem_cons_of_mem _ ht)]

/-- Only the last step that a run takes can have been cut short. -/
theorem taken_split (c : Console) (budget : Nat) (board : Board) (steps : List Step) :
    ∃ completed blocked, taken c budget board steps = completed ++ blocked ∧
      (∀ t ∈ completed, t.entry.reply ≠ none) ∧ (∀ t ∈ blocked, t.entry.reply = none) ∧
      blocked.length ≤ 1 := by
  induction steps generalizing board with
  | nil => exact ⟨[], [], rfl, List.forall_mem_nil _, List.forall_mem_nil _, Nat.zero_le 1⟩
  | cons step rest ih =>
    cases h : (step.entry c budget board).reply with
    | none =>
      rw [taken_of_cut h]
      refine ⟨[], _, rfl, List.forall_mem_nil _, ?_, Nat.le_refl 1⟩
      intro t ht
      rw [List.mem_singleton.mp ht]
      exact h
    | some reply =>
      obtain ⟨completed, blocked, split, hc, hb, hl⟩ := ih (step.entry c budget board).board
      rw [taken_of_done h, split]
      refine ⟨_ :: completed, blocked, rfl, ?_, hb, hl⟩
      intro t ht
      rcases List.mem_cons.mp ht with rfl | ht
      · rw [h]
        exact Option.some_ne_none reply
      · exact hc t ht

/-! ### The board along a run -/

/-- A run is its first step and a run from the board that this step leaves. -/
theorem of_taken_eq_cons {steps : List Step} {t : Taken} {later : List Taken}
    (split : taken c budget board steps = t :: later) :
    t.before = board ∧ ∃ rest, later = taken c budget t.entry.board rest := by
  cases steps with
  | nil => cases split
  | cons step rest =>
    obtain ⟨tail, first, next⟩ := taken_cons c budget board step rest
    rw [first] at split
    cases split
    refine ⟨rfl, ?_⟩
    rcases next with none | next
    · exact ⟨[], none⟩
    · exact ⟨rest, next⟩

theorem before_eq_ending {steps : List Step} {earlier later : List Taken} {t : Taken}
    (split : taken c budget board steps = earlier ++ t :: later) :
    t.before = ending board (earlier.map Taken.entry) := by
  induction earlier generalizing board steps with
  | nil => exact (of_taken_eq_cons split).1
  | cons first earlier ih =>
    obtain ⟨-, rest, next⟩ := of_taken_eq_cons split
    exact ih next.symm

/-- What the steps write to a part of the board, each of them one write at most, leads from the part as the
run found it to the part as they leave it. -/
theorem part_of_ending {α ω : Type} (part : Board → α) {write? : Taken → Option ω} {apply : α → ω → α}
    {steps : List Step} {earlier later : List Taken} (split : taken c budget board steps = earlier ++ later)
    (one : ∀ t ∈ earlier, part t.entry.board = (write? t).elim (part t.before) (apply (part t.before))) :
    part (ending board (earlier.map Taken.entry)) = (earlier.filterMap write?).foldl apply (part board) := by
  induction earlier generalizing board steps with
  | nil => rfl
  | cons t earlier ih =>
    obtain ⟨before, rest, next⟩ := of_taken_eq_cons split
    have first := one t (List.mem_cons_self ..)
    have others := ih next.symm fun t ht => one t (List.mem_cons_of_mem _ ht)
    rw [before] at first
    show part (ending t.entry.board (earlier.map Taken.entry)) = _
    rw [others, first]
    cases hw : write? t with
    | none => rw [List.filterMap_cons_none hw, Option.elim_none]
    | some w => rw [List.filterMap_cons_some hw, Option.elim_some, List.foldl_cons]

/-! ### Invariants -/

/-- What each completed step keeps holds wherever a step starts, and with it all that follows for the
step. -/
theorem forall_taken (inv : Board → Prop) {p : Taken → Prop} {steps : List Step} (start : inv board)
    (holds : ∀ board, ∀ step ∈ steps, inv board → p ⟨board, step, step.entry c budget board⟩)
    (kept : ∀ board, ∀ step ∈ steps, inv board → (step.entry c budget board).reply ≠ none →
      inv (step.entry c budget board).board) :
    ∀ t ∈ taken c budget board steps, p t := by
  induction steps generalizing board with
  | nil => exact List.forall_mem_nil _
  | cons step rest ih =>
    have first := holds board step (List.mem_cons_self ..) start
    intro t ht
    cases h : (step.entry c budget board).reply with
    | none =>
      rw [taken_of_cut h] at ht
      rw [List.mem_singleton.mp ht]
      exact first
    | some reply =>
      rw [taken_of_done h] at ht
      rcases List.mem_cons.mp ht with rfl | ht
      · exact first
      · have done : (step.entry c budget board).reply ≠ none := by
          rw [h]
          exact Option.some_ne_none reply
        have next := kept board step (List.mem_cons_self ..) start done
        exact ih next (fun board step hs => holds board step (List.mem_cons_of_mem _ hs))
          (fun board step hs => kept board step (List.mem_cons_of_mem _ hs)) t ht

theorem forall_run {p : Entry → Prop} {steps : List Step}
    (holds : ∀ board, ∀ step ∈ steps, p (step.entry c budget board)) (board : Board) :
    ∀ e ∈ run c budget board steps, p e := by
  have each : ∀ t ∈ taken c budget board steps, p t.entry :=
    forall_taken (fun _ => True) trivial (fun board step hs _ => holds board step hs)
      fun _ _ _ _ _ => trivial
  intro e he
  rw [← taken_map_entry] at he
  obtain ⟨t, ht, rfl⟩ := List.mem_map.mp he
  exact each t ht

/-- What leaves a queue over the run and what is left in it are what was in it and what has joined it. -/
theorem balance {α : Type} (queue : Board → List α) (out into : Taken → List α) (steps : List Step)
    (h : ∀ t ∈ taken c budget board steps, out t ++ queue t.entry.board = queue t.before ++ into t) :
    (taken c budget board steps).flatMap out ++ queue (ending board (run c budget board steps)) =
      queue board ++ (taken c budget board steps).flatMap into := by
  induction steps generalizing board with
  | nil =>
    simp only [taken, run, ending, List.flatMap_nil, List.foldl_nil, List.nil_append, List.append_nil]
  | cons step rest ih =>
    cases hr : (step.entry c budget board).reply with
    | none =>
      rw [taken_of_cut hr] at h ⊢
      rw [run_of_cut hr, List.flatMap_singleton, List.flatMap_singleton]
      exact h _ (List.mem_singleton.mpr rfl)
    | some reply =>
      rw [taken_of_done hr] at h ⊢
      rw [run_of_done hr]
      have first := h _ (List.mem_cons_self ..)
      have others := ih fun t ht => h t (List.mem_cons_of_mem _ ht)
      simp only [List.flatMap_cons, List.append_assoc]
      show _ ++ (_ ++ queue (ending (step.entry c budget board).board _)) = _
      rw [others, ← List.append_assoc, first, List.append_assoc]

end Scenario

end ConsoleUart
