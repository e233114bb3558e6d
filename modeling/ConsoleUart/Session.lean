/-!
# Sessions

A session acts on a device, records what it did, and may be cut short. It runs on a budget: each
device access takes one unit, and a session that needs an access with nothing left ends without an
outcome, keeping the state and the record up to that point. That is also how a wait that never ends is
observed.
-/

namespace ConsoleUart

/-- What a session leaves behind. One that was cut short has no outcome. -/
structure Run (σ ε α : Type) where
  outcome : Option α
  events : List ε
  state : σ
  budget : Nat

def Session (σ ε α : Type) := σ → Nat → Run σ ε α

namespace Session

variable {σ τ ε ε' α β : Type}

def run (x : Session σ ε α) (s : σ) (budget : Nat) : Run σ ε α := x s budget

/-- Goes on from a finished run. -/
def resume (r : Run σ ε α) (f : α → Session σ ε β) : Run σ ε β :=
  match r.outcome with
  | none => { outcome := none, events := r.events, state := r.state, budget := r.budget }
  | some a =>
    let next := f a r.state r.budget
    { next with events := r.events ++ next.events }

instance : Monad (Session σ ε) where
  pure a := fun s n => { outcome := some a, events := [], state := s, budget := n }
  bind x f := fun s n => resume (x s n) f

@[simp] theorem run_pure (a : α) (s : σ) (n : Nat) :
    (pure a : Session σ ε α).run s n = { outcome := some a, events := [], state := s, budget := n } := rfl

theorem run_bind (x : Session σ ε α) (f : α → Session σ ε β) (s : σ) (n : Nat) :
    (x >>= f).run s n = resume (x.run s n) f := rfl

@[simp] theorem resume_some (a : α) (events : List ε) (s : σ) (n : Nat) (f : α → Session σ ε β) :
    resume ⟨some a, events, s, n⟩ f =
      { (f a).run s n with events := events ++ ((f a).run s n).events } := rfl

@[simp] theorem resume_none (events : List ε) (s : σ) (n : Nat) (f : α → Session σ ε β) :
    resume ⟨none, events, s, n⟩ f = ⟨none, events, s, n⟩ := rfl

theorem resume_congr {r : Run σ ε α} {f g : α → Session σ ε β}
    (h : ∀ a, r.outcome = some a → (f a).run r.state r.budget = (g a).run r.state r.budget) :
    resume r f = resume r g := by
  obtain ⟨outcome, events, s, n⟩ := r
  cases outcome with
  | none => rfl
  | some a => simp [h a rfl]

instance : LawfulMonad (Session σ ε) := LawfulMonad.mk' _
  (by
    intro α x
    funext s n
    show resume (x s n) (fun a => pure a) = x s n
    obtain ⟨outcome, events, t, m⟩ := x s n
    cases outcome <;> simp)
  (by intro α β a f; rfl)
  (by
    intro α β γ x f g
    funext s n
    show resume (resume (x s n) f) g = resume (x s n) (fun a => f a >>= g)
    obtain ⟨outcome, events, t, m⟩ := x s n
    cases outcome with
    | none => rfl
    | some a =>
      simp only [resume_some, run_bind]
      obtain ⟨outcome', events', t', m'⟩ := (f a).run t m
      cases outcome' <;> simp [List.append_assoc])

theorem run_map (f : α → β) (x : Session σ ε α) (s : σ) (n : Nat) :
    (f <$> x).run s n =
      ⟨(x.run s n).outcome.map f, (x.run s n).events, (x.run s n).state, (x.run s n).budget⟩ := by
  rw [← bind_pure_comp, run_bind]
  obtain ⟨outcome, events, s', n'⟩ := x.run s n
  cases outcome <;> simp

/-! ### Steps -/

def halt : Session σ ε α := fun s n => { outcome := none, events := [], state := s, budget := n }

/-- Takes one unit of the budget, or ends the session if none is left. -/
def spend : Session σ ε Unit
  | s, 0 => { outcome := none, events := [], state := s, budget := 0 }
  | s, n + 1 => { outcome := some (), events := [], state := s, budget := n }

def act (f : σ → α × σ) : Session σ ε α := fun s n =>
  let answer := f s
  { outcome := some answer.1, events := [], state := answer.2, budget := n }

def observe (f : σ → α) : Session σ ε α := act fun s => (f s, s)

def record (e : ε) : Session σ ε Unit := fun s n =>
  { outcome := some (), events := [e], state := s, budget := n }

@[simp] theorem run_halt (s : σ) (n : Nat) :
    (halt : Session σ ε α).run s n = { outcome := none, events := [], state := s, budget := n } := rfl

@[simp] theorem run_spend_zero (s : σ) :
    (spend : Session σ ε Unit).run s 0 = { outcome := none, events := [], state := s, budget := 0 } := rfl

@[simp] theorem run_spend_succ (s : σ) (n : Nat) :
    (spend : Session σ ε Unit).run s (n + 1) =
      { outcome := some (), events := [], state := s, budget := n } := rfl

@[simp] theorem run_act (f : σ → α × σ) (s : σ) (n : Nat) :
    (act f : Session σ ε α).run s n =
      { outcome := some (f s).1, events := [], state := (f s).2, budget := n } := rfl

@[simp] theorem run_observe (f : σ → α) (s : σ) (n : Nat) :
    (observe f : Session σ ε α).run s n = { outcome := some (f s), events := [], state := s, budget := n } := rfl

@[simp] theorem run_record (e : ε) (s : σ) (n : Nat) :
    (record e : Session σ ε Unit).run s n = { outcome := some (), events := [e], state := s, budget := n } := rfl

/-! ### Waiting -/

/-- Repeats a check until it holds. The budget bounds the repetitions: a check that fails has taken a
unit of it, or would fail for ever. -/
def await (check : Session σ ε Bool) : Session σ ε Unit := fun s n => spin n s n
where
  spin : Nat → Session σ ε Unit
    | 0 => do if ← check then pure () else halt
    | n + 1 => do if ← check then pure () else spin n

/-- Fuel beyond the budget makes no difference to a check that pays for each failure. -/
theorem run_spin_eq {check : Session σ ε Bool}
    (paid : ∀ s n, (check.run s n).outcome = some false → (check.run s n).budget < n) (k m : Nat) (s : σ)
    (n : Nat) (hk : n ≤ k) (hm : n ≤ m) : (await.spin check k).run s n = (await.spin check m).run s n := by
  induction k generalizing m s n with
  | zero =>
    cases m with
    | zero => rfl
    | succ m =>
      refine resume_congr fun ready h => ?_
      cases ready with
      | true => rfl
      | false => exact absurd (paid s n h) (by omega)
  | succ k ih =>
    cases m with
    | zero =>
      refine resume_congr fun ready h => ?_
      cases ready with
      | true => rfl
      | false => exact absurd (paid s n h) (by omega)
    | succ m =>
      refine resume_congr fun ready h => ?_
      cases ready with
      | true => rfl
      | false =>
        have spent : (check s n).budget < n := paid s n h
        exact ih m _ _ (by omega) (by omega)

/-- Waiting is a check, and waiting again if it fails, as long as a check pays for each failure. -/
theorem await_eq {check : Session σ ε Bool}
    (paid : ∀ s n, (check.run s n).outcome = some false → (check.run s n).budget < n) :
    await check = (do if ← check then pure () else await check) := by
  funext s n
  show (await.spin check n).run s n = resume (check.run s n) _
  rw [run_spin_eq paid n (n + 1) s n (Nat.le_refl n) (Nat.le_succ n)]
  refine resume_congr fun ready h => ?_
  cases ready with
  | true => rfl
  | false => exact run_spin_eq paid n _ _ _ (Nat.le_of_lt (paid s n h)) (Nat.le_refl _)

/-- What holds of halting, and of a check that on failure goes on to a session of which it holds, holds of
waiting for the check, provided that it is a matter of each budget by itself. -/
theorem await_induction {check : Session σ ε Bool} {p : Session σ ε Unit → Prop}
    (onBudgets : ∀ x, (∀ n, ∃ y, p y ∧ ∀ s, x.run s n = y.run s n) → p x) (halts : p halt)
    (again : ∀ y, p y → p (do if ← check then pure () else y)) : p (await check) := by
  have spin (k : Nat) : p (await.spin check k) := by
    induction k with
    | zero => exact again halt halts
    | succ k ih => exact again _ ih
  exact onBudgets _ fun n => ⟨_, spin n, fun _ => rfl⟩

/-! ### Sessions on a part of the state -/

/-- Runs a session on the part of the state that `get` shows and `put` replaces, and relabels what it
records. -/
def within (get : τ → σ) (put : σ → τ → τ) (label : ε → ε') (x : Session σ ε α) : Session τ ε' α :=
  fun t n =>
    let r := x (get t) n
    { outcome := r.outcome, events := r.events.map label, state := put r.state t, budget := r.budget }

@[simp] theorem run_within (get : τ → σ) (put : σ → τ → τ) (label : ε → ε') (x : Session σ ε α)
    (t : τ) (n : Nat) :
    (within get put label x).run t n =
      { outcome := (x.run (get t) n).outcome
        events := (x.run (get t) n).events.map label
        state := put (x.run (get t) n).state t
        budget := (x.run (get t) n).budget } := rfl

end Session

end ConsoleUart
