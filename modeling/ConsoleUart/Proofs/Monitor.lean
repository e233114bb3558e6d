import ConsoleUart.Bus

/-!
# Monitors

A monitor reads a trace from its start, keeps a state of its own and judges each access in the state
that the accesses before it lead to. `Bus.Ensures` says that a monitor accepts whatever a session does,
on any budget, and how device and monitor stand where the session ends and where it is cut short. There
is one rule for each way to build a session.
-/

namespace ConsoleUart

variable {σ τ α β : Type}

def Run.trace (r : Run σ Bus.Event α) : List Access := r.events.filterMap Bus.Event.access?

structure Monitor (τ : Type) where
  next : τ → Access → τ
  allows : τ → Access → Prop

namespace Monitor

variable (m : Monitor τ)

def after (t : τ) (trace : List Access) : τ := trace.foldl m.next t

def Accepts : τ → List Access → Prop
  | _, [] => True
  | t, a :: rest => m.allows t a ∧ Accepts (m.next t a) rest

theorem after_append (t : τ) (l r : List Access) : m.after t (l ++ r) = m.after (m.after t l) r := by
  simp only [after, List.foldl_append]

theorem accepts_append (t : τ) (l r : List Access) :
    m.Accepts t (l ++ r) ↔ m.Accepts t l ∧ m.Accepts (m.after t l) r := by
  induction l generalizing t with
  | nil => simp [Accepts, after]
  | cons a rest ih =>
    simp only [List.cons_append, Accepts, ih, and_assoc]
    rfl

theorem accepts_flatMap {ι : Type} {f : ι → List Access} {l : List ι}
    (h : ∀ i ∈ l, ∀ t, m.Accepts t (f i)) (t : τ) : m.Accepts t (l.flatMap f) := by
  induction l generalizing t with
  | nil => trivial
  | cons i rest ih =>
    have first := h i (List.mem_cons_self ..) t
    have others := ih (fun j hj => h j (List.mem_cons_of_mem _ hj)) (m.after t (f i))
    rw [List.flatMap_cons, accepts_append]
    exact ⟨first, others⟩

/-- Acceptance, one access at a time: each is allowed where it stands. -/
theorem Accepts.allows {m : Monitor τ} {t : τ} {trace : List Access} (h : m.Accepts t trace)
    {done rest : List Access} {a : Access} (split : trace = done ++ a :: rest) : m.allows (m.after t done) a := by
  subst split
  exact ((m.accepts_append t done (a :: rest)).mp h).2.1

/-- Judges each access by all those before it. -/
def recording (p : List Access → Access → Prop) : Monitor (List Access) where
  next past a := past ++ [a]
  allows := p

theorem after_recording (p : List Access → Access → Prop) (past trace : List Access) :
    (recording p).after past trace = past ++ trace := by
  induction trace generalizing past with
  | nil => exact (List.append_nil past).symm
  | cons a rest ih =>
    have step : (recording p).after past (a :: rest) = (recording p).after (past ++ [a]) rest := rfl
    rw [step, ih, List.append_assoc, List.singleton_append]

end Monitor

/-- The monitor accepts the run, and `done` or `cut` holds where it stops. -/
def Run.Meets (m : Monitor τ) (done : α → σ → τ → Prop) (cut : σ → τ → Prop) (t : τ)
    (r : Run σ Bus.Event α) : Prop :=
  m.Accepts t r.trace ∧
    match r.outcome with
    | some a => done a r.state (m.after t r.trace)
    | none => cut r.state (m.after t r.trace)

namespace Bus

def Ensures (m : Monitor τ) (x : Bus σ α) (done : α → σ → τ → Prop) (cut : σ → τ → Prop) (s : σ)
    (t : τ) : Prop :=
  ∀ n, (x.run s n).Meets m done cut t

variable {m : Monitor τ} {done : α → σ → τ → Prop} {cut : σ → τ → Prop} {s : σ} {t : τ}

theorem ensures_mono {x : Bus σ α} {done' : α → σ → τ → Prop} {cut' : σ → τ → Prop}
    (h : Ensures m x done' cut' s t) (hd : ∀ a s t, done' a s t → done a s t)
    (hc : ∀ s t, cut' s t → cut s t) : Ensures m x done cut s t := by
  intro n
  obtain ⟨ha, he⟩ := h n
  refine ⟨ha, ?_⟩
  generalize x.run s n = r at he ⊢
  obtain ⟨outcome, events, s', n'⟩ := r
  cases outcome with
  | none => exact hc _ _ he
  | some a => exact hd _ _ _ he

/-! ### Sessions put together -/

theorem ensures_pure {a : α} (h : done a s t) : Ensures m (pure a : Bus σ α) done cut s t :=
  fun _ => ⟨trivial, h⟩

theorem ensures_bind {x : Bus σ α} {f : α → Bus σ β} {done : β → σ → τ → Prop}
    (h : Ensures m x (fun a s t => Ensures m (f a) done cut s t) cut s t) :
    Ensures m (x >>= f) done cut s t := by
  intro n
  rw [Session.run_bind]
  have hx := h n
  generalize x.run s n = r at hx ⊢
  obtain ⟨outcome, events, s', n'⟩ := r
  obtain ⟨ha, he⟩ := hx
  cases outcome with
  | none => exact ⟨ha, he⟩
  | some a =>
    obtain ⟨hb, hf⟩ := he n'
    have ht : (Session.resume ⟨some a, events, s', n'⟩ f).trace =
        events.filterMap Event.access? ++ ((f a).run s' n').trace := List.filterMap_append ..
    rw [Run.Meets, ht, m.accepts_append, m.after_append]
    exact ⟨⟨ha, hb⟩, hf⟩

theorem ensures_map {x : Bus σ α} {f : α → β} {done : β → σ → τ → Prop}
    (h : Ensures m x (fun a s t => done (f a) s t) cut s t) : Ensures m (f <$> x) done cut s t := by
  rw [← bind_pure_comp]
  exact ensures_bind (ensures_mono h (fun _ _ _ hd => ensures_pure hd) fun _ _ hc => hc)

theorem ensures_ite {p : Prop} [Decidable p] {x y : Bus σ α} (hx : p → Ensures m x done cut s t)
    (hy : ¬p → Ensures m y done cut s t) : Ensures m (if p then x else y) done cut s t := by
  by_cases hp : p
  · rw [if_pos hp]
    exact hx hp
  · rw [if_neg hp]
    exact hy hp

/-- A wait keeps an invariant that each failing check restores. -/
theorem ensures_await {check : Bus σ Bool} {done : Unit → σ → τ → Prop} (inv : σ → τ → Prop)
    (halts : ∀ s t, inv s t → cut s t)
    (step : ∀ s t, inv s t →
      Ensures m check (fun ready s t => if ready then done () s t else inv s t) cut s t)
    (start : inv s t) : Ensures m (Session.await check) done cut s t := by
  -- For every state in which the invariant holds: a failing check may have moved both.
  have waits : ∀ s t, inv s t → Ensures m (Session.await check) done cut s t := by
    refine Session.await_induction (p := fun x => ∀ s t, inv s t → Ensures m x done cut s t) ?_ ?_ ?_
    · intro x same s t h n
      obtain ⟨y, hy, runs⟩ := same n
      rw [runs]
      exact hy s t h n
    · exact fun s t h _ => ⟨trivial, halts s t h⟩
    · intro y hy s t h
      refine ensures_bind (ensures_mono (step s t h) ?_ fun _ _ hc => hc)
      intro ready s t hd
      cases ready with
      | true => exact ensures_pure hd
      | false => exact hy s t hd
  exact waits s t start

/-! ### Single accesses -/

theorem ensures_note {notice : Notice} {done : Unit → σ → τ → Prop} (h : done () s t) :
    Ensures m (note notice) done cut s t :=
  fun _ => ⟨trivial, h⟩

variable [AddressSpace σ]

theorem ensures_readWord {address : Nat} {done : Word → σ → τ → Prop} (hc : cut s t)
    (ha : m.allows t (.readWord address (AddressSpace.loadWord s address)))
    (hd : done (AddressSpace.loadWord s address) s
      (m.next t (.readWord address (AddressSpace.loadWord s address)))) :
    Ensures m (readWord address) done cut s t
  | 0 => ⟨trivial, hc⟩
  | _ + 1 => ⟨⟨ha, trivial⟩, hd⟩

variable {b : RegisterBlock} {r : Register}

theorem ensures_read {done : Byte → σ → τ → Prop} (hc : cut s t)
    (ha : m.allows t (.read r (b.address r) (AddressSpace.load s (b.address r)).1))
    (hd : done (AddressSpace.load s (b.address r)).1 (AddressSpace.load s (b.address r)).2
      (m.next t (.read r (b.address r) (AddressSpace.load s (b.address r)).1))) :
    Ensures m (b.read r) done cut s t
  | 0 => ⟨trivial, hc⟩
  | _ + 1 => ⟨⟨ha, trivial⟩, hd⟩

theorem ensures_write {value : Byte} {done : Unit → σ → τ → Prop} (hc : cut s t)
    (ha : m.allows t (.write r (b.address r) value))
    (hd : done () (AddressSpace.store s (b.address r) value)
      (m.next t (.write r (b.address r) value))) :
    Ensures m (b.write r value) done cut s t
  | 0 => ⟨trivial, hc⟩
  | _ + 1 => ⟨⟨ha, trivial⟩, hd⟩

end Bus

end ConsoleUart
