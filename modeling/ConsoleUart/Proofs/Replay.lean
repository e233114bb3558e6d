import ConsoleUart.Proofs.Monitor

/-!
# Replaying a trace

An access does to a device what its own record says, so the trace of a session leads from the device's
first state to its last. `Bus.Within` states that for a session together with a bound on the accesses
that it makes.
-/

namespace ConsoleUart

variable {σ α β : Type} [AddressSpace σ]

namespace Access

/-- The state that the access leaves behind. -/
def apply (s : σ) : Access → σ
  | read _ address _ => (AddressSpace.load s address).2
  | write _ address value => AddressSpace.store s address value
  | readWord .. => s

def register? : Access → Option Register
  | read r .. => some r
  | write r .. => some r
  | readWord .. => none

end Access

def replay (s : σ) (trace : List Access) : σ := trace.foldl Access.apply s

theorem replay_append (s : σ) (l r : List Access) : replay s (l ++ r) = replay (replay s l) r := by
  simp only [replay, List.foldl_append]

theorem replay_concat (s : σ) (trace : List Access) (a : Access) :
    replay s (trace ++ [a]) = Access.apply (replay s trace) a :=
  replay_append s trace [a]

theorem replay_keeps {p : σ → Prop} (one : ∀ s a, p s → p (Access.apply s a)) {s : σ} (start : p s)
    (trace : List Access) : p (replay s trace) := by
  induction trace generalizing s with
  | nil => exact start
  | cons a rest ih => exact ih (one s a start)

namespace Bus

/-- The monitor that carries the device itself along and judges each access by the state it meets. -/
def history (p : σ → Access → Prop) : Monitor σ where
  next := Access.apply
  allows := p

theorem after_history (p : σ → Access → Prop) (s : σ) (trace : List Access) :
    (history p).after s trace = replay s trace := rfl

/-- Every access satisfies `p`, and the device changes through the recorded accesses only. -/
def Within (p : Access → Prop) (x : Bus σ α) : Prop :=
  ∀ s, Ensures (history fun _ => p) x (fun _ s t => s = t) (fun s t => s = t) s s

variable {p : Access → Prop}

theorem accepts_history_iff {s : σ} {trace : List Access} :
    (history fun _ => p).Accepts s trace ↔ ∀ a ∈ trace, p a := by
  induction trace generalizing s with
  | nil => simp [Monitor.Accepts]
  | cons a rest ih =>
    simp only [Monitor.Accepts, ih, List.forall_mem_cons]
    rfl

theorem Within.mem {x : Bus σ α} (h : Within p x) (s : σ) (n : Nat) : ∀ a ∈ (x.run s n).trace, p a :=
  accepts_history_iff.mp (h s n).1

theorem Within.state_eq_replay {x : Bus σ α} (h : Within p x) (s : σ) (n : Nat) :
    (x.run s n).state = replay s (x.run s n).trace := by
  have he := (h s n).2
  rw [after_history] at he
  cases ho : (x.run s n).outcome with
  | none => simpa only [ho] using he
  | some a => simpa only [ho] using he

theorem within_pure (a : α) : Within p (pure a : Bus σ α) := fun _ => ensures_pure rfl

theorem within_bind {x : Bus σ α} {f : α → Bus σ β} (hx : Within p x) (hf : ∀ a, Within p (f a)) :
    Within p (x >>= f) := by
  intro s
  refine ensures_bind (ensures_mono (hx s) ?_ fun _ _ hc => hc)
  intro a s t hd
  subst hd
  exact hf a s

theorem within_map {x : Bus σ α} {f : α → β} (hx : Within p x) : Within p (f <$> x) :=
  fun s => ensures_map (hx s)

theorem within_ite {c : Prop} [Decidable c] {x y : Bus σ α} (hx : Within p x) (hy : Within p y) :
    Within p (if c then x else y) :=
  fun s => ensures_ite (fun _ => hx s) fun _ => hy s

theorem within_await {check : Bus σ Bool} (h : Within p check) : Within p (Session.await check) := by
  intro s
  refine ensures_await (fun s t => s = t) (fun _ _ hst => hst) ?_ rfl
  intro s t hst
  subst hst
  refine ensures_mono (h s) ?_ fun _ _ hc => hc
  intro ready s t hd
  cases ready <;> exact hd

theorem within_note (notice : Notice) : Within p (note notice : Bus σ Unit) :=
  fun _ => ensures_note rfl

theorem within_readWord {address : Nat} (h : ∀ value, p (.readWord address value)) :
    Within p (readWord address : Bus σ Word) :=
  fun _ => ensures_readWord rfl (h _) rfl

variable {b : RegisterBlock} {r : Register}

theorem within_read (h : ∀ value, p (.read r (b.address r) value)) :
    Within p (b.read r : Bus σ Byte) :=
  fun _ => ensures_read rfl (h _) rfl

theorem within_write {value : Byte} (h : p (.write r (b.address r) value)) :
    Within p (b.write r value : Bus σ Unit) :=
  fun _ => ensures_write rfl h rfl

end Bus

end ConsoleUart
