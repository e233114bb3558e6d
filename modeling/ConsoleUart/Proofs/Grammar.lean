import ConsoleUart.Proofs.Monitor
import Mathlib.Computability.Language

/-!
# Grammars of traces

The accesses that a session may make, as a language for each answer: a run that ends makes a word for its
answer, and a run that is cut short makes the first part of a word. There is one rule for each way to build a
session, and a wait repeats the words of the check that failed. What a monitor makes of the words of a
language is then a matter of the grammar alone, again with one rule for each way to build a language.
-/

namespace ConsoleUart
open scoped Computability

variable {σ τ α β : Type}

def Run.IsWord (words : α → Language Access) (r : Run σ Bus.Event α) : Prop :=
  match r.outcome with
  | some a => r.trace ∈ words a
  | none => ∃ a, ∃ word ∈ words a, r.trace <+: word

namespace RegisterBlock

def reads (b : RegisterBlock) (r : Register) (value : Byte) : Language Access :=
  {[.read r (b.address r) value]}

def writes (b : RegisterBlock) (r : Register) (value : Byte) : Language Access :=
  {[.write r (b.address r) value]}

end RegisterBlock

namespace Bus

def Speaks (words : α → Language Access) (x : Bus σ α) (s : σ) : Prop := ∀ n, (x.run s n).IsWord words

variable {words : α → Language Access} {x : Bus σ α} {s : σ}

theorem Speaks.word (h : Speaks words x s) {n : Nat} {a : α} (ended : (x.run s n).outcome = some a) :
    (x.run s n).trace ∈ words a := by
  have word := h n
  rw [Run.IsWord, ended] at word
  exact word

theorem Speaks.part (h : Speaks words x s) (n : Nat) : ∃ a, ∃ word ∈ words a, (x.run s n).trace <+: word := by
  cases ended : (x.run s n).outcome with
  | none =>
    have word := h n
    rw [Run.IsWord, ended] at word
    exact word
  | some a => exact ⟨a, _, h.word ended, List.prefix_rfl⟩

theorem Speaks.mono {words' : α → Language Access} (h : Speaks words x s)
    (sub : ∀ a, ∀ word ∈ words a, word ∈ words' a) : Speaks words' x s := by
  intro n
  have word := h n
  unfold Run.IsWord at word ⊢
  split at word
  · exact sub _ _ word
  · obtain ⟨a, whole, member, first⟩ := word
    exact ⟨a, whole, sub a whole member, first⟩

/-! ### Sessions put together -/

theorem speaks_pure {a : α} (s : σ) (h : [] ∈ words a) : Speaks words (pure a : Bus σ α) s :=
  fun _ => h

theorem speaks_bind {v : α → Language Access} {w : α → β → Language Access} {f : α → Bus σ β}
    {words : β → Language Access} (hx : Speaks v x s) (hf : ∀ a t, Speaks (w a) (f a) t)
    (join : ∀ a b, ∀ l ∈ v a, ∀ r ∈ w a b, l ++ r ∈ words b) : Speaks words (x >>= f) s := by
  intro n
  have begun := hx n
  rw [Session.run_bind]
  generalize x.run s n = run at begun ⊢
  obtain ⟨outcome, events, s', n'⟩ := run
  cases outcome with
  | none =>
    -- Cut short in the first session: its word goes on with any word of the second.
    obtain ⟨a, word, member, cut⟩ := begun
    obtain ⟨b, later, follows, -⟩ := (hf a s').part 0
    exact ⟨b, word ++ later, join a b word member later follows, cut.trans (List.prefix_append ..)⟩
  | some a =>
    have outcome : (Session.resume ⟨some a, events, s', n'⟩ f).outcome = ((f a).run s' n').outcome := rfl
    have trace : (Session.resume ⟨some a, events, s', n'⟩ f).trace =
        events.filterMap Event.access? ++ ((f a).run s' n').trace := List.filterMap_append ..
    have ended := hf a s' n'
    unfold Run.IsWord at ended ⊢
    rw [outcome, trace]
    split at ended
    · exact join a _ _ begun _ ended
    · obtain ⟨b, later, follows, cut⟩ := ended
      exact ⟨b, _, join a b _ begun later follows, (List.prefix_append_right_inj _).mpr cut⟩

/-- An answer that is computed from another one adds nothing. -/
theorem speaks_bind_pure {v : α → Language Access} {f : α → β} {words : β → Language Access}
    (hx : Speaks v x s) (sub : ∀ a, ∀ word ∈ v a, word ∈ words (f a)) :
    Speaks words (x >>= fun a => pure (f a)) s := by
  refine speaks_bind (w := fun a b => {word | b = f a ∧ word = []}) hx (fun a t => speaks_pure t ⟨rfl, rfl⟩) ?_
  rintro a _ l hl _ ⟨rfl, rfl⟩
  rw [List.append_nil]
  exact sub a l hl

theorem speaks_await {check : Bus σ Bool} {words : Bool → Language Access} (h : ∀ s, Speaks words check s)
    (ends : ∃ word, word ∈ words true) (s : σ) :
    Speaks (fun _ => (words false)∗ * words true) (Session.await check) s := by
  revert s
  refine Session.await_induction (p := fun x => ∀ s, Speaks (fun _ => (words false)∗ * words true) x s) ?_ ?_ ?_
  · intro x same s n
    obtain ⟨y, hy, runs⟩ := same n
    rw [runs]
    exact hy s n
  · intro s n
    obtain ⟨word, member⟩ := ends
    exact ⟨(), [] ++ word, Language.append_mem_mul (Language.nil_mem_kstar _) member, List.nil_prefix⟩
  · intro y hy s
    refine speaks_bind (w := fun ready _ => if ready then 1 else (words false)∗ * words true) (h s) ?_ ?_
    · intro ready t
      cases ready with
      | true => exact speaks_pure t Language.nil_mem_one
      | false => exact hy t
    · intro ready _ l hl r hr
      cases ready with
      | true =>
        rw [(Language.mem_one r).mp hr, List.append_nil, ← List.nil_append l]
        exact Language.append_mem_mul (Language.nil_mem_kstar _) hl
      | false =>
        -- One more word of the failing check in front of those that follow.
        obtain ⟨failed, hfailed, found, hfound, rfl⟩ := Language.mem_mul.mp hr
        have more : l ++ failed ∈ (words false)∗ :=
          (mul_kstar_le_kstar : words false * (words false)∗ ≤ _) (Language.append_mem_mul hl hfailed)
        rw [← List.append_assoc]
        exact Language.append_mem_mul more hfound

/-! ### Single accesses -/

variable [AddressSpace σ]

theorem speaks_read_value (b : RegisterBlock) (r : Register) (s : σ) :
    Speaks (fun value => {word | value = (AddressSpace.load s (b.address r)).1 ∧ word ∈ b.reads r value})
      (b.read r) s
  | 0 => ⟨_, _, ⟨rfl, rfl⟩, List.nil_prefix⟩
  | _ + 1 => ⟨rfl, rfl⟩

theorem speaks_read (b : RegisterBlock) (r : Register) (s : σ) : Speaks (b.reads r) (b.read r) s :=
  (speaks_read_value b r s).mono fun _ _ member => member.2

theorem speaks_write (b : RegisterBlock) (r : Register) (value : Byte) (s : σ) :
    Speaks (fun _ => b.writes r value) (b.write r value) s
  | 0 => ⟨(), _, rfl, List.nil_prefix⟩
  | _ + 1 => rfl

end Bus

/-! ### Words and monitors -/

namespace Monitor

/-- Where `p` holds, the monitor accepts the words of the language, and each of them leads to where `q` holds. -/
def Leads (m : Monitor τ) (p : τ → Prop) (words : Language Access) (q : τ → Prop) : Prop :=
  ∀ t, p t → ∀ word ∈ words, m.Accepts t word ∧ q (m.after t word)

variable {m : Monitor τ} {p q r : τ → Prop} {words rest : Language Access}

theorem leads_one (m : Monitor τ) (p : τ → Prop) : m.Leads p 1 p := by
  intro t start word member
  rw [(Language.mem_one word).mp member]
  exact ⟨trivial, start⟩

theorem leads_mul (first : m.Leads p words q) (second : m.Leads q rest r) : m.Leads p (words * rest) r := by
  intro t start word member
  obtain ⟨left, hl, right, hr, rfl⟩ := Language.mem_mul.mp member
  obtain ⟨accepted, reached⟩ := first t start left hl
  rw [m.accepts_append, m.after_append]
  obtain ⟨accepted', reached'⟩ := second _ reached right hr
  exact ⟨⟨accepted, accepted'⟩, reached'⟩

theorem leads_kstar (h : m.Leads p words p) : m.Leads p words∗ p := by
  intro t start word member
  obtain ⟨parts, rfl, all⟩ := Language.mem_kstar.mp member
  clear member
  induction parts generalizing t with
  | nil => exact ⟨trivial, start⟩
  | cons part parts ih =>
    obtain ⟨accepted, reached⟩ := h t start part (all part (List.mem_cons_self ..))
    obtain ⟨accepted', reached'⟩ := ih _ reached fun other ho => all other (List.mem_cons_of_mem _ ho)
    rw [List.flatten_cons, m.accepts_append, m.after_append]
    exact ⟨⟨accepted, accepted'⟩, reached'⟩

theorem leads_reads {b : RegisterBlock} {r : Register} {value : Byte}
    (h : ∀ t, p t → m.allows t (.read r (b.address r) value) ∧ q (m.next t (.read r (b.address r) value))) :
    m.Leads p (b.reads r value) q := by
  rintro t start _ rfl
  obtain ⟨allowed, reached⟩ := h t start
  exact ⟨⟨allowed, trivial⟩, reached⟩

theorem leads_writes {b : RegisterBlock} {r : Register} {value : Byte}
    (h : ∀ t, p t → m.allows t (.write r (b.address r) value) ∧ q (m.next t (.write r (b.address r) value))) :
    m.Leads p (b.writes r value) q := by
  rintro t start _ rfl
  obtain ⟨allowed, reached⟩ := h t start
  exact ⟨⟨allowed, trivial⟩, reached⟩

end Monitor

end ConsoleUart
