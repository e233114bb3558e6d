import ConsoleUart.Proofs.Footprint
import ConsoleUart.Proofs.Mapped

/-!
# The latch discipline

Three registers are hidden while the divisor latch is open and two while it is closed. An access fits
when the latch stands as its register needs it. `Bus.Orderly` says of a session on a mapped chip that
all its accesses fit, that its trace accounts for all it does to the chip, and what holds where it ends.
-/

namespace ConsoleUart

/-- How the latch must stand for the place to hold the register, `none` if it does not matter. -/
def Register.latch? : Register → Option Bool
  | divisorLow | divisorHigh => some true
  | receiveBuffer | transmitBuffer | interruptEnable => some false
  | _ => none

/-- The place holds the register while the latch is open or closed, as `isOpen` tells. -/
def Register.Fits (r : Register) (isOpen : Bool) : Prop := r.latch?.getD isOpen = isOpen

instance (r : Register) (isOpen : Bool) : Decidable (r.Fits isOpen) :=
  inferInstanceAs (Decidable (_ = _))

def Access.Fits (isOpen : Bool) (a : Access) : Prop := ∀ r, a.register? = some r → r.Fits isOpen

/-- No register of the footprint needs the latch open, and line control is not written. -/
def Footprint.Plain (f : Footprint) : Prop :=
  (∀ r ∈ f.reads, r.Fits false) ∧ ∀ r ∈ f.writes, r.Fits false ∧ r ≠ .lineControl

instance (f : Footprint) : Decidable f.Plain := inferInstanceAs (Decidable (_ ∧ _))

theorem Footprint.Plain.access {f : Footprint} {u : MiniUart} {a : Access} (plain : f.Plain)
    (covered : f.Covers u a) :
    a.InPlace u.registers ∧ a.Fits false ∧ ∀ address value, a ≠ .write .lineControl address value := by
  cases a with
  | read r address value => exact ⟨covered.2, fun _ hr => by cases hr; exact plain.1 r covered.1, nofun⟩
  | write r address value =>
    obtain ⟨fits, other⟩ := plain.2 r covered.1
    exact ⟨covered.2, fun _ hr => by cases hr; exact fits, fun _ _ he => by cases he; exact other rfl⟩
  | readWord address value => exact ⟨trivial, nofun, nofun⟩

/-- Only configuring the device and setting line attributes go near the latch. -/
theorem Operation.footprint_plain {op : Operation} (hc : op ≠ .configure)
    (hs : ∀ request, op ≠ .setAttributes request) : op.footprint.Plain := by
  cases op with
  | configure => exact absurd rfl hc
  | setAttributes request => exact absurd rfl (hs request)
  | _ => simp [footprint, Footprint.Plain, Register.Fits, Register.latch?]

/-- Accepts the accesses that go where they are meant to and fit. -/
def Bus.discipline (b : RegisterBlock) : Monitor Soc :=
  history fun s a => a.InPlace b ∧ a.Fits s.latchOpen

namespace Soc

variable {s : Soc} {b : RegisterBlock}

theorem Mapped.replay {trace : List Access} (h : s.Mapped b) (ha : (Bus.discipline b).Accepts s trace) :
    (replay s trace).Mapped b := by
  induction trace generalizing s with
  | nil => exact h
  | cons a rest ih => exact ih (h.apply ha.1.1) ha.2

/-! ### What fitting accesses do -/

/-- What each fitting access adds to a queue adds up along an accepted trace. -/
theorem Mapped.replay_queue {α : Type} (queue : Soc → List α) (out : Access → Option α)
    {p : Access → Prop} (one : ∀ s a, s.Mapped b → a.InPlace b → a.Fits s.latchOpen → p a →
      queue (Access.apply s a) = queue s ++ (out a).toList)
    {trace : List Access} (h : s.Mapped b) (ha : (Bus.discipline b).Accepts s trace)
    (hp : ∀ a ∈ trace, p a) : queue (ConsoleUart.replay s trace) = queue s ++ trace.filterMap out := by
  induction trace generalizing s with
  | nil => exact (List.append_nil _).symm
  | cons a rest ih =>
    obtain ⟨⟨placed, fits⟩, hr⟩ := ha
    have first := one s a h placed fits (hp a (List.mem_cons_self ..))
    have others := ih (h.apply placed) hr fun b hb => hp b (List.mem_cons_of_mem _ hb)
    have split : (a :: rest).filterMap out = (out a).toList ++ rest.filterMap out := by
      cases ho : out a with
      | none => rw [List.filterMap_cons_none ho, Option.toList_none, List.nil_append]
      | some value => rw [List.filterMap_cons_some ho, Option.toList_some, List.singleton_append]
    rw [split, ← List.append_assoc, ← first]
    exact others

/-- On a closed latch only a write of line control changes the line. -/
theorem Mapped.apply_line (h : s.Mapped b) (closed : s.latchOpen = false) {a : Access} (placed : a.InPlace b)
    (other : ∀ address value, a ≠ .write .lineControl address value) :
    (Access.apply s a).line = s.line := by
  cases a with
  | read r address value =>
    cases placed
    rw [h.apply_read]
    obtain ⟨_, _, _, hf⟩ := s.readPlace_frame r.offset
    rw [hf]
    rfl
  | write r address value =>
    cases placed
    rw [h.apply_write]
    refine writePlace_line closed (fun hr => ?_) value
    cases r <;> simp [Register.offset] at hr
    exact other _ _ rfl
  | readWord address value => rfl

theorem Mapped.accepts_closed {trace : List Access} (h : s.Mapped b) (closed : s.latchOpen = false)
    (plain : ∀ a ∈ trace, a.InPlace b ∧ a.Fits false ∧
      ∀ address value, a ≠ .write .lineControl address value) :
    (Bus.discipline b).Accepts s trace ∧ (ConsoleUart.replay s trace).line = s.line := by
  induction trace generalizing s with
  | nil => exact ⟨trivial, rfl⟩
  | cons a rest ih =>
    obtain ⟨placed, fits, other⟩ := plain a (List.mem_cons_self ..)
    have first : (Access.apply s a).line = s.line := h.apply_line closed placed other
    have hl : (Access.apply s a).latchOpen = false := (latchOpen_of_line first).trans closed
    have hr := ih (h.apply placed) hl fun a ha => plain a (List.mem_cons_of_mem _ ha)
    refine ⟨⟨⟨placed, ?_⟩, hr.1⟩, hr.2.trans first⟩
    rw [closed]
    exact fits

end Soc

/-! ### Orderly sessions -/

namespace Bus

variable {α β : Type} {b : RegisterBlock} {s : Soc} {x : Bus Soc α} {done : α → Soc → Prop}

def Orderly (b : RegisterBlock) (x : Bus Soc α) (done : α → Soc → Prop) (s : Soc) : Prop :=
  s.Mapped b →
    Ensures (discipline b) x (fun a s t => s = t ∧ s.Mapped b ∧ done a s) (fun s t => s = t) s s

theorem Orderly.run (h : Orderly b x done s) (mapped : s.Mapped b) (n : Nat) :
    (discipline b).Accepts s (x.run s n).trace ∧ (x.run s n).state = replay s (x.run s n).trace ∧
      ∀ a, (x.run s n).outcome = some a → done a (x.run s n).state := by
  obtain ⟨ha, he⟩ := h mapped n
  refine ⟨ha, ?_⟩
  cases ho : (x.run s n).outcome with
  | none =>
    rw [ho] at he
    exact ⟨he, nofun⟩
  | some a =>
    rw [ho] at he
    refine ⟨he.1, fun a' ha' => ?_⟩
    cases ha'
    exact he.2.2

theorem orderly_mono {done' : α → Soc → Prop} (h : Orderly b x done' s)
    (hd : ∀ a s, done' a s → done a s) : Orderly b x done s := fun mapped =>
  ensures_mono (h mapped) (fun a s _ hs => ⟨hs.1, hs.2.1, hd a s hs.2.2⟩) fun _ _ hc => hc

theorem orderly_pure {a : α} (h : done a s) : Orderly b (pure a) done s := fun mapped =>
  ensures_pure ⟨rfl, mapped, h⟩

theorem orderly_bind {f : α → Bus Soc β} {done : β → Soc → Prop}
    (h : Orderly b x (fun a => Orderly b (f a) done) s) : Orderly b (x >>= f) done s := by
  intro mapped
  refine ensures_bind (ensures_mono (h mapped) ?_ fun _ _ hc => hc)
  intro a s t hs
  obtain ⟨rfl, mapped, hf⟩ := hs
  exact hf mapped

theorem orderly_map {f : α → β} {done : β → Soc → Prop} (h : Orderly b x (fun a => done (f a)) s) :
    Orderly b (f <$> x) done s := fun mapped => ensures_map (h mapped)

theorem orderly_ite {p : Prop} [Decidable p] {y : Bus Soc α} (hx : p → Orderly b x done s)
    (hy : ¬p → Orderly b y done s) : Orderly b (if p then x else y) done s := fun mapped =>
  ensures_ite (fun hp => hx hp mapped) fun hp => hy hp mapped

theorem orderly_await {check : Bus Soc Bool} {done : Unit → Soc → Prop} (inv : Soc → Prop)
    (step : ∀ s, inv s → Orderly b check (fun ready s => if ready then done () s else inv s) s)
    (start : inv s) : Orderly b (Session.await check) done s := by
  intro mapped
  refine ensures_await (fun s t => s = t ∧ s.Mapped b ∧ inv s) (fun _ _ h => h.1) ?_ ⟨rfl, mapped, start⟩
  intro s t h
  obtain ⟨rfl, mapped, hi⟩ := h
  refine ensures_mono (step s hi mapped) ?_ fun _ _ hc => hc
  intro ready s t h
  cases ready <;> exact h

theorem orderly_note {notice : Notice} {done : Unit → Soc → Prop} (h : done () s) :
    Orderly b (note notice) done s := fun mapped => ensures_note ⟨rfl, mapped, h⟩

theorem orderly_readWord {address : Nat} {done : Word → Soc → Prop}
    (h : done (AddressSpace.loadWord s address) s) : Orderly b (readWord address) done s := fun mapped =>
  ensures_readWord rfl ⟨trivial, nofun⟩ ⟨rfl, mapped, h⟩

theorem orderly_read {r : Register} {done : Byte → Soc → Prop} (fits : r.Fits s.latchOpen)
    (h : done (s.readPlace r.offset).1 (s.readPlace r.offset).2) : Orderly b (b.read r) done s := by
  intro mapped
  have placed (value : Byte) : (Access.read r (b.address r) value).InPlace b := rfl
  refine ensures_read rfl ⟨placed _, fun _ hr => by cases hr; exact fits⟩ ⟨rfl, ?_, ?_⟩
  · exact mapped.apply (placed 0)
  · rw [mapped.load_address]
    exact h

theorem orderly_write {r : Register} {value : Byte} {done : Unit → Soc → Prop} (fits : r.Fits s.latchOpen)
    (h : done () (s.writePlace value r.offset)) : Orderly b (b.write r value) done s := by
  intro mapped
  have placed : (Access.write r (b.address r) value).InPlace b := rfl
  refine ensures_write rfl ⟨placed, fun _ hr => by cases hr; exact fits⟩ ⟨rfl, ?_, ?_⟩
  · exact mapped.apply placed
  · rw [mapped.store_address]
    exact h

/-! ### Registers -/

theorem orderly_read_lineControl {done : Byte → Soc → Prop} (h : done s.lineControl s) :
    Orderly b (b.read .lineControl) done s := orderly_read rfl h

theorem orderly_write_lineControl {value : Byte} {done : Unit → Soc → Prop}
    (h : done () { s with lineControl := value }) : Orderly b (b.write .lineControl value) done s :=
  orderly_write rfl h

theorem orderly_read_divisorHigh {done : Byte → Soc → Prop} (opened : s.latchOpen = true)
    (h : done s.divisorHigh s) : Orderly b (b.read .divisorHigh) done s := by
  have hp : s.readPlace 1 = (s.divisorHigh, s) := by simp only [Soc.readPlace, opened, if_true]
  refine orderly_read opened.symm ?_
  show done (s.readPlace 1).1 (s.readPlace 1).2
  rw [hp]
  exact h

theorem orderly_read_divisorLow {done : Byte → Soc → Prop} (opened : s.latchOpen = true)
    (h : done s.divisorLow s) : Orderly b (b.read .divisorLow) done s := by
  have hp : s.readPlace 0 = (s.divisorLow, s) := by simp only [Soc.readPlace, opened, if_true]
  refine orderly_read opened.symm ?_
  show done (s.readPlace 0).1 (s.readPlace 0).2
  rw [hp]
  exact h

theorem orderly_write_divisorHigh {value : Byte} {done : Unit → Soc → Prop} (opened : s.latchOpen = true)
    (h : done () { s with divisorHigh := value }) : Orderly b (b.write .divisorHigh value) done s := by
  have hp : s.writePlace value 1 = { s with divisorHigh := value } := by
    simp only [Soc.writePlace, opened, if_true]
  refine orderly_write opened.symm ?_
  show done () (s.writePlace value 1)
  rw [hp]
  exact h

theorem orderly_write_divisorLow {value : Byte} {done : Unit → Soc → Prop} (opened : s.latchOpen = true)
    (h : done () { s with divisorLow := value }) : Orderly b (b.write .divisorLow value) done s := by
  have hp : s.writePlace value 0 = { s with divisorLow := value } := by
    simp only [Soc.writePlace, opened, if_true]
  refine orderly_write opened.symm ?_
  show done () (s.writePlace value 0)
  rw [hp]
  exact h

theorem orderly_write_interruptEnable {value : Byte} {done : Unit → Soc → Prop}
    (closed : s.latchOpen = false) (h : done () { s with interruptEnable := value }) :
    Orderly b (b.write .interruptEnable value) done s := by
  have hp : s.writePlace value 1 = { s with interruptEnable := value } := by
    simp only [Soc.writePlace, closed, Bool.false_eq_true, if_false]
  refine orderly_write closed.symm ?_
  show done () (s.writePlace value 1)
  rw [hp]
  exact h

theorem orderly_write_fifoControl {value : Byte} {done : Unit → Soc → Prop}
    (h : done () { s with fifoControl := value }) : Orderly b (b.write .fifoControl value) done s :=
  orderly_write rfl h

theorem orderly_write_modemControl {value : Byte} {done : Unit → Soc → Prop}
    (h : done () { s with modemControl := value }) : Orderly b (b.write .modemControl value) done s :=
  orderly_write rfl h

/-! ### Sessions that leave the latch alone -/

theorem Within.line {f : Footprint} {u : MiniUart} (h : Within (f.Covers u) x) (plain : f.Plain)
    (mapped : s.Mapped u.registers) (closed : s.latchOpen = false) (n : Nat) :
    (x.run s n).state.line = s.line := by
  rw [h.state_eq_replay]
  exact (mapped.accepts_closed closed fun a ha => plain.access (h.mem s n a ha)).2

theorem orderly_of_within {f : Footprint} {u : MiniUart} (h : Within (f.Covers u) x) (plain : f.Plain)
    (closed : s.latchOpen = false) : Orderly u.registers x (fun _ s => s.latchOpen = false) s := by
  intro mapped n
  obtain ⟨ha, hl⟩ := mapped.accepts_closed closed fun a ha => plain.access (h.mem s n a ha)
  have still : (replay s (x.run s n).trace).latchOpen = false := (Soc.latchOpen_of_line hl).trans closed
  have hs := h.state_eq_replay s n
  refine ⟨ha, ?_⟩
  cases (x.run s n).outcome with
  | none => exact hs
  | some a => exact ⟨hs, by rw [hs]; exact mapped.replay ha, by rw [hs]; exact still⟩

end Bus

end ConsoleUart
