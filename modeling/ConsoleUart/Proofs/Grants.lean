import ConsoleUart.Proofs.Planning
import ConsoleUart.Proofs.Runs

/-!
# Grants

What granted requests make of the line control byte and the divisor latch. A grant replaces the fields
that it names, and the divisor if it names a rate; an empty latch gets the divisor of the configured rate
along with the first field that is named. The run of the grants is an inductive relation on the line, and
what the last grants want is read off that relation.
-/

namespace ConsoleUart

theorem Line.Request.inRange_fields {r : Request} (valid : r.framingValid = true) {current : Fields}
    (h : current.InRange) : (r.fields current).InRange := by
  obtain ⟨baudRate, depth, timeout, parity, dataBits, stopBits⟩ := r
  constructor
  · cases dataBits with
    | none => exact h.data
    | some n =>
      have range : 5 ≤ n ∧ n ≤ 8 := by simpa [framingValid] using valid
      simp only [fields, Option.map_some, Option.getD_some, BitVec.toNat_ofNat]
      omega
  · cases stopBits with
    | none => exact h.stop
    | some stop => cases stop <;> simp [fields, StopBits.encode]
  · cases parity with
    | none => exact h.parity
    | some parity => cases parity <;> simp [fields, Parity.encode]

def LineState.fields (line : LineState) : Line.Fields := .ofRegister line.lineControl

/-! ### One grant -/

/-- A granted request, with the UART clock that it found. -/
structure Grant where
  request : Line.Request
  clock : Nat
deriving DecidableEq, Repr

namespace Grant

variable (g : Grant)

/-! The codes and the divisor that the request names. -/

def data? : Option Byte := g.request.dataBits.map fun n => BitVec.ofNat 8 (n - 5)

def stop? : Option Byte := g.request.stopBits.map Line.StopBits.encode

def parity? : Option Byte := g.request.parity.map Line.Parity.encode

def divisor? : Option Nat := g.request.baudRate.map (Baud.divisor g.clock)

/-- The divisor to program: the named one, or the one in force, or that of the configured rate. -/
def divisor (baudRate current : Nat) : Nat :=
  g.divisor?.getD (if current = 0 then Baud.divisor g.clock baudRate else current)

/-- The line as the grant leaves it. -/
def settle (baudRate : Nat) (line : LineState) : LineState :=
  if g.request.leavesLine then line
  else { lineControl := (g.request.fields line.fields).pack, divisor := g.divisor baudRate line.divisor }

/-- What a request has to pass to be granted. -/
structure Honoured (baudRate : Nat) (line : LineState) : Prop where
  framing : g.request.framingValid = true
  positive : g.divisor baudRate line.divisor ≠ 0
  fits : g.divisor baudRate line.divisor ≤ Baud.maxLatch

variable {g} {baudRate : Nat} {line : LineState}

theorem fields_settle (framing : g.request.framingValid = true) :
    (g.settle baudRate line).fields =
      { data := g.data?.getD line.fields.data
        stop := g.stop?.getD line.fields.stop
        parity := g.parity?.getD line.fields.parity } := by
  unfold settle
  cases leaves : g.request.leavesLine with
  | true =>
    simp only [Line.Request.leavesLine, Bool.and_eq_true, Option.isNone_iff_eq_none] at leaves
    simp [data?, stop?, parity?, leaves]
  | false => exact Line.Fields.ofRegister_pack (Line.Request.inRange_fields framing (Line.Fields.inRange_ofRegister _))

end Grant

/-! ### Many grants -/

/-- What the last grants that name them ask for. -/
structure Wanted where
  data : Option Byte
  stop : Option Byte
  parity : Option Byte
  divisor : Option Nat
deriving DecidableEq, Repr

def lastWanted (grants : List Grant) : Wanted where
  data := (grants.filterMap Grant.data?).getLast?
  stop := (grants.filterMap Grant.stop?).getLast?
  parity := (grants.filterMap Grant.parity?).getLast?
  divisor := (grants.filterMap Grant.divisor?).getLast?

/-- The request names a field of the line control byte. -/
def Grant.namesField (g : Grant) : Bool := g.data?.isSome || g.stop?.isSome || g.parity?.isSome

theorem Grant.leavesLine_eq (g : Grant) : g.request.leavesLine = (g.divisor?.isNone && !g.namesField) := by
  obtain ⟨⟨baudRate, depth, timeout, parity, dataBits, stopBits⟩, clock⟩ := g
  cases baudRate <;> cases dataBits <;> cases parity <;> cases stopBits <;> rfl

theorem lastWanted_eq_none_iff {grants : List Grant} :
    lastWanted grants = ⟨none, none, none, none⟩ ↔ ∀ g ∈ grants, g.request.leavesLine = true := by
  simp only [lastWanted, Wanted.mk.injEq, List.getLast?_eq_none_iff, List.filterMap_eq_nil_iff,
    ← forall_and, Grant.leavesLine_eq, Grant.namesField, Bool.and_eq_true, Bool.not_eq_true',
    Bool.or_eq_false_iff, Option.isSome_eq_false_iff, Option.isNone_iff_eq_none]
  refine forall_congr' fun g => forall_congr' fun _ => ?_
  exact ⟨fun h => ⟨h.2.2.2, ⟨h.1, h.2.1⟩, h.2.2.1⟩, fun h => ⟨h.2.1.1, h.2.1.2, h.2.2, h.1⟩⟩

/-- The divisor that stays where no grant names one. An empty latch is filled once, by the first grant that
names a field. -/
def keptDivisor (baudRate start : Nat) (grants : List Grant) : Nat :=
  if start ≠ 0 then start
  else ((grants.find? Grant.namesField).map fun g => Baud.divisor g.clock baudRate).getD 0

theorem keptDivisor_of_ne_zero {baudRate start : Nat} (h : start ≠ 0) (grants : List Grant) :
    keptDivisor baudRate start grants = start := if_pos h

/-- The grants lead from one line to another, each honoured where it comes. -/
inductive Settled (baudRate : Nat) : LineState → List Grant → LineState → Prop
  | nil (line : LineState) : Settled baudRate line [] line
  | cons {line last : LineState} {g : Grant} {later : List Grant} (honoured : g.Honoured baudRate line)
      (rest : Settled baudRate (g.settle baudRate line) later last) : Settled baudRate line (g :: later) last

namespace Settled

variable {baudRate : Nat} {line last : LineState} {grants : List Grant}

theorem append {middle : LineState} {earlier later : List Grant} (h : Settled baudRate line earlier middle)
    (h' : Settled baudRate middle later last) : Settled baudRate line (earlier ++ later) last := by
  induction h with
  | nil line => exact h'
  | cons honoured rest ih => exact .cons honoured (ih h')

/-! ### Fields -/

/-- A field that each grant replaces or keeps ends as the last grant that replaces it left it. -/
theorem last_code {α : Type} (view : LineState → α) {code : Grant → Option α}
    (one : ∀ line g, g.request.framingValid = true → view (g.settle baudRate line) = (code g).getD (view line))
    (h : Settled baudRate line grants last) :
    view last = ((grants.filterMap code).getLast?).getD (view line) := by
  induction h with
  | nil line => rfl
  | cons honoured rest ih => rw [ih, one _ _ honoured.framing, getLast?_filterMap_cons]

theorem fields (h : Settled baudRate line grants last) : last.fields =
    { data := (lastWanted grants).data.getD line.fields.data
      stop := (lastWanted grants).stop.getD line.fields.stop
      parity := (lastWanted grants).parity.getD line.fields.parity } := by
  have data := h.last_code (fun l => l.fields.data) fun line g framing => by
    rw [Grant.fields_settle framing]
  have stop := h.last_code (fun l => l.fields.stop) fun line g framing => by
    rw [Grant.fields_settle framing]
  have parity := h.last_code (fun l => l.fields.parity) fun line g framing => by
    rw [Grant.fields_settle framing]
  exact congr (congr (congrArg Line.Fields.mk data) stop) parity

/-! ### Divisor -/

theorem divisor_settle_named {g : Grant} {d : Nat} (named : g.divisor? = some d) :
    (g.settle baudRate line).divisor = d := by
  rw [Grant.settle, g.leavesLine_eq, named]
  simp [Grant.divisor, named]

/-- A grant that names no rate fills an empty latch if it names a field, and leaves the latch alone
otherwise. -/
theorem keptDivisor_settle {g : Grant} (honoured : g.Honoured baudRate line) (unnamed : g.divisor? = none)
    (later : List Grant) : keptDivisor baudRate (g.settle baudRate line).divisor later =
      keptDivisor baudRate line.divisor (g :: later) := by
  have positive := honoured.positive
  rw [Grant.divisor, unnamed, Option.getD_none] at positive
  rw [Grant.settle, g.leavesLine_eq, unnamed]
  cases names : g.namesField with
  | false =>
    simp only [keptDivisor, List.find?_cons, names]
    rfl
  | true =>
    by_cases zero : line.divisor = 0
    · rw [if_pos zero] at positive
      simp [keptDivisor, Grant.divisor, unnamed, names, zero, positive]
    · simp [keptDivisor, Grant.divisor, unnamed, zero]

theorem divisor (h : Settled baudRate line grants last) :
    last.divisor = (lastWanted grants).divisor.getD (keptDivisor baudRate line.divisor grants) := by
  induction h with
  | nil line =>
    show line.divisor = if line.divisor ≠ 0 then line.divisor else 0
    split <;> omega
  | @cons line last g later honoured rest ih =>
    simp only [lastWanted, getLast?_filterMap_cons] at ih ⊢
    rw [ih]
    cases hd : g.divisor? with
    | some d =>
      have positive := honoured.positive
      rw [Grant.divisor, hd, Option.getD_some] at positive
      rw [divisor_settle_named hd, keptDivisor_of_ne_zero positive, Option.getD_some]
    | none => rw [keptDivisor_settle honoured hd, Option.getD_none]

/-! ### The whole byte -/

theorem untouched (h : Settled baudRate line grants last)
    (idle : ∀ g ∈ grants, g.request.leavesLine = true) : last = line := by
  induction h with
  | nil line => rfl
  | cons honoured rest ih =>
    rw [ih fun g hg => idle g (List.mem_cons_of_mem _ hg), Grant.settle, if_pos (idle _ (List.mem_cons_self ..))]

/-- Once a grant has touched the line, the reserved bits are clear. -/
theorem masked (h : Settled baudRate line grants last)
    (busy : ¬∀ g ∈ grants, g.request.leavesLine = true) : last.fields.pack = last.lineControl := by
  rw [LineState.fields, Line.Fields.pack_ofRegister]
  induction h with
  | nil line => exact absurd (List.forall_mem_nil _) busy
  | @cons line last g later honoured rest ih =>
    by_cases idle : ∀ g ∈ later, g.request.leavesLine = true
    · have touched : g.request.leavesLine = false := by
        cases hl : g.request.leavesLine with
        | false => rfl
        | true =>
          have all : ∀ g' ∈ g :: later, g'.request.leavesLine = true := List.forall_mem_cons.mpr ⟨hl, idle⟩
          exact absurd all busy
      rw [rest.untouched idle, Grant.settle, touched]
      exact Line.and_writableMask_and _
    · exact ih idle

/-- From a line with a divisor, what the last grants want decides the line they lead to. -/
theorem determined {grants' : List Grant} {last' : LineState} (h : Settled baudRate line grants last)
    (h' : Settled baudRate line grants' last') (loaded : line.divisor ≠ 0)
    (same : lastWanted grants' = lastWanted grants) : last' = last := by
  have divisor : last'.divisor = last.divisor := by
    rw [h'.divisor, h.divisor, same, keptDivisor_of_ne_zero loaded, keptDivisor_of_ne_zero loaded]
  have fields : last'.fields = last.fields := by rw [h'.fields, h.fields, same]
  have lineControl : last'.lineControl = last.lineControl := by
    by_cases idle : ∀ g ∈ grants, g.request.leavesLine = true
    · have idle' : ∀ g ∈ grants', g.request.leavesLine = true := by
        rwa [← lastWanted_eq_none_iff, same, lastWanted_eq_none_iff]
      rw [h'.untouched idle', h.untouched idle]
    · have busy' : ¬∀ g ∈ grants', g.request.leavesLine = true := by
        rwa [← lastWanted_eq_none_iff, same, lastWanted_eq_none_iff]
      rw [← h'.masked busy', ← h.masked idle, fields]
  cases last
  cases last'
  exact congr (congrArg LineState.mk lineControl) divisor

end Settled

end ConsoleUart
