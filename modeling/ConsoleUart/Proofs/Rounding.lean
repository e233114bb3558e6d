import ConsoleUart.Baud

/-!
# Rounding of divisors and rates

A divisor is the clock over sixteen times the rate, rounded, and the rate shown for a divisor is the clock
over sixteen times the divisor, rounded. `Rounds` states both without division. Rounding one way and back
misses by little, and rounding there and back once more misses by nothing.
-/

namespace ConsoleUart.Baud

/-- `r` is the number nearest to `clock / (16 * d)`, a half rounded upwards. -/
def Rounds (clock d r : Nat) : Prop := 16 * (d * r) ≤ clock + 8 * d ∧ clock < 16 * (d * r) + 8 * d

variable {clock a b d r : Nat}

theorem div_eq_iff_rounds (hd : 0 < d) : (clock + 8 * d) / (16 * d) = r ↔ Rounds clock d r := by
  have product : r * (16 * d) = 16 * (d * r) := by rw [Nat.mul_comm r, Nat.mul_assoc]
  rw [Nat.div_eq_iff (by omega), product, Rounds]
  omega

theorem rate_eq_iff (hd : 0 < d) : rate clock d = r ↔ Rounds clock d r := by
  rw [rate, if_neg (by omega), div_eq_iff_rounds hd]

theorem rounds_rate (hd : 0 < d) : Rounds clock d (rate clock d) := (rate_eq_iff hd).mp rfl

theorem divisor_eq (hb : 0 < b) : divisor clock b = min ((clock + 8 * b) / (16 * b)) maxDivisor := by
  have double : 2 * (8 * b) = 16 * b := by omega
  rw [divisor, if_neg (by omega), nearest_eq (by omega), double]

/-- A divisor that is not saturated is the rounded one. -/
theorem rounds_divisor (hb : 0 < b) (narrow : divisor clock b < maxDivisor) :
    Rounds clock b (divisor clock b) := by
  rw [divisor_eq hb] at narrow ⊢
  rw [Nat.min_eq_left (by omega)]
  exact (div_eq_iff_rounds hb).mp rfl

/-! ### There and back -/

namespace Rounds

/-- The rate shown for the divisor of a rate is off by half the rate over the divisor, and half a unit. -/
theorem error_le (divisor : Rounds clock a d) (shown : Rounds clock d b) :
    2 * d * ((b : Int) - a).natAbs ≤ a + d := by
  obtain ⟨low, high⟩ := divisor
  obtain ⟨low', high'⟩ := shown
  rw [Nat.mul_comm a d] at low high
  rw [Nat.mul_assoc]
  rcases Nat.le_total a b with le | le
  · have gap : d * ((b : Int) - a).natAbs = d * b - d * a := by
      rw [← Nat.mul_sub, show ((b : Int) - a).natAbs = b - a by omega]
    omega
  · have gap : d * ((b : Int) - a).natAbs = d * a - d * b := by
      rw [← Nat.mul_sub, show ((b : Int) - a).natAbs = a - b by omega]
    omega

theorem unique (h : Rounds clock d a) (h' : Rounds clock d b) : a = b := by
  by_cases hd : 0 < d
  · exact ((div_eq_iff_rounds hd).mpr h).symm.trans ((div_eq_iff_rounds hd).mpr h')
  · have zero : d = 0 := by omega
    rw [Rounds, zero] at h
    omega

/-- If the rate of a divisor leads to another divisor, that one has the same rate. -/
theorem turn (shown : Rounds clock d b) (divisor : Rounds clock b r) (hb : 0 < b) : Rounds clock r b := by
  obtain ⟨low, high⟩ := shown
  rcases Nat.lt_or_ge b d with lt | le
  · -- The divisor is the coarser step, and the new one is no finer than the rate.
    obtain ⟨low', high'⟩ := divisor
    have coarse : b ≤ r := by
      refine Nat.le_of_not_lt fun fine => ?_
      have near : b * (r + 1) ≤ b * b := Nat.mul_le_mul_left b fine
      have steep : d - b ≤ (d - b) * b := Nat.le_mul_of_pos_right _ hb
      rw [Nat.mul_succ] at near
      rw [Nat.sub_mul] at steep
      omega
    rw [Rounds, Nat.mul_comm r b]
    omega
  · -- The rate is the coarser step: it leads back to the divisor itself.
    have back : Rounds clock b d := by
      rw [Rounds, Nat.mul_comm b d]
      omega
    rw [back.unique divisor] at low high
    exact ⟨low, high⟩

/-- The divisors with one rate are neighbours. -/
theorem between (h : Rounds clock d b) (h' : Rounds clock r b) {m : Nat} (hd : d ≤ m) (hr : m ≤ r)
    (hb : 0 < b) : Rounds clock m b := by
  obtain ⟨-, high⟩ := h
  obtain ⟨low, -⟩ := h'
  have up : d * b ≤ m * b := Nat.mul_le_mul_right b hd
  have down : r - m ≤ (r - m) * b := Nat.le_mul_of_pos_right _ hb
  have ordered : m * b ≤ r * b := Nat.mul_le_mul_right b hr
  rw [Nat.sub_mul] at down
  constructor <;> omega

end Rounds

/-- A rate that a divisor gives is given by the divisor computed for it, which may be another. -/
theorem rate_divisor_rate (hd : 0 < d) (narrow : d ≤ maxDivisor) (hb : 0 < rate clock d) :
    rate clock (divisor clock (rate clock d)) = rate clock d := by
  have shown : Rounds clock d (rate clock d) := rounds_rate hd
  have computed : Rounds clock (rate clock d) ((clock + 8 * rate clock d) / (16 * rate clock d)) :=
    (div_eq_iff_rounds hb).mp rfl
  have back := shown.turn computed hb
  rw [divisor_eq hb]
  generalize (clock + 8 * rate clock d) / (16 * rate clock d) = wide at computed back ⊢
  generalize rate clock d = b at *
  have positive : 0 < wide := by
    refine Nat.pos_of_ne_zero fun zero => ?_
    obtain ⟨low, -⟩ := shown
    obtain ⟨-, high⟩ := computed
    have wide_d : d ≤ d * b := Nat.le_mul_of_pos_right d hb
    have wide_b : b ≤ d * b := Nat.le_mul_of_pos_left b hd
    rw [zero] at high
    omega
  rcases Nat.le_total wide maxDivisor with le | le
  · rw [Nat.min_eq_left le]
    exact (rate_eq_iff positive).mpr back
  · -- Saturated, the divisor lies between the two.
    rw [Nat.min_eq_right le]
    exact (rate_eq_iff (by decide)).mpr (shown.between back narrow le hb)

end ConsoleUart.Baud
