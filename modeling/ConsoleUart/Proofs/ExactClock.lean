import ConsoleUart.Proofs.Rounding
import Mathlib.Algebra.Order.Floor.Semifield
import Mathlib.Data.Rat.Floor
import Mathlib.Tactic.FieldSimp
import Mathlib.Tactic.Positivity

/-!
# The exact clock

The UART clock is kept as a whole number of hertz, cut off below, and rates and divisors are rounded from
that number. Rounding the exact clock would give the same: the half that is added before the division is a
whole number too, and a floor of a floor is a floor. On 32-bit inputs all of it stays within 64 bits.
-/

namespace ConsoleUart.Baud

/-! ### Rounding -/

/-- The UART clock as a rational number. -/
def exactClock (baseClock : Nat) (vpuWord : Word) : ℚ :=
  let scale := vpuWord.toNat % 0x1000000
  if scale = 0 then 4 * baseClock else 4 * baseClock * 4096 / scale

/-- The whole number nearest to `q`, a half upwards. -/
def roundHalfUp (q : ℚ) : ℕ := ⌊q + 1 / 2⌋₊

theorem toNat_and_scaleMask (vpuWord : Word) : (vpuWord &&& scaleMask).toNat = vpuWord.toNat % 0x1000000 := by
  rw [BitVec.toNat_and]
  exact Nat.and_two_pow_sub_one_eq_mod vpuWord.toNat 24

theorem exactClock_nonneg (baseClock : Nat) (vpuWord : Word) : 0 ≤ exactClock baseClock vpuWord := by
  unfold exactClock
  simp only
  split <;> positivity

theorem floor_exactClock (baseClock : Nat) (vpuWord : Word) :
    ⌊exactClock baseClock vpuWord⌋₊ = uartClock baseClock vpuWord := by
  unfold exactClock uartClock
  rw [toNat_and_scaleMask]
  by_cases off : vpuWord.toNat % 0x1000000 = 0
  · rw [if_pos off, if_pos off]
    have whole : (4 * baseClock : ℚ) = ((4 * baseClock : ℕ) : ℚ) := by push_cast; rfl
    rw [whole, Nat.floor_natCast]
  · rw [if_neg off, if_neg off]
    have whole : (4 * baseClock * 4096 : ℚ) = ((4 * baseClock * 0x1000 : ℕ) : ℚ) := by push_cast; rfl
    rw [whole, Nat.floor_div_eq_div]

/-- Cutting the clock off before it is rounded changes nothing. -/
theorem floor_rounded_exactClock (baseClock : Nat) (vpuWord : Word) (n : Nat) :
    ⌊(exactClock baseClock vpuWord + 8 * n) / (16 * n)⌋₊ = (uartClock baseClock vpuWord + 8 * n) / (16 * n) := by
  have half : (8 * n : ℚ) = ((8 * n : ℕ) : ℚ) := by push_cast; rfl
  have step : (16 * n : ℚ) = ((16 * n : ℕ) : ℚ) := by push_cast; rfl
  rw [half, step, Nat.floor_div_natCast, Nat.floor_add_natCast (exactClock_nonneg baseClock vpuWord),
    floor_exactClock]

theorem roundHalfUp_exactClock (baseClock : Nat) (vpuWord : Word) {n : Nat} (positive : 0 < n) :
    roundHalfUp (exactClock baseClock vpuWord / (16 * n)) =
      ⌊(exactClock baseClock vpuWord + 8 * n) / (16 * n)⌋₊ := by
  have nonzero : (n : ℚ) ≠ 0 := by exact_mod_cast positive.ne'
  unfold roundHalfUp
  congr 1
  field_simp
  ring

/-! ### Within 64 bits -/

/-- A value of 64-bit arithmetic, none if it overflows. -/
def word64 (n : Nat) : Option Nat := if n < 0x10000000000000000 then some n else none

theorem word64_of_lt {n : Nat} (h : n < 0x10000000000000000) : word64 n = some n := if_pos h

def uartClock64 (baseClock : Nat) (vpuWord : Word) : Option Nat := do
  let clock ← word64 (4 * baseClock)
  let scale := (vpuWord &&& scaleMask).toNat
  if scale = 0 then
    return clock
  else
    let shifted ← word64 (clock * 0x1000)
    word64 (shifted / scale)

def divisor64 (clock baud : Nat) : Option Nat := do
  if baud = 0 then
    return 0
  else
    let step ← word64 (16 * baud)
    let half ← word64 (8 * baud)
    let quotient ← word64 (clock / step)
    let rest ← word64 (clock % step)
    let rounded ← word64 (quotient + if half ≤ rest then 1 else 0)
    return min rounded maxDivisor

def rate64 (clock divisor : Nat) : Option Nat := do
  if divisor = 0 then
    return 0
  else
    let step ← word64 (16 * divisor)
    let half ← word64 (step / 2)
    let sum ← word64 (clock + half)
    word64 (sum / step)

variable {baseClock n : Nat} {vpuWord : Word}

theorem uartClock_le (base : baseClock < 0x100000000) : uartClock baseClock vpuWord < 0x400000000000 := by
  have cut := Nat.div_le_self (4 * baseClock * 0x1000) (vpuWord &&& scaleMask).toNat
  unfold uartClock
  simp only
  split <;> omega

theorem uartClock64_eq (base : baseClock < 0x100000000) :
    uartClock64 baseClock vpuWord = some (uartClock baseClock vpuWord) := by
  have cut := Nat.div_le_self (4 * baseClock * 0x1000) (vpuWord &&& scaleMask).toNat
  have first := word64_of_lt (n := 4 * baseClock) (by omega)
  have second := word64_of_lt (n := 4 * baseClock * 0x1000) (by omega)
  have third := word64_of_lt (n := 4 * baseClock * 0x1000 / (vpuWord &&& scaleMask).toNat) (by omega)
  unfold uartClock64 uartClock
  simp only [first, second, third, Option.bind_eq_bind, Option.bind_some]
  split <;> rfl

theorem divisor64_eq {clock baud : Nat} (bound : clock < 0x400000000000) (narrow : baud < 0x100000000) :
    divisor64 clock baud = some (divisor clock baud) := by
  have quotient := Nat.div_le_self clock (16 * baud)
  have rest := Nat.mod_le clock (16 * baud)
  have carry : (if 8 * baud ≤ clock % (16 * baud) then 1 else 0) ≤ 1 := by split <;> omega
  have double : 2 * (8 * baud) = 16 * baud := by omega
  have first := word64_of_lt (n := 16 * baud) (by omega)
  have second := word64_of_lt (n := 8 * baud) (by omega)
  have third := word64_of_lt (n := clock / (16 * baud)) (by omega)
  have fourth := word64_of_lt (n := clock % (16 * baud)) (by omega)
  have fifth := word64_of_lt
    (n := clock / (16 * baud) + if 8 * baud ≤ clock % (16 * baud) then 1 else 0) (by omega)
  unfold divisor64 divisor nearest
  simp only [first, second, third, fourth, fifth, double, Option.bind_eq_bind, Option.bind_some]
  split <;> rfl

theorem rate64_eq {clock divisor : Nat} (bound : clock < 0x400000000000) (narrow : divisor < 0x100000000) :
    rate64 clock divisor = some (rate clock divisor) := by
  have half : 16 * divisor / 2 = 8 * divisor := by omega
  have quotient := Nat.div_le_self (clock + 8 * divisor) (16 * divisor)
  have first := word64_of_lt (n := 16 * divisor) (by omega)
  have second := word64_of_lt (n := 8 * divisor) (by omega)
  have third := word64_of_lt (n := clock + 8 * divisor) (by omega)
  have fourth := word64_of_lt (n := (clock + 8 * divisor) / (16 * divisor)) (by omega)
  unfold rate64 rate
  simp only [first, half, second, third, fourth, Option.bind_eq_bind, Option.bind_some]
  split <;> rfl

/-- The divisor for a rate and the rate for a divisor are the exact clock over sixteen times the one or the
other, rounded once, a half upwards. Computed in 64 bits they come out the same, with nothing overflowing. -/
theorem rounds_exact_clock_once (baseClock : Nat) (vpuWord : Word) (base : baseClock < 0x100000000) :
    let exact := exactClock baseClock vpuWord
    let clock := uartClock baseClock vpuWord
    uartClock64 baseClock vpuWord = some clock ∧
    (∀ baud, 1 ≤ baud → baud < 0x100000000 →
      divisor clock baud = min ⌊(exact + 8 * baud) / (16 * baud)⌋₊ 0xFFFFFFFF ∧
      ⌊(exact + 8 * baud) / (16 * baud)⌋₊ = roundHalfUp (exact / (16 * baud)) ∧
      divisor64 clock baud = some (divisor clock baud)) ∧
    ∀ n, 1 ≤ n → n < 0x100000000 →
      rate clock n = ⌊(exact + 8 * n) / (16 * n)⌋₊ ∧ rate64 clock n = some (rate clock n) := by
  intro exact clock
  have bound : clock < 0x400000000000 := uartClock_le base
  refine ⟨uartClock64_eq base, fun baud positive narrow => ⟨?_, ?_, divisor64_eq bound narrow⟩,
    fun n positive narrow => ⟨?_, rate64_eq bound narrow⟩⟩
  · rw [floor_rounded_exactClock, divisor_eq positive]
    rfl
  · exact (roundHalfUp_exactClock baseClock vpuWord positive).symm
  · rw [floor_rounded_exactClock, rate, if_neg (by omega)]

/-- A clock that is cut off and then lies one hertz short of the half between two divisors. -/
theorem rounds_exact_clock_once_short_of_half :
    let exact := exactClock 0xFFFFFFFF 0xFF2E9A77
    let clock := uartClock 0xFFFFFFFF 0xFF2E9A77
    (0xFFFFFFFF < 0x100000000 ∧ clock = 23039999 ∧ (clock : ℚ) < exact) ∧
    (divisor clock 115200 = 12 ∧ roundHalfUp (exact / (16 * (115200 : ℕ))) = 12 ∧
      divisor64 clock 115200 = some 12) ∧
    (rate clock 12 = 120000 ∧ ⌊(exact + 8 * (12 : ℕ)) / (16 * (12 : ℕ))⌋₊ = 120000 ∧
      rate64 clock 12 = some 120000) := by
  intro exact clock
  obtain ⟨-, divisors, rates⟩ := rounds_exact_clock_once 0xFFFFFFFF 0xFF2E9A77 (by decide)
  obtain ⟨-, nearest, within⟩ := divisors 115200 (by decide) (by decide)
  obtain ⟨floored, within'⟩ := rates 12 (by decide) (by decide)
  have cut : clock = 23039999 := by decide +kernel
  have divided : divisor clock 115200 = 12 := by decide +kernel
  have rated : rate clock 12 = 120000 := by decide +kernel
  have scale : (0xFF2E9A77 : Word).toNat % 0x1000000 = 3054199 := by decide
  have short : (clock : ℚ) < exact := by
    simp only [cut, exact, exactClock, scale]
    norm_num
  have chosen : ⌊(exact + 8 * (115200 : ℕ)) / (16 * (115200 : ℕ))⌋₊ = 12 := by
    rw [floor_rounded_exactClock]
    decide +kernel
  exact ⟨⟨by decide, cut, short⟩, ⟨divided, nearest.symm.trans chosen, within.trans (congrArg some divided)⟩,
    rated, floored.symm.trans rated, within'.trans (congrArg some rated)⟩

end ConsoleUart.Baud
