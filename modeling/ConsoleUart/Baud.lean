import ConsoleUart.Bits

/-!
# Baud rates and divisors

The UART clock is four times the base clock, divided by a 12.12 fixed-point number held in the low 24
bits of the VPU clock word. The baud generator divides it by sixteen times the divisor. Divisors and
reported rates are rounded to the nearest number, a half upwards.
-/

namespace ConsoleUart.Baud

/-- The part of the VPU clock word that divides the clock. -/
def scaleMask : Word := 0xFFFFFF

/-- The largest 32-bit number, at which divisors saturate. -/
def maxDivisor : Nat := 0xFFFFFFFF

/-- The largest divisor that the 16-bit latch holds. -/
def maxLatch : Nat := 0xFFFF

/-- The UART clock in hertz. A scale of zero means that the divider is off. -/
def uartClock (baseClock : Nat) (vpuWord : Word) : Nat :=
  let scale := (vpuWord &&& scaleMask).toNat
  if scale = 0 then 4 * baseClock else 4 * baseClock * 0x1000 / scale

/-- The nearest number to `n / (2 * half)`, a half rounded upwards. -/
def nearest (n half : Nat) : Nat :=
  n / (2 * half) + if half ≤ n % (2 * half) then 1 else 0

/-- The divisor for a baud rate, zero for the rate zero. -/
def divisor (clock baud : Nat) : Nat :=
  if baud = 0 then 0 else min (nearest clock (8 * baud)) maxDivisor

/-- The baud rate that a divisor gives, zero for the divisor zero. -/
def rate (clock divisor : Nat) : Nat :=
  if divisor = 0 then 0 else (clock + 8 * divisor) / (16 * divisor)

theorem nearest_eq {half : Nat} (h : 0 < half) (n : Nat) : nearest n half = (n + half) / (2 * half) := by
  have hd := Nat.div_add_mod n (2 * half)
  have hm := Nat.mod_lt n (show 0 < 2 * half by omega)
  unfold nearest
  generalize n / (2 * half) = q at *
  generalize n % (2 * half) = r at *
  subst hd
  split
  · rw [show 2 * half * q + r + half = (r - half) + 2 * half * (q + 1) by rw [Nat.mul_succ]; omega,
      Nat.add_mul_div_left _ _ (by omega), Nat.div_eq_of_lt (by omega)]
    omega
  · rw [show 2 * half * q + r + half = (r + half) + 2 * half * q by omega,
      Nat.add_mul_div_left _ _ (by omega), Nat.div_eq_of_lt (by omega)]
    omega

end ConsoleUart.Baud
