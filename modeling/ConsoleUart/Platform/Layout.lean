/-!
# Addresses on the chip

Where the driver finds the two UARTs, the function-select word of the console pins and the VPU clock
divisor. Chips of one family share the offsets and differ in the peripheral base.
-/

namespace ConsoleUart

structure Layout where
  pl011Base : Nat
  miniUartBase : Nat
  /-- The function-select word for pins 10 to 19. -/
  pinFunctions : Nat
  /-- The VPU clock divisor word. -/
  clockDivisor : Nat
deriving DecidableEq, Repr

namespace Layout

def ofPeripheralBase (base : Nat) : Layout where
  pl011Base := base + 0x201000
  miniUartBase := base + 0x215000 + 0x40
  pinFunctions := base + 0x200000 + 0x04
  clockDivisor := base + 0x101000 + 0x0c

def rpi3 : Layout := ofPeripheralBase 0x3F000000

def rpi4 : Layout := ofPeripheralBase 0xFE000000

instance : Inhabited Layout := ⟨rpi4⟩

end Layout

end ConsoleUart
