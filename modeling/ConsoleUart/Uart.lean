import ConsoleUart.Bits

/-!
# The two UARTs

The console pins carry one of two UARTs. The pins' function-select fields tell which: the PL011 is
routed to them when both fields select function ALT0, and the mini UART is in use otherwise.
-/

namespace ConsoleUart

inductive Uart where
  /-- The 16550-compatible mini UART. -/
  | mini
  | pl011
deriving DecidableEq, Repr

namespace Uart

/-- The function-select fields of pins 14 and 15. -/
def pinMask : Word := 0x3F000

/-- Function ALT0 on both pins. -/
def pl011Pins : Word := 0x24000

def ofPinFunctions (pins : Word) : Uart :=
  if pins &&& pinMask = pl011Pins then pl011 else mini

def name : Uart → String
  | mini => "MiniUart16550"
  | pl011 => "Pl011"

end Uart

end ConsoleUart
