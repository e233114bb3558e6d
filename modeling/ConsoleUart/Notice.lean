import ConsoleUart.Uart

/-!
# Notices

What the driver reports about itself while it works, apart from its results.
-/

namespace ConsoleUart

inductive Notice where
  | detected (uart : Uart)
  | alreadyConfigured (divisor : Nat)
  | divisorTooLarge (divisor : Nat)
  | programming (baudRate divisor : Nat) (lineControl fifoControl : Byte)
  | attributesApplied (baudRate divisor : Nat) (lineControl : Byte)
deriving DecidableEq, Repr

namespace Notice

def level : Notice → String
  | detected _ | programming .. => "DEBUG"
  | alreadyConfigured _ | attributesApplied .. => "TRACE"
  | divisorTooLarge _ => "WARN"

def text : Notice → String
  | detected uart => "console UART detected: " ++ uart.name
  | alreadyConfigured divisor => "mini UART already configured (divisor " ++ toString divisor ++ ")"
  | divisorTooLarge divisor =>
    "mini UART divisor " ++ toString divisor ++ " does not fit the 16-bit latch"
  | programming baudRate divisor lineControl fifoControl =>
    "programming mini UART: " ++ toString baudRate ++ " baud, divisor " ++ toString divisor ++
      ", LCR " ++ Bits.hexByte lineControl ++ ", FCR " ++ Bits.hexByte fifoControl
  | attributesApplied baudRate divisor lineControl =>
    "mini UART attributes: " ++ toString baudRate ++ " baud, divisor " ++ toString divisor ++
      ", LCR " ++ Bits.hexByte lineControl

def render (n : Notice) : String := n.level ++ " " ++ n.text

end Notice

end ConsoleUart
