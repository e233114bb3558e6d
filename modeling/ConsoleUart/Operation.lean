import ConsoleUart.Bits
import ConsoleUart.Line.Settings

/-!
# Operations

What any serial transport can do, and what each operation answers. Transports differ in how they
perform an operation, not in the shape of its answer.
-/

namespace ConsoleUart

inductive Operation where
  | configure
  | write (bytes : List Byte)
  | read (count : Nat)
  /-- Asks whether a received byte is waiting. -/
  | poll
  | setControl (signals : Word)
  | getControl
  | setAttributes (request : Line.Request)
deriving DecidableEq, Repr

/-- The answer to an operation that was carried through. -/
def Operation.Answer : Operation → Type
  | configure => Except Fault Unit
  | write _ => Nat
  | read _ => List Byte
  | poll => Bool
  | setControl _ => Except Fault Unit
  | getControl => Except Fault Word
  | setAttributes _ => Except Fault Line.Attributes

end ConsoleUart
