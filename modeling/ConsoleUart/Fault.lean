/-!
# Faults

Why a serial operation was refused. Each fault has a message for people and a firmware status code,
which carries the top bit of a 64-bit word.
-/

namespace ConsoleUart

inductive Fault where
  /-- The device does not work. -/
  | device
  /-- The operation, or a requested control signal, is not supported. -/
  | unsupported
  /-- The named attribute has a value outside the supported range. -/
  | invalidParameter (what : String)
deriving DecidableEq, Repr

namespace Fault

def message : Fault → String
  | device => "Serial device error"
  | unsupported => "Serial operation unsupported"
  | invalidParameter what => "Invalid parameter: " ++ what

def statusCode : Fault → Nat
  | device => 0x8000000000000007
  | unsupported => 0x8000000000000003
  | invalidParameter _ => 0x8000000000000002

def isInvalidParameter : Fault → Bool
  | invalidParameter _ => true
  | _ => false

instance : ToString Fault where
  toString := message

end Fault

end ConsoleUart
