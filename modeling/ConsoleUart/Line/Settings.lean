import ConsoleUart.Fault

/-!
# Line settings

A `Request` names the settings a caller wants; a field left out stands for what the device has.
`Attributes` are the settings in effect, all of them known. Firmware callers pass numbers instead,
with zero for a field left out.
-/

namespace ConsoleUart.Line

inductive Parity where
  | none
  | even
  | odd
  /-- The parity bit is always one. -/
  | mark
  /-- The parity bit is always zero. -/
  | space
deriving DecidableEq, Repr

inductive StopBits where
  | one
  | oneAndHalf
  | two
deriving DecidableEq, Repr

structure Request where
  baudRate : Option Nat := .none
  receiveFifoDepth : Option Nat := .none
  timeoutMicros : Option Nat := .none
  parity : Option Parity := .none
  dataBits : Option Nat := .none
  stopBits : Option StopBits := .none
deriving DecidableEq, Repr

structure Attributes where
  baudRate : Nat
  receiveFifoDepth : Nat
  timeoutMicros : Nat
  parity : Parity
  dataBits : Nat
  stopBits : StopBits
deriving DecidableEq, Repr

def Attributes.toRequest (a : Attributes) : Request where
  baudRate := some a.baudRate
  receiveFifoDepth := some a.receiveFifoDepth
  timeoutMicros := some a.timeoutMicros
  parity := some a.parity
  dataBits := some a.dataBits
  stopBits := some a.stopBits

namespace Request

/-- Nothing is asked of the line itself: rate and framing are all left out. -/
def leavesLine (r : Request) : Bool :=
  r.baudRate.isNone && r.dataBits.isNone && r.parity.isNone && r.stopBits.isNone

def isAllDefault (r : Request) : Bool :=
  r.leavesLine && r.receiveFifoDepth.isNone && r.timeoutMicros.isNone

end Request

/-! ### Firmware codes -/

namespace Parity

def code : Parity → Nat
  | none => 1
  | even => 2
  | odd => 3
  | mark => 4
  | space => 5

/-- The parity with this code, `none` for the code zero. -/
def ofCode : Nat → Except Fault (Option Parity)
  | 0 => .ok .none
  | 1 => .ok (some none)
  | 2 => .ok (some even)
  | 3 => .ok (some odd)
  | 4 => .ok (some mark)
  | 5 => .ok (some space)
  | _ => .error (.invalidParameter "parity")

theorem ofCode_code (p : Parity) : ofCode p.code = .ok (some p) := by
  cases p <;> rfl

end Parity

namespace StopBits

def code : StopBits → Nat
  | one => 1
  | oneAndHalf => 2
  | two => 3

/-- The stop bits with this code, `none` for the code zero. -/
def ofCode : Nat → Except Fault (Option StopBits)
  | 0 => .ok none
  | 1 => .ok (some one)
  | 2 => .ok (some oneAndHalf)
  | 3 => .ok (some two)
  | _ => .error (.invalidParameter "stop bits")

theorem ofCode_code (s : StopBits) : ofCode s.code = .ok (some s) := by
  cases s <;> rfl

end StopBits

/-- A number as a setting: zero leaves the field out. -/
def settingOfNat (n : Nat) : Option Nat := if n = 0 then none else some n

/-- The request that firmware numbers stand for. An unknown parity is reported before unknown stop bits. -/
def Request.ofCodes (baudRate receiveFifoDepth timeoutMicros parity dataBits stopBits : Nat) :
    Except Fault Request := do
  let parity ← Parity.ofCode parity
  let stopBits ← StopBits.ofCode stopBits
  return {
    baudRate := settingOfNat baudRate
    receiveFifoDepth := settingOfNat receiveFifoDepth
    timeoutMicros := settingOfNat timeoutMicros
    parity
    dataBits := settingOfNat dataBits
    stopBits }

end ConsoleUart.Line
