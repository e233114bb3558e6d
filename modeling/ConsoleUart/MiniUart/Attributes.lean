import ConsoleUart.Line.Resolved
import ConsoleUart.MiniUart.Basic

/-!
# Line attributes of the mini UART

A request is first turned into a plan, which may fail, and the plan is then applied, which may not.
Planning writes nothing but the latch bit, around the read of a divisor that is to be kept.
-/

namespace ConsoleUart.MiniUart

variable {σ : Type} [AddressSpace σ] (u : MiniUart)

/-! ### Speed -/

/-- A baud rate with the divisor that stands for it. -/
structure Speed where
  baudRate : Nat
  divisor : Nat
deriving DecidableEq, Repr

/-- The speed with this divisor, if the latch can hold it. -/
def Speed.ofDivisor (baudRate divisor : Nat) : Except Fault Speed :=
  if divisor = 0 ∨ Baud.maxLatch < divisor then .error (.invalidParameter "baud rate")
  else .ok { baudRate, divisor }

/-- The speed for a wanted baud rate. A rate beyond 32 bits is refused before the clock is read. -/
def speedFor (baudRate : Nat) : Bus σ (Except Fault Speed) := do
  if Baud.maxDivisor < baudRate then
    return .error (.invalidParameter "baud rate")
  else
    return Speed.ofDivisor baudRate (← u.clock.divisor baudRate)

/-- The speed in force, or the configured one while the latch holds zero. -/
def currentSpeed : Bus σ (Except Fault Speed) := do
  let divisor ← u.registers.readDivisor
  if divisor = 0 then
    u.speedFor u.config.baudRate
  else
    return .ok { baudRate := Baud.rate (← u.clock.frequency) divisor, divisor }

/-! ### Plan -/

/-- What a request comes to: the speed and the framing to program. -/
structure Plan where
  speed : Speed
  line : Line.Resolved
deriving DecidableEq, Repr

/-- A wanted speed is checked before the framing; a kept speed is read after it. -/
def plan (request : Line.Request) : Bus σ (Except Fault Plan) := do
  match request.baudRate with
  | some baudRate =>
    match ← u.speedFor baudRate with
    | .error fault => return .error fault
    | .ok speed => return (request.resolve (← u.registers.read .lineControl)).map fun line => { speed, line }
  | none =>
    match request.resolve (← u.registers.read .lineControl) with
    | .error fault => return .error fault
    | .ok line => return (← u.currentSpeed).map fun speed => { speed, line }

/-- The attributes that a plan gives, the others taken from the request or the configuration. -/
def attributes (request : Line.Request) (plan : Plan) : Line.Attributes where
  baudRate := plan.speed.baudRate
  receiveFifoDepth := request.receiveFifoDepth.getD (min u.config.fifoDepth 0xFFFFFFFF)
  timeoutMicros := request.timeoutMicros.getD u.config.pl011Defaults.timeoutMicros
  parity := plan.line.parity
  dataBits := plan.line.dataBits
  stopBits := plan.line.stopBits

def apply (plan : Plan) : Bus σ Unit := do
  u.registers.loadDivisor plan.speed.divisor
  u.registers.write .lineControl plan.line.fields.pack
  Bus.note (.attributesApplied plan.speed.baudRate plan.speed.divisor plan.line.fields.pack)

/-- Applies a request and returns the attributes in force. A request that leaves the line alone is
answered without programming anything. -/
def setAttributes (request : Line.Request) : Bus σ (Except Fault Line.Attributes) := do
  match ← u.plan request with
  | .error fault => return .error fault
  | .ok plan =>
    unless request.leavesLine do
      u.apply plan
    return .ok (u.attributes request plan)

end ConsoleUart.MiniUart
