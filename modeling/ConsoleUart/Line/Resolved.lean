import ConsoleUart.Line.Fields

/-!
# Resolved line settings

A request is resolved against the line-control byte in force: named settings become their codes, the
others keep the raw code that the byte holds. Stop bits that are kept are read with the number of data
bits that the request leads to.
-/

namespace ConsoleUart.Line

structure Resolved where
  /-- The codes to program. -/
  fields : Fields
  dataBits : Nat
  parity : Parity
  stopBits : StopBits
deriving DecidableEq, Repr

namespace Request

def resolveDataBits (r : Request) (current : Fields) : Except Fault (Byte × Nat) :=
  match r.dataBits with
  | none => .ok (current.data, current.dataBits)
  | some n => (encodeDataBits n).map (·, n)

def resolveParity (r : Request) (current : Fields) : Byte × Parity :=
  match r.parity with
  | none => (current.parity, Parity.decode current.parity)
  | some p => (p.encode, p)

def resolveStopBits (r : Request) (current : Fields) (dataBits : Nat) : Byte × StopBits :=
  match r.stopBits with
  | none => (current.stop, StopBits.decode current.stop dataBits)
  | some s => (s.encode, s)

/-- Resolves the request against the line-control byte `lcr`. Only the number of data bits can fail. -/
def resolve (r : Request) (lcr : Byte) : Except Fault Resolved := do
  let current := Fields.ofRegister lcr
  let (data, dataBits) ← r.resolveDataBits current
  let (parityCode, parity) := r.resolveParity current
  let (stop, stopBits) := r.resolveStopBits current dataBits
  return { fields := { data, stop, parity := parityCode }, dataBits, parity, stopBits }

end Request

end ConsoleUart.Line
