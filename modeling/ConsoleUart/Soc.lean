import ConsoleUart.AddressSpace
import ConsoleUart.Platform.Config
import ConsoleUart.Platform.Layout

/-!
# A simulated chip

The registers of a mini UART with its receive queue and its transmitter, and the two words that the
driver reads besides. A status register answers from a script while one is left, and from the device's
own state afterwards. With `holdsBack` the peer shows a received byte only while RTS is raised.
-/

namespace ConsoleUart

structure Soc where
  base : Nat
  stride : Nat
  pinFunctionsAddress : Nat
  clockDivisorAddress : Nat
  pinFunctions : Word := 0x12000
  clockDivisor : Word := 0x4000
  lineControl : Byte := 0
  divisorLow : Byte := 0
  divisorHigh : Byte := 0
  interruptEnable : Byte := 0
  fifoControl : Byte := 0
  modemControl : Byte := 0
  modemStatus : Byte := 0
  /-- The transmit side of the line status. -/
  transmitStatus : Byte := 0x60
  holdsBack : Bool := false
  received : List Byte := []
  lineStatusScript : List Byte := []
  modemStatusScript : List Byte := []
  sent : Array Byte := #[]
deriving DecidableEq, Repr

namespace Soc

/-- The chip that a layout and a register stride describe, in its initial state. -/
def initial (layout : Layout) (stride : Nat) : Soc where
  base := layout.miniUartBase
  stride := stride
  pinFunctionsAddress := layout.pinFunctions
  clockDivisorAddress := layout.clockDivisor

def latchOpen (s : Soc) : Bool := Bits.meets s.lineControl latchBit

def divisor (s : Soc) : Nat := 256 * s.divisorHigh.toNat + s.divisorLow.toNat

/-- A received byte shows in the line status. -/
def receiveVisible (s : Soc) : Bool :=
  !s.received.isEmpty && (!s.holdsBack || Bits.meets s.modemControl ModemControl.rts)

/-- The line status when no script is left. -/
def lineStatus (s : Soc) : Byte := Bits.assign s.transmitStatus LineStatus.receiveReady s.receiveVisible

/-! ### Loads and stores -/

/-- The place of a register address, the first one if several places share it. -/
def place? (s : Soc) (address : Nat) : Option Nat :=
  (List.range 7).find? fun i => s.base + i * s.stride = address

/-- With distinct places, each address in the row is that of its own place. -/
theorem place?_eq_some {s : Soc} {i : Nat} (stride : 0 < s.stride) (hi : i < 7) :
    s.place? (s.base + i * s.stride) = some i := by
  have h (j : Nat) : s.base + j * s.stride = s.base + i * s.stride ↔ j = i := by
    rw [Nat.add_left_cancel_iff, Nat.mul_left_inj (by omega)]
  simp only [place?, h]
  clear h stride
  revert i
  decide

def receive (s : Soc) : Byte × Soc :=
  match s.received with
  | [] => (0, s)
  | b :: rest => (b, { s with received := rest })

def readLineStatus (s : Soc) : Byte × Soc :=
  match s.lineStatusScript with
  | [] => (s.lineStatus, s)
  | b :: rest => (b, { s with lineStatusScript := rest })

def readModemStatus (s : Soc) : Byte × Soc :=
  match s.modemStatusScript with
  | [] => (s.modemStatus, s)
  | b :: rest => (b, { s with modemStatusScript := rest })

def readPlace (s : Soc) : Nat → Byte × Soc
  | 0 => if s.latchOpen then (s.divisorLow, s) else s.receive
  | 1 => (if s.latchOpen then s.divisorHigh else s.interruptEnable, s)
  | 2 => (0xC1, s)
  | 3 => (s.lineControl, s)
  | 4 => (s.modemControl, s)
  | 5 => s.readLineStatus
  | 6 => s.readModemStatus
  | _ => (0, s)

def writePlace (s : Soc) (value : Byte) : Nat → Soc
  | 0 => if s.latchOpen then { s with divisorLow := value } else { s with sent := s.sent.push value }
  | 1 => if s.latchOpen then { s with divisorHigh := value } else { s with interruptEnable := value }
  | 2 => { s with fifoControl := value }
  | 3 => { s with lineControl := value }
  | 4 => { s with modemControl := value }
  | _ => s

instance : AddressSpace Soc where
  load s address :=
    match s.place? address with
    | none => (0, s)
    | some i => s.readPlace i
  store s address value :=
    match s.place? address with
    | none => s
    | some i => s.writePlace value i
  loadWord s address :=
    if address = s.pinFunctionsAddress then s.pinFunctions
    else if address = s.clockDivisorAddress then s.clockDivisor
    else 0

/-! ### Changes from outside -/

/-- A change that the chip's surroundings make. Bytes for a queue join its end. -/
inductive Change where
  | base (address : Nat)
  | stride (distance : Nat)
  | pinFunctions (word : Word)
  | clockDivisor (word : Word)
  | lineControl (value : Byte)
  | divisorLow (value : Byte)
  | divisorHigh (value : Byte)
  | interruptEnable (value : Byte)
  | fifoControl (value : Byte)
  | modemControl (value : Byte)
  | modemStatus (value : Byte)
  | transmitStatus (value : Byte)
  | holdsBack (on : Bool)
  | receive (bytes : List Byte)
  | lineStatusScript (bytes : List Byte)
  | modemStatusScript (bytes : List Byte)
deriving DecidableEq, Repr

def apply (s : Soc) : Change → Soc
  | .base address => { s with base := address }
  | .stride distance => { s with stride := distance }
  | .pinFunctions word => { s with pinFunctions := word }
  | .clockDivisor word => { s with clockDivisor := word }
  | .lineControl value => { s with lineControl := value }
  | .divisorLow value => { s with divisorLow := value }
  | .divisorHigh value => { s with divisorHigh := value }
  | .interruptEnable value => { s with interruptEnable := value }
  | .fifoControl value => { s with fifoControl := value }
  | .modemControl value => { s with modemControl := value }
  | .modemStatus value => { s with modemStatus := value }
  | .transmitStatus value => { s with transmitStatus := value }
  | .holdsBack on => { s with holdsBack := on }
  | .receive bytes => { s with received := s.received ++ bytes }
  | .lineStatusScript bytes => { s with lineStatusScript := s.lineStatusScript ++ bytes }
  | .modemStatusScript bytes => { s with modemStatusScript := s.modemStatusScript ++ bytes }

def applyAll (s : Soc) (changes : List Change) : Soc := changes.foldl apply s

end Soc

end ConsoleUart
