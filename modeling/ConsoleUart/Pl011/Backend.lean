import ConsoleUart.Operation
import ConsoleUart.Session

/-!
# A simulated PL011 back-end

The register protocol and the clock of a PL011 belong to a back-end of its own. This one keeps a
receive queue, can take fewer bytes than it is offered, and can be told to fail. Every call on it is
recorded; calls make no device access and so take nothing from the budget.
-/

namespace ConsoleUart

structure Backend where
  clockHz : Nat := 48000000
  control : Word := 0
  /-- The most bytes that one write takes, `none` when there is no limit. -/
  writeLimit : Option Nat := none
  received : List Byte := []
  openFault : Option Fault := none
  setFault : Option Fault := none
  getFault : Option Fault := none
deriving DecidableEq, Repr

/-- A call on the back-end. All but the first name the base address of the device. -/
inductive Call where
  | clockFrequency
  | openDevice (base clockHz : Nat) (request : Line.Request)
  | write (base : Nat) (bytes : List Byte)
  | read (base capacity : Nat)
  | poll (base : Nat)
  | setControl (base : Nat) (signals : Word)
  | getControl (base : Nat)
deriving DecidableEq, Repr

abbrev Link := Session Backend Call

namespace Backend

/-! ### What the back-end answers -/

/-- The settings in force after a request, with the back-end's own values for those left out. -/
def attributes (request : Line.Request) : Line.Attributes where
  baudRate := request.baudRate.getD 38400
  receiveFifoDepth := request.receiveFifoDepth.getD 32
  timeoutMicros := request.timeoutMicros.getD 777
  parity := request.parity.getD .mark
  dataBits := request.dataBits.getD 6
  stopBits := request.stopBits.getD .two

/-- The fault, if one is set, and the value otherwise. -/
def failing {α : Type} (fault : Option Fault) (a : α) : Except Fault α :=
  match fault with
  | none => .ok a
  | some f => .error f

def accepted (b : Backend) (offered : Nat) : Nat :=
  match b.writeLimit with
  | none => offered
  | some limit => min limit offered

/-! ### Calls -/

def clockFrequency : Link Nat := do
  Session.record .clockFrequency
  Session.observe (·.clockHz)

def openDevice (base clockHz : Nat) (request : Line.Request) : Link (Except Fault Line.Attributes) := do
  Session.record (.openDevice base clockHz request)
  Session.observe fun b => failing b.openFault (attributes request)

def write (base : Nat) (bytes : List Byte) : Link Nat := do
  Session.record (.write base bytes)
  Session.observe fun b => b.accepted bytes.length

def read (base capacity : Nat) : Link (List Byte) := do
  Session.record (.read base capacity)
  Session.act fun b => (b.received.take capacity, { b with received := b.received.drop capacity })

def poll (base : Nat) : Link Bool := do
  Session.record (.poll base)
  Session.observe fun b => !b.received.isEmpty

def setControl (base : Nat) (signals : Word) : Link (Except Fault Unit) := do
  Session.record (.setControl base signals)
  Session.observe fun b => failing b.setFault ()

def getControl (base : Nat) : Link (Except Fault Word) := do
  Session.record (.getControl base)
  Session.observe fun b => failing b.getFault b.control

/-! ### Changes from outside -/

inductive Change where
  | clockHz (hertz : Nat)
  | control (signals : Word)
  | writeLimit (limit : Option Nat)
  | receive (bytes : List Byte)
  | openFault (fault : Option Fault)
  | setFault (fault : Option Fault)
  | getFault (fault : Option Fault)
deriving DecidableEq, Repr

def change (b : Backend) : Change → Backend
  | .clockHz hertz => { b with clockHz := hertz }
  | .control signals => { b with control := signals }
  | .writeLimit limit => { b with writeLimit := limit }
  | .receive bytes => { b with received := b.received ++ bytes }
  | .openFault fault => { b with openFault := fault }
  | .setFault fault => { b with setFault := fault }
  | .getFault fault => { b with getFault := fault }

def changeAll (b : Backend) (changes : List Change) : Backend := changes.foldl change b

end Backend

end ConsoleUart
