import ConsoleUart.MiniUart.Basic

/-!
# Moving bytes

Bytes are sent in bursts: the driver waits until the transmitter is empty, which leaves room for as
many bytes as the FIFO is deep, and asks the peer before each single byte. With flow control on,
reception is paced by RTS: raised while the driver waits, lowered before it takes a byte.
-/

namespace ConsoleUart.MiniUart

variable {σ : Type} [AddressSpace σ] (u : MiniUart)

/-! ### Sending -/

def sendByte (byte : Byte) : Bus σ Unit := do
  Session.await u.flowWritable
  u.registers.write .transmitBuffer byte

/-- Sends bytes while the FIFO has `room`, and waits for an empty transmitter when it has none. -/
def sendBursts (depth : Nat) : Nat → List Byte → Bus σ Unit
  | _, [] => pure ()
  | 0, byte :: rest => do
    Session.await u.transmitterEmpty
    u.sendByte byte
    sendBursts depth (depth - 1) rest
  | room + 1, byte :: rest => do
    u.sendByte byte
    sendBursts depth room rest

/-- Waits until everything has been sent and the peer would take more. -/
def flush : Bus σ Unit := do
  Session.await u.transmitterEmpty
  Session.await u.flowWritable

/-- Sends all bytes and returns their number. Sending nothing flushes the transmitter. -/
def write (bytes : List Byte) : Bus σ Nat := do
  match bytes with
  | [] => u.flush
  | _ :: _ => u.sendBursts (max 1 u.config.fifoDepth) 0 bytes
  return bytes.length

/-! ### Receiving -/

/-- Sets or clears RTS on top of the modem control `mcr`; does nothing when reception is not paced. -/
def pace (mcr : Option Byte) (rts : Bool) : Bus σ Unit :=
  match mcr with
  | none => pure ()
  | some mcr => u.registers.write .modemControl (Bits.assign mcr ModemControl.rts rts)

/-- Looks for a received byte and invites the peer to send when there is none. -/
def lookForByte (mcr : Option Byte) : Bus σ Bool := do
  let ready ← u.receiverReady
  unless ready do
    u.pace mcr true
  return ready

def receiveByte (mcr : Option Byte) : Bus σ Byte := do
  Session.await (u.lookForByte mcr)
  u.pace mcr false
  u.registers.read .receiveBuffer

def receiveBytes (mcr : Option Byte) : Nat → Bus σ (List Byte)
  | 0 => pure []
  | n + 1 => do
    let byte ← u.receiveByte mcr
    let rest ← receiveBytes mcr n
    return byte :: rest

/-- The modem control that pacing starts from, `none` when flow control is off. -/
def pacingBase : Bus σ (Option Byte) := do
  if u.config.flow.enabled then
    return some (← u.registers.read .modemControl)
  else
    return none

variable {u} in
theorem pacingBase_of_off (off : u.config.flow.enabled = false) :
    (u.pacingBase : Bus σ (Option Byte)) = pure none := by
  simp [pacingBase, off]

variable {u} in
theorem pacingBase_of_on (on : u.config.flow.enabled = true) :
    (u.pacingBase : Bus σ (Option Byte)) = some <$> u.registers.read .modemControl := by
  simp [pacingBase, on]

/-- Receives exactly `count` bytes. Receiving none touches nothing. -/
def read (count : Nat) : Bus σ (List Byte) := do
  if count = 0 then
    return []
  else
    u.receiveBytes (← u.pacingBase) count

/-- Tells whether a received byte is waiting, without waiting for one. With flow control on, RTS then
asks the peer for a byte exactly when there is none. -/
def poll : Bus σ Bool := do
  let ready ← u.receiverReady
  u.pace (← u.pacingBase) (!ready)
  return ready

end ConsoleUart.MiniUart
