import ConsoleUart.FlagTable

/-!
# Registers of a 16550

Ten registers share seven places. The first two places hold the divisor latch while the latch bit of
the line-control register is set, and the buffers and the interrupt enables otherwise.
-/

namespace ConsoleUart

inductive Register where
  | receiveBuffer
  | transmitBuffer
  | divisorLow
  | divisorHigh
  | interruptEnable
  | fifoControl
  | lineControl
  | modemControl
  | lineStatus
  | modemStatus
deriving DecidableEq, Repr

/-- The place of a register, counted in registers from the base. -/
def Register.offset : Register → Nat
  | receiveBuffer | transmitBuffer | divisorLow => 0
  | divisorHigh | interruptEnable => 1
  | fifoControl => 2
  | lineControl => 3
  | modemControl => 4
  | lineStatus => 5
  | modemStatus => 6

theorem Register.offset_lt (r : Register) : r.offset < 7 := by
  cases r <;> decide

/-- The line-control bit that opens the divisor latch. -/
def latchBit : Byte := 0x80

namespace FifoControl

def enable : Byte := 0x01
/-- Selects the extended FIFO. -/
def extended : Byte := 0x20

def table : FlagTable 8 where
  title := "Fcr"
  flags := [("FIFO_ENABLE", enable), ("FIFO_64_BYTE", extended)]

end FifoControl

namespace ModemControl

def dtr : Byte := 0x01
def rts : Byte := 0x02

def table : FlagTable 8 where
  title := "Mcr"
  flags := [("DTR", dtr), ("RTS", rts)]

end ModemControl

namespace LineStatus

/-- A received byte is waiting. -/
def receiveReady : Byte := 0x01
/-- The transmit FIFO is empty. -/
def transmitEmpty : Byte := 0x20
/-- The transmit FIFO and the shift register are empty. -/
def transmitIdle : Byte := 0x40
def transmitterEmpty : Byte := transmitEmpty ||| transmitIdle

def table : FlagTable 8 where
  title := "Lsr"
  flags := [
    ("RX_READY", receiveReady),
    ("TX_EMPTY", transmitEmpty),
    ("TX_IDLE", transmitIdle),
    ("TRANSMITTER_EMPTY", transmitterEmpty)]

end LineStatus

namespace ModemStatus

def cts : Byte := 0x10
def dsr : Byte := 0x20
def ri : Byte := 0x40
def dcd : Byte := 0x80

def table : FlagTable 8 where
  title := "Msr"
  flags := [("CTS", cts), ("DSR", dsr), ("RI", ri), ("DCD", dcd)]

end ModemStatus

end ConsoleUart
