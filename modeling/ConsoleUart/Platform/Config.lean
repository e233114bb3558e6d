import ConsoleUart.FlowControl
import ConsoleUart.Line.Fields

/-!
# Platform configuration

What the platform fixes once: the base clock, the mini UART's rate and control bytes, the flow-control
policy, the register stride and the settings that a PL011 is opened with.
-/

namespace ConsoleUart

/-- The settings that a PL011 is opened with when nothing else is asked for. -/
structure Pl011Defaults where
  baudRate : Nat := 115200
  parity : Line.Parity := .none
  dataBits : Nat := 8
  stopBits : Line.StopBits := .one
  timeoutMicros : Nat := 1000000
deriving DecidableEq, Repr

structure Config where
  /-- The base clock in hertz, before the VPU divisor. -/
  clockRate : Nat
  baudRate : Nat := 115200
  lineControl : Byte := 0x03
  fifoControl : Byte := 0x07
  flow : FlowControl := { enabled := false, detectCable := false }
  registerStride : Nat := 4
  extendedFifoSize : Nat := 64
  pl011Defaults : Pl011Defaults := {}
deriving DecidableEq, Repr

namespace Config

def rpi3 : Config := { clockRate := 250000000 }

def rpi4 : Config := { clockRate := 500000000 }

instance : Inhabited Config := ⟨rpi4⟩

/-- The line-control byte without its reserved bits. -/
def lineControlBits (c : Config) : Byte := c.lineControl &&& Line.writableMask

/-- The FIFO-control byte with the enable and extended bits only. -/
def fifoControlBits (c : Config) : Byte := c.fifoControl &&& (FifoControl.enable ||| FifoControl.extended)

/-- How many bytes the transmit FIFO takes: one when it is off. An extended FIFO may be configured
with any size, zero included. -/
def fifoDepth (c : Config) : Nat :=
  if !Bits.meets c.fifoControl FifoControl.enable then 1
  else if !Bits.meets c.fifoControl FifoControl.extended then 16
  else c.extendedFifoSize

end Config

end ConsoleUart
