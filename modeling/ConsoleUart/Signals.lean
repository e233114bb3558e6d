import ConsoleUart.FlagTable

/-!
# Control signals

The modem control and status signals of a serial line, in the firmware's 32-bit encoding.
-/

namespace ConsoleUart.Signals

def dataTerminalReady : Word := 0x0001
def requestToSend : Word := 0x0002
def clearToSend : Word := 0x0010
def dataSetReady : Word := 0x0020
def ringIndicate : Word := 0x0040
def carrierDetect : Word := 0x0080
/-- No received byte is waiting. -/
def inputBufferEmpty : Word := 0x0100
/-- Nothing is left to transmit. -/
def outputBufferEmpty : Word := 0x0200
def hardwareLoopback : Word := 0x1000
def softwareLoopback : Word := 0x2000
def hardwareFlowControl : Word := 0x4000

def table : FlagTable 32 where
  title := "ControlSignals"
  flags := [
    ("DATA_TERMINAL_READY", dataTerminalReady),
    ("REQUEST_TO_SEND", requestToSend),
    ("CLEAR_TO_SEND", clearToSend),
    ("DATA_SET_READY", dataSetReady),
    ("RING_INDICATE", ringIndicate),
    ("CARRIER_DETECT", carrierDetect),
    ("INPUT_BUFFER_EMPTY", inputBufferEmpty),
    ("OUTPUT_BUFFER_EMPTY", outputBufferEmpty),
    ("HARDWARE_LOOPBACK_ENABLE", hardwareLoopback),
    ("SOFTWARE_LOOPBACK_ENABLE", softwareLoopback),
    ("HARDWARE_FLOW_CONTROL_ENABLE", hardwareFlowControl)]

/-- The signals that a caller may set. -/
def settable : Word := requestToSend ||| dataTerminalReady ||| hardwareFlowControl

/-- Every bit of the mask, named or not, may be set by a caller. -/
def onlySettable (mask : Word) : Bool := Bits.clear mask settable == 0

end ConsoleUart.Signals
