import ConsoleUart.MiniUart.Operations
import ConsoleUart.Pl011.Link
import ConsoleUart.Soc

/-!
# The console

One device over whichever UART the console pins carry. The first operation reads the pins' function
selects once; the answer is kept for good, and each operation goes to the UART it names.
-/

namespace ConsoleUart

/-- Everything a console acts on, and which UART it has found. -/
structure Board where
  detected : Option Uart := none
  soc : Soc
  backend : Backend
deriving DecidableEq, Repr

inductive Event where
  | bus (e : Bus.Event)
  | call (c : Call)
deriving DecidableEq, Repr

namespace Event

def access? : Event → Option Access
  | bus e => e.access?
  | call _ => none

def notice? : Event → Option Notice
  | bus e => e.notice?
  | call _ => none

def call? : Event → Option Call
  | bus _ => none
  | call c => some c

end Event

/-- Reads which UART the console pins carry. -/
def Layout.detect {σ : Type} [AddressSpace σ] (layout : Layout) : Bus σ Uart := do
  return Uart.ofPinFunctions (← Bus.readWord layout.pinFunctions)

def utf8 (text : String) : List Byte := text.toUTF8.data.toList.map UInt8.toBitVec

structure Console where
  layout : Layout
  config : Config
deriving DecidableEq, Repr

namespace Console

variable {α : Type} (c : Console)

def mini : MiniUart := .ofLayout c.layout c.config

def pl011 : Pl011 := { base := c.layout.pl011Base, defaults := c.config.pl011Defaults }

def onSoc (x : Bus Soc α) : Session Board Event α :=
  Session.within Board.soc (fun soc board => { board with soc }) Event.bus x

def onBackend (x : Link α) : Session Board Event α :=
  Session.within Board.backend (fun backend board => { board with backend }) Event.call x

/-! ### Detection -/

/-- The UART in use, detected if it is not yet known. -/
def select : Session Board Event Uart := do
  match ← Session.observe Board.detected with
  | some uart => return uart
  | none =>
    let uart ← onSoc c.layout.detect
    Session.record (.bus (.notice (.detected uart)))
    Session.act fun board => ((), { board with detected := some uart })
    return uart

/-! ### Operations -/

/-- Performs an operation on a given UART, whatever the pins carry. -/
def performOn (uart : Uart) (op : Operation) : Session Board Event op.Answer :=
  match uart with
  | .mini => onSoc (c.mini.perform op)
  | .pl011 => onBackend (c.pl011.perform op)

def perform (op : Operation) : Session Board Event op.Answer := do
  c.performOn (← c.select) op

/-- Waits until everything written so far has been sent. -/
def flush : Session Board Event Unit := do
  let _ ← c.perform (.write [])

/-- Writes text as UTF-8 and tells whether all of it was taken. A short write is not tried again. -/
def print (text : String) : Session Board Event Bool := do
  let written : Nat ← c.perform (.write (utf8 text))
  return written == (utf8 text).length

end Console

end ConsoleUart
