import ConsoleUart.Console

/-!
# Scenarios

A scenario drives one console, its two UARTs and the surroundings through a list of steps. Each step
has the same budget of accesses. A step that is cut short ends the scenario: nothing can be done with a
device that waits for ever.
-/

namespace ConsoleUart

namespace Scenario

/-- What an operation is performed on. -/
inductive Handle where
  | console
  /-- The transport that the console selects. -/
  | active
  /-- The mini UART, whatever the pins carry. -/
  | mini
  /-- The PL011, whatever the pins carry. -/
  | pl011
deriving DecidableEq, Repr

inductive MiniQuery where
  | transmitterEmpty
  | receiverReady
  | flowWritable
  | divisor (baud : Nat)
  | config
deriving DecidableEq, Repr

inductive RegisterQuery where
  | base
  | read (register : Register)
  | write (register : Register) (value : Byte)
deriving DecidableEq, Repr

inductive Pl011Query where
  | base
  | defaultRequest
  | clock
deriving DecidableEq, Repr

inductive Step where
  /-- The surroundings change; no operation is made. -/
  | change (soc : List Soc.Change) (backend : List Backend.Change)
  | operate (handle : Handle) (op : Operation)
  | flush
  | print (text : String)
  /-- Tells which UART has been detected so far. -/
  | detected
  /-- Tells which UART is selected, detecting it if need be. -/
  | select
  | mini (query : MiniQuery)
  | registers (query : RegisterQuery)
  | pl011 (query : Pl011Query)
deriving DecidableEq, Repr

inductive Reply where
  | nothing
  | done
  | refused (fault : Fault)
  | number (n : Nat)
  | flag (b : Bool)
  /-- The buffer that a read was given, with the number of bytes it put there. -/
  | buffer (count : Nat) (bytes : List Byte)
  | signals (signals : Word)
  | attributes (attributes : Line.Attributes)
  | request (request : Line.Request)
  | config (config : Config)
  | detected (uart : Option Uart)
  | selected (uart : Uart)
  | printed (complete : Bool)
deriving DecidableEq, Repr

namespace Reply

def ofExcept {α : Type} (reply : α → Reply) : Except Fault α → Reply
  | .ok a => reply a
  | .error fault => refused fault

/-- The answer to an operation as a reply. A read fills the start of a buffer of zeros. -/
def ofAnswer : (op : Operation) → op.Answer → Reply
  | .configure, answer => ofExcept (fun _ => done) answer
  | .write _, (count : Nat) => number count
  | .read capacity, (bytes : List Byte) =>
    buffer bytes.length (bytes ++ List.replicate (capacity - bytes.length) 0)
  | .poll, (ready : Bool) => flag ready
  | .setControl _, answer => ofExcept (fun _ => done) answer
  | .getControl, answer => ofExcept signals answer
  | .setAttributes _, answer => ofExcept attributes answer

end Reply

/-! ### Steps as sessions -/

def Handle.perform (console : Console) (handle : Handle) (op : Operation) :
    Session Board Event op.Answer :=
  match handle with
  | .console => console.perform op
  | .active => do
    let uart ← console.select
    console.performOn uart op
  | .mini => console.performOn .mini op
  | .pl011 => console.performOn .pl011 op

def MiniQuery.ask (u : MiniUart) : MiniQuery → Bus Soc Reply
  | transmitterEmpty => .flag <$> u.transmitterEmpty
  | receiverReady => .flag <$> u.receiverReady
  | flowWritable => .flag <$> u.flowWritable
  | divisor baud => .number <$> u.clock.divisor baud
  | config => return .config u.config

def RegisterQuery.ask (b : RegisterBlock) : RegisterQuery → Bus Soc Reply
  | base => return .number b.base
  | read register => do return .number (← b.read register).toNat
  | write register value => do
    b.write register value
    return .nothing

def Pl011Query.ask (p : Pl011) : Pl011Query → Link Reply
  | base => return .number p.base
  | defaultRequest => return .request p.defaultRequest
  | clock => .number <$> Backend.clockFrequency

def Step.session (console : Console) : Step → Session Board Event Reply
  | change soc backend => do
    Session.act fun board =>
      ((), { board with soc := board.soc.applyAll soc, backend := board.backend.changeAll backend })
    return .nothing
  | operate handle op => Reply.ofAnswer op <$> handle.perform console op
  | flush => do
    console.flush
    return .nothing
  | print text => Reply.printed <$> console.print text
  | detected => Reply.detected <$> Session.observe Board.detected
  | select => Reply.selected <$> console.select
  | mini query => Console.onSoc (query.ask console.mini)
  | registers query => Console.onSoc (query.ask console.mini.registers)
  | pl011 query => Console.onBackend (query.ask console.pl011)

/-! ### Runs -/

/-- What a step left behind. -/
structure Entry where
  /-- The reply, or `none` if the step was cut short. -/
  reply : Option Reply
  events : List Event
  /-- The bytes transmitted during the step. -/
  sent : List Byte
  board : Board
deriving DecidableEq, Repr

namespace Entry

def trace (e : Entry) : List Access := e.events.filterMap Event.access?

def notices (e : Entry) : List Notice := e.events.filterMap Event.notice?

def calls (e : Entry) : List Call := e.events.filterMap Event.call?

end Entry

def Step.entry (console : Console) (budget : Nat) (board : Board) (step : Step) : Entry :=
  let run := (step.session console).run board budget
  { reply := run.outcome
    events := run.events
    sent := run.state.soc.sent.toList.drop board.soc.sent.size
    board := run.state }

/-- The entries of the steps, up to and including the first that is cut short. -/
def run (console : Console) (budget : Nat) : Board → List Step → List Entry
  | _, [] => []
  | board, step :: rest =>
    let entry := step.entry console budget board
    match entry.reply with
    | none => [entry]
    | some _ => entry :: run console budget entry.board rest

end Scenario

end ConsoleUart
