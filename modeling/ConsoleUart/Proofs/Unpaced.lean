import ConsoleUart.Proofs.Commuting
import ConsoleUart.Proofs.Reporting

/-!
# Moving bytes without flow control

Without flow control the byte path keeps away from the modem registers and does not depend on them: two runs
that differ in the modem side of the chip alone go the same way, wherever they block.
-/

namespace ConsoleUart

namespace Soc

/-- The surroundings leave the modem side alone, and the chip mapped and forthcoming. -/
def Change.leavesModem : Change → Bool
  | base _ | stride _ | holdsBack _ | modemControl _ | modemStatus _ | modemStatusScript _ => false
  | _ => true

theorem applyAll_withModemPart {s : Soc} {b : RegisterBlock} (modem : ModemPart) {changes : List Change}
    (leaves : ∀ change ∈ changes, change.leavesModem = true) (h : s.Forthcoming b) :
    (s.applyAll changes).Forthcoming b ∧
      (s.withModemPart modem).applyAll changes = (s.applyAll changes).withModemPart modem := by
  induction changes generalizing s with
  | nil => exact ⟨h, rfl⟩
  | cons change rest ih =>
    obtain ⟨here, later⟩ := List.forall_mem_cons.mp leaves
    have first : (s.apply change).Forthcoming b ∧
        (s.withModemPart modem).apply change = (s.apply change).withModemPart modem := by
      cases change with
      | base | stride | holdsBack | modemControl | modemStatus | modemStatusScript => cases here
      | _ => exact ⟨⟨h.mapped.keep rfl rfl, h.unheld⟩, rfl⟩
    obtain ⟨kept, same⟩ := first
    have others := ih later kept
    rw [← same] at others
    exact others

end Soc

namespace MiniUart

variable {u : MiniUart}

/-- The access keeps away from the modem registers, wherever it was meant to go. -/
def AvoidsModem (u : MiniUart) : Access → Prop
  | .read _ address _ | .write _ address _ =>
    address ≠ u.registers.address .modemControl ∧ address ≠ u.registers.address .modemStatus
  | .readWord .. => True

theorem address_ne {b : RegisterBlock} (stride : 1 ≤ b.stride) {r r' : Register}
    (apart : r.offset ≠ r'.offset) : b.address r ≠ b.address r' := by
  intro same
  have places : r.offset * b.stride = r'.offset * b.stride := Nat.add_left_cancel same
  exact apart (Nat.eq_of_mul_eq_mul_right stride places)

theorem avoidsModem_of_covers (off : u.config.flow.enabled = false) (stride : 1 ≤ u.registers.stride)
    {a : Access} (covers : u.transferFootprint.Covers u a) : u.AvoidsModem a := by
  have away {r : Register} (apart : r.offset ≠ 4 ∧ r.offset ≠ 6) :
      u.registers.address r ≠ u.registers.address .modemControl ∧
        u.registers.address r ≠ u.registers.address .modemStatus :=
    ⟨address_ne stride apart.1, address_ne stride apart.2⟩
  cases a with
  | read r address value =>
    obtain ⟨reads, rfl⟩ := covers
    simp only [transferFootprint, off, Bool.false_eq_true, if_false, List.append_nil] at reads
    refine away ?_
    revert reads
    cases r <;> decide
  | write r address value =>
    obtain ⟨writes, rfl⟩ := covers
    simp only [transferFootprint, off, Bool.false_eq_true, if_false] at writes
    refine away ?_
    revert writes
    cases r <;> decide
  | readWord => trivial

end MiniUart

/-! ### Steps -/

def Board.withModemPart (board : Board) (modem : ModemPart) : Board :=
  { board with soc := board.soc.withModemPart modem }

namespace Scenario
open Session

variable {c : Console} {board : Board} {step : Step} {modem : ModemPart} {α : Type}

def Entry.withModemPart (e : Entry) (modem : ModemPart) : Entry :=
  { e with board := e.board.withModemPart modem }

/-- The session does not depend on the modem side of the chip and leaves it alone. -/
def IgnoresModem (c : Console) (modem : ModemPart) (x : Session Board Event α) : Prop :=
  Commutes (fun board => board.soc.Forthcoming c.mini.registers) (fun board => board.withModemPart modem) x

theorem ignoresModem_onSoc {x : Bus Soc α} (h : c.mini.IgnoresModem modem x) :
    IgnoresModem c modem (Console.onSoc x) := by
  intro board n forthcoming
  obtain ⟨kept, same⟩ := h board.soc n forthcoming
  have split : (Console.onSoc x).run (board.withModemPart modem) n =
      ⟨(x.run (board.soc.withModemPart modem) n).outcome,
        (x.run (board.soc.withModemPart modem) n).events.map Event.bus,
        { board with soc := (x.run (board.soc.withModemPart modem) n).state },
        (x.run (board.soc.withModemPart modem) n).budget⟩ := rfl
  rw [split, same]
  exact ⟨kept, rfl⟩

theorem ignoresModem_onBackend (x : Link α) : IgnoresModem c modem (Console.onBackend x) :=
  fun _ _ forthcoming => ⟨forthcoming, rfl⟩

theorem ignoresModem_select : IgnoresModem c modem c.select := by
  intro board n forthcoming
  obtain ⟨detected, soc, backend⟩ := board
  cases detected with
  | some uart => exact ⟨forthcoming, rfl⟩
  | none => cases n <;> exact ⟨forthcoming, rfl⟩

theorem ignoresModem_performOn (off : c.config.flow.enabled = false) {op : Operation}
    (moves : op.movesBytes = true) (uart : Uart) : IgnoresModem c modem (c.performOn uart op) := by
  cases uart with
  | mini => exact ignoresModem_onSoc (c.mini.ignoresModem_perform off moves)
  | pl011 => exact ignoresModem_onBackend (c.pl011.perform op)

theorem ignoresModem_session (off : c.config.flow.enabled = false) (moves : step.movesBytes = true) :
    IgnoresModem c modem (step.session c) := by
  obtain ⟨op, reply, asks, transfer⟩ := Step.operation_of_movesBytes moves
  have performed (uart : Uart) : IgnoresModem c modem (reply <$> c.performOn uart op) :=
    commutes_map (ignoresModem_performOn off transfer uart) reply
  rcases Step.operation_cases c asks with ⟨-, -, session⟩ | ⟨uart, -, -, session⟩
  · rw [session]
    exact commutes_bind ignoresModem_select performed
  · rw [session]
    exact performed uart

/-- The step moves bytes, or the surroundings leave the modem side alone. -/
def Step.leavesModem : Step → Bool
  | change soc _ => soc.all Soc.Change.leavesModem
  | step => step.movesBytes

theorem Step.leavesModem_cases (leaves : step.leavesModem = true) : step.movesBytes = true ∨
    ∃ soc backend, step = change soc backend ∧ ∀ change ∈ soc, change.leavesModem = true := by
  cases step with
  | change soc backend => exact Or.inr ⟨soc, backend, rfl, List.all_eq_true.mp leaves⟩
  | _ => exact Or.inl leaves

theorem ignoresModem_step (off : c.config.flow.enabled = false) (leaves : step.leavesModem = true) :
    IgnoresModem c modem (step.session c) := by
  rcases Step.leavesModem_cases leaves with moves | ⟨soc, backend, rfl, each⟩
  · exact ignoresModem_session off moves
  · intro board n forthcoming
    obtain ⟨kept, same⟩ := Soc.applyAll_withModemPart modem each forthcoming
    refine ⟨kept, ?_⟩
    exact congrArg (fun s => (⟨some .nothing, [], ⟨board.detected, s, board.backend.changeAll backend⟩, n⟩ :
      Run Board Event Reply)) same

theorem entry_withModemPart (off : c.config.flow.enabled = false) (leaves : step.leavesModem = true)
    (forthcoming : board.soc.Forthcoming c.mini.registers) (budget : Nat) (modem : ModemPart) :
    (step.entry c budget board).board.soc.Forthcoming c.mini.registers ∧
    step.entry c budget (board.withModemPart modem) = (step.entry c budget board).withModemPart modem := by
  have ignores : IgnoresModem c modem (step.session c) := ignoresModem_step off leaves
  obtain ⟨kept, same⟩ := ignores board budget forthcoming
  refine ⟨kept, ?_⟩
  unfold Step.entry
  rw [same]
  rfl

theorem modemPart_entry (off : c.config.flow.enabled = false) (leaves : step.leavesModem = true)
    (forthcoming : board.soc.Forthcoming c.mini.registers) (budget : Nat) :
    (step.entry c budget board).board.soc.modemPart = board.soc.modemPart := by
  -- A chip that is given its own modem side is the chip it was.
  have same := (entry_withModemPart off leaves forthcoming budget board.soc.modemPart).2
  exact congrArg (fun e : Entry => e.board.soc.modemPart) same

theorem avoidsModem_performOn (off : c.config.flow.enabled = false) (stride : 1 ≤ c.config.registerStride)
    {op : Operation} (moves : op.movesBytes = true) (uart : Uart) (n : Nat) :
    ∀ a ∈ ((c.performOn uart op).run board n).accesses, c.mini.AvoidsModem a := by
  intro a ha
  obtain ⟨e, he, shown⟩ := List.mem_filterMap.mp ha
  cases uart with
  | mini =>
    obtain ⟨recorded, within, rfl⟩ := List.mem_map.mp he
    obtain ⟨access, rfl, covers⟩ := c.mini.transfers_perform moves board.soc n recorded within
    cases shown
    exact MiniUart.avoidsModem_of_covers off stride covers
  | pl011 =>
    obtain ⟨call, -, rfl⟩ := List.mem_map.mp he
    cases shown

theorem avoidsModem_entry (off : c.config.flow.enabled = false) (stride : 1 ≤ c.config.registerStride)
    (leaves : step.leavesModem = true) (board : Board) (budget : Nat) :
    ∀ a ∈ (step.entry c budget board).trace, c.mini.AvoidsModem a := by
  rcases Step.leavesModem_cases leaves with moves | ⟨soc, backend, rfl, -⟩
  · obtain ⟨op, reply, asks, transfer⟩ := Step.operation_of_movesBytes moves
    rcases entry_of_operation c budget board asks with ⟨-, -, cut⟩ | ⟨-, uart, -, shown⟩
    · have quiet : (step.entry c budget board).trace = [] := congrArg Entry.trace cut
      rw [quiet]
      exact List.forall_mem_nil _
    · rw [Entry.trace, shown.events, List.filterMap_append]
      refine List.forall_mem_append.mpr ⟨?_, avoidsModem_performOn off stride transfer uart _⟩
      unfold Taken.probe
      split
      · exact List.forall_mem_singleton.mpr trivial
      · exact List.forall_mem_nil _
  · exact List.forall_mem_nil _

/-! ### Runs -/

variable {budget : Nat} {steps : List Step}

theorem run_withModemPart (off : c.config.flow.enabled = false)
    (leaves : ∀ step ∈ steps, step.leavesModem = true)
    (forthcoming : board.soc.Forthcoming c.mini.registers) (modem : ModemPart) :
    run c budget (board.withModemPart modem) steps =
      (run c budget board steps).map fun e => e.withModemPart modem := by
  induction steps generalizing board with
  | nil => rfl
  | cons step rest ih =>
    obtain ⟨here, later⟩ := List.forall_mem_cons.mp leaves
    obtain ⟨kept, same⟩ := entry_withModemPart off here forthcoming budget modem
    have reply : (step.entry c budget (board.withModemPart modem)).reply =
        (step.entry c budget board).reply := by rw [same]; rfl
    cases done : (step.entry c budget board).reply with
    | none =>
      rw [run_of_cut done, run_of_cut (reply.trans done), same]
      rfl
    | some answer =>
      rw [run_of_done done, run_of_done (reply.trans done), same, List.map_cons, ← ih later kept]
      rfl

/-- Without flow control, a run that only moves bytes keeps away from the modem registers and goes the same
way whatever they hold. -/
theorem byte_path_ignores_modem (c : Console) (budget : Nat) (board : Board) (steps : List Step)
    (off : c.config.flow.enabled = false) (mapped : board.soc.Mapped c.mini.registers)
    (unheld : board.soc.holdsBack = false) (leaves : ∀ step ∈ steps, step.leavesModem = true) :
    (∀ e ∈ run c budget board steps,
      (∀ a ∈ e.trace, c.mini.AvoidsModem a) ∧ e.board.soc.modemPart = board.soc.modemPart) ∧
    ∀ modem, run c budget (board.withModemPart modem) steps =
      (run c budget board steps).map fun e => e.withModemPart modem := by
  have forthcoming : board.soc.Forthcoming c.mini.registers := ⟨mapped, unheld⟩
  refine ⟨?_, run_withModemPart off leaves forthcoming⟩
  have each : ∀ t ∈ taken c budget board steps, (∀ a ∈ t.entry.trace, c.mini.AvoidsModem a) ∧
      t.entry.board.soc.modemPart = board.soc.modemPart := by
    refine forall_taken (fun now => now.soc.Forthcoming c.mini.registers ∧
      now.soc.modemPart = board.soc.modemPart) ⟨forthcoming, rfl⟩ ?_ ?_
    · intro now step hs ⟨forthcoming, same⟩
      refine ⟨avoidsModem_entry off mapped.apart (leaves step hs) now budget, ?_⟩
      rw [modemPart_entry off (leaves step hs) forthcoming, same]
    · intro now step hs ⟨forthcoming, same⟩ _
      refine ⟨(entry_withModemPart off (leaves step hs) forthcoming budget now.soc.modemPart).1, ?_⟩
      rw [modemPart_entry off (leaves step hs) forthcoming, same]
  intro e he
  rw [← taken_map_entry] at he
  obtain ⟨t, ht, rfl⟩ := List.mem_map.mp he
  exact each t ht

/-- A peer that forbids sending and has hung up makes no difference; the last read blocks with it and without. -/
theorem byte_path_ignores_modem_blocked :
    let c : Console := { layout := .rpi4
                         config := { Config.rpi4 with flow := { enabled := false, detectCable := true } } }
    let board : Board := { soc := { (powerUp c).soc with lineStatusScript := [0x00, 0x60], received := [0x7A] }
                           backend := {} }
    let steps : List Step := [.operate .mini (.write [0x41, 0x42]), .operate .mini (.read 1),
      .change [.receive [0x7B]] [], .operate .console .poll, .operate .mini (.read 2)]
    let modem : ModemPart := { control := 0x02, status := 0x20, statusScript := [0x00, 0x20] }
    c.config.flow.enabled = false ∧ board.soc.Mapped c.mini.registers ∧ board.soc.holdsBack = false ∧
    (∀ step ∈ steps, step.leavesModem = true) ∧
    (run c 9 board steps).map Entry.reply = [some (.number 2), some (.buffer 1 [0x7A]), some .nothing,
      some (.flag true), none] ∧
    (∀ e ∈ run c 9 board steps,
      (∀ a ∈ e.trace, c.mini.AvoidsModem a) ∧ e.board.soc.modemPart = board.soc.modemPart) ∧
    run c 9 (board.withModemPart modem) steps = (run c 9 board steps).map fun e => e.withModemPart modem := by
  intro c board steps modem
  have mapped : board.soc.Mapped c.mini.registers := ⟨rfl, rfl, by decide, by decide⟩
  have leaves : ∀ step ∈ steps, step.leavesModem = true := by decide
  obtain ⟨aside, same⟩ := byte_path_ignores_modem c 9 board steps rfl mapped rfl leaves
  exact ⟨rfl, mapped, rfl, leaves, by decide +kernel, aside, same modem⟩

end Scenario

end ConsoleUart
