import ConsoleUart.Proofs.Latch

/-!
# Operations keep the latch closed

Reading the latch and programming the device open the latch and close it again on every path. The other
operations never open it, as their footprints tell. So every operation that starts with the latch closed
is orderly and, if it ends, leaves the latch closed.
-/

namespace ConsoleUart

namespace Bits

theorem meets_or_self (v : Byte) : meets (v ||| latchBit) latchBit = true := by
  revert v
  decide

theorem meets_clear_self (v : Byte) : meets (clear v latchBit) latchBit = false := by
  revert v
  decide

theorem clear_or_self (v : Byte) : clear (v ||| latchBit) latchBit = clear v latchBit := by
  revert v
  decide

theorem meets_and_writableMask (v : Byte) : meets (v &&& Line.writableMask) latchBit = false := by
  revert v
  decide

end Bits

def Soc.closeLatch (s : Soc) : Soc := { s with lineControl := Bits.clear s.lineControl latchBit }

theorem Soc.latchOpen_closeLatch (s : Soc) : s.closeLatch.latchOpen = false :=
  Bits.meets_clear_self s.lineControl

theorem Soc.divisor_le (s : Soc) : s.divisor ≤ Baud.maxLatch := by
  have high := s.divisorHigh.isLt
  have low := s.divisorLow.isLt
  unfold divisor Baud.maxLatch
  omega

theorem Soc.divisor_of_bytes {s : Soc} {divisor : Nat} (high : s.divisorHigh = BitVec.ofNat 8 (divisor / 256))
    (low : s.divisorLow = BitVec.ofNat 8 divisor) : s.divisor = divisor % 0x10000 := by
  rw [Soc.divisor, high, low, BitVec.toNat_ofNat, BitVec.toNat_ofNat]
  omega

/-- A divisor that fits is what the latch then holds. -/
theorem Soc.divisor_of_loaded {s : Soc} {divisor : Nat} (high : s.divisorHigh = BitVec.ofNat 8 (divisor / 256))
    (low : s.divisorLow = BitVec.ofNat 8 divisor) (fits : divisor ≤ Baud.maxLatch) : s.divisor = divisor := by
  unfold Baud.maxLatch at fits
  rw [Soc.divisor_of_bytes high low]
  omega

namespace RegisterBlock
open Bus

variable {b : RegisterBlock}

/-- Reading the latch yields the divisor and leaves nothing behind on the chip but a closed latch. -/
theorem orderly_readDivisor (s : Soc) : Orderly b b.readDivisor
    (fun d t => d = s.divisor ∧ t = s.closeLatch) s := by
  have opened : ({ s with lineControl := s.lineControl ||| latchBit } : Soc).latchOpen = true :=
    Bits.meets_or_self s.lineControl
  refine orderly_bind (orderly_read_lineControl (orderly_bind (orderly_write_lineControl ?_)))
  refine orderly_bind (orderly_read_divisorHigh opened ?_)
  refine orderly_bind (orderly_read_divisorLow opened ?_)
  refine orderly_bind (orderly_read_lineControl (orderly_bind (orderly_write_lineControl ?_)))
  refine orderly_pure ⟨rfl, ?_⟩
  show ({ s with lineControl := Bits.clear (s.lineControl ||| latchBit) latchBit } : Soc) = _
  rw [Bits.clear_or_self, Soc.closeLatch]

theorem orderly_loadDivisor (s : Soc) (divisor : Nat) : Orderly b (b.loadDivisor divisor)
    (fun _ t => t = { s with
      lineControl := latchBit
      divisorHigh := BitVec.ofNat 8 (divisor / 256)
      divisorLow := BitVec.ofNat 8 divisor }) s := by
  have opened : Bits.meets latchBit latchBit = true := by decide
  refine orderly_bind (orderly_write_lineControl ?_)
  refine orderly_bind (orderly_write_divisorHigh opened ?_)
  exact orderly_write_divisorLow opened rfl

end RegisterBlock

namespace MiniUart
open Bus

variable (u : MiniUart) {s : Soc}

/-! ### Configuring -/

/-- The UART clock that the chip's clock word stands for. -/
def clockAt (s : Soc) : Nat := Baud.uartClock u.clock.baseClock (AddressSpace.loadWord s u.clock.address)

theorem orderly_divisor (s : Soc) (baud : Nat) : Orderly u.registers (u.clock.divisor baud)
    (fun d t => d = Baud.divisor (u.clockAt s) baud ∧ t = s) s :=
  orderly_bind (orderly_bind (orderly_readWord (orderly_pure (orderly_pure ⟨rfl, rfl⟩))))

/-- The device already has the configured line control byte and divisor. -/
def Matches (s : Soc) (divisor : Nat) : Prop :=
  s.lineControl &&& Line.writableMask = u.config.lineControlBits ∧ s.divisor = divisor

instance (s : Soc) (divisor : Nat) : Decidable (u.Matches s divisor) :=
  inferInstanceAs (Decidable (_ ∧ _))

theorem decide_matches (s : Soc) (divisor : Nat) : decide (u.Matches s divisor) =
    (s.lineControl &&& Line.writableMask == u.config.lineControlBits && s.divisor == divisor) := by
  rw [Bool.eq_iff_iff, Bool.and_eq_true, beq_iff_eq, beq_iff_eq, decide_eq_true_iff, Matches]

/-- The registers as programming leaves them. A divisor that is too large for the latch loses its high
bits. -/
structure Programmed (divisor : Nat) (t : Soc) : Prop where
  lineControl : t.lineControl = u.config.lineControlBits
  divisorHigh : t.divisorHigh = BitVec.ofNat 8 (divisor / 256)
  divisorLow : t.divisorLow = BitVec.ofNat 8 divisor
  fifoControl : t.fifoControl = u.config.fifoControlBits
  interruptEnable : t.interruptEnable = 0
  modemControl : t.modemControl = 0

theorem Programmed.closed {u : MiniUart} {divisor : Nat} {t : Soc} (h : u.Programmed divisor t) :
    t.latchOpen = false := by
  rw [Soc.latchOpen, h.lineControl]
  exact Bits.meets_and_writableMask u.config.lineControl

/-- What configuring makes of a chip: one that matches is left alone but for the latch bit, any other is
programmed. -/
def Configures (s t : Soc) : Prop :=
  if u.Matches s (Baud.divisor (u.clockAt s) u.config.baudRate) then t = s.closeLatch
  else u.Programmed (Baud.divisor (u.clockAt s) u.config.baudRate) t

theorem Configures.closed {u : MiniUart} {s t : Soc} (h : u.Configures s t) : t.latchOpen = false := by
  unfold Configures at h
  split at h
  · rw [h]
    exact s.latchOpen_closeLatch
  · exact Programmed.closed h

theorem orderly_isConfigured (s : Soc) (divisor : Nat) : Orderly u.registers (u.isConfigured divisor)
    (fun matched t => matched = decide (u.Matches s divisor) ∧ t = s.closeLatch) s := by
  refine orderly_bind (orderly_read_lineControl (orderly_bind ?_))
  refine orderly_mono (RegisterBlock.orderly_readDivisor s) fun d t h => orderly_pure ?_
  obtain ⟨rfl, rfl⟩ := h
  exact ⟨(u.decide_matches s divisor).symm, rfl⟩

theorem orderly_program (closed : s.latchOpen = false) (divisor : Nat) :
    Orderly u.registers (u.program divisor) (fun _ t => u.Programmed divisor t) s := by
  have waiting : Orderly u.registers (Session.await u.transmitterEmpty)
      (fun _ t => t.latchOpen = false) s :=
    orderly_of_within (f := { reads := [.lineStatus], writes := [] })
      (within_await (within_transmitterEmpty u (by decide))) (by decide) closed
  refine orderly_bind (orderly_mono waiting fun _ s _ => orderly_bind ?_)
  refine orderly_mono (RegisterBlock.orderly_loadDivisor s divisor) fun _ t ht => ?_
  subst ht
  have programmed : Bits.meets u.config.lineControlBits latchBit = false :=
    Bits.meets_and_writableMask u.config.lineControl
  refine orderly_bind (orderly_write_lineControl ?_)
  refine orderly_bind (orderly_write_fifoControl (orderly_bind (orderly_write_fifoControl ?_)))
  refine orderly_bind (orderly_write_interruptEnable programmed ?_)
  exact orderly_write_modemControl ⟨rfl, rfl, rfl, rfl, rfl, rfl⟩

theorem orderly_configure (s : Soc) :
    Orderly u.registers u.configure (fun _ t => u.Configures s t) s := by
  refine orderly_bind (orderly_mono (orderly_divisor u s _) fun divisor t ht => orderly_bind ?_)
  obtain ⟨rfl, rfl⟩ := ht
  refine orderly_mono (orderly_isConfigured u t _) fun matched s' hm => ?_
  obtain ⟨rfl, rfl⟩ := hm
  have closed : t.closeLatch.latchOpen = false := t.latchOpen_closeLatch
  by_cases same : u.Matches t (Baud.divisor (u.clockAt t) u.config.baudRate)
  · simp only [same, decide_true, if_true]
    exact orderly_note (by rw [Configures, if_pos same])
  · have announced (notice : Notice) :
        Orderly u.registers (do note notice; u.program (Baud.divisor (u.clockAt t) u.config.baudRate))
          (fun _ t' => u.Configures t t') t.closeLatch := by
      refine orderly_bind (orderly_note (orderly_mono (orderly_program u closed _) fun _ t' programmed => ?_))
      rwa [Configures, if_neg same]
    simp only [same, decide_false, if_false, Bool.false_eq_true]
    exact orderly_ite (fun _ => orderly_bind (orderly_note (announced _))) fun _ => announced _

/-! ### Line attributes -/

theorem orderly_speedFor (s : Soc) (baud : Nat) :
    Orderly u.registers (u.speedFor baud) (fun _ t => t = s) s := by
  refine orderly_ite (fun _ => orderly_pure rfl) fun _ => orderly_bind ?_
  exact orderly_mono (orderly_divisor u s baud) fun _ _ ht => orderly_pure ht.2

theorem orderly_currentSpeed (s : Soc) : Orderly u.registers u.currentSpeed
    (fun _ t => t = s.closeLatch) s := by
  refine orderly_bind (orderly_mono (RegisterBlock.orderly_readDivisor s) fun d t h => ?_)
  rw [← h.2]
  refine orderly_ite (fun _ => orderly_speedFor u t _) fun _ => ?_
  exact orderly_bind (orderly_bind (orderly_readWord (orderly_pure (orderly_pure rfl))))

theorem orderly_plan (closed : s.latchOpen = false) (request : Line.Request) :
    Orderly u.registers (u.plan request) (fun _ t => t.latchOpen = false) s := by
  unfold plan
  cases request.baudRate with
  | some baud =>
    refine orderly_bind (orderly_mono (orderly_speedFor u s baud) fun speed t ht => ?_)
    subst ht
    cases speed with
    | error fault => exact orderly_pure closed
    | ok speed => exact orderly_bind (orderly_read_lineControl (orderly_pure closed))
  | none =>
    refine orderly_bind (orderly_read_lineControl ?_)
    cases request.resolve s.lineControl with
    | error fault => exact orderly_pure closed
    | ok line =>
      refine orderly_bind (orderly_mono (orderly_currentSpeed u s) fun _ t ht => orderly_pure ?_)
      rw [ht]
      exact s.latchOpen_closeLatch

theorem orderly_apply (s : Soc) (plan : Plan) :
    Orderly u.registers (u.apply plan) (fun _ t => t.latchOpen = false) s := by
  refine orderly_bind (orderly_mono (RegisterBlock.orderly_loadDivisor s _) fun _ t _ => ?_)
  refine orderly_bind (orderly_write_lineControl (orderly_note ?_))
  exact Bits.meets_and_writableMask _

theorem orderly_setAttributes (closed : s.latchOpen = false) (request : Line.Request) :
    Orderly u.registers (u.setAttributes request) (fun _ t => t.latchOpen = false) s := by
  refine orderly_bind (orderly_mono (orderly_plan u closed request) fun plan s closed => ?_)
  cases plan with
  | error fault => exact orderly_pure closed
  | ok plan =>
    refine orderly_ite (fun _ => orderly_pure closed) fun _ => orderly_bind ?_
    exact orderly_mono (orderly_apply u s plan) fun _ _ closed => orderly_pure closed

/-! ### Operations -/

theorem orderly_perform (closed : s.latchOpen = false) (op : Operation) :
    Orderly u.registers (u.perform op) (fun _ t => t.latchOpen = false) s := by
  cases op with
  | configure => exact orderly_map (orderly_mono (orderly_configure u s) fun _ _ h => h.closed)
  | setAttributes request => exact orderly_setAttributes u closed request
  | _ => exact orderly_of_within (within_perform u _) (Operation.footprint_plain nofun nofun) closed

end MiniUart

end ConsoleUart
