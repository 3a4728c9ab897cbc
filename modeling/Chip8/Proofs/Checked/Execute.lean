/-
# Instructions, checked

Executing an instruction with every access checked.  Registers are numbered by a digit of
the instruction word, so all of them are there; the buffer for a sprite has sixteen
places, one more than a sprite has lines; a glyph is at most `5 * 255` beyond the start
of the font, which still is an address.  The other sums wrap around or report a carry,
and jumps, calls and returns do nothing that could be refused.

Two instructions work through registers and memory in a loop that counts registers, and
the digits of a byte are stored last to first.  That this comes to the same as in
`execute` is settled here as well, by what each turn of the loop has done so far.
-/

import Chip8.Machine.Execute
import Chip8.Proofs.Checked.Memory
import Chip8.Proofs.Checked.Screen

namespace Chip8

namespace AluOp

/-- The result of an operator. -/
def checkedApply (a b : UInt8) : AluOp → Checked UInt8
  | .shr => do
    let amount ← Checked.shift 1 8
    return b >>> UInt8.ofNat amount
  | .shl => do
    let amount ← Checked.shift 1 8
    return b <<< UInt8.ofNat amount
  | op => return op.apply a b

/-- The flag of an operator. -/
def checkedFlag? (a b : UInt8) : AluOp → Checked (Option UInt8)
  | .shl => do
    let amount ← Checked.shift 7 8
    return some (b >>> UInt8.ofNat amount)
  | op => return op.flag? a b

/-- The result of an operation is formed without a refusal, shifts among them. -/
theorem checkedApply_eq (op : AluOp) (a b : UInt8) :
    op.checkedApply a b = .ok (op.apply a b) := by
  cases op <;> rfl

/-- The flag of an operation is formed without a refusal. -/
theorem checkedFlag?_eq (op : AluOp) (a b : UInt8) :
    op.checkedFlag? a b = .ok (op.flag? a b) := by
  cases op <;> rfl

end AluOp

namespace Memory

variable (m : Memory)

/-- One more byte after a run of them. -/
theorem writeRun_concat (a : UInt16) (bytes : List UInt8) (b : UInt8) :
    m.writeRun a (bytes ++ [b]) =
      (m.writeRun a bytes).write (a + UInt16.ofNat bytes.length) b := by
  induction bytes generalizing m a with
  | nil =>
    show m.write a b = m.write (a + 0) b
    rw [UInt16.add_zero]
  | cons c bytes ih =>
    have hnext : a + 1 + UInt16.ofNat bytes.length = a + UInt16.ofNat (bytes.length + 1) := by
      rw [UInt16.ofNat_add, UInt16.add_assoc, UInt16.add_comm 1]
      rfl
    rw [List.cons_append, writeRun, ih, hnext]
    rfl

/-- Bytes at different places can be stored in any order. -/
theorem write_comm {a c : UInt16} (h : wrap a ≠ wrap c) (b d : UInt8) :
    (m.write a b).write c d = (m.write c d).write a b :=
  congrArg Memory.mk (Vector.set_comm b d fun he => h (Fin.ext he))

/-- Going on by less than the size of the memory leads to another place. -/
theorem wrap_add_ne (a : UInt16) {c : UInt16} (hpos : 0 < c.toNat) (hlt : c.toNat < 4096) :
    wrap (a + c) ≠ wrap a := by
  intro h
  have hval : (a + c).toNat % 4096 = a.toNat % 4096 := congrArg Fin.val h
  rw [UInt16.toNat_add] at hval
  omega

/-- The digits of a byte, stored last to first.  The first moves to the front past both
others, then these change places. -/
theorem writeRun_decimalDigits (a : UInt16) (b : UInt8) :
    ((m.write (a + 2) (b % 10)).write (a + 1) (b / 10 % 10)).write a (b / 100 % 10) =
      m.writeRun a (decimalDigits b) := by
  have h01 : wrap (a + 1) ≠ wrap a := wrap_add_ne a (by decide) (by decide)
  have h02 : wrap (a + 2) ≠ wrap a := wrap_add_ne a (by decide) (by decide)
  have h12 : wrap (a + 1 + 1) ≠ wrap (a + 1) := wrap_add_ne (a + 1) (by decide) (by decide)
  have htwo : a + 1 + 1 = a + 2 := by
    rw [UInt16.add_assoc]
    rfl
  have hfirst : b / 100 % 10 = b / 100 := by
    have := b.toNat_lt
    refine UInt8.toNat_inj.1 ?_
    simp only [UInt8.toNat_mod, UInt8.toNat_div, UInt8.reduceToNat]
    omega
  rw [htwo] at h12
  rw [hfirst, write_comm _ h01, write_comm m h02, write_comm _ h12]
  show _ = ((m.write a (b / 100)).write (a + 1) (b / 10 % 10)).write (a + 1 + 1) (b % 10)
  rw [htwo]

end Memory

namespace Machine

/-- The contents of a register. -/
def checkedReg (m : Machine) (x : Reg) : Checked UInt8 := Checked.get m.registers x.val

/-- Sets a register. -/
def checkedSetReg (m : Machine) (x : Reg) (b : UInt8) : Checked Machine :=
  return { m with registers := ← Checked.set m.registers x.val b }

/-- The test of a conditional skip holds. -/
def checkedHolds (m : Machine) : Test → Checked Bool
  | .byteEq x b => return (← m.checkedReg x) == b
  | .byteNe x b => return (← m.checkedReg x) != b
  | .regEq x y => return (← m.checkedReg x) == (← m.checkedReg y)
  | .regNe x y => return (← m.checkedReg x) != (← m.checkedReg y)
  | .keyDown x => return m.keypad.isHeld (← m.checkedReg x).toNat
  | .keyUp x => return !m.keypad.isHeld (← m.checkedReg x).toNat

/-- Skips the next instruction if a test holds. -/
def checkedSkipIf (m : Machine) (t : Test) : Checked Machine := do
  if ← m.checkedHolds t then return m.advance else return m

/-- Combines registers `x` and `y` into register `x` and sets the flag. -/
def checkedCombine (m : Machine) (op : AluOp) (x y : Reg) : Checked Machine := do
  let a ← m.checkedReg x
  let b ← m.checkedReg y
  let m ← m.checkedSetReg x (← op.checkedApply a b)
  match ← op.checkedFlag? a b with
  | none => return m
  | some f => m.checkedSetReg flagReg f

/-- Sets register `x` to the next random byte, masked by `b`. -/
def checkedDrawRandom (m : Machine) (x : Reg) (b : UInt8) : Checked Machine := do
  let drawn := m.random.draw
  return { ← m.checkedSetReg x (drawn.1 &&& b) with random := drawn.2 }

/-- Draws the `n` bytes at the index register, from a buffer of sixteen bytes, and sets
the flag if a lit pixel was turned off. -/
def checkedDrawSprite (m : Machine) (x y : Reg) (n : Nat) : Checked Machine := do
  Checked.range 0 n 16
  let sprite ← (List.range n).mapM fun line =>
    m.memory.checkedRead (m.index + UInt16.ofNat line)
  let column ← m.checkedReg x
  let row ← m.checkedReg y
  let drawn ← m.screen.checkedDraw column.toNat row.toNat sprite
  return { ← m.checkedSetReg flagReg (if drawn.2 then 1 else 0) with screen := drawn.1 }

/-- Takes the key that ended a wait, or goes back to the instruction to wait for one. -/
def checkedAwaitKey (m : Machine) (x : Reg) : Checked Machine := do
  match m.flags.pressed with
  | some key =>
    return { ← m.checkedSetReg x (UInt8.ofNat key) with flags := { m.flags with pressed := none } }
  | none =>
    return { m with pc := m.current, flags := { m.flags with awaiting := some x.val } }

/-- Points the index register at a glyph of the font. -/
def checkedGlyph (m : Machine) (x : Reg) : Checked Machine := do
  let digit ← m.checkedReg x
  let offset ← Checked.mul UInt16.size 5 digit.toNat
  let place ← Checked.add UInt16.size Memory.Region.charset.start offset
  return { m with index := UInt16.ofNat place }

/-- Stores the three decimal digits of register `x`, the last one first. -/
def checkedDecimal (m : Machine) (x : Reg) : Checked Machine := do
  let b ← m.checkedReg x
  let memory ← m.memory.checkedWrite (m.index + 2) (b % 10)
  let memory ← memory.checkedWrite (m.index + 1) (b / 10 % 10)
  let memory ← memory.checkedWrite m.index (b / 100 % 10)
  return { m with memory := memory }

/-- Stores a register in memory, as far from the index register as its number says. -/
def checkedSaveOne (m : Machine) (memory : Memory) (k : Nat) : Checked Memory := do
  let b ← Checked.get m.registers k
  memory.checkedWrite (m.index + UInt16.ofNat k) b

/-- Stores registers 0 to `x` in memory. -/
def checkedSave (m : Machine) (x : Reg) : Checked Machine := do
  let memory ← (List.range (x.val + 1)).foldlM m.checkedSaveOne m.memory
  return { m with memory := memory }

/-- Loads a register from memory. -/
def checkedRestoreOne (m : Machine) (registers : Vector UInt8 16) (k : Nat) :
    Checked (Vector UInt8 16) := do
  let b ← m.memory.checkedRead (m.index + UInt16.ofNat k)
  Checked.set registers k b

/-- Loads registers 0 to `x` from memory. -/
def checkedRestore (m : Machine) (x : Reg) : Checked Machine := do
  let registers ← (List.range (x.val + 1)).foldlM m.checkedRestoreOne m.registers
  return { m with registers := registers }

/-- Executes an instruction that the program counter has passed. -/
def checkedExecute (m : Machine) : Instr → Checked (Outcome Unit)
  | .clear => return .done { m with screen := .blank }
  | .ret => return m.ret
  | .jump target => return m.jumpTo target.toWord
  | .call target => return m.callAt target.toWord
  | .skip t => return .done (← m.checkedSkipIf t)
  | .loadByte x b => return .done (← m.checkedSetReg x b)
  | .addByte x b => return .done (← m.checkedSetReg x ((← m.checkedReg x) + b))
  | .alu op x y => return .done (← m.checkedCombine op x y)
  | .loadIndex a => return .done { m with index := a.toWord }
  | .jumpOffset a => return .done { m with pc := a.toWord + (← m.checkedReg 0).toUInt16 }
  | .random x b => return .done (← m.checkedDrawRandom x b)
  | .draw x y n => return .done (← m.checkedDrawSprite x y n.val)
  | .readDelay x => return .done (← m.checkedSetReg x m.timers.delay)
  | .awaitKey x => return .done (← m.checkedAwaitKey x)
  | .setDelay x =>
    return .done { m with timers := { m.timers with delay := ← m.checkedReg x } }
  | .setSound x =>
    return .done { m with timers := { m.timers with sound := ← m.checkedReg x } }
  | .addIndex x => return .done { m with index := m.index + (← m.checkedReg x).toUInt16 }
  | .glyph x => return .done (← m.checkedGlyph x)
  | .decimal x => return .done (← m.checkedDecimal x)
  | .save x => return .done (← m.checkedSave x)
  | .restore x => return .done (← m.checkedRestore x)

section Ok

variable (m : Machine)

/-- A register can always be read. -/
theorem checkedReg_eq (x : Reg) : m.checkedReg x = .ok (m.reg x) := by
  rw [checkedReg, Checked.get_of_lt x.isLt]
  rfl

/-- A register can always be set. -/
theorem checkedSetReg_eq (x : Reg) (b : UInt8) : m.checkedSetReg x b = .ok (m.setReg x b) := by
  rw [checkedSetReg, Checked.set_of_lt x.isLt]
  rfl

/-- A skip is refused nowhere, whatever it tests. -/
theorem checkedSkipIf_eq (t : Test) : m.checkedSkipIf t = .ok (m.skipIf t) := by
  have hholds : m.checkedHolds t = .ok (m.holds t) := by
    cases t <;> simp only [checkedHolds, checkedReg_eq, Checked.ok_bind] <;> rfl
  rw [checkedSkipIf, hholds, Checked.ok_bind, skipIf]
  cases m.holds t with
  | true => rfl
  | false => rfl

/-- An operation on two registers is refused nowhere. -/
theorem checkedCombine_eq (op : AluOp) (x y : Reg) :
    m.checkedCombine op x y = .ok (m.combine op x y) := by
  simp only [checkedCombine, checkedReg_eq, AluOp.checkedApply_eq, checkedSetReg_eq,
    AluOp.checkedFlag?_eq, Checked.ok_bind, combine]
  cases op.flag? (m.reg x) (m.reg y) with
  | none => rfl
  | some f => rfl

/-- Drawing is refused nowhere: sixteen rows fit into the sprite's buffer. -/
theorem checkedDrawSprite_eq (x y : Reg) {n : Nat} (hn : n ≤ 16) :
    m.checkedDrawSprite x y n = .ok (m.drawSprite x y n) := by
  have hsprite : (List.range n).mapM
      (fun line => m.memory.checkedRead (m.index + UInt16.ofNat line)) =
      .ok (m.memory.readRun m.index n) :=
    Checked.mapM_ok fun line _ => m.memory.checkedRead_eq _
  have hlen : (m.memory.readRun m.index n).length < 0x8000000000000000 := by
    rw [Memory.readRun, List.length_map, List.length_range]
    omega
  simp only [checkedDrawSprite, Checked.range_of_le (Nat.zero_le n) hn, hsprite, checkedReg_eq,
    m.screen.checkedDraw_eq _ _ hlen, checkedSetReg_eq, Checked.ok_bind]
  rfl

/-- Waiting for a key is refused nowhere. -/
theorem checkedAwaitKey_eq (x : Reg) : m.checkedAwaitKey x = .ok (m.awaitKey x) := by
  unfold checkedAwaitKey awaitKey
  cases m.flags.pressed with
  | some key =>
    simp only [checkedSetReg_eq, Checked.ok_bind]
    rfl
  | none => rfl

/-- The glyph of any byte has an address that fits into a word. -/
theorem checkedGlyph_eq (x : Reg) :
    m.checkedGlyph x = .ok { m with index := 5 * (m.reg x).toUInt16 } := by
  have hlt := (m.reg x).toNat_lt
  have hmul : Checked.mul UInt16.size 5 (m.reg x).toNat = .ok (5 * (m.reg x).toNat) :=
    Checked.mul_of_lt (by simp only [UInt16.size]; omega)
  have hadd : Checked.add UInt16.size Memory.Region.charset.start (5 * (m.reg x).toNat) =
      .ok (0 + 5 * (m.reg x).toNat) :=
    Checked.add_of_lt (by simp only [UInt16.size, Memory.Region.start]; omega)
  have hplace : UInt16.ofNat (0 + 5 * (m.reg x).toNat) = 5 * (m.reg x).toUInt16 := by
    refine UInt16.toNat_inj.1 ?_
    simp
  simp only [checkedGlyph, checkedReg_eq, hmul, hadd, Checked.ok_bind, hplace]
  rfl

/-- The three decimal digits of a byte are stored without a refusal. -/
theorem checkedDecimal_eq (x : Reg) :
    m.checkedDecimal x =
      .ok { m with memory := m.memory.writeRun m.index (decimalDigits (m.reg x)) } := by
  simp only [checkedDecimal, checkedReg_eq, Memory.checkedWrite_eq, Checked.ok_bind,
    Memory.writeRun_decimalDigits]
  rfl

/-- **Storing registers:** after `k` turns the first `k` of them are stored. -/
theorem checkedSave_eq (x : Reg) :
    m.checkedSave x =
      .ok { m with
        memory := m.memory.writeRun m.index (m.registers.toList.take (x.val + 1)) } := by
  let stored (k : Nat) : Memory := m.memory.writeRun m.index (m.registers.toList.take k)
  have hturn : ∀ k < x.val + 1, m.checkedSaveOne (stored k) k = .ok (stored (k + 1)) := by
    intro k hk
    have hlt : k < 16 := by
      have := x.isLt
      omega
    have hlen : k < m.registers.toList.length := by rwa [Vector.length_toList]
    have htake : (m.registers.toList.take k).length = k :=
      List.length_take_of_le (Nat.le_of_lt hlen)
    rw [checkedSaveOne, Checked.get_of_lt hlt, Checked.ok_bind, Memory.checkedWrite_eq]
    show _ = Except.ok (m.memory.writeRun m.index (m.registers.toList.take (k + 1)))
    rw [List.take_succ_eq_append_getElem hlen, Memory.writeRun_concat, htake]
    rfl
  have hloop : (List.range (x.val + 1)).foldlM m.checkedSaveOne (stored 0) =
      .ok (stored (x.val + 1)) := Checked.foldlM_range_ok hturn
  show (List.range (x.val + 1)).foldlM m.checkedSaveOne (stored 0) >>= _ = _
  rw [hloop]
  rfl

/-- **Loading registers:** after `k` turns the first `k` of them are loaded. -/
theorem checkedRestore_eq (x : Reg) : m.checkedRestore x = .ok (m.restore x) := by
  let loaded (k : Nat) : Vector UInt8 16 := .ofFn fun r =>
    if r.val < k then m.memory.read (m.index + UInt16.ofNat r.val) else m.reg r
  have hstart : loaded 0 = m.registers := by
    refine Vector.ext fun r hr => ?_
    rw [Vector.getElem_ofFn]
    rfl
  have hturn : ∀ k < x.val + 1, m.checkedRestoreOne (loaded k) k = .ok (loaded (k + 1)) := by
    intro k hk
    have hlt : k < 16 := by
      have := x.isLt
      omega
    rw [checkedRestoreOne, Memory.checkedRead_eq, Checked.ok_bind, Checked.set_of_lt hlt]
    refine congrArg Except.ok (Vector.ext fun r hr => ?_)
    simp only [loaded, Vector.getElem_set, Vector.getElem_ofFn]
    by_cases hkr : k = r
    · subst hkr
      simp
    · have hiff : r < k + 1 ↔ r < k := by omega
      simp [hkr, hiff]
  have hloop : (List.range (x.val + 1)).foldlM m.checkedRestoreOne (loaded 0) =
      .ok (loaded (x.val + 1)) := Checked.foldlM_range_ok hturn
  have hdone : loaded (x.val + 1) = (m.restore x).registers := by
    refine Vector.ext fun r hr => ?_
    have hiff : (⟨r, hr⟩ : Fin 16) ≤ x ↔ r < x.val + 1 := Nat.lt_succ_iff.symm
    simp only [loaded, restore, Vector.getElem_ofFn, hiff]
  rw [checkedRestore, ← hstart, hloop, hdone]
  rfl

/-- **No instruction is refused anything,** and each comes to what it should. -/
theorem checkedExecute_eq (i : Instr) : m.checkedExecute i = .ok (m.execute i) := by
  cases i with
  | skip t => rw [checkedExecute, checkedSkipIf_eq]; rfl
  | alu op x y => rw [checkedExecute, checkedCombine_eq]; rfl
  | draw x y n => rw [checkedExecute, m.checkedDrawSprite_eq x y (Nat.le_of_lt n.isLt)]; rfl
  | awaitKey x => rw [checkedExecute, checkedAwaitKey_eq]; rfl
  | glyph x => rw [checkedExecute, checkedGlyph_eq]; rfl
  | decimal x => rw [checkedExecute, checkedDecimal_eq]; rfl
  | save x => rw [checkedExecute, checkedSave_eq]; rfl
  | restore x => rw [checkedExecute, checkedRestore_eq]; rfl
  | _ =>
    simp only [checkedExecute, checkedDrawRandom, checkedReg_eq, checkedSetReg_eq,
      Checked.ok_bind]
    rfl

end Ok

end Machine
end Chip8
