/-
# Executing an instruction

What each instruction does to the machine, in place.  The program counter has
already passed the instruction (`current` is where it began), so most
instructions leave it alone:

| instruction | program counter |
| --- | --- |
| `jump`, `call`, `jumpOffset` | the target |
| `ret` | the latest return address |
| `skip` | two bytes further if the test holds |
| `awaitKey` | back at the instruction, as long as no key has been pressed |

The operators compute their result from both registers first and write the flag
last, so an operation on the flag register leaves the flag in it.

Calls and returns can fail.  They look before they change anything, so a failed
instruction leaves the machine it was given (`execute_of_error`).
-/

import Chip8.Instr.Basic
import Chip8.Machine.Outcome

namespace Chip8

namespace AluOp

/-- The result of an operator. -/
def apply (a b : UInt8) : AluOp → UInt8
  | .copy => b
  | .or => a ||| b
  | .and => a &&& b
  | .xor => a ^^^ b
  | .add => a + b
  | .sub => a - b
  | .shr => b >>> 1
  | .rsub => b - a
  | .shl => b <<< 1

/-- The flag of an operator: the carry of a sum, one for a difference without
borrow, the bit that a shift moves out, zero for the logical operators.  A copy
has none. -/
def flag? (a b : UInt8) : AluOp → Option UInt8
  | .copy => none
  | .or | .and | .xor => some 0
  | .add => some (if a.toNat + b.toNat < 256 then 0 else 1)
  | .sub => some (if b ≤ a then 1 else 0)
  | .shr => some (b &&& 1)
  | .rsub => some (if a ≤ b then 1 else 0)
  | .shl => some (b >>> 7)

end AluOp

namespace Memory

/-- The `n` bytes from an address on. -/
def readRun (m : Memory) (a : UInt16) (n : Nat) : List UInt8 :=
  (List.range n).map fun k => m.read (a + UInt16.ofNat k)

/-- Puts bytes at an address and the following ones. -/
def writeRun (m : Memory) (a : UInt16) : List UInt8 → Memory
  | [] => m
  | b :: bs => (m.write a b).writeRun (a + 1) bs

end Memory

/-- The three decimal digits of a byte. -/
def decimalDigits (b : UInt8) : List UInt8 := [b / 100, b / 10 % 10, b % 10]

namespace Machine

/-- The program counter moves on by one instruction. -/
def advance (m : Machine) : Machine := { m with pc := m.pc + 2 }

/-- The address of the instruction under execution, which the program counter
has passed. -/
def current (m : Machine) : UInt16 := m.pc - 2

/-- The test of a conditional skip holds. -/
def holds (m : Machine) : Test → Bool
  | .byteEq x b => m.reg x == b
  | .byteNe x b => m.reg x != b
  | .regEq x y => m.reg x == m.reg y
  | .regNe x y => m.reg x != m.reg y
  | .keyDown x => m.keypad.isHeld (m.reg x).toNat
  | .keyUp x => !m.keypad.isHeld (m.reg x).toNat

/-- Skips the next instruction if a test holds. -/
def skipIf (m : Machine) (t : Test) : Machine :=
  if m.holds t then m.advance else m

/-- Combines registers `x` and `y` into register `x` and sets the flag. -/
def combine (m : Machine) (op : AluOp) (x y : Reg) : Machine :=
  let a := m.reg x
  let b := m.reg y
  let m := m.setReg x (op.apply a b)
  match op.flag? a b with
  | none => m
  | some f => m.setReg flagReg f

/-- Returns from a subroutine. -/
def ret (m : Machine) : Outcome Unit :=
  match m.returns with
  | [] => .failed (.stackUnderflow m.current) m
  | a :: returns => .done { m with pc := a, returns := returns }

/-- Jumps to an address; a jump to itself halts the program, which pauses the
machine. -/
def jumpTo (m : Machine) (target : UInt16) : Outcome Unit :=
  if target + 2 = m.pc then
    ⟨.ok (), { m with pc := target, flags := { m.flags with paused := true } }, [.halted target]⟩
  else .done { m with pc := target }

/-- Calls the subroutine at an address, if there is room for a return address. -/
def callAt (m : Machine) (target : UInt16) : Outcome Unit :=
  if m.returns.length < stackDepth then
    .done { m with pc := target, returns := m.pc :: m.returns }
  else .failed (.stackOverflow m.current) m

/-- Draws the `n` bytes at the index register and sets the flag if a lit pixel
was turned off. -/
def drawSprite (m : Machine) (x y : Reg) (n : Nat) : Machine :=
  let drawn := m.screen.draw (m.reg x).toNat (m.reg y).toNat (m.memory.readRun m.index n)
  { m.setReg flagReg (if drawn.2 then 1 else 0) with screen := drawn.1 }

/-- Takes the key that ended a wait, or goes back to the instruction to wait for
one. -/
def awaitKey (m : Machine) (x : Reg) : Machine :=
  match m.flags.pressed with
  | some key => { m.setReg x (UInt8.ofNat key) with flags := { m.flags with pressed := none } }
  | none => { m with pc := m.current, flags := { m.flags with awaiting := some x.val } }

/-- Loads registers 0 to `x` from the index register on. -/
def restore (m : Machine) (x : Reg) : Machine :=
  { m with
    registers := .ofFn fun k =>
      if k ≤ x then m.memory.read (m.index + UInt16.ofNat k.val) else m.reg k }

/-- Sets register `x` to the next random byte, masked by `b`. -/
def drawRandom (m : Machine) (x : Reg) (b : UInt8) : Machine :=
  let drawn := m.random.draw
  { m.setReg x (drawn.1 &&& b) with random := drawn.2 }

/-- Executes an instruction that the program counter has passed. -/
def execute (m : Machine) : Instr → Outcome Unit
  | .clear => .done { m with screen := .blank }
  | .ret => m.ret
  | .jump target => m.jumpTo target.toWord
  | .call target => m.callAt target.toWord
  | .skip t => .done (m.skipIf t)
  | .loadByte x b => .done (m.setReg x b)
  | .addByte x b => .done (m.setReg x (m.reg x + b))
  | .alu op x y => .done (m.combine op x y)
  | .loadIndex a => .done { m with index := a.toWord }
  | .jumpOffset a => .done { m with pc := a.toWord + (m.reg 0).toUInt16 }
  | .random x b => .done (m.drawRandom x b)
  | .draw x y n => .done (m.drawSprite x y n.val)
  | .readDelay x => .done (m.setReg x m.timers.delay)
  | .awaitKey x => .done (m.awaitKey x)
  | .setDelay x => .done { m with timers := { m.timers with delay := m.reg x } }
  | .setSound x => .done { m with timers := { m.timers with sound := m.reg x } }
  | .addIndex x => .done { m with index := m.index + (m.reg x).toUInt16 }
  | .glyph x => .done { m with index := 5 * (m.reg x).toUInt16 }
  | .decimal x => .done { m with memory := m.memory.writeRun m.index (decimalDigits (m.reg x)) }
  | .save x =>
    .done { m with memory := m.memory.writeRun m.index (m.registers.toList.take (x.val + 1)) }
  | .restore x => .done (m.restore x)

/-- The program counter that has passed an instruction finds it again. -/
theorem current_advance (m : Machine) : m.advance.current = m.pc := by
  simp only [current, advance, UInt16.add_sub_cancel]

/-- A return fails only on an empty stack, and changes nothing when it does. -/
theorem ret_of_error {m : Machine} {f : Fault} (h : m.ret.result = .error f) :
    m.returns = [] ∧ f = .stackUnderflow m.current ∧ m.ret.machine = m := by
  unfold ret at h ⊢
  split at h
  · rename_i hr
    obtain rfl := Except.error.inj h
    exact ⟨hr, rfl, rfl⟩
  · cases h

/-- A call fails only on a full stack, and changes nothing when it does. -/
theorem callAt_of_error {m : Machine} {target : UInt16} {f : Fault}
    (h : (m.callAt target).result = .error f) :
    stackDepth ≤ m.returns.length ∧ f = .stackOverflow m.current ∧
      (m.callAt target).machine = m := by
  unfold callAt at h ⊢
  split at h
  · cases h
  · rename_i hr
    obtain rfl := Except.error.inj h
    rw [if_neg hr]
    exact ⟨Nat.not_lt.1 hr, rfl, rfl⟩

/-- A jump always succeeds. -/
theorem result_jumpTo (m : Machine) (target : UInt16) : (m.jumpTo target).result = .ok () := by
  unfold jumpTo
  split <;> rfl

/-- **Only calls and returns fail,** a call for want of room, a return for want of
an address, and both before they change anything. -/
theorem execute_of_error {m : Machine} {i : Instr} {f : Fault}
    (h : (m.execute i).result = .error f) :
    (m.execute i).machine = m ∧
      ((∃ target, i = .call target ∧ stackDepth ≤ m.returns.length ∧
          f = .stackOverflow m.current) ∨
        (i = .ret ∧ m.returns = [] ∧ f = .stackUnderflow m.current)) := by
  cases i with
  | ret =>
    obtain ⟨hr, rfl, hm⟩ := ret_of_error h
    exact ⟨hm, .inr ⟨rfl, hr, rfl⟩⟩
  | call target =>
    obtain ⟨hr, rfl, hm⟩ := callAt_of_error h
    exact ⟨hm, .inl ⟨target, rfl, hr, rfl⟩⟩
  | jump target => rw [execute, result_jumpTo] at h; cases h
  | _ => cases h

end Machine
end Chip8
