/-
# The operators between registers, as arithmetic

The word `8xyn` combines registers `x` and `y` by the operator that `n` selects.
With `a` and `b` for the registers before, `r` for register `x` and `f` for the
flag register after, all read as natural numbers:

| word | law | flag |
| --- | --- | --- |
| `8xy0` | `r = b` | none |
| `8xy1`, `8xy2`, `8xy3` | `r` is `a` or `b`, `a` and `b`, `a` exclusive or `b` | `0` |
| `8xy4` | `256 f + r = a + b` | the carry |
| `8xy5` | `r = (a - b) mod 256` | one if `b ≤ a` |
| `8xy6` | `2 r + f = b` | the last bit of `b` |
| `8xy7` | `r = (b - a) mod 256` | one if `a ≤ b` |
| `8xye` | `256 f + r = 2 b` | the first bit of `b` |

The registers may coincide, with one another and with the flag register.  Both are
read before either is written, so `a` and `b` are always the old contents; and the
flag is written last, so in the flag register it takes the place of the result
(`reg_combine_flag`).
-/

import Chip8.Instr.Encoding
import Chip8.Proofs.Control

namespace Chip8

/-- The word `8xyn`. -/
def Word.operation (x y : Reg) (n : Nat) : UInt16 :=
  UInt16.ofNat (0x8000 + 256 * x + 16 * y + n)

/-- The digits of an operation's word give back its operator and both registers. -/
theorem Instr.decode_operation (op : AluOp) (x y : Reg) :
    decode (Word.operation x y op.code) = some (.alu op x y) :=
  decode_encode (.alu op x y)

namespace AluOp

variable (a b : UInt8)

/-- The carry of a sum. -/
theorem toNat_carry :
    (if a.toNat + b.toNat < 256 then (0 : UInt8) else 1).toNat = (a.toNat + b.toNat) / 256 := by
  have ha := a.toNat_lt
  have hb := b.toNat_lt
  split
  · rw [UInt8.toNat_zero]
    omega
  · rw [UInt8.toNat_one]
    omega

/-- The flag of a difference is lowered by a borrow. -/
theorem toNat_noBorrow :
    (if b ≤ a then (1 : UInt8) else 0).toNat = if b.toNat ≤ a.toNat then 1 else 0 := by
  simp only [UInt8.le_iff_toNat_le]
  split <;> rfl

/-- The bit that a shift to the right moves out. -/
theorem toNat_lastBit : (b &&& 1).toNat = b.toNat % 2 := by
  rw [UInt8.toNat_and, UInt8.toNat_one, Nat.and_one_is_mod]

/-- The bit that a shift to the left moves out. -/
theorem toNat_firstBit : (b >>> 7).toNat = 2 * b.toNat / 256 := by
  have hshift : (b >>> 7).toNat = b.toNat >>> 7 := rfl
  rw [hshift, Nat.shiftRight_eq_div_pow]
  omega

/-- A sum is exact with its carry. -/
theorem carry_add_toNat :
    256 * ((a.toNat + b.toNat) / 256) + (a + b).toNat = a.toNat + b.toNat := by
  rw [UInt8.toNat_add]
  omega

/-- A difference is taken modulo 256. -/
theorem toNat_sub_eq : ((a - b).toNat : Int) = ((a.toNat : Int) - b.toNat) % 256 := by
  have ha := a.toNat_lt
  have hb := b.toNat_lt
  rw [UInt8.toNat_sub]
  omega

/-- A shift to the right halves, and the bit it moves out is the rest. -/
theorem half_add_lastBit : 2 * (b >>> 1).toNat + b.toNat % 2 = b.toNat := by
  have hshift : (b >>> 1).toNat = b.toNat >>> 1 := rfl
  rw [hshift, Nat.shiftRight_eq_div_pow]
  omega

/-- A shift to the left doubles, and the bit it moves out is the carry. -/
theorem firstBit_add_double : 256 * (2 * b.toNat / 256) + (b <<< 1).toNat = 2 * b.toNat := by
  have hshift : (b <<< 1).toNat = b.toNat <<< 1 % 256 := rfl
  rw [hshift, Nat.shiftLeft_eq]
  omega

end AluOp

namespace Machine

/-- Setting a register changes that register and no other. -/
theorem reg_setReg (m : Machine) (x r : Reg) (b : UInt8) :
    (m.setReg x b).reg r = if r = x then b else m.reg r := by
  show (m.registers.set x.val b x.isLt)[r.val] = _
  rw [Vector.getElem_set]
  simp only [Fin.ext_iff, eq_comm]
  rfl

section Combine

variable {m : Machine} {op : AluOp} {x y r : Reg}

/-- An operation with a flag sets its result first, then the flag, which so wins in the flag
register. -/
theorem combine_of_flag {f : UInt8} (h : op.flag? (m.reg x) (m.reg y) = some f) :
    m.combine op x y = (m.setReg x (op.apply (m.reg x) (m.reg y))).setReg flagReg f := by
  simp only [combine, h]

/-- **The flag register holds the flag,** also if it is register `x`. -/
theorem reg_combine_flag {f : UInt8} (h : op.flag? (m.reg x) (m.reg y) = some f) :
    (m.combine op x y).reg flagReg = f := by
  rw [combine_of_flag h, reg_setReg, if_pos rfl]

/-- **Register `x` holds the result,** unless the flag takes its place. -/
theorem reg_combine_result (h : x ≠ flagReg ∨ op = .copy) :
    (m.combine op x y).reg x = op.apply (m.reg x) (m.reg y) := by
  cases hf : op.flag? (m.reg x) (m.reg y) with
  | none =>
    simp only [combine, hf]
    rw [reg_setReg, if_pos rfl]
  | some f =>
    have hx : x ≠ flagReg := by
      rcases h with hx | rfl
      · exact hx
      · cases hf
    rw [combine_of_flag hf, reg_setReg, if_neg hx, reg_setReg, if_pos rfl]

/-- Every other register is as before. -/
theorem reg_combine_of_ne (hx : r ≠ x) (h : r ≠ flagReg ∨ op = .copy) :
    (m.combine op x y).reg r = m.reg r := by
  cases hf : op.flag? (m.reg x) (m.reg y) with
  | none =>
    simp only [combine, hf]
    rw [reg_setReg, if_neg hx]
  | some f =>
    have hr : r ≠ flagReg := by
      rcases h with hr | rfl
      · exact hr
      · cases hf
    rw [combine_of_flag hf, reg_setReg, if_neg hr, reg_setReg, if_neg hx]

end Combine

/-- The word `8xyn` succeeds, and leaves in the registers what its operator makes of
them. -/
theorem interpret_operation (m : Machine) (op : AluOp) (x y : Reg) :
    (m.interpret (Word.operation x y op.code)).result = .ok () ∧
      ∀ r, (m.interpret (Word.operation x y op.code)).machine.reg r =
        (m.combine op x y).reg r := by
  have hx : (m.advance.execute (.alu op x y)).result = .ok () := rfl
  have hregs : (m.advance.combine op x y).registers = (m.combine op x y).registers := by
    cases op <;> rfl
  obtain ⟨hok, hm⟩ := perform_of_ok hx
  rw [interpret, Instr.decode_operation]
  refine ⟨hok, fun r => ?_⟩
  simp only [hm]
  exact congrArg (fun registers : Vector UInt8 16 => registers[r]) hregs

/-- **The operators, as arithmetic.**  The words `8xy0` to `8xye` succeed on every
machine and for every pair of registers, the same or not, the flag register or not.
With `a` and `b` for the old contents of registers `x` and `y`: the flag is left in
the flag register, whichever register `x` is; the result is left in register `x` if
that is another one; no other register changes, and a copy leaves no flag. -/
theorem registers_interpret_operation (m : Machine) (x y : Reg) :
    let a : Nat := (m.reg x).toNat
    let b : Nat := (m.reg y).toNat
    let after (n : Nat) (r : Reg) : Nat :=
      ((m.interpret (Word.operation x y n)).machine.reg r).toNat
    (∀ op : AluOp, (m.interpret (Word.operation x y op.code)).result = .ok () ∧
      ∀ r, r ≠ x → r ≠ flagReg → after op.code r = (m.reg r).toNat) ∧
    (after 0x0 x = b ∧ ∀ r, r ≠ x → after 0x0 r = (m.reg r).toNat) ∧
    (after 0x1 flagReg = 0 ∧ after 0x2 flagReg = 0 ∧ after 0x3 flagReg = 0) ∧
    (after 0x4 flagReg = (a + b) / 256 ∧
      after 0x5 flagReg = (if b ≤ a then 1 else 0) ∧
      after 0x6 flagReg = b % 2 ∧
      after 0x7 flagReg = (if a ≤ b then 1 else 0) ∧
      after 0xE flagReg = 2 * b / 256) ∧
    (x ≠ flagReg →
      after 0x1 x = a ||| b ∧ after 0x2 x = a &&& b ∧ after 0x3 x = a ^^^ b ∧
      256 * after 0x4 flagReg + after 0x4 x = a + b ∧
      (after 0x5 x : Int) = ((a : Int) - b) % 256 ∧
      2 * after 0x6 x + after 0x6 flagReg = b ∧
      (after 0x7 x : Int) = ((b : Int) - a) % 256 ∧
      256 * after 0xE flagReg + after 0xE x = 2 * b) := by
  intro a b after
  have hafter (op : AluOp) (r : Reg) : after op.code r = ((m.combine op x y).reg r).toNat :=
    congrArg UInt8.toNat ((interpret_operation m op x y).2 r)
  have hkept (op : AluOp) (r : Reg) (hx : r ≠ x) (h : r ≠ flagReg ∨ op = .copy) :
      after op.code r = (m.reg r).toNat := by
    rw [hafter, reg_combine_of_ne hx h]
  have hflag (op : AluOp) (f : UInt8) (h : op.flag? (m.reg x) (m.reg y) = some f) :
      after op.code flagReg = f.toNat := by
    rw [hafter, reg_combine_flag h]
  have hcopy : after 0x0 x = b :=
    (hafter .copy x).trans (congrArg UInt8.toNat (reg_combine_result (.inr rfl)))
  have hadd : after 0x4 flagReg = (a + b) / 256 :=
    (hflag .add _ rfl).trans (AluOp.toNat_carry _ _)
  have hshr : after 0x6 flagReg = b % 2 := (hflag .shr _ rfl).trans (AluOp.toNat_lastBit _)
  have hshl : after 0xE flagReg = 2 * b / 256 := (hflag .shl _ rfl).trans (AluOp.toNat_firstBit _)
  refine ⟨fun op => ⟨(interpret_operation m op x y).1, fun r hx hr => hkept op r hx (.inl hr)⟩,
    ⟨hcopy, fun r hx => hkept .copy r hx (.inr rfl)⟩,
    ⟨hflag .or 0 rfl, hflag .and 0 rfl, hflag .xor 0 rfl⟩,
    ⟨hadd, (hflag .sub _ rfl).trans (AluOp.toNat_noBorrow _ _), hshr,
      (hflag .rsub _ rfl).trans (AluOp.toNat_noBorrow _ _), hshl⟩, fun hx => ?_⟩
  have hresult (op : AluOp) : after op.code x = (op.apply (m.reg x) (m.reg y)).toNat := by
    rw [hafter, reg_combine_result (.inl hx)]
  have hsum : after 0x4 x = (m.reg x + m.reg y).toNat := hresult .add
  have hdifference : after 0x5 x = (m.reg x - m.reg y).toNat := hresult .sub
  have hhalf : after 0x6 x = (m.reg y >>> 1).toNat := hresult .shr
  have hreverse : after 0x7 x = (m.reg y - m.reg x).toNat := hresult .rsub
  have hdouble : after 0xE x = (m.reg y <<< 1).toNat := hresult .shl
  refine ⟨(hresult .or).trans (UInt8.toNat_or ..), (hresult .and).trans (UInt8.toNat_and ..),
    (hresult .xor).trans (UInt8.toNat_xor ..), ?_, ?_, ?_, ?_, ?_⟩
  · rw [hadd, hsum]
    exact AluOp.carry_add_toNat _ _
  · rw [hdifference]
    exact AluOp.toNat_sub_eq _ _
  · rw [hshr, hhalf]
    exact AluOp.half_add_lastBit _
  · rw [hreverse]
    exact AluOp.toNat_sub_eq _ _
  · rw [hshl, hdouble]
    exact AluOp.firstBit_add_double _

end Machine
end Chip8
