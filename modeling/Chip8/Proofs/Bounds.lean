/-
# Bounds that no session leaves

Whatever a host does with a fresh machine, short of assigning the two flags of
the wait for a key itself, the machine stays within these bounds:

| part | bound |
| --- | --- |
| memory | 4096 bytes |
| stack | 16 return addresses, each from `0x2` to `0x1000` |
| program counter | `0x10FE` |
| register awaiting a key, key pressed | below 16, and never both present |

The bounds hold one another up.  An instruction is fetched below `0xFFF`, so the
program counter that has passed it is at most `0x1000`; that is what a call
keeps, and a return cannot lead further.  A jump leads to twelve bits, an offset
jump 255 bytes further.  So the program counter is far enough from the end of
its sixteen bits for every sum and difference to be exact (`PcExact`).
-/

import Chip8.Proofs.Control
import Chip8.Proofs.Session

namespace Chip8

/-- The wait for a key is in order: the register and the key exist, and there is
no key without the end of the wait. -/
structure Flags.WaitInBounds (f : Flags) : Prop where
  exclusive : f.awaiting = none ∨ f.pressed = none
  awaiting : ∀ x, f.awaiting = some x → x < 16
  pressed : ∀ key, f.pressed = some key → key < 16

namespace Flags

/-- The bounds of the wait depend on its two flags alone. -/
theorem WaitInBounds.congr {f g : Flags} (h : f.WaitInBounds) (ha : g.awaiting = f.awaiting)
    (hp : g.pressed = f.pressed) : g.WaitInBounds :=
  ⟨ha ▸ hp ▸ h.exclusive, ha ▸ h.awaiting, hp ▸ h.pressed⟩

/-- Clear flags are within the bounds, as nothing waits. -/
theorem WaitInBounds.clear : clear.WaitInBounds := by
  refine ⟨.inl rfl, ?_, ?_⟩ <;> rintro _ ⟨⟩

/-- Noting a key of the keypad keeps the bounds of the wait. -/
theorem WaitInBounds.notePress {f : Flags} (h : f.WaitInBounds) {key : Nat} (hk : key < 16) :
    (f.notePress key).WaitInBounds := by
  unfold Flags.notePress
  split
  · refine ⟨.inl rfl, ?_, ?_⟩
    · rintro _ ⟨⟩
    · rintro _ ⟨⟩
      exact hk
  · exact h

end Flags

namespace Machine

/-- The machine is within its bounds. -/
structure InBounds (m : Machine) : Prop where
  memory : m.memory.bytes.toList.length = 4096
  depth : m.stack.length ≤ 16
  entries : ∀ a ∈ m.stack, 2 ≤ a.toNat ∧ a.toNat ≤ 0x1000
  pc : m.pc.toNat ≤ 0x10FE
  wait : m.flags.WaitInBounds

/-- The sums and differences that a cycle forms with the program counter or with
an address that is to become one, are those of the natural numbers. -/
structure PcExact (m : Machine) : Prop where
  /-- Moving past the instruction. -/
  advance : m.advance.pc.toNat = m.pc.toNat + 2
  /-- Moving past the next one, too. -/
  skip : m.advance.advance.pc.toNat = m.pc.toNat + 4
  /-- Finding the instruction again, to wait at it or to name it in a fault. -/
  current : m.advance.current.toNat + 2 = m.advance.pc.toNat
  /-- Comparing the target of a jump with the jump's own address. -/
  jump : ∀ target : Address, (target.toWord + 2).toNat = target.val + 2
  /-- Adding register 0 to the target of a jump. -/
  offset : ∀ a : Address,
    (a.toWord + (m.reg 0).toUInt16).toNat = a.val + (m.reg 0).toNat

/-- An address and a byte have a sum that fits into a word. -/
theorem toNat_offset (a : Address) (b : UInt8) :
    (a.toWord + b.toUInt16).toNat = a.val + b.toNat := by
  have ha := a.isLt
  have hb := b.toNat_lt
  rw [UInt16.toNat_add, Address.toNat_toWord, UInt8.toNat_toUInt16]
  omega

/-- Moving past an instruction does not wrap the program counter. -/
theorem toNat_pc_advance {m : Machine} (h : m.pc.toNat ≤ 0xFFFD) :
    m.advance.pc.toNat = m.pc.toNat + 2 := by
  have h2 : (2 : UInt16).toNat = 2 := rfl
  rw [Machine.advance, UInt16.toNat_add, h2]
  omega

/-- Finding the instruction again does not wrap the program counter. -/
theorem toNat_current {m : Machine} (h : 2 ≤ m.pc.toNat) : m.current.toNat = m.pc.toNat - 2 := by
  have h2 : (2 : UInt16) ≤ m.pc := UInt16.le_iff_toNat_le.2 h
  rw [Machine.current, UInt16.toNat_sub_of_le _ _ h2]
  rfl

/-- There is room for every sum, four steps before the end of the sixteen bits. -/
theorem pcExact_of_le {m : Machine} (h : m.pc.toNat ≤ 0xFFFB) : m.PcExact := by
  have h1 : m.advance.pc.toNat = m.pc.toNat + 2 := toNat_pc_advance (by omega)
  refine ⟨h1, ?_, ?_, fun target => ?_, fun a => toNat_offset a _⟩
  · rw [toNat_pc_advance (by omega), h1]
  · rw [current_advance, h1]
  · exact toNat_offset target 2

/-- **Within the bounds every sum with the program counter is exact.** -/
theorem InBounds.pcExact {m : Machine} (h : m.InBounds) : m.PcExact := by
  have hp := h.pc
  exact pcExact_of_le (by omega)

/-- A fresh machine is within the bounds. -/
theorem InBounds.fresh (random : Random) : (fresh random).InBounds where
  memory := Vector.length_toList
  depth := Nat.zero_le _
  entries := fun _ h => (List.not_mem_nil h).elim
  pc := show (0x200 : UInt16).toNat ≤ 0x10FE by decide
  wait := .clear

section Execute

variable {m : Machine}

/-- A call keeps the address that the program counter has reached; a return and
every other instruction keep none. -/
theorem returns_execute_inBounds (hd : m.returns.length ≤ 16)
    (he : ∀ a ∈ m.returns, 2 ≤ a.toNat ∧ a.toNat ≤ 0x1000)
    (hp : 2 ≤ m.pc.toNat ∧ m.pc.toNat ≤ 0x1000) (i : Instr) :
    (m.execute i).machine.returns.length ≤ 16 ∧
      ∀ a ∈ (m.execute i).machine.returns, 2 ≤ a.toNat ∧ a.toNat ≤ 0x1000 := by
  rw [returns_execute]
  cases i with
  | call target =>
    by_cases hroom : m.returns.length < stackDepth
    · simp only [hroom, if_true]
      refine ⟨hroom, fun a ha => ?_⟩
      obtain rfl | ha := List.mem_cons.1 ha
      · exact hp
      · exact he a ha
    · simp only [hroom, if_false]
      exact ⟨hd, he⟩
  | ret =>
    refine ⟨?_, fun a ha => he a (List.mem_of_mem_tail ha)⟩
    simp only [List.length_tail]
    omega
  | _ => exact ⟨hd, he⟩

/-- Wherever an instruction leads, it is no further than an offset jump. -/
theorem pc_execute_le (he : ∀ a ∈ m.returns, 2 ≤ a.toNat ∧ a.toNat ≤ 0x1000)
    (hp : 2 ≤ m.pc.toNat ∧ m.pc.toNat ≤ 0x1000) (i : Instr) :
    (m.execute i).machine.pc.toNat ≤ 0x10FE := by
  rw [pc_execute]
  cases i with
  | jump target =>
    simp only [Address.toNat_toWord]
    omega
  | call target =>
    by_cases hroom : m.returns.length < stackDepth
    · simp only [hroom, if_true, Address.toNat_toWord]
      omega
    · simp only [hroom, if_false]
      omega
  | ret =>
    cases hr : m.returns with
    | nil => simp only [List.headD_nil]; omega
    | cons a as =>
      have := (he a (hr ▸ List.mem_cons_self ..)).2
      simp only [List.headD_cons]
      omega
  | skip t =>
    show (if m.holds t then m.pc + 2 else m.pc).toNat ≤ 0x10FE
    cases m.holds t with
    | true =>
      have : (m.pc + 2).toNat = m.pc.toNat + 2 := toNat_pc_advance (by omega)
      simp only [if_true, this]
      omega
    | false =>
      simp only [Bool.false_eq_true, if_false]
      omega
  | jumpOffset a =>
    have := (m.reg 0).toNat_lt
    simp only [toNat_offset]
    omega
  | awaitKey x =>
    show (if m.flags.pressed.isSome then m.pc else m.current).toNat ≤ 0x10FE
    cases m.flags.pressed.isSome with
    | true =>
      simp only [if_true]
      omega
    | false =>
      simp only [Bool.false_eq_true, if_false, toNat_current hp.1]
      omega
  | _ => simp only []; omega

/-- Waiting names a register of the instruction, and taking a key uses it up. -/
theorem flags_execute_inBounds (h : m.flags.WaitInBounds) (i : Instr) :
    (m.execute i).machine.flags.WaitInBounds := by
  rw [flags_execute]
  cases i with
  | jump target =>
    by_cases hself : target.toWord + 2 = m.pc
    · simp only [hself, if_true]
      exact h.congr rfl rfl
    · simp only [hself, if_false]
      exact h
  | awaitKey x =>
    cases hk : m.flags.pressed with
    | some key =>
      refine ⟨.inr rfl, h.awaiting, ?_⟩
      rintro _ ⟨⟩
    | none =>
      refine ⟨.inr hk, ?_, h.pressed⟩
      rintro _ ⟨⟩
      exact x.isLt
  | _ => exact h

end Execute

/-- **A cycle keeps the bounds,** whatever it executes and also if it fails. -/
theorem InBounds.step {m : Machine} (h : m.InBounds) : m.step.machine.InBounds := by
  obtain ⟨_, _, hm⟩ | ⟨i, hi, _, _, hm⟩ := m.step_cases
  · rwa [hm]
  · have hd : m.advance.returns.length ≤ 16 := m.length_stack ▸ h.depth
    have he : ∀ a ∈ m.advance.returns, 2 ≤ a.toNat ∧ a.toNat ≤ 0x1000 :=
      fun a ha => h.entries a (mem_stack.2 ha)
    have hp : 2 ≤ m.advance.pc.toNat ∧ m.advance.pc.toNat ≤ 0x1000 := by
      have := pc_lt_of_instr? hi
      rw [toNat_pc_advance (by omega)]
      omega
    have hr := returns_execute_inBounds hd he hp i
    rw [hm]
    exact {
      memory := Vector.length_toList
      depth := by rw [length_stack]; exact hr.1
      entries := fun a ha => hr.2 a (mem_stack.1 ha)
      pc := pc_execute_le he hp i
      wait := flags_execute_inBounds (m := m.advance) h.wait i }

/-- New flags keep the bounds if those of the wait do. -/
theorem InBounds.setFlags {m : Machine} (h : m.InBounds) {f : Flags} (hf : f.WaitInBounds) :
    { m with flags := f }.InBounds :=
  { h with wait := hf }

/-- The bounds last through any run of cycles. -/
theorem InBounds.kept : Kept InBounds where
  step := fun _ h => h.step
  setPaused := fun _ _ h => h.setFlags (h.wait.congr rfl rfl)

/-- A program keeps the bounds, whether it is loaded or refused. -/
theorem InBounds.load {m : Machine} (h : m.InBounds) (program : List UInt8) :
    (m.load program).machine.InBounds := by
  unfold Machine.load
  split
  · exact h
  · exact {
      memory := Vector.length_toList
      depth := h.depth
      entries := h.entries
      pc := h.pc
      wait := h.wait.congr rfl rfl }

/-- A key that is moved keeps the bounds, whether it is on the keypad or not. -/
theorem InBounds.setKey {m : Machine} (h : m.InBounds) (key : Nat) (pressed : Bool) :
    (m.setKey key pressed).machine.InBounds := by
  unfold Machine.setKey Keypad.set
  split
  · exact h
  · rename_i hs
    split at hs
    · rename_i hk
      cases pressed with
      | true => exact { h with wait := h.wait.notePress hk }
      | false => exact { h with }
    · cases hs

end Machine

/-- The call assigns one of the two flags of the wait for a key. -/
def HostCall.assignsWait : HostCall → Bool
  | .changeFlags change => change.awaiting.isSome || change.pressed.isSome
  | .setFlags _ => true
  | _ => false

namespace Machine

/-- A change of flags that leaves the wait alone keeps the bounds. -/
theorem InBounds.changeFlags {m : Machine} (h : m.InBounds) {change : Flags.Change}
    (hc : (HostCall.changeFlags change).assignsWait = false) :
    { m with flags := m.flags.change change }.InBounds := by
  obtain ⟨tracing, paused, awaiting, pressed⟩ := change
  obtain ⟨ha, hp⟩ := Bool.or_eq_false_iff.1 hc
  cases awaiting with
  | some x => cases ha
  | none =>
    cases pressed with
    | some key => cases hp
    | none => exact h.setFlags (h.wait.congr rfl rfl)

/-- **A call that does not assign the wait for a key stays within the bounds,**
successful or not. -/
theorem InBounds.apply {m : Machine} (h : m.InBounds) {c : HostCall}
    (hc : c.assignsWait = false) : (c.apply m).machine.InBounds := by
  cases c with
  | load program => exact h.load program
  | loadFile contents =>
    cases contents with
    | error e => exact h
    | ok program => exact h.load program
  | setKey key pressed => exact h.setKey key pressed
  | releaseAll => exact { h with }
  | reset =>
    show m.reset.InBounds
    rw [reset_eq]
    exact (InBounds.fresh m.random).setFlags (Flags.WaitInBounds.clear.congr rfl rfl)
  | tickTimers => exact { h with }
  | tick => exact InBounds.kept.tick h
  | singlestep => exact InBounds.kept.singlestep h
  | multistep n => exact InBounds.kept.multistep n h
  | frame n => exact InBounds.kept.frame (fun _ h => { h with }) n h
  | toggleTracing => exact h.setFlags (h.wait.congr rfl rfl)
  | togglePaused => exact h.setFlags (h.wait.congr rfl rfl)
  | changeFlags change => exact h.changeFlags hc
  | setFlags flags => cases hc

/-- **No session leaves the bounds,** as long as it does not assign the wait for a
key; so no sum or difference formed with the program counter wraps. -/
theorem inBounds_run_fresh (random : Random) (calls : List HostCall)
    (h : ∀ c ∈ calls, c.assignsWait = false) :
    (HostCall.run (fresh random) calls).InBounds ∧ (HostCall.run (fresh random) calls).PcExact := by
  have hb : (HostCall.run (fresh random) calls).InBounds :=
    HostCall.run_induction (.fresh random) fun _ hm c hc => hm.apply (h c hc)
  exact ⟨hb, hb.pcExact⟩

/-- A program that calls itself until the stack is full, and then waits for a key
that the host presses. -/
theorem inBounds_run_calls :
    let calls : List HostCall :=
      [.load [0x22, 0x00], .multistep 17, .load [0xF3, 0x0A], .tick, .setKey 0xB true,
        .singlestep, .togglePaused]
    (∀ c ∈ calls, c.assignsWait = false) ∧
      (HostCall.run (ofSeed 8) calls).InBounds ∧ (HostCall.run (ofSeed 8) calls).PcExact :=
  ⟨by decide, inBounds_run_fresh (.ofSeed 8) _ (by decide)⟩

end Machine
end Chip8
