/-
# The address bus has twelve bits

The index register has sixteen bits, memory only twelve bits' worth of bytes, and
nothing looks at the four bits between.  The register is added to modulo `0x10000`
and used modulo `0x1000`; since the one divides the other, two machines whose
index registers differ by a multiple of `0x1000` read, write and draw the same
bytes and keep that difference (`SameBus.execute`).  So they run in lockstep, and
no session can tell them apart.
-/

import Chip8.Proofs.Lockstep

namespace Chip8
namespace Memory

variable {a b : UInt16}

/-- Two addresses wrap to one place if their twelve low bits are the same. -/
theorem wrap_eq_iff : wrap a = wrap b ↔ a.toNat % 4096 = b.toNat % 4096 := Fin.ext_iff

/-- Wrapping at `0x10000` on the way is not seen at `0x1000`. -/
theorem wrap_add_congr (h : wrap a = wrap b) (c : UInt16) : wrap (a + c) = wrap (b + c) := by
  rw [wrap_eq_iff] at h ⊢
  simp only [UInt16.toNat_add]
  omega

/-- A read sees only the place that its address wraps to. -/
theorem read_congr (m : Memory) (h : wrap a = wrap b) : m.read a = m.read b := by
  simp only [read, h]

/-- A write sees only the place that its address wraps to. -/
theorem write_congr (m : Memory) (h : wrap a = wrap b) (byte : UInt8) :
    m.write a byte = m.write b byte := by
  simp only [write, h]

/-- What is read from an address on depends on the place that it wraps to alone. -/
theorem readRun_congr (m : Memory) (h : wrap a = wrap b) (n : Nat) :
    m.readRun a n = m.readRun b n := by
  unfold readRun
  refine List.map_congr_left fun k _ => ?_
  exact m.read_congr (wrap_add_congr h _)

/-- Where a run of bytes is written depends on the place that its address wraps to alone. -/
theorem writeRun_congr (m : Memory) (h : wrap a = wrap b) (bytes : List UInt8) :
    m.writeRun a bytes = m.writeRun b bytes := by
  induction bytes generalizing m a b with
  | nil => rfl
  | cons byte bytes ih =>
    rw [writeRun, writeRun, m.write_congr h]
    exact ih _ (wrap_add_congr h 1)

end Memory

namespace Machine

/-- The machines are equal but for the four top bits of the index register. -/
structure SameBus (s t : Machine) : Prop where
  index : Memory.wrap s.index = Memory.wrap t.index
  rest : { s with index := t.index } = t

/-- A machine differs from itself in no bit. -/
theorem SameBus.refl (s : Machine) : s.SameBus s := ⟨rfl, rfl⟩

variable {s : Machine} {j : UInt16}

/-- An index register that wraps to the same place makes no other difference. -/
theorem sameBus_withIndex (h : Memory.wrap s.index = Memory.wrap j) :
    s.SameBus { s with index := j } := ⟨h, rfl⟩

/-- Registers are loaded from the place that the index register wraps to. -/
theorem restore_withIndex (h : Memory.wrap s.index = Memory.wrap j) (x : Reg) :
    { s with index := j }.restore x = { s.restore x with index := j } := by
  have hr (k : Fin 16) : s.memory.read (j + UInt16.ofNat k.val) =
      s.memory.read (s.index + UInt16.ofNat k.val) :=
    s.memory.read_congr (Memory.wrap_add_congr h.symm _)
  simp only [restore, reg, hr]

/-- A sprite is read from the place that the index register wraps to. -/
theorem drawSprite_withIndex (h : Memory.wrap s.index = Memory.wrap j) (x y : Reg) (n : Nat) :
    { s with index := j }.drawSprite x y n = { s.drawSprite x y n with index := j } := by
  simp only [drawSprite, reg, setReg, s.memory.readRun_congr h.symm n]
  rfl

/-- **An instruction does not see the top bits of the index register.** -/
theorem matches_execute (h : Memory.wrap s.index = Memory.wrap j) (i : Instr) :
    (s.execute i).Matches everyRecord SameBus ({ s with index := j }.execute i) := by
  cases i with
  | ret =>
    obtain ⟨_, _, _, returns, _, _, _, _, _, _, _⟩ := s
    cases returns with
    | nil => exact matches_failed ⟨h, rfl⟩ _
    | cons a returns => exact matches_done ⟨h, rfl⟩
  | jump target =>
    simp only [execute, jumpTo]
    by_cases hself : target.toWord + 2 = s.pc
    · simp only [hself, if_true]
      exact ⟨rfl, rfl, h, rfl⟩
    · simp only [hself, if_false]
      exact matches_done ⟨h, rfl⟩
  | call target =>
    simp only [execute, callAt]
    by_cases hroom : s.returns.length < stackDepth
    · simp only [hroom, if_true]
      exact matches_done ⟨h, rfl⟩
    · simp only [hroom, if_false]
      exact matches_failed (sameBus_withIndex h) _
  | skip t =>
    have ht : { s with index := j }.holds t = s.holds t := by cases t <;> rfl
    simp only [execute, skipIf, ht]
    cases s.holds t with
    | true => exact matches_done ⟨h, rfl⟩
    | false => exact matches_done ⟨h, rfl⟩
  | alu op x y => cases op <;> exact matches_done ⟨h, rfl⟩
  | loadIndex a => exact matches_done ⟨rfl, rfl⟩
  | draw x y n =>
    simp only [execute, drawSprite_withIndex h]
    exact matches_done ⟨h, rfl⟩
  | awaitKey x =>
    simp only [execute, awaitKey]
    cases s.flags.pressed with
    | some key => exact matches_done ⟨h, rfl⟩
    | none => exact matches_done ⟨h, rfl⟩
  | addIndex x => exact matches_done ⟨Memory.wrap_add_congr h _, rfl⟩
  | glyph x => exact matches_done ⟨rfl, rfl⟩
  | decimal x =>
    simp only [execute, s.memory.writeRun_congr h.symm]
    exact matches_done ⟨h, rfl⟩
  | save x =>
    simp only [execute, s.memory.writeRun_congr h.symm]
    exact matches_done ⟨h, rfl⟩
  | restore x =>
    simp only [execute, restore_withIndex h]
    exact matches_done ⟨h, rfl⟩
  | _ => exact matches_done ⟨h, rfl⟩

/-- Machines that differ in the top bits alone come from one another by a change of the
index register. -/
theorem SameBus.exists_withIndex {s t : Machine} (h : s.SameBus t) :
    ∃ j, Memory.wrap s.index = Memory.wrap j ∧ t = { s with index := j } :=
  ⟨t.index, h.index, h.rest.symm⟩

/-- **A cycle does not see the four top bits of the index register.** -/
theorem SameBus.step {s t : Machine} (h : s.SameBus t) :
    s.step.Matches everyRecord SameBus t.step := by
  obtain ⟨j, hj, rfl⟩ := h.exists_withIndex
  refine matches_step h rfl rfl (fun _ => rfl) fun i _ => ?_
  refine matches_perform (matches_execute (s := s.advance) hj i) ?_ ?_
  · intro a b hab
    obtain ⟨k, hk, rfl⟩ := hab.exists_withIndex
    exact ⟨hk, rfl⟩
  · intro a b hab
    obtain ⟨k, hk, rfl⟩ := hab.exists_withIndex
    exact ⟨hk, rfl⟩

/-- Loading a program does not see the top bits of the index register. -/
theorem SameBus.load {s t : Machine} (h : s.SameBus t) (program : List UInt8) :
    (s.load program).Matches everyRecord SameBus (t.load program) := by
  obtain ⟨j, hj, rfl⟩ := h.exists_withIndex
  simp only [Machine.load]
  cases s.memory.load .program program with
  | error f => exact ⟨rfl, rfl, h⟩
  | ok memory => exact ⟨rfl, rfl, hj, rfl⟩

/-- Moving a key does not see the top bits of the index register. -/
theorem SameBus.setKey {s t : Machine} (h : s.SameBus t) (key : Nat) (pressed : Bool) :
    (s.setKey key pressed).Matches everyRecord SameBus (t.setKey key pressed) := by
  obtain ⟨j, hj, rfl⟩ := h.exists_withIndex
  simp only [Machine.setKey]
  cases s.keypad.set key pressed with
  | error f => exact ⟨rfl, rfl, h⟩
  | ok keypad => exact ⟨rfl, rfl, hj, rfl⟩

/-- **Machines with the same twelve bits of the index register run in lockstep.** -/
theorem SameBus.lockstep : Lockstep everyRecord SameBus where
  paused := fun {s t} h => by
    obtain ⟨j, _, rfl⟩ := h.exists_withIndex
    rfl
  step := SameBus.step
  host := fun {s t} h c hc => by
    cases c with
    | load program => exact (h.load program).map _
    | loadFile contents =>
      cases contents with
      | error e => exact ⟨rfl, rfl, h⟩
      | ok program => exact (h.load program).map _
    | setKey key pressed => exact (h.setKey key pressed).map _
    | tick | singlestep | multistep n | frame n => cases hc
    | reset =>
      obtain ⟨j, _, rfl⟩ := h.exists_withIndex
      exact ⟨rfl, rfl, SameBus.refl s.reset⟩
    | _ =>
      obtain ⟨j, hj, rfl⟩ := h.exists_withIndex
      exact ⟨rfl, rfl, hj, rfl⟩

/-- **The top four bits of the index register cannot be observed.**  On machines
that differ only there, every call of a session has the same result and tells
the same, and after it the machines again differ only there. -/
theorem index_top_bits_unobservable {s t : Machine} (hrest : { s with index := t.index } = t)
    (hindex : s.index.toNat % 0x1000 = t.index.toNat % 0x1000) (calls : List HostCall) {k : Nat}
    (hk : k < calls.length) :
    (calls[k].apply (HostCall.stateAt s calls k)).result =
        (calls[k].apply (HostCall.stateAt t calls k)).result ∧
      (calls[k].apply (HostCall.stateAt s calls k)).log =
        (calls[k].apply (HostCall.stateAt t calls k)).log ∧
      { HostCall.stateAt s calls (k + 1) with index := (HostCall.stateAt t calls (k + 1)).index } =
        HostCall.stateAt t calls (k + 1) ∧
      (HostCall.stateAt s calls (k + 1)).index.toNat % 0x1000 =
        (HostCall.stateAt t calls (k + 1)).index.toNat % 0x1000 := by
  have h : s.SameBus t := ⟨Memory.wrap_eq_iff.2 hindex, hrest⟩
  have hcall := SameBus.lockstep.apply (SameBus.lockstep.stateAt h calls k) calls[k]
  have hafter := SameBus.lockstep.stateAt h calls (k + 1)
  refine ⟨hcall.result, ?_, hafter.rest, Memory.wrap_eq_iff.1 hafter.index⟩
  have hlog := hcall.log
  rwa [filter_everyRecord, filter_everyRecord] at hlog

/-- A machine that adds to the index register, stores registers, draws and loads
them again, with the last byte of memory as its place of work. -/
def atEndOfMemory : Machine :=
  { HostCall.run (ofSeed 8) [.load [0xF0, 0x1E, 0xF3, 0x55, 0xD1, 0x25, 0xF3, 0x65]] with
    index := 0x0FFF }

/-- Storing from `0x0FFF` runs into the end of memory, from `0xFFFF` also into the
end of the index register. -/
theorem index_top_bits_unobservable_atEndOfMemory :
    let t : Machine := { atEndOfMemory with index := 0xFFFF }
    let calls : List HostCall := [.multistep 3, .setKey 0xB true, .frame 2]
    { atEndOfMemory with index := t.index } = t ∧
      atEndOfMemory.index.toNat % 0x1000 = t.index.toNat % 0x1000 ∧
      (calls[2].apply (HostCall.stateAt atEndOfMemory calls 2)).result =
        (calls[2].apply (HostCall.stateAt t calls 2)).result := by
  intro t calls
  have hindex : (0x0FFF : UInt16).toNat % 0x1000 = (0xFFFF : UInt16).toNat % 0x1000 := by decide
  have hk : 2 < calls.length := by decide
  exact ⟨rfl, hindex, (index_top_bits_unobservable rfl hindex calls hk).1⟩

end Machine
end Chip8
