/-
# The footprint of an instruction

Beside the program counter and the count of cycles, a machine consists of parts:
sixteen registers, 4096 cells of memory, the index register, the screen, the
stack, two timers, the random generator, the keypad and the host's flags
(`Part`, `eq_of_same`).  An instruction writes few of them (`writes`):

| instruction | writes |
| --- | --- |
| `clear` | the screen |
| `ret`, `call` | the stack |
| `jump` | the pause flag, if it leads to itself |
| `skip`, `jumpOffset` | nothing |
| `loadByte`, `addByte`, `readDelay`, a copy | register `x` |
| any other operator between registers | register `x` and the flag register |
| `loadIndex`, `addIndex`, `glyph` | the index register |
| `random` | register `x` and the random generator |
| `draw` | the screen and the flag register |
| `awaitKey` | register `x` and the key, if there is one, else the wait |
| `setDelay`, `setSound` | the timer |
| `decimal` | three cells from the index register on |
| `save` | a cell for each register up to `x` |
| `restore` | the registers up to `x` |

The cells go round the end of memory.  Every other part is the same after the
instruction (`same_execute`), and so after the tick that executes it
(`footprint_tick`).
-/

import Chip8.Machine.Call
import Chip8.Proofs.Control
import Chip8.Proofs.Faults

namespace Chip8
namespace Machine

/-- A part of a machine, beside the program counter and the count of cycles. -/
inductive Part where
  | register (r : Reg)
  | cell (a : Address)
  | index
  | screen
  | stack
  | delay
  | sound
  | random
  | keypad
  | tracing
  | paused
  | awaiting
  | pressed
  deriving DecidableEq, Repr

/-- The part is the same in both machines. -/
def Part.Same (s t : Machine) : Part → Prop
  | .register r => t.reg r = s.reg r
  | .cell a => t.memory.bytes[a] = s.memory.bytes[a]
  | .index => t.index = s.index
  | .screen => t.screen = s.screen
  | .stack => t.stack = s.stack
  | .delay => t.timers.delay = s.timers.delay
  | .sound => t.timers.sound = s.timers.sound
  | .random => t.random = s.random
  | .keypad => t.keypad = s.keypad
  | .tracing => t.flags.tracing = s.flags.tracing
  | .paused => t.flags.paused = s.flags.paused
  | .awaiting => t.flags.awaiting = s.flags.awaiting
  | .pressed => t.flags.pressed = s.flags.pressed

/-- The cell `k` places after the index register. -/
def cellAt (m : Machine) (k : Nat) : Part := .cell (Fin.ofNat 4096 (m.index.toNat + k))

/-- The parts that an instruction at the program counter writes. -/
def writes (m : Machine) : Instr → List Part
  | .clear => [.screen]
  | .ret | .call _ => [.stack]
  | .jump target => if target.toWord = m.pc then [.paused] else []
  | .skip _ | .jumpOffset _ => []
  | .loadByte x _ | .addByte x _ | .readDelay x | .alu .copy x _ => [.register x]
  | .alu _ x _ => [.register x, .register flagReg]
  | .loadIndex _ | .addIndex _ | .glyph _ => [.index]
  | .random x _ => [.register x, .random]
  | .draw _ _ _ => [.screen, .register flagReg]
  | .awaitKey x =>
    match m.flags.pressed with
    | some _ => [.register x, .pressed]
    | none => [.awaiting]
  | .setDelay _ => [.delay]
  | .setSound _ => [.sound]
  | .decimal _ => (List.range 3).map m.cellAt
  | .save x => (List.range (x.val + 1)).map m.cellAt
  | .restore x => (List.range (x.val + 1)).map fun k => .register (Fin.ofNat 16 k)

/-- **The parts are all that there is** beside the program counter and the count of
cycles. -/
theorem eq_of_same {s t : Machine} (h : ∀ p : Part, p.Same s t) (hpc : t.pc = s.pc)
    (hcycle : t.cycle = s.cycle) : t = s := by
  have hflags : t.flags = s.flags := by
    have htracing : t.flags.tracing = s.flags.tracing := h .tracing
    have hpaused : t.flags.paused = s.flags.paused := h .paused
    have hawaiting : t.flags.awaiting = s.flags.awaiting := h .awaiting
    have hpressed : t.flags.pressed = s.flags.pressed := h .pressed
    show Flags.mk t.flags.tracing t.flags.paused t.flags.awaiting t.flags.pressed = _
    rw [htracing, hpaused, hawaiting, hpressed]
  have hmemory : t.memory = s.memory :=
    congrArg Memory.mk (Vector.ext fun i hi => h (.cell ⟨i, hi⟩))
  have hreturns : t.returns = s.returns := List.reverse_inj.1 (h .stack)
  have hregisters : t.registers = s.registers := Vector.ext fun i hi => h (.register ⟨i, hi⟩)
  have htimers : t.timers = s.timers := by
    have hdelay : t.timers.delay = s.timers.delay := h .delay
    have hsound : t.timers.sound = s.timers.sound := h .sound
    show Timers.mk t.timers.delay t.timers.sound = _
    rw [hdelay, hsound]
  have hrest : t.screen = s.screen ∧ t.index = s.index ∧ t.keypad = s.keypad ∧
      t.random = s.random := ⟨h .screen, h .index, h .keypad, h .random⟩
  obtain ⟨hscreen, hindex, hkeypad, hrandom⟩ := hrest
  cases s
  cases t
  simp only at *
  subst_vars
  rfl

/-- A part that two changes leave alone is left alone by both together. -/
theorem Part.Same.trans {s t u : Machine} {p : Part} (h : p.Same s t) (g : p.Same t u) :
    p.Same s u := by
  cases p <;> exact Eq.trans g h

section Execute

variable {m : Machine} {p : Part}

/-- Registers that change leave every other part alone. -/
theorem same_withRegisters (h : ∀ r, p ≠ .register r) (registers : Vector UInt8 16) :
    p.Same m { m with registers := registers } := by
  cases p with
  | register r => exact (h r rfl).elim
  | _ => rfl

/-- Setting a register leaves the other parts alone. -/
theorem same_setReg {x : Reg} (h : p ≠ .register x) (b : UInt8) : p.Same m (m.setReg x b) := by
  cases p with
  | register r =>
    have hr : x.val ≠ r.val := fun he => h (congrArg Part.register (Fin.ext he.symm))
    exact Vector.getElem_set_ne x.isLt r.isLt hr
  | _ => exact same_withRegisters (fun _ => Part.noConfusion) _

/-- Moving past the instruction changes no part. -/
theorem same_advance (m : Machine) (p : Part) : p.Same m m.advance := by
  cases p <;> rfl

/-- An operator writes its register and, unless it copies, the flag register. -/
theorem same_combine {op : AluOp} {x y : Reg} (h : p ∉ m.writes (.alu op x y)) :
    p.Same m (m.advance.combine op x y) := by
  refine (same_advance m p).trans ?_
  cases op with
  | copy => exact same_setReg (List.ne_of_not_mem_cons h) _
  | _ =>
    refine Part.Same.trans (same_setReg (List.ne_of_not_mem_cons h) _) (same_setReg ?_ _)
    exact List.ne_of_not_mem_cons (List.not_mem_of_not_mem_cons h)

/-- A run of bytes leaves the cells alone that it does not reach. -/
theorem bytes_writeRun_of_ne {memory : Memory} {a : UInt16} {bytes : List UInt8} {c : Address}
    (h : ∀ k < bytes.length, Fin.ofNat 4096 (a.toNat + k) ≠ c) :
    (memory.writeRun a bytes).bytes[c] = memory.bytes[c] := by
  induction bytes generalizing memory a with
  | nil => rfl
  | cons b bytes ih =>
    have hrest : ∀ k < bytes.length, Fin.ofNat 4096 ((a + 1).toNat + k) ≠ c := by
      intro k hk
      have hne := h (k + 1) (Nat.succ_lt_succ hk)
      have hsame : Fin.ofNat 4096 ((a + 1).toNat + k) = Fin.ofNat 4096 (a.toNat + (k + 1)) := by
        refine Fin.ext ?_
        simp only [Fin.val_ofNat, UInt16.toNat_add, UInt16.toNat_one]
        omega
      rwa [hsame]
    have hfirst : (Memory.wrap a).val ≠ c.val := fun he => h 0 (Nat.zero_lt_succ _) (Fin.ext he)
    rw [Memory.writeRun, ih hrest]
    exact Vector.getElem_set_ne (Memory.wrap a).isLt c.isLt hfirst

/-- Storing bytes from the index register on leaves the parts alone that are none
of their cells. -/
theorem same_writeRun {bytes : List UInt8} (h : p ∉ (List.range bytes.length).map m.cellAt) :
    p.Same m { m with memory := m.memory.writeRun m.index bytes } := by
  cases p with
  | cell c =>
    refine bytes_writeRun_of_ne fun k hk he => h ?_
    rw [List.mem_map]
    exact ⟨k, List.mem_range.2 hk, congrArg Part.cell he⟩
  | _ => rfl

/-- Loading registers changes the registers that it names and nothing else. -/
theorem same_restore {x : Reg} (h : p ∉ m.writes (.restore x)) : p.Same m (m.restore x) := by
  cases p with
  | register r =>
    have hr : ¬r ≤ x := by
      intro hr
      refine h (List.mem_map.2 ⟨r.val, List.mem_range.2 (Nat.lt_succ_of_le hr), ?_⟩)
      exact congrArg Part.register (Fin.ext (Nat.mod_eq_of_lt r.isLt))
    show (Vector.ofFn _)[r.val] = m.registers[r.val]
    rw [Vector.getElem_ofFn, if_neg hr]
    rfl
  | _ => exact same_withRegisters (fun _ => Part.noConfusion) _

/-- Taking a key writes the register and uses up the key, waiting writes the wait. -/
theorem same_awaitKey {x : Reg} (h : p ∉ m.writes (.awaitKey x)) :
    p.Same m (m.advance.awaitKey x) := by
  cases hk : m.flags.pressed with
  | some key =>
    simp only [writes, hk] at h
    have hx : p ≠ .register x := List.ne_of_not_mem_cons h
    have hset : p.Same m (m.setReg x (UInt8.ofNat key)) := same_setReg hx _
    have ht : m.advance.awaitKey x = { m.setReg x (UInt8.ofNat key) with
        pc := m.pc + 2, flags := { m.flags with pressed := none } } := by
      rw [awaitKey, advance, hk]
      rfl
    rw [ht]
    refine hset.trans ?_
    cases p with
    | pressed => exact absurd (List.mem_cons_of_mem _ (List.mem_singleton_self _)) h
    | _ => rfl
  | none =>
    simp only [writes, hk] at h
    have ht : m.advance.awaitKey x = { m.advance with
        pc := m.advance.current, flags := { m.flags with awaiting := some x.val } } := by
      rw [awaitKey, advance, hk]
    rw [ht]
    cases p with
    | awaiting => exact absurd (List.mem_singleton_self _) h
    | _ => rfl

/-- **An instruction leaves the parts alone that it does not write.** -/
theorem same_execute {i : Instr} (h : p ∉ m.writes i) : p.Same m (m.advance.execute i).machine := by
  have hadvance : p.Same m m.advance := same_advance m p
  cases i with
  | clear =>
    cases p with
    | screen => exact absurd (List.mem_singleton_self _) h
    | _ => rfl
  | ret =>
    rw [execute, machine_ret]
    cases p with
    | stack => exact absurd (List.mem_singleton_self _) h
    | _ => rfl
  | jump target =>
    have hself : target.toWord + 2 = m.advance.pc ↔ target.toWord = m.pc := UInt16.add_left_inj 2
    rw [execute, machine_jumpTo]
    simp only [hself]
    by_cases ht : target.toWord = m.pc
    · rw [writes, if_pos ht] at h
      rw [if_pos ht]
      cases p with
      | paused => exact absurd (List.mem_singleton_self _) h
      | _ => rfl
    · rw [if_neg ht]
      cases p <;> rfl
  | call target =>
    rw [execute, machine_callAt]
    split
    · cases p with
      | stack => exact absurd (List.mem_singleton_self _) h
      | _ => rfl
    · exact hadvance
  | skip t =>
    rw [execute, skipIf_eq]
    cases p <;> rfl
  | jumpOffset a => cases p <;> rfl
  | loadByte x b | addByte x b | readDelay x =>
    exact hadvance.trans (same_setReg (List.ne_of_not_mem_cons h) _)
  | alu op x y => exact same_combine h
  | loadIndex a | addIndex x | glyph x =>
    cases p with
    | index => exact absurd (List.mem_singleton_self _) h
    | _ => rfl
  | random x b =>
    have hx : p ≠ .register x := List.ne_of_not_mem_cons h
    refine hadvance.trans ((same_setReg hx (m.random.draw.1 &&& b)).trans ?_)
    cases p with
    | random => exact absurd (List.mem_cons_of_mem _ (List.mem_singleton_self _)) h
    | _ => rfl
  | draw x y n =>
    have hf : p ≠ .register flagReg :=
      List.ne_of_not_mem_cons (List.not_mem_of_not_mem_cons h)
    let hit := (m.screen.draw (m.reg x).toNat (m.reg y).toNat (m.memory.readRun m.index n.val)).2
    refine hadvance.trans ((same_setReg hf (if hit then 1 else 0)).trans ?_)
    cases p with
    | screen => exact absurd (List.mem_cons_self ..) h
    | _ => rfl
  | awaitKey x => exact same_awaitKey h
  | setDelay x =>
    cases p with
    | delay => exact absurd (List.mem_singleton_self _) h
    | _ => rfl
  | setSound x =>
    cases p with
    | sound => exact absurd (List.mem_singleton_self _) h
    | _ => rfl
  | decimal x => exact hadvance.trans (same_writeRun h)
  | save x =>
    refine hadvance.trans (same_writeRun ?_)
    have hlen : (m.registers.toList.take (x.val + 1)).length = x.val + 1 := by
      have := x.isLt
      rw [List.length_take, Vector.length_toList]
      omega
    rw [advance, hlen]
    exact h
  | restore x => exact hadvance.trans (same_restore h)

/-- No instruction writes the keypad or the flag for tracing. -/
theorem notMem_writes (hp : p = .keypad ∨ p = .tracing) (i : Instr) : p ∉ m.writes i := by
  obtain rfl | rfl := hp
  all_goals
    cases i with
    | jump target => rw [writes]; split <;> simp
    | alu op x y => cases op <;> simp [writes]
    | awaitKey x => rw [writes]; split <;> simp
    | _ => simp [writes, cellAt]

/-- Only a jump to itself writes the pause flag. -/
theorem exists_jump_of_paused_mem_writes {i : Instr} (h : .paused ∈ m.writes i) :
    ∃ target, i = .jump target ∧ target.toWord = m.pc := by
  cases i with
  | jump target =>
    rw [writes] at h
    split at h
    · exact ⟨target, rfl, ‹_›⟩
    · exact (List.not_mem_nil h).elim
  | alu op x y => cases op <;> simp [writes] at h
  | awaitKey x => rw [writes] at h; split at h <;> simp at h
  | _ => simp [writes, cellAt] at h

end Execute

/-- The next tick executes an instruction: the machine is not paused, the
instruction is at the program counter, and it succeeds. -/
structure Executes (m : Machine) (i : Instr) : Prop where
  running : m.flags.paused = false
  instr : m.instr? = some i
  success : m.tick.result = .ok ()

section Tick

variable {m : Machine} {i : Instr}

/-- Whether an instruction is executed shows before the tick. -/
theorem executes_iff :
    m.Executes i ↔ m.flags.paused = false ∧ m.instr? = some i ∧ m.fault? = none := by
  constructor
  · rintro ⟨hp, hi, hok⟩
    refine ⟨hp, hi, ?_⟩
    rw [(tick_of_running hp).1, result_step] at hok
    cases hf : m.fault? with
    | none => rfl
    | some f =>
      rw [hf] at hok
      cases hok
  · rintro ⟨hp, hi, hf⟩
    refine ⟨hp, hi, ?_⟩
    rw [(tick_of_running hp).1, result_step, hf, Option.elim_none]

/-- A running machine executes the instruction at its program counter, if that
succeeds. -/
theorem executes_of_ok (hp : m.flags.paused = false) (hi : m.instr? = some i)
    (hx : (m.advance.execute i).result = .ok ()) : m.Executes i := by
  refine ⟨hp, hi, ?_⟩
  rcases Option.bind_eq_some_iff.1 hi with ⟨word, hw, hd⟩
  rw [(tick_of_running hp).1, step, hw]
  show (m.interpret word).result = _
  rw [interpret, hd]
  exact (perform_of_ok hx).1

instance (m : Machine) (i : Instr) : Decidable (m.Executes i) :=
  decidable_of_iff _ executes_iff.symm

/-- An instruction is executed only if it succeeds. -/
theorem Executes.execute_ok (h : m.Executes i) : (m.advance.execute i).result = .ok () := by
  obtain ⟨f, hf, -⟩ | ⟨j, hj, hok, -⟩ := m.step_cases
  · have hfails : m.tick.result = .error f := (tick_of_running h.running).1.trans hf
    rw [h.success] at hfails
    cases hfails
  · obtain rfl := Option.some.inj (hj.symm.trans h.instr)
    exact hok

/-- An instruction that succeeds leaves what it makes of the machine, with one cycle more. -/
theorem Executes.machine_tick (h : m.Executes i) :
    m.tick.machine = { (m.advance.execute i).machine with cycle := m.cycle + 1 } := by
  obtain ⟨word, hw, hd⟩ := Option.bind_eq_some_iff.1 h.instr
  rw [(tick_of_running h.running).2, step, hw]
  show (m.interpret word).machine = _
  rw [interpret, hd]
  show (m.perform i).machine = _
  rw [(perform_of_ok h.execute_ok).2, cycle_execute]
  rfl

/-- A tick that executes nothing does nothing. -/
theorem machine_tick_of_not_executes (h : ∀ i, ¬m.Executes i) : m.tick.machine = m := by
  cases hp : m.flags.paused with
  | true => rw [tick_of_paused hp, Outcome.done]
  | false =>
    obtain ⟨hr, hm⟩ := tick_of_running hp
    obtain ⟨_, _, hs⟩ | ⟨i, hi, _, hok, _⟩ := m.step_cases
    · rw [hm, hs]
    · exact (h i ⟨hp, hi, hr.trans hok⟩).elim

/-- A part that the instruction does not write is the same after the tick. -/
theorem Executes.same_tick (h : m.Executes i) {p : Part} (hp : p ∉ m.writes i) :
    p.Same m m.tick.machine := by
  have hx := same_execute hp
  rw [h.machine_tick]
  cases p <;> exact hx

/-- **A tick that pauses the machine executes a jump to itself.** -/
theorem Executes.exists_jump_of_paused (h : m.Executes i)
    (hp : m.tick.machine.flags.paused = true) :
    ∃ target, i = .jump target ∧ target.toWord = m.pc := by
  refine exists_jump_of_paused_mem_writes (Classical.byContradiction fun hno => ?_)
  have hsame : m.tick.machine.flags.paused = m.flags.paused := h.same_tick hno
  rw [hsame, h.running] at hp
  cases hp

/-- **A tick counts a cycle and changes, beside the program counter, only the parts
that its instruction writes.**  The pause flag is only ever set, and no
instruction touches the keypad or the flag for tracing. -/
theorem footprint_tick (h : m.Executes i) :
    m.tick.machine.cycle = m.cycle + 1 ∧
      (∀ p, p ∉ m.writes i → Part.Same m m.tick.machine p) ∧
      (.paused ∈ m.writes i → m.tick.machine.flags.paused = true) ∧
      m.tick.machine.keypad = m.keypad ∧
      m.tick.machine.flags.tracing = m.flags.tracing := by
  have hsame (p : Part) (hp : p ∉ m.writes i) : Part.Same m m.tick.machine p := h.same_tick hp
  refine ⟨?_, hsame, fun hp => ?_, ?_, ?_⟩
  · rw [h.machine_tick]
  · obtain ⟨target, rfl, hself⟩ := exists_jump_of_paused_mem_writes hp
    rw [h.machine_tick, flags_execute]
    exact congrArg Flags.paused (if_pos (congrArg (· + 2) hself))
  · exact hsame .keypad (notMem_writes (.inl rfl) i)
  · exact hsame .tracing (notMem_writes (.inr rfl) i)

end Tick

/-- A machine about to store four registers, two cells before the end of memory. -/
def storesAtEnd : Machine :=
  { HostCall.run (ofSeed 8) [.load [0xF3, 0x55]] with index := 0xFFFE }

/-- The store goes on at the start of memory, and stops before the third cell. -/
theorem footprint_tick_storesAtEnd :
    storesAtEnd.Executes (.save 3) ∧
      storesAtEnd.writes (.save 3) = [.cell 0xFFE, .cell 0xFFF, .cell 0x000, .cell 0x001] ∧
      Part.Same storesAtEnd storesAtEnd.tick.machine (.cell 0x002) := by
  have hx : storesAtEnd.Executes (.save 3) := by decide +kernel
  have hw : storesAtEnd.writes (.save 3) =
      [.cell 0xFFE, .cell 0xFFF, .cell 0x000, .cell 0x001] := by decide +kernel
  have hc : Part.cell 0x002 ∉ storesAtEnd.writes (.save 3) := by
    rw [hw]
    decide
  exact ⟨hx, hw, (footprint_tick hx).2.1 _ hc⟩

end Machine
end Chip8
