/-
# A wait for a key ends with the first press

An instruction that waits for a key is executed again and again.  As long as no
key is pressed it stalls: it notes its register in the flags and goes back to
itself.  The first press takes the note away and leaves the key in its place, so
a second press finds no wait and is not noted; the next execution takes the key
and goes on.

| flags | `awaiting` | `pressed` |
| --- | --- | --- |
| before the press | the register | none |
| after the press | none | the key |

A machine that waits at `p` (`WaitsAt`) keeps waiting there whatever the host does
short of replacing the program, resetting the machine or assigning the flags of
the wait itself (`sparesWait`); the calls that press a key are all that it
notices (`WaitsAt.apply`).  From that follows what a tick does after any number
of calls (`resolved_by_first_press`).
-/

import Chip8.Proofs.Footprint
import Chip8.Proofs.Session

namespace Chip8

namespace Flags

/-- The wait for a key that goes to register `x`: no key has been pressed, or the
key that has been pressed is kept. -/
def Awaits (f : Flags) (x : Nat) : Option Nat → Prop
  | none => f.awaiting = some x ∧ f.pressed = none
  | some key => f.awaiting = none ∧ f.pressed = some key

/-- Notes the key of a call, if it presses one. -/
def note (f : Flags) : Option Nat → Flags
  | none => f
  | some key => f.notePress key

/-- A wait depends on its two flags alone. -/
theorem Awaits.congr {f g : Flags} {x : Nat} {key? : Option Nat} (h : f.Awaits x key?)
    (ha : g.awaiting = f.awaiting) (hp : g.pressed = f.pressed) : g.Awaits x key? := by
  cases key? with
  | none => exact ⟨ha.trans h.1, hp.trans h.2⟩
  | some key => exact ⟨ha.trans h.1, hp.trans h.2⟩

/-- **Only the first press is noted.** -/
theorem Awaits.note {f : Flags} {x : Nat} {key? : Option Nat} (h : f.Awaits x key?)
    (press? : Option Nat) : (f.note press?).Awaits x (key?.or press?) := by
  cases press? with
  | none => rwa [Option.or_none]
  | some press =>
    cases key? with
    | none =>
      have hwaiting : f.isWaiting = true := by rw [isWaiting, h.1]; rfl
      rw [Flags.note, notePress, if_pos hwaiting]
      exact ⟨rfl, rfl⟩
    | some key =>
      have hwaiting : ¬f.isWaiting = true := by rw [isWaiting, h.1]; exact Bool.false_ne_true
      rw [Flags.note, notePress, if_neg hwaiting]
      exact h

end Flags

namespace HostCall

/-- The key that a call presses, if there is such a key. -/
def pressedKey? : HostCall → Option Nat
  | .setKey key true => if key < 16 then some key else none
  | _ => none

/-- The first key that a list of calls presses. -/
def firstPress? (calls : List HostCall) : Option Nat := calls.findSome? pressedKey?

/-- The call is a tick or moves keys, timers or the flags for tracing and pausing.
It neither loads a program nor resets the machine, and it leaves the flags of
the wait alone. -/
def sparesWait : HostCall → Bool
  | .setKey _ _ | .releaseAll | .tickTimers | .tick | .toggleTracing | .togglePaused => true
  | .changeFlags change => change.awaiting.isNone && change.pressed.isNone
  | _ => false

/-- A key that is pressed is on the keypad. -/
theorem pressedKey?_lt {c : HostCall} {key : Nat} (h : c.pressedKey? = some key) : key < 16 := by
  cases c with
  | setKey k pressed =>
    cases pressed with
    | true =>
      rw [pressedKey?] at h
      split at h
      · cases h
        assumption
      · cases h
    | false => cases h
  | _ => cases h

/-- A call presses a key if it is made for that, and succeeds. -/
theorem pressedKey?_eq_some_iff {c : HostCall} {key : Nat} (m : Machine) :
    c.pressedKey? = some key ↔
      c = .setKey key true ∧ ∃ did, (c.apply m).result = .ok (.changed did) := by
  constructor
  · intro h
    cases c with
    | setKey k pressed =>
      cases pressed with
      | true =>
        rw [pressedKey?] at h
        split at h
        · rename_i hk
          obtain rfl := Option.some.inj h
          refine ⟨rfl, m.keypad.isHeld k != true, ?_⟩
          simp only [apply, Machine.setKey, Keypad.set_eq m.keypad true hk]
          rfl
        · cases h
      | false => cases h
    | _ => cases h
  · rintro ⟨rfl, did, h⟩
    have hk : key < 16 := by
      refine Nat.lt_of_not_le fun hle => ?_
      simp only [apply, m.setKey_eq_error true hle] at h
      cases h
    rw [pressedKey?, if_pos hk]

/-- The next call gives the first key unless one was pressed before. -/
theorem firstPress?_take_succ {calls : List HostCall} {n : Nat} (h : n < calls.length) :
    firstPress? (calls.take (n + 1)) =
      (firstPress? (calls.take n)).or (calls[n]).pressedKey? := by
  rw [firstPress?, List.take_succ_eq_append_getElem h, List.findSome?_append,
    List.findSome?_singleton]
  rfl

/-- If no key has been pressed, none had been earlier. -/
theorem firstPress?_take_eq_none {calls : List HostCall} {k n : Nat} (hk : k ≤ n)
    (h : firstPress? (calls.take n) = none) : firstPress? (calls.take k) = none := by
  rw [firstPress?, List.findSome?_eq_none_iff] at h ⊢
  exact fun c hc => h c (List.take_subset_take_left calls hk hc)

end HostCall

namespace Machine

section Tick

variable {m : Machine} {x : Reg}

/-- Nothing can go wrong in a wait. -/
theorem executes_awaitKey (hp : m.flags.paused = false) (hi : m.instr? = some (.awaitKey x)) :
    m.Executes (.awaitKey x) :=
  executes_of_ok hp hi rfl

/-- **Without a key the instruction stalls:** it notes its register, and nothing else
changes but the count of cycles. -/
theorem Executes.machine_of_no_key (h : m.Executes (.awaitKey x)) (hk : m.flags.pressed = none) :
    m.tick.machine =
      { m with
        cycle := m.cycle + 1
        flags := { m.flags with awaiting := some x.val } } := by
  have hx : m.advance.awaitKey x = { m.advance with
      pc := m.advance.current, flags := { m.flags with awaiting := some x.val } } := by
    rw [awaitKey, advance, hk]
  rw [h.machine_tick, execute, hx, current_advance]
  rfl

/-- **With a key the instruction completes:** the key goes to the register, and the
program goes on. -/
theorem Executes.machine_of_key (h : m.Executes (.awaitKey x)) {key : Nat}
    (hk : m.flags.pressed = some key) :
    m.tick.machine =
      { m.setReg x (UInt8.ofNat key) with
        pc := m.pc + 2
        cycle := m.cycle + 1
        flags := { m.flags with pressed := none } } := by
  have hx : m.advance.awaitKey x = { m.setReg x (UInt8.ofNat key) with
      pc := m.pc + 2, flags := { m.flags with pressed := none } } := by
    rw [awaitKey, advance, hk]
    rfl
  rw [h.machine_tick, execute, hx]
  rfl

/-- Moving past an instruction leads to another address. -/
theorem add_two_ne (a : UInt16) : a + 2 ≠ a := by
  intro h
  have hn := congrArg UInt16.toNat h
  have h2 : (2 : UInt16).toNat = 2 := rfl
  have ha := a.toNat_lt
  rw [UInt16.toNat_add, h2] at hn
  omega

/-- The next tick stalls: it executes the instruction that waits for register `x`
and stays at it. -/
structure Stalls (m : Machine) (x : Reg) : Prop where
  executes : m.Executes (.awaitKey x)
  stays : m.tick.machine.pc = m.pc

/-- The next tick completes a wait: it executes the instruction that waits for
register `x` and goes on to the next. -/
structure Completes (m : Machine) (x : Reg) : Prop where
  executes : m.Executes (.awaitKey x)
  advances : m.tick.machine.pc = m.pc + 2

/-- A machine stalls at an instruction that waits as long as no key is kept. -/
theorem stalls_iff : m.Stalls x ↔ m.Executes (.awaitKey x) ∧ m.flags.pressed = none := by
  constructor
  · rintro ⟨hx, hpc⟩
    refine ⟨hx, ?_⟩
    cases hk : m.flags.pressed with
    | none => rfl
    | some key =>
      rw [hx.machine_of_key hk] at hpc
      exact (add_two_ne _ hpc).elim
  · rintro ⟨hx, hk⟩
    exact ⟨hx, by rw [hx.machine_of_no_key hk]⟩

/-- A machine completes a wait at an instruction that waits as soon as a key is kept. -/
theorem completes_iff :
    m.Completes x ↔ m.Executes (.awaitKey x) ∧ ∃ key, m.flags.pressed = some key := by
  constructor
  · rintro ⟨hx, hpc⟩
    refine ⟨hx, ?_⟩
    cases hk : m.flags.pressed with
    | none =>
      rw [hx.machine_of_no_key hk] at hpc
      exact (add_two_ne _ hpc.symm).elim
    | some key => exact ⟨key, rfl⟩
  · rintro ⟨hx, key, hk⟩
    exact ⟨hx, by rw [hx.machine_of_key hk]⟩

instance (m : Machine) (x : Reg) : Decidable (m.Stalls x) := decidable_of_iff _ stalls_iff.symm

instance (m : Machine) (x : Reg) : Decidable (m.Completes x) :=
  decidable_of_iff (m.Executes (.awaitKey x) ∧ m.flags.pressed.isSome = true) <| by
    rw [completes_iff, Option.isSome_iff_exists]

end Tick

/-- From `s` to `t` at most a key has been pressed: the program counter and the
memory are the same, and the flags of the wait are what the key makes of them. -/
structure OnlyNotes (s t : Machine) (press? : Option Nat) : Prop where
  pc : t.pc = s.pc
  memory : t.memory = s.memory
  awaiting : t.flags.awaiting = (s.flags.note press?).awaiting
  pressed : t.flags.pressed = (s.flags.note press?).pressed

/-- The machine is at an instruction at `p` that waits for register `x`, and has
stalled there; the key that has been pressed since, if one has, is kept. -/
structure WaitsAt (m : Machine) (p : UInt16) (x : Reg) (key? : Option Nat) : Prop where
  pc : m.pc = p
  instr : m.instr? = some (.awaitKey x)
  flags : m.flags.Awaits x.val key?

section Wait

variable {s t m : Machine} {p : UInt16} {x : Reg} {key? press? : Option Nat} {c : HostCall}

/-- Between a machine and itself no key is pressed. -/
theorem OnlyNotes.refl (m : Machine) : m.OnlyNotes m none := ⟨rfl, rfl, rfl, rfl⟩

/-- Moving a key notes the key that it presses, and nothing else. -/
theorem onlyNotes_setKey (m : Machine) (key : Nat) (pressed : Bool) :
    m.OnlyNotes (m.setKey key pressed).machine (HostCall.setKey key pressed).pressedKey? := by
  by_cases hk : key < 16
  · simp only [setKey, Keypad.set_eq m.keypad pressed hk]
    cases pressed with
    | true =>
      rw [HostCall.pressedKey?, if_pos hk]
      exact ⟨rfl, rfl, rfl, rfl⟩
    | false => exact ⟨rfl, rfl, rfl, rfl⟩
  · have hnone : (HostCall.setKey key pressed).pressedKey? = none := by
      cases pressed with
      | true => rw [HostCall.pressedKey?, if_neg hk]
      | false => rfl
    rw [m.setKey_eq_error pressed (Nat.not_lt.1 hk), hnone]
    exact .refl m

/-- **All that a wait notices is a press,** as long as nothing is executed. -/
theorem onlyNotes_apply (hc : c.sparesWait = true) (hx : c = .tick → ∀ i, ¬m.Executes i) :
    m.OnlyNotes (c.apply m).machine c.pressedKey? := by
  cases c with
  | setKey key pressed => exact onlyNotes_setKey m key pressed
  | tick =>
    show m.OnlyNotes m.tick.machine none
    rw [machine_tick_of_not_executes (hx rfl)]
    exact .refl m
  | releaseAll | tickTimers | toggleTracing | togglePaused => exact ⟨rfl, rfl, rfl, rfl⟩
  | changeFlags change =>
    obtain ⟨tracing, paused, awaiting, pressed⟩ := change
    obtain ⟨ha, hp⟩ := Bool.and_eq_true_iff.1 hc
    obtain rfl := Option.isNone_iff_eq_none.1 ha
    obtain rfl := Option.isNone_iff_eq_none.1 hp
    exact ⟨rfl, rfl, rfl, rfl⟩
  | _ => cases hc

/-- A key that is noted leaves the machine at the same instruction. -/
theorem OnlyNotes.instr? (h : s.OnlyNotes t press?) : t.instr? = s.instr? := by
  rw [Machine.instr?, word?, h.memory, h.pc]
  rfl

/-- A machine that waits goes on waiting, and has the key that has been pressed first. -/
theorem WaitsAt.of_onlyNotes (h : s.WaitsAt p x key?) (hn : s.OnlyNotes t press?) :
    t.WaitsAt p x (key?.or press?) where
  pc := hn.pc.trans h.pc
  instr := hn.instr?.trans h.instr
  flags := (h.flags.note press?).congr hn.awaiting hn.pressed

/-- After a stall the machine waits where it is and has no key. -/
theorem Stalls.waitsAt (h : m.Stalls x) : m.tick.machine.WaitsAt m.pc x none := by
  obtain ⟨hx, hk⟩ := stalls_iff.1 h
  rw [hx.machine_of_no_key hk]
  exact ⟨rfl, hx.instr, rfl, hk⟩

/-- A register holds a key as it is. -/
theorem toNat_reg_setReg (m : Machine) (x : Reg) {key : Nat} (h : key < 16) :
    ((m.setReg x (UInt8.ofNat key)).reg x).toNat = key := by
  show (m.registers.set x.val (UInt8.ofNat key) x.isLt)[x.val].toNat = key
  rw [Vector.getElem_set_self, UInt8.toNat_ofNat']
  omega

/-- **A tick of a machine that waits without a key stalls again.** -/
theorem WaitsAt.machine_tick_of_no_key (h : m.WaitsAt p x none) (hp : m.flags.paused = false) :
    m.tick.machine = { m with cycle := m.cycle + 1 } := by
  have hflags : { m.flags with awaiting := some x.val } = m.flags := by rw [← h.flags.1]
  rw [(executes_awaitKey hp h.instr).machine_of_no_key h.flags.2, hflags]

/-- **A tick of a machine that waits with a key takes the key.** -/
theorem WaitsAt.machine_tick_of_key {key : Nat} (h : m.WaitsAt p x (some key))
    (hp : m.flags.paused = false) :
    m.tick.machine =
      { m.setReg x (UInt8.ofNat key) with
        pc := p + 2
        cycle := m.cycle + 1
        flags := { m.flags with awaiting := none, pressed := none } } := by
  have hflags : { m.flags with awaiting := none, pressed := none } =
      { m.flags with pressed := none } := by rw [← h.flags.1]
  rw [(executes_awaitKey hp h.instr).machine_of_key h.flags.2, hflags, h.pc]

/-- **A machine that waits goes on waiting,** and notes the first key that is pressed,
until a tick takes the key. -/
theorem WaitsAt.apply (h : m.WaitsAt p x key?) (hc : c.sparesWait = true)
    (hkey : c = .tick → m.flags.paused = false → key? = none) :
    (c.apply m).machine.WaitsAt p x (key?.or c.pressedKey?) := by
  by_cases hx : c = .tick ∧ m.flags.paused = false
  · obtain ⟨rfl, hp⟩ := hx
    obtain rfl := hkey rfl hp
    show m.tick.machine.WaitsAt p x none
    rw [h.machine_tick_of_no_key hp]
    exact ⟨h.pc, h.instr, h.flags⟩
  · refine h.of_onlyNotes (onlyNotes_apply hc fun htick i hi => hx ⟨htick, hi.running⟩)

/-- The same for many calls: what has been noted after `n` of them is the first key
that they press. -/
theorem WaitsAt.stateAt (h : m.WaitsAt p x none) {calls : List HostCall}
    (hc : ∀ c ∈ calls, c.sparesWait = true) {n : Nat}
    (hfirst : ∀ k < n, calls[k]? = some .tick →
      (HostCall.stateAt m calls k).flags.paused = false →
        HostCall.firstPress? (calls.take k) = none) :
    (HostCall.stateAt m calls n).WaitsAt p x (HostCall.firstPress? (calls.take n)) := by
  induction n with
  | zero => rwa [HostCall.stateAt_zero]
  | succ n ih =>
    have hn := ih fun k hk => hfirst k (Nat.lt_succ_of_lt hk)
    by_cases hlt : n < calls.length
    · rw [HostCall.stateAt_succ m calls hlt, HostCall.firstPress?_take_succ hlt]
      refine hn.apply (hc _ (List.getElem_mem hlt)) fun htick hp => ?_
      exact hfirst n (Nat.lt_succ_self n) (by rw [List.getElem?_eq_getElem hlt, htick]) hp
    · have hle := Nat.not_lt.1 hlt
      rw [HostCall.stateAt_of_length_le m calls hle, List.take_of_length_le hle] at hn
      rwa [HostCall.stateAt_of_length_le m calls (Nat.le_succ_of_le hle),
        List.take_of_length_le (Nat.le_succ_of_le hle)]

end Wait

/-- **A wait for a key ends with the first press.**  After a stall and any calls that
spare the wait, a tick of the machine, unless it is paused, stalls again as long as
no key has been pressed, and changes nothing but the count of cycles.  The first
such tick after a press completes: it puts the key that was pressed first into the
register and goes on, with no register or key noted in the flags any more, and
changes nothing else. -/
theorem resolved_by_first_press {m : Machine} {x : Reg} (h : m.Stalls x) {calls : List HostCall}
    (hc : ∀ c ∈ calls, c.sparesWait = true)
    (hrun : (HostCall.run m.tick.machine calls).flags.paused = false) :
    let s := HostCall.run m.tick.machine calls
    (HostCall.firstPress? calls = none →
      s.Stalls x ∧ s.tick.machine = { s with cycle := s.cycle + 1 } ∧
        s.tick.machine.pc = m.pc ∧ s.tick.machine.flags.awaiting = some x.val) ∧
    ∀ key, HostCall.firstPress? calls = some key →
      (∀ k, calls[k]? = some .tick →
        (HostCall.stateAt m.tick.machine calls k).flags.paused = false →
          HostCall.firstPress? (calls.take k) = none) →
      s.Completes x ∧ (s.tick.machine.reg x).toNat = key ∧
        s.tick.machine =
          { s.setReg x (UInt8.ofNat key) with
            pc := m.pc + 2
            cycle := s.cycle + 1
            flags := { s.flags with awaiting := none, pressed := none } } := by
  intro s
  have hstate : HostCall.stateAt m.tick.machine calls calls.length = s :=
    HostCall.stateAt_of_length_le _ _ (Nat.le_refl _)
  refine ⟨fun hnone => ?_, fun key hkey hfirst => ?_⟩
  · have hwait := h.waitsAt.stateAt hc (n := calls.length) fun k hk _ _ => by
      refine HostCall.firstPress?_take_eq_none (Nat.le_of_lt hk) ?_
      rwa [List.take_length]
    rw [hstate, List.take_length, hnone] at hwait
    have htick := hwait.machine_tick_of_no_key hrun
    refine ⟨stalls_iff.2 ⟨executes_awaitKey hrun hwait.instr, hwait.flags.2⟩, htick, ?_, ?_⟩
    · rw [htick]
      exact hwait.pc
    · rw [htick]
      exact hwait.flags.1
  · have hwait := h.waitsAt.stateAt hc (n := calls.length) fun k _ => hfirst k
    rw [hstate, List.take_length, hkey] at hwait
    have htick := hwait.machine_tick_of_key hrun
    have hlt : key < 16 := by
      obtain ⟨c, _, hpress⟩ := List.exists_of_findSome?_eq_some hkey
      exact HostCall.pressedKey?_lt hpress
    refine ⟨completes_iff.2 ⟨executes_awaitKey hrun hwait.instr, key, hwait.flags.2⟩, ?_, htick⟩
    rw [htick]
    exact toNat_reg_setReg s x hlt

/-- A machine at an instruction that waits for a key in register 3. -/
def atKeyWait : Machine := HostCall.run (ofSeed 8) [.load [0xF3, 0x0A]]

/-- Two stalls, a key that does not exist, two presses and a pause between them and the next
tick.  Of the two ticks one is before the presses, and the other finds the machine paused. -/
theorem resolved_by_first_press_atKeyWait :
    let calls : List HostCall :=
      [.tick, .setKey 16 true, .setKey 5 true, .setKey 7 true, .togglePaused, .tick, .togglePaused]
    atKeyWait.Stalls 3 ∧
      ((HostCall.run atKeyWait.tick.machine calls).tick.machine.reg 3).toNat = 5 := by
  intro calls
  have hstall : atKeyWait.Stalls 3 := by decide +kernel
  have hrun : (HostCall.run atKeyWait.tick.machine calls).flags.paused = false := by
    decide +kernel
  have hpaused : (HostCall.stateAt atKeyWait.tick.machine calls 5).flags.paused = true := by
    decide +kernel
  have htick (k : Nat) (hk : calls[k]? = some .tick) : k = 0 ∨ k = 5 := by
    match k, hk with
    | 0, _ => exact .inl rfl
    | 5, _ => exact .inr rfl
    | 6, hk => cases hk
  refine ⟨hstall, ((resolved_by_first_press hstall ?_ hrun).2 5 rfl fun k hk hp => ?_).2.1⟩
  · decide
  · obtain rfl | rfl := htick k hk
    · rfl
    · rw [hpaused] at hp
      cases hp

end Machine
end Chip8
