/-
# Input from the host

A host puts two things into a machine between its cycles: what happens at the keys
(`KeyInput`, that is the keypad and the flags of a wait), and the passing of time
(the timers).  Few instructions look at either:

| part | looked at by |
| --- | --- |
| keys | `skip` on a key, `awaitKey` |
| timers | `readDelay`, `setDelay`, `setSound` |

Any change of a part that the instruction at the program counter does not look at can be
made before a tick or after it (`tick_mapInput`).  A press or a release, a release of all
keys and a tick of the timers are such changes, and answer alike in both orders
(`input_commutes_with_tick`).
-/

import Chip8.Proofs.Overlay

namespace Chip8

/-- The instruction looks at the keys: at the keypad, or at the flags of a wait. -/
def Instr.looksAtKeys : Instr → Bool
  | .skip (.keyDown _) | .skip (.keyUp _) | .awaitKey _ => true
  | _ => false

/-- The instruction reads or sets a timer. -/
def Instr.looksAtTimers : Instr → Bool
  | .readDelay _ | .setDelay _ | .setSound _ => true
  | _ => false

/-- What the keys come to in a machine: which are held, the register that waits for one,
and the key that ended a wait. -/
structure KeyInput where
  keypad : Keypad
  awaiting : Option Nat
  pressed : Option Nat

namespace KeyInput

/-- A key is pressed or released, if there is such a key. -/
def set (i : KeyInput) (key : Nat) (pressed : Bool) : KeyInput :=
  match i.keypad.set key pressed with
  | .error _ => i
  | .ok (keypad, _) =>
    if pressed && i.awaiting.isSome then ⟨keypad, none, some key⟩ else { i with keypad := keypad }

/-- Every key is released. -/
def releaseAll (i : KeyInput) : KeyInput := { i with keypad := .released }

end KeyInput

namespace Machine

/-- What the keys come to. -/
def keyInput (m : Machine) : KeyInput := ⟨m.keypad, m.flags.awaiting, m.flags.pressed⟩

/-- The machine with its keys changed by `k` and its timers by `t`. -/
def mapInput (m : Machine) (k : KeyInput → KeyInput) (t : Timers → Timers) : Machine :=
  let keys := k m.keyInput
  { m with
    keypad := keys.keypad
    flags := { m.flags with awaiting := keys.awaiting, pressed := keys.pressed }
    timers := t m.timers }

/-- Changes of keys and timers leave the program counter alone. -/
@[simp]
theorem pc_mapInput (m : Machine) (k : KeyInput → KeyInput) (t : Timers → Timers) :
    (m.mapInput k t).pc = m.pc := rfl

/-- Changes of keys and timers leave the stack alone. -/
@[simp]
theorem returns_mapInput (m : Machine) (k : KeyInput → KeyInput) (t : Timers → Timers) :
    (m.mapInput k t).returns = m.returns := rfl

/-- The changes leave alone what an instruction looks at. -/
structure Unseen (i : Instr) (k : KeyInput → KeyInput) (t : Timers → Timers) : Prop where
  keys : i.looksAtKeys = true → k = id
  timers : i.looksAtTimers = true → t = id

variable {k : KeyInput → KeyInput} {t : Timers → Timers}

/-- An instruction that does not look at the keys sees no change of them. -/
theorem unseen_keys {i : Instr} (h : i.looksAtKeys = false) : Unseen i k id :=
  ⟨fun hlooks => absurd (h.symm.trans hlooks) Bool.false_ne_true, fun _ => rfl⟩

/-- An instruction that does not look at the timers sees no change of them. -/
theorem unseen_timers {i : Instr} (h : i.looksAtTimers = false) : Unseen i id t :=
  ⟨fun _ => rfl, fun hlooks => absurd (h.symm.trans hlooks) Bool.false_ne_true⟩

/-- **An instruction does not see changes of what it does not look at.**  Whatever decides
between two ways to go on is a part that the changes leave alone, or the instruction looks
at it and there is no change. -/
theorem execute_mapInput (m : Machine) {i : Instr} (hu : Unseen i k t) :
    (m.mapInput k t).execute i = (m.execute i).onMachine (·.mapInput k t) := by
  obtain ⟨hkeys, htimers⟩ := hu
  cases i with
  | ret =>
    simp only [execute, ret, returns_mapInput]
    cases m.returns with
    | nil => rfl
    | cons a returns => rfl
  | jump target =>
    simp only [execute, jumpTo, pc_mapInput]
    by_cases hself : target.toWord + 2 = m.pc
    · simp only [hself, if_true]
      rfl
    · simp only [hself, if_false]
      rfl
  | call target =>
    simp only [execute, callAt, returns_mapInput]
    by_cases hroom : m.returns.length < stackDepth
    · simp only [hroom, if_true]
      rfl
    · simp only [hroom, if_false]
      rfl
  | skip test =>
    have hholds : (m.mapInput k t).holds test = m.holds test := by
      cases test with
      | keyDown x | keyUp x =>
        obtain rfl := hkeys rfl
        rfl
      | _ => rfl
    simp only [execute, skipIf, hholds]
    cases m.holds test with
    | true => rfl
    | false => rfl
  | alu op x y => cases op <;> rfl
  | awaitKey x =>
    obtain rfl := hkeys rfl
    have hpressed : (m.mapInput id t).flags.pressed = m.flags.pressed := rfl
    simp only [execute, awaitKey, hpressed]
    cases m.flags.pressed with
    | some key => rfl
    | none => rfl
  | readDelay x | setDelay x | setSound x =>
    obtain rfl := htimers rfl
    rfl
  | restore x =>
    simp only [execute, restore, mapInput, keyInput, Outcome.done, Outcome.onMachine]
    rfl
  | _ => rfl

/-- An outcome that matches another record by record, with the machine changed by `f`. -/
theorem eq_onMachine_of_matches {α : Type} {o p : Outcome α} {f : Machine → Machine}
    (h : o.Matches everyRecord (fun s u => u = f s) p) : p = o.onMachine f := by
  obtain ⟨hresult, hlog, hmachine⟩ := h
  rw [filter_everyRecord, filter_everyRecord] at hlog
  calc p = ⟨p.result, p.machine, p.log⟩ := rfl
    _ = ⟨o.result, f o.machine, o.log⟩ := by rw [← hresult, ← hlog, hmachine]

/-- **Neither does a tick,** if the instruction at the program counter does not. -/
theorem tick_mapInput (m : Machine) (hu : ∀ i, m.instr? = some i → Unseen i k t) :
    (m.mapInput k t).tick = m.tick.onMachine (·.mapInput k t) := by
  have hstep : m.step.Matches everyRecord (fun s u => u = s.mapInput k t)
      (m.mapInput k t).step := by
    refine matches_step rfl rfl rfl (fun _ => rfl) fun i hi => matches_perform ?_ ?_ ?_
    · show (m.advance.execute i).Matches _ _ ((m.advance.mapInput k t).execute i)
      rw [m.advance.execute_mapInput (hu i hi)]
      exact ⟨rfl, rfl, rfl⟩
    · rintro a _ rfl
      rfl
    · rintro a _ rfl
      rfl
  have htick : m.tick.Matches everyRecord (fun s u => u = s.mapInput k t)
      (m.mapInput k t).tick := matches_tick rfl rfl fun _ => hstep
  exact eq_onMachine_of_matches htick

/-- A change that does nothing to a machine does nothing to it after the tick. -/
theorem mapInput_machine_tick {m : Machine} (hu : ∀ i, m.instr? = some i → Unseen i k t)
    (hown : m.mapInput k t = m) : m.tick.machine.mapInput k t = m.tick.machine := by
  have htick := m.tick_mapInput hu
  rw [hown] at htick
  exact (congrArg Outcome.machine htick).symm

/-- A tick leaves the keys alone if its instruction does not look at them: a machine is
itself with its own keys put in. -/
theorem keyInput_tick {m : Machine} (hm : ∀ i, m.instr? = some i → i.looksAtKeys = false) :
    m.tick.machine.keyInput = m.keyInput := by
  have hkeep : m.tick.machine.mapInput (fun _ => m.keyInput) id = m.tick.machine :=
    mapInput_machine_tick (fun i hi => unseen_keys (hm i hi)) rfl
  exact (congrArg keyInput hkeep).symm

/-- A tick leaves the timers alone if its instruction does not look at them. -/
theorem timers_tick {m : Machine} (hm : ∀ i, m.instr? = some i → i.looksAtTimers = false) :
    m.tick.machine.timers = m.timers := by
  have hkeep : m.tick.machine.mapInput id (fun _ => m.timers) = m.tick.machine :=
    mapInput_machine_tick (fun i hi => unseen_timers (hm i hi)) rfl
  exact (congrArg timers hkeep).symm

/-! ## Calls that are input -/

/-- A call and a tick commute: both orders lead to the same machine, and the call and the
tick answer and tell the same in both. -/
structure Commutes (m : Machine) (c : HostCall) : Prop where
  machine : (c.apply m.tick.machine).machine = (c.apply m).machine.tick.machine
  result : (c.apply m.tick.machine).result = (c.apply m).result
  log : (c.apply m.tick.machine).log = (c.apply m).log
  resultTick : (c.apply m).machine.tick.result = m.tick.result
  logTick : (c.apply m).machine.tick.log = m.tick.log

/-- A call that changes what the instruction does not look at commutes with the tick, if
it answers the same after it. -/
theorem commutes_of_mapInput {m : Machine} {c : HostCall}
    (hc : ∀ s : Machine, (c.apply s).machine = s.mapInput k t)
    (hu : ∀ i, m.instr? = some i → Unseen i k t)
    (hresult : (c.apply m.tick.machine).result = (c.apply m).result)
    (hlog : (c.apply m.tick.machine).log = (c.apply m).log) : m.Commutes c := by
  have htick : (c.apply m).machine.tick = m.tick.onMachine (·.mapInput k t) := by
    rw [hc, m.tick_mapInput hu]
  refine ⟨?_, hresult, hlog, ?_, ?_⟩
  · rw [htick, hc]
    rfl
  · rw [htick]
    rfl
  · rw [htick]
    rfl

/-- Setting a key changes the keys and nothing else. -/
theorem machine_setKey (m : Machine) (key : Nat) (pressed : Bool) :
    (m.setKey key pressed).machine = m.mapInput (·.set key pressed) id := by
  obtain ⟨⟨_, _, awaiting, _⟩, _, _, _, _, _, _, _, keypad, _, _⟩ := m
  simp only [setKey, mapInput, keyInput, KeyInput.set]
  cases keypad.set key pressed with
  | error f => rfl
  | ok new =>
    cases pressed with
    | false => rfl
    | true =>
      cases awaiting with
      | none => rfl
      | some x => rfl

/-- What setting a key answers and tells depends on the keypad only. -/
theorem setKey_congr {m s : Machine} (h : s.keypad = m.keypad) (key : Nat) (pressed : Bool) :
    (s.setKey key pressed).result = (m.setKey key pressed).result ∧
      (s.setKey key pressed).log = (m.setKey key pressed).log := by
  simp only [setKey, h]
  cases m.keypad.set key pressed with
  | error f => exact ⟨rfl, rfl⟩
  | ok new => exact ⟨rfl, rfl⟩

/-- **Input commutes with the instructions that do not look at it.**  On every machine,
paused or not and whether the tick fails or not: if the word at the program counter is no
instruction that looks at the keys, a tick commutes with pressing or releasing any key,
also one that the keypad does not have, and with releasing all of them.  If it is none
that looks at the timers, a tick commutes with a tick of the timers. -/
theorem input_commutes_with_tick (m : Machine) :
    ((∀ i, m.instr? = some i → i.looksAtKeys = false) →
        (∀ key pressed, m.Commutes (.setKey key pressed)) ∧ m.Commutes .releaseAll) ∧
      ((∀ i, m.instr? = some i → i.looksAtTimers = false) → m.Commutes .tickTimers) := by
  refine ⟨fun hkeys => ⟨fun key pressed => ?_, ?_⟩, fun htimers => ?_⟩
  · have hkeypad : m.tick.machine.keypad = m.keypad :=
      congrArg KeyInput.keypad (keyInput_tick hkeys)
    obtain ⟨hresult, hlog⟩ := setKey_congr hkeypad key pressed
    exact commutes_of_mapInput (fun s => s.machine_setKey key pressed)
      (fun i hi => unseen_keys (hkeys i hi)) (congrArg (Except.map Reply.changed) hresult) hlog
  · exact commutes_of_mapInput (k := KeyInput.releaseAll) (t := id) (fun _ => rfl)
      (fun i hi => unseen_keys (hkeys i hi)) rfl rfl
  · have hlog : m.tick.machine.tickTimers.timersRecord = m.tickTimers.timersRecord := by
      rw [timersRecord, tickTimers, timers_tick htimers]
      rfl
    exact commutes_of_mapInput (k := id) (t := Timers.tick) (fun _ => rfl)
      (fun i hi => unseen_timers (htimers i hi)) rfl (congrArg (fun r => [r]) hlog)

/-- A machine that waits for a key and returns, with nothing to return to. -/
def waitingReturn : Machine :=
  HostCall.run (ofSeed 8) [.load [0x00, 0xEE], .changeFlags ⟨none, none, some 3, none⟩]

/-- A press that ends its wait commutes with the return that fails, as does a press of a
key that does not exist.  The timers commute with it as well. -/
theorem input_commutes_with_tick_waitingReturn :
    waitingReturn.instr? = some .ret ∧ waitingReturn.Commutes (.setKey 5 true) ∧
      waitingReturn.Commutes (.setKey 16 true) ∧ waitingReturn.Commutes .releaseAll ∧
      waitingReturn.Commutes .tickTimers := by
  have hi : waitingReturn.instr? = some .ret := by decide +kernel
  have hlooks (i : Instr) (h : waitingReturn.instr? = some i) :
      i.looksAtKeys = false ∧ i.looksAtTimers = false := by
    obtain rfl := Option.some.inj (hi.symm.trans h)
    exact ⟨rfl, rfl⟩
  obtain ⟨hkeys, htimers⟩ := input_commutes_with_tick waitingReturn
  obtain ⟨hset, hrelease⟩ := hkeys fun i h => (hlooks i h).1
  exact ⟨hi, hset 5 true, hset 16 true, hrelease, htimers fun i h => (hlooks i h).2⟩

end Machine
end Chip8
