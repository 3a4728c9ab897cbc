/-
# The keypad remembers the last setting of a key

A session sets keys one at a time, in any order and between any other calls.  What the
keypad tells about a key afterwards depends on little of the session:

| last call for the key | the key |
| --- | --- |
| it was set, and not all keys were released since | is as it was set |
| all keys were released, and it was not set since | is up |
| there was none | is up |

Going back from the end of a session, the calls up to the one that last released every
key are searched for a setting of the key (`lastSetting?`).  A setting of a key that the
keypad does not have is refused and leaves no trace, so it does not matter that the
search finds it too.  Programs look at keys, but no cycle moves one (`keypad_step`),
whatever it executes and whether or not it fails.
-/

import Chip8.Proofs.Footprint
import Chip8.Proofs.HeldKey
import Mathlib.Data.List.Induction

namespace Chip8

namespace HostCall

/-- The call releases every key. -/
def releasesAll : HostCall → Bool
  | .releaseAll | .reset => true
  | _ => false

/-- The call sets a key or releases every key. -/
def movesKeys : HostCall → Bool
  | .setKey _ _ => true
  | c => c.releasesAll

/-- What the call sets a key to, if it is a call for that key. -/
def setting? (key : Nat) : HostCall → Option Bool
  | .setKey other pressed => if other = key then some pressed else none
  | _ => none

/-- What a key was last set to after every key was released last, if it was set then. -/
def lastSetting? (key : Nat) (calls : List HostCall) : Option Bool :=
  (calls.reverse.takeWhile fun c => !c.releasesAll).findSome? (setting? key)

/-- **The last call is looked at first:** it forgets all settings, or makes one, or those
before it count. -/
theorem lastSetting?_concat (key : Nat) (calls : List HostCall) (c : HostCall) :
    lastSetting? key (calls ++ [c]) =
      if c.releasesAll then none else (c.setting? key).or (lastSetting? key calls) := by
  unfold lastSetting?
  rw [List.reverse_append, List.reverse_singleton, List.singleton_append, List.takeWhile_cons]
  cases c.releasesAll with
  | true => rfl
  | false =>
    rw [Bool.not_false, if_pos rfl, if_neg Bool.false_ne_true, List.findSome?_cons]
    cases c.setting? key <;> rfl

end HostCall

namespace Machine

/-! ## What moves no key -/

/-- A cycle moves no key. -/
theorem keypad_step (m : Machine) : m.step.machine.keypad = m.keypad := by
  obtain ⟨f, -, hm⟩ | ⟨i, -, -, -, hm⟩ := m.step_cases
  · rw [hm]
  · rw [hm]
    exact same_execute (p := .keypad) (notMem_writes (.inl rfl) i)

/-- **No cycle moves a key.** -/
theorem keypad_kept (k : Keypad) : Kept fun m => m.keypad = k where
  step m h := m.keypad_step.trans h
  setPaused _ _ h := h

/-- Loading a program moves no key. -/
theorem keypad_load (m : Machine) (program : List UInt8) :
    (m.load program).machine.keypad = m.keypad := by
  rw [machine_load_eq]

/-- **Only the calls that are made for it move keys.** -/
theorem keypad_apply (m : Machine) {c : HostCall} (h : c.movesKeys = false) :
    (c.apply m).machine.keypad = m.keypad := by
  have hkept := keypad_kept m.keypad
  cases c with
  | setKey key pressed => cases h
  | releaseAll => cases h
  | reset => cases h
  | load program => exact m.keypad_load program
  | loadFile contents =>
    rcases contents with e | program
    · rfl
    · exact m.keypad_load program
  | tick => exact hkept.tick rfl
  | singlestep => exact hkept.singlestep rfl
  | multistep n => exact hkept.multistep n rfl
  | frame n => exact hkept.frame (fun _ ht => ht) n rfl
  | _ => rfl

/-! ## What a call does to a key -/

/-- A key of the keypad is set, and the others stay. -/
theorem isHeld_setKey (m : Machine) {key : Nat} (h : key < 16) (pressed : Bool) (other : Nat) :
    (m.setKey key pressed).machine.keypad.isHeld other =
      if other = key then pressed else m.keypad.isHeld other := by
  have hset := m.keypad.set_eq pressed h
  have hkeypad : (m.setKey key pressed).machine.keypad = ⟨m.keypad.held.set key pressed⟩ := by
    simp only [setKey, hset]
  rw [hkeypad]
  exact Keypad.isHeld_set hset other

/-- **A call decides about a key, or leaves it as it is.**  A call that is refused is not
one for a key of the keypad. -/
theorem isHeld_apply (m : Machine) (c : HostCall) {key : Nat} (h : key < 16) :
    (c.apply m).machine.keypad.isHeld key =
      if c.releasesAll then false else (c.setting? key).getD (m.keypad.isHeld key) := by
  by_cases hmoves : c.movesKeys = true
  · cases c with
    | setKey other pressed =>
      rw [HostCall.setting?]
      show (m.setKey other pressed).machine.keypad.isHeld key = _
      by_cases hother : other < 16
      · rw [m.isHeld_setKey hother]
        by_cases heq : other = key
        · rw [if_pos heq.symm, if_pos heq]
          rfl
        · rw [if_neg (Ne.symm heq), if_neg heq]
          rfl
      · have hne : other ≠ key := by omega
        rw [m.setKey_eq_error pressed (Nat.le_of_not_lt hother), if_neg hne]
        rfl
    | releaseAll => exact Keypad.isHeld_released key
    | reset => exact Keypad.isHeld_released key
    | _ => cases hmoves
  · have hstays : c.movesKeys = false := Bool.eq_false_iff.2 hmoves
    rw [m.keypad_apply hstays]
    cases c with
    | setKey other pressed => cases hstays
    | releaseAll => cases hstays
    | reset => cases hstays
    | _ => rfl

/-- **The keypad after a session is read off its calls.** -/
theorem isHeld_run_fresh (random : Random) (calls : List HostCall) {key : Nat} (h : key < 16) :
    (HostCall.run (fresh random) calls).keypad.isHeld key =
      (HostCall.lastSetting? key calls).getD false := by
  induction calls using List.reverseRecOn with
  | nil => exact Keypad.isHeld_released key
  | append_singleton calls c ih =>
    rw [HostCall.run_append, HostCall.lastSetting?_concat]
    show (c.apply (HostCall.run (fresh random) calls)).machine.keypad.isHeld key = _
    rw [isHeld_apply _ c h, ih]
    cases c.releasesAll with
    | true => rfl
    | false => cases c.setting? key <;> rfl

/-- A setting that succeeds answers whether the key is in another state than before. -/
theorem result_setKey_iff (m : Machine) {key : Nat} {pressed did : Bool}
    (h : (m.setKey key pressed).result = .ok did) :
    did = true ↔ (m.setKey key pressed).machine.keypad.isHeld key ≠ m.keypad.isHeld key := by
  by_cases hkey : key < 16
  · rw [m.isHeld_setKey hkey, if_pos rfl]
    simp only [setKey, m.keypad.set_eq pressed hkey, Except.ok.injEq] at h
    rw [← h, bne_iff_ne, ne_comm]
  · rw [m.setKey_eq_error pressed (Nat.le_of_not_lt hkey)] at h
    cases h

/-- **The keypad is what its keys were last set to.**  After any session with a fresh
machine, a key of the keypad is as it was last set since every key was released, and up
if it was not set since; other keys are up.  Setting a key succeeds exactly for a key of
the keypad, and answers whether this changed the key.  Otherwise the key is named in the
fault, the machine is as it was, and a wait for a key goes on.  A call that neither sets
a key nor releases all of them leaves the keypad as it is. -/
theorem keypad_is_last_setting (random : Random) :
    (∀ calls key, key ≤ 15 →
      (HostCall.run (fresh random) calls).keypad.isHeld key =
        (HostCall.lastSetting? key calls).getD false) ∧
    (∀ calls key, 16 ≤ key → (HostCall.run (fresh random) calls).keypad.isHeld key = false) ∧
    ∀ m : Machine,
      (∀ key pressed, (∃ did, (m.setKey key pressed).result = .ok did) ↔ key ≤ 15) ∧
      (∀ key pressed did, (m.setKey key pressed).result = .ok did →
        (did = true ↔
          (m.setKey key pressed).machine.keypad.isHeld key ≠ m.keypad.isHeld key)) ∧
      (∀ key pressed, 16 ≤ key →
        (m.setKey key pressed).result = .error (.invalidKey key) ∧
          (m.setKey key pressed).machine = m ∧
          ∀ other, ¬m.Resolves (.setKey key pressed) other) ∧
      ∀ c : HostCall, c.movesKeys = false → (c.apply m).machine.keypad = m.keypad := by
  refine ⟨fun calls key h => isHeld_run_fresh random calls (Nat.lt_succ_of_le h),
    fun calls key h => Keypad.isHeld_of_le _ h, fun m => ⟨fun key pressed => ?_,
      fun key pressed did => m.result_setKey_iff, fun key pressed h => ?_,
      fun c => m.keypad_apply⟩⟩
  · constructor
    · rintro ⟨did, hok⟩
      refine Nat.le_of_not_lt fun hkey => ?_
      rw [m.setKey_eq_error pressed hkey] at hok
      cases hok
    · intro h
      simp only [setKey, m.keypad.set_eq pressed (Nat.lt_succ_of_le h)]
      exact ⟨_, rfl⟩
  · have herror := m.setKey_eq_error pressed h
    refine ⟨by rw [herror], by rw [herror], fun other hresolves => ?_⟩
    have hended : (m.setKey key pressed).machine.flags.isWaiting = false := hresolves.ended
    rw [herror, hresolves.pending] at hended
    cases hended

/-- Keys are pressed and released around a wait, a key that does not exist among them;
then all are released, and two are pressed. -/
def movesManyKeys : List HostCall :=
  [.setKey 5 true, .load [0xF3, 0x0A], .tick, .setKey 16 true, .frame 3, .releaseAll,
    .setKey 7 true, .setKey 5 true, .tickTimers, .setKey 7 false]

/-- Key 5 is held, key 7 has been released again, and the keypad has no key 16; it was
refused during the wait and did not end it. -/
theorem keypad_is_last_setting_movesManyKeys :
    let m := HostCall.run (ofSeed 8) movesManyKeys
    let waiting := HostCall.run (ofSeed 8) (movesManyKeys.take 3)
    m.keypad.isHeld 5 = true ∧ m.keypad.isHeld 7 = false ∧ m.keypad.isHeld 16 = false ∧
      waiting.flags.isWaiting = true ∧ (waiting.setKey 16 true).machine = waiting ∧
      (∃ did, (m.setKey 7 true).result = .ok did) ∧
      ((HostCall.frame 3).apply waiting).machine.keypad = waiting.keypad := by
  intro m waiting
  obtain ⟨hheld, hnone, hcalls⟩ := keypad_is_last_setting (.ofSeed 8)
  obtain ⟨-, -, hrefused, hstays⟩ := hcalls waiting
  exact ⟨hheld movesManyKeys 5 (by decide), hheld movesManyKeys 7 (by decide),
    hnone movesManyKeys 16 (by decide), by decide +kernel, (hrefused 16 true (by decide)).2.1,
    ((hcalls m).1 7 true).2 (by decide), hstays (.frame 3) rfl⟩

end Machine
end Chip8
