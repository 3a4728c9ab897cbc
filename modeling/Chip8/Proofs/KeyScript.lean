/-
# What a script of key presses means

A player presses the keys that a script has for a frame one after the other, and that
leaves two traces: the keys are held, and a wait for a key has taken the first of them
(`pressAll_eq`).  How often a key is pressed and in which order the others come leaves
none.  So a script says no more than this:

| for each frame | read by |
| --- | --- |
| which keys are pressed | the tests for a held key |
| which is pressed first | a wait for a key |

Two scripts that say the same for every frame played (`Alike`) lead to the same ending
of every run (`play_sees_keys_and_first`).  So neighbouring presses may be exchanged if
they are of different frames or come after another press of their frame, and a press
that occurs before may be left out.
-/

import Chip8.Play
import Chip8.Proofs.KeyWait

namespace Chip8

namespace Keypad

/-- A key of the keypad is held if its bit is set. -/
theorem isHeld_of_lt (k : Keypad) {key : Nat} (h : key < 16) : k.isHeld key = k.held[key] :=
  dif_pos h

/-- The keypad with more keys held. -/
def hold (k : Keypad) (keys : List Nat) : Keypad :=
  ⟨.ofFn fun i => k.isHeld i.val || keys.contains i.val⟩

/-- Holding no more keys changes nothing. -/
theorem hold_nil (k : Keypad) : k.hold [] = k := by
  refine congrArg Keypad.mk (Vector.ext fun i hi => ?_)
  rw [Vector.getElem_ofFn, List.contains_nil, Bool.or_false]
  exact k.isHeld_of_lt hi

/-- Keys can be held one after the other. -/
theorem hold_cons (k : Keypad) {key : Nat} (h : key < 16) (keys : List Nat) :
    (⟨k.held.set key true⟩ : Keypad).hold keys = k.hold (key :: keys) := by
  refine congrArg Keypad.mk (Vector.ext fun i hi => ?_)
  rw [Vector.getElem_ofFn, Vector.getElem_ofFn, List.contains_cons, isHeld_of_lt _ hi,
    isHeld_of_lt _ hi, Vector.getElem_set]
  by_cases hk : key = i
  · rw [if_pos hk, hk, BEq.rfl, Bool.true_or, Bool.or_true]
  · rw [if_neg hk, beq_eq_false_iff_ne.2 (Ne.symm hk), Bool.false_or]

/-- **Which keys are held afterwards is a matter of which are pressed.** -/
theorem hold_congr (k : Keypad) {a b : List Nat} (h : ∀ key, key ∈ a ↔ key ∈ b) :
    k.hold a = k.hold b := by
  have hsame (key : Nat) : a.contains key = b.contains key := by
    rw [Bool.eq_iff_iff, List.contains_iff_mem, List.contains_iff_mem]
    exact h key
  simp only [hold, hsame]

end Keypad

/-- A press that has been noted hides the presses after it. -/
theorem Flags.note_notePress (f : Flags) (key : Nat) (press? : Option Nat) :
    (f.notePress key).note press? = f.notePress key := by
  have hwaiting : (f.notePress key).isWaiting = false := by
    cases hw : f.isWaiting with
    | true => rw [notePress, if_pos hw]; rfl
    | false => rw [notePress, if_neg (by simp [hw]), hw]
  cases press? with
  | none => rfl
  | some other => rw [note, notePress, if_neg (by simp [hwaiting])]

/-- Noting a key leaves the pause flag alone. -/
theorem Flags.paused_notePress (f : Flags) (key : Nat) : (f.notePress key).paused = f.paused := by
  unfold notePress
  split <;> rfl

namespace Machine

variable {m : Machine}

/-- The machine after keys have been pressed: they are held, and a wait for a key has
taken the first. -/
def withKeys (m : Machine) (keys : List Nat) : Machine :=
  { m with keypad := m.keypad.hold keys, flags := m.flags.note keys.head? }

/-- Pressing no keys changes nothing. -/
theorem withKeys_nil (m : Machine) : m.withKeys [] = m := by
  rw [withKeys, Keypad.hold_nil]
  rfl

/-- Pressing a key tells whether it was not held before. -/
theorem result_setKey (m : Machine) {key : Nat} (h : key < 16) :
    (m.setKey key true).result = .ok (m.keypad.isHeld key != true) := by
  simp only [setKey, m.keypad.set_eq true h]

/-- A key in front is pressed first. -/
theorem withKeys_setKey (m : Machine) {key : Nat} (h : key < 16) (keys : List Nat) :
    (m.setKey key true).machine.withKeys keys = m.withKeys (key :: keys) := by
  have hset : (m.setKey key true).machine =
      { m with keypad := ⟨m.keypad.held.set key true⟩, flags := m.flags.notePress key } := by
    simp only [setKey, m.keypad.set_eq true h, if_true]
  rw [hset]
  simp only [withKeys, m.keypad.hold_cons h, m.flags.note_notePress]
  rfl

/-- **Keys of the keypad are pressed together,** whatever comes after them. -/
theorem pressAll_append (m : Machine) {keys : List Nat} (hkeys : ∀ key ∈ keys, key < 16)
    (rest : List Nat) : m.pressAll (keys ++ rest) = (m.withKeys keys).pressAll rest := by
  induction keys generalizing m with
  | nil => rw [m.withKeys_nil, List.nil_append]
  | cons key keys ih =>
    have hlt : key < 16 := hkeys key List.mem_cons_self
    have hrest : ∀ k ∈ keys, k < 16 := fun k hk => hkeys k (List.mem_cons_of_mem key hk)
    rw [List.cons_append, pressAll]
    simp only [m.result_setKey hlt]
    rw [ih _ hrest, m.withKeys_setKey hlt]

/-- **Pressing keys holds them, and the first ends a wait.** -/
theorem pressAll_eq (m : Machine) {keys : List Nat} (hkeys : ∀ key ∈ keys, key < 16) :
    m.pressAll keys = ⟨.ok (), m.withKeys keys⟩ := by
  have h := m.pressAll_append hkeys []
  rwa [List.append_nil] at h

end Machine

/-! ## Scripts -/

namespace KeyPress

variable {a b xs ys : List KeyPress} {p q : KeyPress} {frames : Nat}

/-- In each of the first `frames` frames the scripts press the same keys, and the same
key first. -/
def Alike (frames : Nat) (a b : List KeyPress) : Prop :=
  ∀ frame < frames,
    (∀ key, key ∈ keysAt a frame ↔ key ∈ keysAt b frame) ∧
      (keysAt a frame).head? = (keysAt b frame).head?

/-- The keys of a frame are keys of the script. -/
theorem lt_of_mem_keysAt (h : ∀ p ∈ a, p.key ≤ 0xF) {frame key : Nat}
    (hkey : key ∈ keysAt a frame) : key < 16 := by
  obtain ⟨p, hp, rfl⟩ := List.mem_map.1 hkey
  have hp : p ∈ a := (List.mem_filter.1 hp).1
  exact Nat.lt_succ_of_le (h p hp)

/-- A script that follows another presses its keys after those of the other. -/
theorem keysAt_append (a b : List KeyPress) (frame : Nat) :
    keysAt (a ++ b) frame = keysAt a frame ++ keysAt b frame := by
  rw [keysAt, List.filter_append, List.map_append]
  rfl

/-- A press counts in its own frame and in no other. -/
theorem keysAt_cons (p : KeyPress) (a : List KeyPress) (frame : Nat) :
    keysAt (p :: a) frame =
      if p.frame = frame then p.key :: keysAt a frame else keysAt a frame := by
  by_cases h : p.frame = frame
  · rw [if_pos h, keysAt, List.filter_cons_of_pos (by simp [h])]
    rfl
  · rw [if_neg h, keysAt, List.filter_cons_of_neg (by simp [h])]
    rfl

/-- Each press of a script is made. -/
theorem mem_keysAt (h : p ∈ a) : p.key ∈ keysAt a p.frame :=
  List.mem_map.2 ⟨p, List.mem_filter.2 ⟨h, BEq.rfl⟩, rfl⟩

/-- What stands behind an earlier press of its frame is not the first. -/
theorem head?_append_of_mem {a b c : List Nat} {key : Nat} (h : key ∈ a) :
    (a ++ b).head? = (a ++ c).head? := by
  cases a with
  | nil => cases h
  | cons first a => rfl

/-- **Presses of different frames may be exchanged,** and so may two presses of a frame
that has an earlier one. -/
theorem Alike.swap (h : p.frame ≠ q.frame ∨ ∃ r ∈ xs, r.frame = p.frame) :
    Alike frames (xs ++ p :: q :: ys) (xs ++ q :: p :: ys) := by
  intro frame _
  simp only [keysAt_append, keysAt_cons]
  by_cases hp : p.frame = frame
  · by_cases hq : q.frame = frame
    · obtain hne | ⟨r, hr, hrp⟩ := h
      · exact absurd (hp.trans hq.symm) hne
      · have hfirst : r.key ∈ keysAt xs frame := (hrp.trans hp) ▸ mem_keysAt hr
        rw [if_pos hp, if_pos hq, if_pos hq, if_pos hp]
        refine ⟨fun key => ?_, head?_append_of_mem hfirst⟩
        simp only [List.mem_append, List.mem_cons, or_left_comm]
    · simp only [if_neg hq, and_self, implies_true]
  · simp only [if_neg hp, and_self, implies_true]

/-- **A press that occurs before may be left out.** -/
theorem Alike.drop (h : p ∈ xs) : Alike frames (xs ++ p :: ys) (xs ++ ys) := by
  intro frame _
  simp only [keysAt_append, keysAt_cons]
  by_cases hp : p.frame = frame
  · have hfirst : p.key ∈ keysAt xs frame := hp ▸ mem_keysAt h
    rw [if_pos hp]
    refine ⟨fun key => ?_, head?_append_of_mem hfirst⟩
    simp only [List.mem_append, List.mem_cons]
    constructor
    · rintro (hx | rfl | hy)
      · exact .inl hx
      · exact .inl hfirst
      · exact .inr hy
    · rintro (hx | hy)
      · exact .inl hx
      · exact .inr (.inr hy)
  · simp only [if_neg hp, and_self, implies_true]

end KeyPress

/-! ## Runs -/

namespace Machine

variable {a b : List KeyPress}

/-- Keys that are the same, the first one too, are pressed alike. -/
theorem pressAll_congr (m : Machine) {a b : List Nat} (ha : ∀ key ∈ a, key < 16)
    (h : ∀ key, key ∈ a ↔ key ∈ b) (hfirst : a.head? = b.head?) :
    m.pressAll a = m.pressAll b := by
  have hb : ∀ key ∈ b, key < 16 := fun key hkey => ha key ((h key).2 hkey)
  rw [m.pressAll_eq ha, m.pressAll_eq hb, withKeys, withKeys, m.keypad.hold_congr h, hfirst]

/-- Scripts that are alike play every frame alike, and so all the frames that are left. -/
theorem playFrom_congr (ha : ∀ p ∈ a, p.key ≤ 0xF) {frames : Nat}
    (h : KeyPress.Alike frames a b) (cycles : Nat) {frame left : Nat}
    (hle : frame + left ≤ frames) (m : Machine) :
    m.playFrom a cycles frame left = m.playFrom b cycles frame left := by
  induction left generalizing m frame with
  | zero => rfl
  | succ left ih =>
    obtain ⟨hkeys, hfirst⟩ := h frame (by omega)
    have hframe : m.playFrame (KeyPress.keysAt a frame) cycles =
        m.playFrame (KeyPress.keysAt b frame) cycles := by
      rw [playFrame, playFrame,
        m.pressAll_congr (fun key => KeyPress.lt_of_mem_keysAt ha) hkeys hfirst]
    have hnext : frame + 1 + left ≤ frames := by omega
    simp only [playFrom, hframe, ih hnext]

/-- **A run sees of a script only the set of keys of each frame and the first of them.**
Let the keys of a script be keys of the keypad.  Another script that agrees with it in
this on every frame to be played leads from any machine to the same ending, result and
machine.  In particular two neighbouring presses may be exchanged if they are of
different frames, or if an earlier press is of their frame, and a press that occurs
before may be left out. -/
theorem play_sees_keys_and_first {script : List KeyPress} (hkeys : ∀ p ∈ script, p.key ≤ 0xF)
    (m : Machine) (frames cycles : Nat) :
    (∀ other, KeyPress.Alike frames script other →
        m.play script frames cycles = m.play other frames cycles) ∧
      (∀ xs p q ys, script = xs ++ p :: q :: ys →
        (p.frame ≠ q.frame ∨ ∃ r ∈ xs, r.frame = p.frame) →
          m.play script frames cycles = m.play (xs ++ q :: p :: ys) frames cycles) ∧
      ∀ xs p ys, script = xs ++ p :: ys → p ∈ xs →
        m.play script frames cycles = m.play (xs ++ ys) frames cycles := by
  have hplay (other : List KeyPress) (h : KeyPress.Alike frames script other) :
      m.play script frames cycles = m.play other frames cycles :=
    playFrom_congr hkeys h cycles (Nat.le_of_eq (Nat.zero_add frames)) m
  refine ⟨hplay, ?_, ?_⟩
  · rintro xs p q ys rfl hswap
    exact hplay _ (KeyPress.Alike.swap hswap)
  · rintro xs p ys rfl hdrop
    exact hplay _ (KeyPress.Alike.drop hdrop)

/-- Waits for a key in register 1, then for one in register 2.  Presses of the frames 1
and 3 are exchanged, the two later ones of frame 1 too, one of them is repeated, and a
press for a frame that is not played is added: the register has the first key. -/
theorem play_sees_keys_and_first_twoWaits :
    let m := ((ofSeed 0).load [0xF1, 0x0A, 0xF2, 0x0A, 0x12, 0x04]).machine
    let script : List KeyPress := [⟨0xC, 1⟩, ⟨0x5, 1⟩, ⟨0x7, 1⟩, ⟨0x9, 3⟩]
    let other : List KeyPress := [⟨0x9, 3⟩, ⟨0xC, 1⟩, ⟨0x7, 1⟩, ⟨0x5, 1⟩, ⟨0x7, 1⟩, ⟨0x2, 4⟩]
    (∀ p ∈ script, p.key ≤ 0xF) ∧ KeyPress.Alike 4 script other ∧
      m.play script 4 2 = m.play other 4 2 ∧
      (m.play other 4 2).machine.reg 1 = 0xC ∧ (m.play other 4 2).machine.reg 2 = 0x9 := by
  intro m script other
  have hkeys : ∀ p ∈ script, p.key ≤ 0xF := by decide
  have halike : KeyPress.Alike 4 script other := by
    intro frame hframe
    match frame, hframe with
    | 0, _ => exact ⟨fun key => by simp [KeyPress.keysAt, script, other], rfl⟩
    | 1, _ =>
      refine ⟨fun key => ?_, rfl⟩
      have hkey : key = 0xC ∨ key = 5 ∨ key = 7 ↔ key = 0xC ∨ key = 7 ∨ key = 5 ∨ key = 7 := by
        omega
      simpa [KeyPress.keysAt, script, other] using hkey
    | 2, _ => exact ⟨fun key => by simp [KeyPress.keysAt, script, other], rfl⟩
    | 3, _ => exact ⟨fun key => by simp [KeyPress.keysAt, script, other], rfl⟩
  exact ⟨hkeys, halike, (play_sees_keys_and_first hkeys m 4 2).1 other halike,
    by decide +kernel, by decide +kernel⟩

end Machine
end Chip8
