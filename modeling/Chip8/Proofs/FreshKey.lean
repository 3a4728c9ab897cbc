/-
# No wait ends with a key from before it

A wait for a key leaves traces in two flags, and those outlast the instruction:
they are cleared by a reset, but not by loading another program.  So a key may
complete a wait that it was not pressed for (`completes_after_load`): an
instruction stalls, a key is pressed, a program is loaded in its place, and an
instruction of that program takes the key at once.

What holds of every session is that the key is from after the last stall.  On the
timeline every moment does one of these to a wait:

| moment | the wait |
| --- | --- |
| a tick executes an instruction that waits | begins anew, or ends with the key |
| a reset | ends |
| any other | goes on; a press leaves its key (`Passes`) |

So at each moment there is no wait, or there is one since a stall, which was the
last execution of an instruction that waits, and its key has been pressed since
(`WaitSince`).  As long as no program is loaded over the instruction, the machine
stays at it, and executes nothing until a tick takes the key.
-/

import Chip8.Proofs.KeyWait
import Chip8.Proofs.Timeline

namespace Chip8

/-- No register waits for a key, and no key is kept for one. -/
structure Flags.Idle (f : Flags) : Prop where
  awaiting : f.awaiting = none
  pressed : f.pressed = none

instance (f : Flags) : Decidable f.Idle :=
  decidable_of_iff (f.awaiting = none ∧ f.pressed = none)
    ⟨fun h => ⟨h.1, h.2⟩, fun h => ⟨h.awaiting, h.pressed⟩⟩

/-- Flags that tell of a wait are not idle. -/
theorem Flags.Awaits.not_idle {f : Flags} {x : Nat} {key? : Option Nat} (h : f.Awaits x key?) :
    ¬f.Idle := by
  rintro ⟨hawaiting, hpressed⟩
  cases key? with
  | none => cases hawaiting.symm.trans h.1
  | some key => cases hpressed.symm.trans h.2

/-- A press that nobody waits for is not noted. -/
theorem Flags.Idle.note {f : Flags} (h : f.Idle) (press? : Option Nat) : f.note press? = f := by
  cases press? with
  | none => rfl
  | some key =>
    have hwaiting : ¬f.isWaiting = true := by rw [isWaiting, h.awaiting]; exact Bool.false_ne_true
    rw [Flags.note, notePress, if_neg hwaiting]

namespace HostCall

/-- The call loads a program. -/
def isLoad : HostCall → Bool
  | .load _ | .loadFile _ => true
  | _ => false

/-- Loading a program changes the memory and the pause flag, and nothing else. -/
theorem machine_apply_of_isLoad (m : Machine) {c : HostCall} (hc : c.isLoad = true) :
    ∃ memory paused, (c.apply m).machine =
      { m with memory := memory, flags := { m.flags with paused := paused } } := by
  have hload (program : List UInt8) : ∃ memory paused, (m.load program).machine =
      { m with memory := memory, flags := { m.flags with paused := paused } } := by
    unfold Machine.load
    split
    · exact ⟨m.memory, m.flags.paused, rfl⟩
    · exact ⟨_, false, rfl⟩
  cases c with
  | load program => exact hload program
  | loadFile contents =>
    cases contents with
    | error e => exact ⟨m.memory, m.flags.paused, rfl⟩
    | ok program => exact hload program
  | _ => cases hc

/-- A call that loads a program presses no key. -/
theorem pressedKey?_of_isLoad {c : HostCall} (hc : c.isLoad = true) : c.pressedKey? = none := by
  cases c with
  | load | loadFile => rfl
  | _ => cases hc

/-- A moment that does not assign the wait spares it, or loads a program, or resets
the machine. -/
theorem spares_or_load_or_reset {c : HostCall} (hm : c.isMoment = true)
    (hw : c.assignsWait = false) : c.sparesWait = true ∨ c.isLoad = true ∨ c = .reset := by
  cases c with
  | load | loadFile => exact .inr (.inl rfl)
  | reset => exact .inr (.inr rfl)
  | singlestep | multistep | frame => cases hm
  | setFlags => cases hw
  | changeFlags change =>
    obtain ⟨ha, hp⟩ := Bool.or_eq_false_iff.1 hw
    refine .inl (Bool.and_eq_true_iff.2 ⟨?_, ?_⟩)
    · rw [← Option.not_isSome, ha, Bool.not_false]
    · rw [← Option.not_isSome, hp, Bool.not_false]
  | _ => exact .inl rfl

end HostCall

namespace Machine

section Moment

variable {m : Machine} {c : HostCall} {p : UInt16} {y : Reg} {key? : Option Nat}

/-- A moment that neither begins nor ends a wait: it executes no instruction that
waits for a key, and all that it does to the flags of the wait is to note the key
that it presses.  Unless it executes an instruction or loads one in its place, the
machine stays where it is. -/
structure Passes (m : Machine) (c : HostCall) : Prop where
  awaitsNone : c = .tick → ∀ x, ¬m.Executes (.awaitKey x)
  awaiting : (c.apply m).machine.flags.awaiting = (m.flags.note c.pressedKey?).awaiting
  pressed : (c.apply m).machine.flags.pressed = (m.flags.note c.pressedKey?).pressed
  stays : (c = .tick → ∀ i, ¬m.Executes i) →
    (c.isLoad = true → (c.apply m).machine.memory.fetch m.pc = m.memory.fetch m.pc) →
      (c.apply m).machine.pc = m.pc ∧ (c.apply m).machine.instr? = m.instr?

/-- Loading a program passes a wait by. -/
theorem passes_of_isLoad (hc : c.isLoad = true) : m.Passes c := by
  obtain ⟨memory, paused, hm⟩ := HostCall.machine_apply_of_isLoad m hc
  refine ⟨?_, ?_, ?_, fun _ hkept => ?_⟩
  · rintro rfl
    cases hc
  · rw [hm, HostCall.pressedKey?_of_isLoad hc]
    rfl
  · rw [hm, HostCall.pressedKey?_of_isLoad hc]
    rfl
  · have hpc : (c.apply m).machine.pc = m.pc := by rw [hm]
    exact ⟨hpc, by rw [instr?, word?, hpc, hkept hc]; rfl⟩

/-- A moment that executes nothing and leaves the flags of the wait alone passes a wait by. -/
theorem passes_of_not_executes (hc : c.sparesWait = true)
    (hx : c = .tick → ∀ i, ¬m.Executes i) : m.Passes c := by
  have hn := onlyNotes_apply hc hx
  exact ⟨fun htick x => hx htick _, hn.awaiting, hn.pressed, fun _ _ => ⟨hn.pc, hn.instr?⟩⟩

/-- An instruction that does not wait for a key leaves a wait alone. -/
theorem Executes.passes {i : Instr} (h : m.Executes i) (hi : ∀ x, i ≠ .awaitKey x) :
    m.Passes .tick := by
  have hflags : m.tick.machine.flags.awaiting = m.flags.awaiting ∧
      m.tick.machine.flags.pressed = m.flags.pressed := by
    rw [h.machine_tick, flags_execute]
    cases i with
    | awaitKey x => exact (hi x rfl).elim
    | jump target =>
      show (if _ then _ else m.flags).awaiting = _ ∧ (if _ then _ else m.flags).pressed = _
      split <;> exact ⟨rfl, rfl⟩
    | _ => exact ⟨rfl, rfl⟩
  refine ⟨fun _ x hx => ?_, hflags.1, hflags.2, fun hnone _ => (hnone rfl i h).elim⟩
  exact hi x (Option.some.inj (h.instr.symm.trans hx.instr))

/-- **A moment passes, or executes an instruction that waits for a key, or resets the
machine.** -/
theorem passes_or_executes_or_reset (hm : c.isMoment = true) (hw : c.assignsWait = false) :
    m.Passes c ∨ (c = .tick ∧ ∃ x, m.Executes (.awaitKey x)) ∨ c = .reset := by
  obtain hc | hc | rfl := HostCall.spares_or_load_or_reset hm hw
  · by_cases hx : c = .tick ∧ ∃ i, m.Executes i
    · obtain ⟨rfl, i, hi⟩ := hx
      by_cases hkey : ∃ x, i = .awaitKey x
      · obtain ⟨x, rfl⟩ := hkey
        exact .inr (.inl ⟨rfl, x, hi⟩)
      · exact .inl (hi.passes fun x he => hkey ⟨x, he⟩)
    · exact .inl (passes_of_not_executes hc fun htick i hi => hx ⟨htick, i, hi⟩)
  · exact .inl (passes_of_isLoad hc)
  · exact .inr (.inr rfl)

/-- Where no wait is under way, a moment that passes by begins none. -/
theorem Passes.idle (hp : m.Passes c) (h : m.flags.Idle) : (c.apply m).machine.flags.Idle where
  awaiting := by rw [hp.awaiting, h.note, h.awaiting]
  pressed := by rw [hp.pressed, h.note, h.pressed]

/-- Where a wait is under way, a moment that passes by can only give it a key. -/
theorem Passes.awaits (hp : m.Passes c) {x : Nat} (h : m.flags.Awaits x key?) :
    (c.apply m).machine.flags.Awaits x (key?.or c.pressedKey?) :=
  (h.note c.pressedKey?).congr hp.awaiting hp.pressed

/-- What a tick would execute is the instruction that waits, so a moment that passes
executes nothing. -/
theorem Passes.not_executes (hp : m.Passes c) (h : m.WaitsAt p y key?) (hc : c = .tick)
    (i : Instr) : ¬m.Executes i := by
  intro hi
  obtain rfl := Option.some.inj (hi.instr.symm.trans h.instr)
  exact hp.awaitsNone hc y hi

/-- **A machine that waits stays at the instruction,** unless a program is loaded over
it. -/
theorem Passes.waitsAt (hp : m.Passes c) (h : m.WaitsAt p y key?)
    (hkept : c.isLoad = true → (c.apply m).machine.memory.fetch p = m.memory.fetch p) :
    (c.apply m).machine.WaitsAt p y (key?.or c.pressedKey?) := by
  obtain ⟨hpc, hinstr⟩ := hp.stays (hp.not_executes h) (h.pc ▸ hkept)
  exact ⟨hpc.trans h.pc, hinstr.trans h.instr, hp.awaits h.flags⟩

end Moment

/-- The programs that are loaded between two moments keep the word at `p`. -/
def LoadsKeep (m : Machine) (acts : List HostCall) (p : UInt16) (i n : Nat) : Prop :=
  ∀ k c, i < k → k < n → acts[k]? = some c → c.isLoad = true →
    (HostCall.stateAt m acts (k + 1)).memory.fetch p = (HostCall.stateAt m acts k).memory.fetch p

/-- Before moment `n` the machine waits for a key for register `y` since it stalled at
moment `i`, and has the key, if it has been pressed. -/
structure WaitSince (m : Machine) (acts : List HostCall) (i n : Nat) (y : Reg)
    (key? : Option Nat) : Prop where
  lt : i < n
  stalled : TickAt m acts i (Stalls · y)
  /-- No instruction that waits has been executed since. -/
  last : ∀ k x, i < k → k < n → ¬TickAt m acts k (Executes · (.awaitKey x))
  flags : (HostCall.stateAt m acts n).flags.Awaits y.val key?
  press : ∀ key, key? = some key →
    ∃ j c, i < j ∧ j < n ∧ acts[j]? = some c ∧ c.pressedKey? = some key
  /-- Unless the instruction has been replaced, none at all has been executed. -/
  still : LoadsKeep m acts (HostCall.stateAt m acts i).pc i n →
    (HostCall.stateAt m acts n).WaitsAt (HostCall.stateAt m acts i).pc y key? ∧
      ∀ k ins, i < k → k < n → ¬TickAt m acts k (Executes · ins)

section Wait

variable {m : Machine} {acts : List HostCall} {i n : Nat} {y : Reg} {key? : Option Nat}
  {c : HostCall}

/-- A stall begins a wait. -/
theorem waitSince_of_stalls (h : TickAt m acts n (Stalls · y)) :
    WaitSince m acts n (n + 1) y none := by
  have hwait : (HostCall.stateAt m acts (n + 1)).WaitsAt (HostCall.stateAt m acts n).pc y none := by
    rw [HostCall.stateAt_succ_of_getElem? h.1]
    exact h.2.waitsAt
  refine ⟨Nat.lt_succ_self n, h, fun k _ hk hkn => ?_, hwait.flags, ?_, fun _ => ⟨hwait, ?_⟩⟩
  · omega
  · rintro key ⟨⟩
  · intro k _ hk hkn
    omega

/-- **A moment that passes leaves the wait as it is, but for the first key.** -/
theorem WaitSince.succ (h : WaitSince m acts i n y key?) (hc : acts[n]? = some c)
    (hp : (HostCall.stateAt m acts n).Passes c) :
    WaitSince m acts i (n + 1) y (key?.or c.pressedKey?) := by
  have hnext := HostCall.stateAt_succ_of_getElem? (m := m) hc
  have htick (ht : acts[n]? = some .tick) : c = .tick := Option.some.inj (hc.symm.trans ht)
  refine ⟨Nat.lt_succ_of_lt h.lt, h.stalled, fun k x hk hkn => ?_, ?_, fun key hkey => ?_,
    fun hkeep => ?_⟩
  · obtain hkn | rfl := Nat.lt_succ_iff_lt_or_eq.1 hkn
    · exact h.last k x hk hkn
    · exact fun hx => hp.awaitsNone (htick hx.1) x hx.2
  · rw [hnext]
    exact hp.awaits h.flags
  · cases key? with
    | some first =>
      obtain ⟨j, d, hij, hjn, hd, hpress⟩ := h.press key hkey
      exact ⟨j, d, hij, Nat.lt_succ_of_lt hjn, hd, hpress⟩
    | none => exact ⟨n, c, h.lt, Nat.lt_succ_self n, hc, by rwa [Option.none_or] at hkey⟩
  · obtain ⟨hwait, hnone⟩ := h.still fun k d hk hkn => hkeep k d hk (Nat.lt_succ_of_lt hkn)
    have hkept := hkeep n c h.lt (Nat.lt_succ_self n) hc
    rw [hnext] at hkept ⊢
    refine ⟨hp.waitsAt hwait hkept, fun k ins hk hkn => ?_⟩
    obtain hkn | rfl := Nat.lt_succ_iff_lt_or_eq.1 hkn
    · exact hnone k ins hk hkn
    · exact fun hx => hp.not_executes hwait (htick hx.1) ins hx.2

/-- No wait is under way at moment `n`, or one since a stall. -/
def InOrder (m : Machine) (acts : List HostCall) (n : Nat) : Prop :=
  (HostCall.stateAt m acts n).flags.Idle ∨ ∃ i y key?, WaitSince m acts i n y key?

/-- A key is there only after a stall and a press. -/
theorem InOrder.exists_waitSince (h : InOrder m acts n) {key : Nat}
    (hkey : (HostCall.stateAt m acts n).flags.pressed = some key) :
    ∃ i y, WaitSince m acts i n y (some key) := by
  obtain hidle | ⟨i, y, key?, hw⟩ := h
  · rw [hidle.pressed] at hkey
    cases hkey
  · cases key? with
    | none =>
      have hnone := hw.flags.2
      rw [hnone] at hkey
      cases hkey
    | some first =>
      have hfirst := hw.flags.2
      obtain rfl := Option.some.inj (hfirst.symm.trans hkey)
      exact ⟨i, y, hw⟩

/-- **Every moment leaves the wait in order.** -/
theorem InOrder.succ (h : InOrder m acts n) (hc : acts[n]? = some c) (hm : c.isMoment = true)
    (hw : c.assignsWait = false) : InOrder m acts (n + 1) := by
  have hnext := HostCall.stateAt_succ_of_getElem? (m := m) hc
  obtain hp | ⟨rfl, x, hx⟩ | rfl := passes_or_executes_or_reset
    (m := HostCall.stateAt m acts n) hm hw
  · obtain hidle | ⟨i, y, key?, hsince⟩ := h
    · refine .inl ?_
      rw [hnext]
      exact hp.idle hidle
    · exact .inr ⟨i, y, _, hsince.succ hc hp⟩
  · cases hk : (HostCall.stateAt m acts n).flags.pressed with
    | none => exact .inr ⟨n, x, none, waitSince_of_stalls ⟨hc, stalls_iff.2 ⟨hx, hk⟩⟩⟩
    | some key =>
      obtain ⟨i, y, hsince⟩ := h.exists_waitSince hk
      refine .inl ?_
      rw [hnext]
      show (HostCall.stateAt m acts n).tick.machine.flags.Idle
      rw [hx.machine_of_key hk]
      exact ⟨hsince.flags.1, rfl⟩
  · refine .inl ?_
    rw [hnext]
    exact ⟨rfl, rfl⟩

/-- **From a fresh machine on, a wait at any moment is one since a stall.** -/
theorem inOrder_fresh (random : Random) {acts : List HostCall}
    (h : ∀ c ∈ acts, c.isMoment = true ∧ c.assignsWait = false) {n : Nat} (hn : n ≤ acts.length) :
    InOrder (fresh random) acts n := by
  induction n with
  | zero =>
    refine .inl ?_
    rw [HostCall.stateAt_zero]
    exact ⟨rfl, rfl⟩
  | succ n ih =>
    obtain ⟨hm, hw⟩ := h _ (List.getElem_mem hn)
    exact (ih (Nat.le_of_succ_le hn)).succ (List.getElem?_eq_getElem hn) hm hw

end Wait

/-- **The key that completes a wait was pressed after the last stall.**  Whatever a
host does with a fresh machine, short of assigning the wait for a key itself: when
an instruction that waits completes, the last such instruction executed before it
stalled, and the key that it takes has been pressed successfully since.  If no
program that was loaded since has replaced that instruction, it is the same one,
and nothing was executed in between. -/
theorem key_pressed_after_last_stall (random : Random) {calls : List HostCall}
    (hc : ∀ c ∈ calls, c.assignsWait = false) {n : Nat} {x : Reg}
    (h : TickAt (fresh random) (HostCall.timeline (fresh random) calls) n (Completes · x)) :
    let m := fresh random
    let acts := HostCall.timeline m calls
    ∃ i j y key did, i < j ∧ j < n ∧
      TickAt m acts i (Stalls · y) ∧
      (∀ k z, i < k → k < n → ¬TickAt m acts k (Executes · (.awaitKey z))) ∧
      acts[j]? = some (.setKey key true) ∧
      ((HostCall.setKey key true).apply (HostCall.stateAt m acts j)).result =
        .ok (.changed did) ∧
      ((HostCall.stateAt m acts (n + 1)).reg x).toNat = key ∧
      (LoadsKeep m acts (HostCall.stateAt m acts i).pc i n →
        y = x ∧ (HostCall.stateAt m acts n).pc = (HostCall.stateAt m acts i).pc ∧
          ∀ k ins, i < k → k < n → ¬TickAt m acts k (Executes · ins)) := by
  intro m acts
  obtain ⟨htick, hdone⟩ := h
  obtain ⟨hx, key, hkey⟩ := completes_iff.1 hdone
  have hn : n < acts.length := (List.getElem?_eq_some_iff.1 htick).1
  have hin : InOrder m acts n :=
    inOrder_fresh random (fun _ => HostCall.isMoment_of_mem_timeline hc) (Nat.le_of_lt hn)
  obtain ⟨i, y, hsince⟩ := hin.exists_waitSince hkey
  obtain ⟨j, c, hij, hjn, hj, hpress⟩ := hsince.press key rfl
  obtain ⟨rfl, did, hok⟩ := (HostCall.pressedKey?_eq_some_iff (HostCall.stateAt m acts j)).1 hpress
  refine ⟨i, j, y, key, did, hij, hjn, hsince.stalled, hsince.last, hj, hok, ?_, fun hkeep => ?_⟩
  · rw [HostCall.stateAt_succ_of_getElem? htick]
    show ((HostCall.stateAt m acts n).tick.machine.reg x).toNat = key
    rw [hx.machine_of_key hkey]
    exact toNat_reg_setReg _ x (HostCall.pressedKey?_lt hpress)
  · obtain ⟨hwait, hnone⟩ := hsince.still hkeep
    obtain hyx := Option.some.inj (hwait.instr.symm.trans hx.instr)
    exact ⟨Instr.awaitKey.inj hyx, hwait.pc, hnone⟩

/-- A program waits for a key in register 3, and takes the key that is pressed. -/
def waitAndPress : List HostCall := [.load [0xF3, 0x0A], .tick, .setKey 5 true, .tick]

/-- The program stalled before it took the key, and nothing was executed meanwhile. -/
theorem key_pressed_after_last_stall_waitAndPress :
    let m := ofSeed 8
    let acts := HostCall.timeline m waitAndPress
    (∀ c ∈ waitAndPress, c.assignsWait = false) ∧ TickAt m acts 3 (Completes · 3) ∧
      ∃ i j key, i < j ∧ j < 3 ∧ TickAt m acts i (Stalls · 3) ∧
        acts[j]? = some (.setKey key true) ∧
        ((HostCall.stateAt m acts 4).reg 3).toNat = key ∧
        ∀ k ins, i < k → k < 3 → ¬TickAt m acts k (Executes · ins) := by
  intro m acts
  have hc : ∀ c ∈ waitAndPress, c.assignsWait = false := by decide
  have h : TickAt m acts 3 (Completes · 3) := ⟨rfl, by decide +kernel⟩
  obtain ⟨i, j, y, key, _, hij, hj, hstall, _, hpress, _, hkey, hsame⟩ :=
    key_pressed_after_last_stall (.ofSeed 8) hc h
  have hkeep : LoadsKeep m acts (HostCall.stateAt m acts i).pc i 3 := by
    intro k c hik hk hck hload
    match k, hck with
    | 0, _ => omega
    | 1, hck | 2, hck => cases hck; cases hload
    | k + 3, _ => omega
  obtain ⟨rfl, -, hnone⟩ := hsame hkeep
  exact ⟨hc, h, i, j, key, hij, hj, hstall, hpress, hkey, hnone⟩

/-- Another program is loaded over a wait whose key has been pressed, and waits for a
key itself after its first instruction. -/
def loadOverWait : List HostCall :=
  [.load [0xF3, 0x0A], .tick, .setKey 5 true, .load [0x60, 0x02, 0xF5, 0x0A], .tick, .tick]

/-- **A key outlasts the program that it was pressed for.**  The second program's wait
completes at once: it has not stalled, and the instruction executed before it is
another one. -/
theorem completes_after_load :
    let m := ofSeed 8
    let acts := HostCall.timeline m loadOverWait
    (∀ c ∈ loadOverWait, c.assignsWait = false) ∧ TickAt m acts 5 (Completes · 5) ∧
      ¬∃ i j key, i < j ∧ j < 5 ∧ TickAt m acts i (Stalls · 5) ∧
        (HostCall.stateAt m acts i).pc = (HostCall.stateAt m acts 5).pc ∧
        (∀ k ins, i < k → k < 5 → ¬TickAt m acts k (Executes · ins)) ∧
        acts[j]? = some (.setKey key true) ∧
        ((HostCall.stateAt m acts 6).reg 5).toNat = key := by
  intro m acts
  have hfirst : (HostCall.stateAt m acts 4).Executes (.loadByte 0 2) := by decide +kernel
  refine ⟨by decide, ⟨rfl, by decide +kernel⟩, ?_⟩
  rintro ⟨i, j, key, hij, hj, _, _, hnone, _⟩
  exact hnone 4 (.loadByte 0 2) (by omega) (by omega) ⟨rfl, hfirst⟩

end Machine
end Chip8
