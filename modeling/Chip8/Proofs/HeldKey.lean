/-
# What ends a wait for a key

A machine waits for a key as long as a register is noted in its flags.  A press takes
the note away and leaves its key there.  It does not ask the keypad whether the key was
up before: a press of a key that is held already answers that nothing has changed, and
ends the wait all the same (`press_of_held_key_resolves`).

| moment, while a register waits | the wait |
| --- | --- |
| a key of the keypad is pressed, held or not | is resolved by that key |
| the machine is reset | is given up |
| any other | goes on |

So a wait is resolved by exactly the presses that succeed, and in a session that leaves
the flags of the wait alone it is one for the last instruction that stalled
(`wait_resolved_by_every_press`).
-/

import Chip8.Proofs.FreshKey
import Chip8.Proofs.KeyScript

namespace Chip8

/-- A press takes the note of a register that waits, and leaves its key. -/
theorem Flags.note_of_waiting {f : Flags} (h : f.isWaiting = true) (key : Nat) :
    f.note (some key) = { f with awaiting := none, pressed := some key } := by
  rw [note, notePress, if_pos h]

namespace Machine

/-- The call resolves a wait: a register waits before it and none after it, and the key
is kept for the instruction that waits. -/
structure Resolves (m : Machine) (c : HostCall) (key : Nat) : Prop where
  pending : m.flags.isWaiting = true
  ended : (c.apply m).machine.flags.isWaiting = false
  kept : (c.apply m).machine.flags.pressed = some key

section Wait

variable {m : Machine} {c : HostCall} {key : Nat}

/-- Executing the instruction that waits never takes the note away: without a key the
note is made, and with one it is not looked at. -/
theorem Executes.isWaiting_awaitKey {x : Reg} (h : m.Executes (.awaitKey x))
    (hwait : m.flags.isWaiting = true) : m.tick.machine.flags.isWaiting = true := by
  rcases hk : m.flags.pressed with _ | key
  · rw [h.machine_of_no_key hk]
    rfl
  · rw [h.machine_of_key hk]
    exact hwait

/-- **A successful press resolves a wait,** whatever the state of its key. -/
theorem resolves_of_pressedKey? (hwait : m.flags.isWaiting = true)
    (h : c.pressedKey? = some key) : m.Resolves c key := by
  obtain ⟨rfl, -⟩ := (HostCall.pressedKey?_eq_some_iff m).1 h
  have hn := onlyNotes_setKey m key true
  rw [h] at hn
  obtain ⟨-, -, hawaiting, hpressed⟩ := hn
  rw [Flags.note_of_waiting hwait] at hawaiting hpressed
  refine ⟨hwait, ?_, hpressed⟩
  show (m.setKey key true).machine.flags.awaiting.isSome = false
  rw [hawaiting]
  rfl

/-- **Nothing but a successful press or a reset ends a wait.** -/
theorem pressedKey?_or_reset_of_ended (hm : c.isMoment = true) (hw : c.assignsWait = false)
    (hwait : m.flags.isWaiting = true)
    (hended : (c.apply m).machine.flags.isWaiting = false) :
    (∃ key, c.pressedKey? = some key) ∨ c = .reset := by
  rcases passes_or_executes_or_reset (m := m) hm hw with hp | ⟨rfl, x, hx⟩ | rfl
  · rcases hkey : c.pressedKey? with _ | key
    · have hawaiting := hp.awaiting
      rw [hkey] at hawaiting
      have hstays : (c.apply m).machine.flags.isWaiting = m.flags.isWaiting :=
        congrArg Option.isSome hawaiting
      rw [hstays, hwait] at hended
      cases hended
    · exact .inl ⟨key, rfl⟩
  · have hstays : (HostCall.tick.apply m).machine.flags.isWaiting = true :=
      hx.isWaiting_awaitKey hwait
    rw [hstays] at hended
    cases hended
  · exact .inr rfl

/-- **The calls that resolve a wait are the presses that succeed.** -/
theorem resolves_iff (hm : c.isMoment = true) (hw : c.assignsWait = false)
    (hwait : m.flags.isWaiting = true) : m.Resolves c key ↔ c.pressedKey? = some key := by
  constructor
  · intro h
    obtain ⟨other, hother⟩ | rfl := pressedKey?_or_reset_of_ended hm hw hwait h.ended
    · have hkept := (resolves_of_pressedKey? hwait hother).kept
      obtain rfl : other = key := Option.some.inj (hkept.symm.trans h.kept)
      exact hother
    · have hnone : (HostCall.reset.apply m).machine.flags.pressed = none := rfl
      have hkept := h.kept
      rw [hnone] at hkept
      cases hkept
  · exact resolves_of_pressedKey? hwait

/-- A press answers whether its key was up. -/
theorem changed_eq_of_press {did : Bool}
    (h : ((HostCall.setKey key true).apply m).result = .ok (.changed did)) :
    did = !m.keypad.isHeld key := by
  have hkey : (HostCall.setKey key true).pressedKey? = some key :=
    (HostCall.pressedKey?_eq_some_iff m).2 ⟨rfl, did, h⟩
  have hanswer : ((HostCall.setKey key true).apply m).result =
      .ok (.changed (m.keypad.isHeld key != true)) :=
    congrArg (Except.map Reply.changed) (m.result_setKey (HostCall.pressedKey?_lt hkey))
  obtain rfl := Reply.changed.inj (Except.ok.inj (hanswer.symm.trans h))
  exact Bool.bne_true _

/-- The instruction that waits takes the key of the press that resolved the wait. -/
theorem Resolves.completes (h : m.Resolves c key) (hlt : key < 16) {x : Reg}
    (hi : (c.apply m).machine.instr? = some (.awaitKey x))
    (hrun : (c.apply m).machine.flags.paused = false) :
    (c.apply m).machine.Completes x ∧ ((c.apply m).machine.tick.machine.reg x).toNat = key := by
  have hx := executes_awaitKey hrun hi
  refine ⟨completes_iff.2 ⟨hx, key, h.kept⟩, ?_⟩
  rw [hx.machine_of_key h.kept]
  exact toNat_reg_setReg _ x hlt

/-- A register that waits does so since the last stall. -/
theorem InOrder.exists_waitSince_none {acts : List HostCall} {n x : Nat} (h : InOrder m acts n)
    (hx : (HostCall.stateAt m acts n).flags.awaiting = some x) :
    ∃ i y, y.val = x ∧ WaitSince m acts i n y none := by
  obtain hidle | ⟨i, y, _ | key, hsince⟩ := h
  · rw [hidle.awaiting] at hx
    cases hx
  · obtain ⟨hawaiting, -⟩ := hsince.flags
    exact ⟨i, y, Option.some.inj (hawaiting.symm.trans hx), hsince⟩
  · obtain ⟨hawaiting, -⟩ := hsince.flags
    rw [hawaiting] at hx
    cases hx

end Wait

/-- **A wait is resolved by every press that succeeds, held key or not.**  In a session
that leaves the flags of the wait alone, take a moment at which a register waits.  It
waits since the last execution of an instruction that waits, which stalled for it.  The
moment resolves the wait exactly if it is a press that succeeds, and that press answers
whether its key was up.  The instruction that waits then takes that key.  If the moment
ends the wait in another way, it is a reset. -/
theorem wait_resolved_by_every_press (random : Random) {calls : List HostCall}
    (hc : ∀ c ∈ calls, c.assignsWait = false) :
    let m := fresh random
    let acts := HostCall.timeline m calls
    ∀ n x c, acts[n]? = some c → (HostCall.stateAt m acts n).flags.awaiting = some x →
      let s := HostCall.stateAt m acts n
      let t := HostCall.stateAt m acts (n + 1)
      (∃ i y, i < n ∧ y.val = x ∧ TickAt m acts i (Stalls · y) ∧
        ∀ k z, i < k → k < n → ¬TickAt m acts k (Executes · (.awaitKey z))) ∧
      (∀ key, s.Resolves c key ↔
        c = .setKey key true ∧ ∃ did, (c.apply s).result = .ok (.changed did)) ∧
      (∀ key did, c = .setKey key true → (c.apply s).result = .ok (.changed did) →
        did = !s.keypad.isHeld key) ∧
      (∀ key y, s.Resolves c key → t.instr? = some (.awaitKey y) → t.flags.paused = false →
        t.Completes y ∧ (t.tick.machine.reg y).toNat = key) ∧
      (t.flags.isWaiting = false → c = .reset ∨ ∃ key, s.Resolves c key) := by
  intro m acts n x c hcall hx s t
  have hacts : ∀ d ∈ acts, d.isMoment = true ∧ d.assignsWait = false :=
    fun _ => HostCall.isMoment_of_mem_timeline hc
  have hn : n < acts.length := (List.getElem?_eq_some_iff.1 hcall).1
  obtain ⟨hm, hw⟩ := hacts c (List.mem_of_getElem? hcall)
  have hwait : s.flags.isWaiting = true := congrArg Option.isSome hx
  have hresolves (key : Nat) : s.Resolves c key ↔ c.pressedKey? = some key :=
    resolves_iff hm hw hwait
  have ht : t = (c.apply s).machine := HostCall.stateAt_succ_of_getElem? hcall
  refine ⟨?_, fun key => ?_, ?_, fun key y hkey hi hrun => ?_, fun hended => ?_⟩
  · obtain ⟨i, y, hy, hsince⟩ :=
      (inOrder_fresh random hacts (Nat.le_of_lt hn)).exists_waitSince_none hx
    exact ⟨i, y, hsince.lt, hy, hsince.stalled, hsince.last⟩
  · rw [hresolves, HostCall.pressedKey?_eq_some_iff s]
  · rintro key did rfl hok
    exact changed_eq_of_press hok
  · rw [ht] at hi hrun ⊢
    exact hkey.completes (HostCall.pressedKey?_lt ((hresolves key).1 hkey)) hi hrun
  · rw [ht] at hended
    obtain ⟨key, hkey⟩ | rfl := pressedKey?_or_reset_of_ended hm hw hwait hended
    · exact .inr ⟨key, (hresolves key).2 hkey⟩
    · exact .inl rfl

/-- A key is pressed and held before the program waits for one in register 3, and is
then pressed once more. -/
def pressHeldKey : List HostCall :=
  [.load [0xF3, 0x0A], .setKey 5 true, .tick, .setKey 5 true, .tick]

/-- The second press resolves the wait. -/
theorem wait_resolved_by_every_press_heldKey :
    let m := fresh (.ofSeed 8)
    let acts := HostCall.timeline m pressHeldKey
    (∀ c ∈ pressHeldKey, c.assignsWait = false) ∧ acts[3]? = some (.setKey 5 true) ∧
      (HostCall.stateAt m acts 3).flags.awaiting = some 3 ∧
      (HostCall.stateAt m acts 3).Resolves (.setKey 5 true) 5 ∧
      ((HostCall.stateAt m acts 4).tick.machine.reg 3).toNat = 5 := by
  intro m acts
  have hc : ∀ c ∈ pressHeldKey, c.assignsWait = false := by decide
  obtain ⟨-, hresolves, -, hcompletes, -⟩ :=
    wait_resolved_by_every_press (.ofSeed 8) hc 3 3 (.setKey 5 true) rfl (by decide +kernel)
  have hkey : (HostCall.stateAt m acts 3).Resolves (.setKey 5 true) 5 :=
    (hresolves 5).2 ((HostCall.pressedKey?_eq_some_iff _).1 rfl)
  exact ⟨hc, rfl, by decide +kernel, hkey,
    (hcompletes 5 3 hkey (by decide +kernel) (by decide +kernel)).2⟩

/-- **A wait can be resolved without a key going down:** a press that finds its key held
already, and answers so, resolves it. -/
theorem press_of_held_key_resolves :
    ¬∀ calls : List HostCall, (∀ c ∈ calls, c.assignsWait = false) → ∀ key : Nat,
      (HostCall.run (ofSeed 8) calls).Resolves (.setKey key true) key →
        ((HostCall.setKey key true).apply (HostCall.run (ofSeed 8) calls)).result =
          .ok (.changed true) := by
  intro h
  let calls : List HostCall := [.load [0xF3, 0x0A], .setKey 5 true, .tick]
  have hresolves : (HostCall.run (ofSeed 8) calls).Resolves (.setKey 5 true) 5 :=
    ⟨by decide +kernel, by decide +kernel, by decide +kernel⟩
  have hheld : (HostCall.run (ofSeed 8) calls).keypad.isHeld 5 = true := by decide +kernel
  have hchanged := changed_eq_of_press (h calls (by decide) 5 hresolves)
  rw [hheld] at hchanged
  cases hchanged

end Machine
end Chip8
