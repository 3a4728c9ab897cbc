/-
# Machines that agree go on agreeing

Two machines agree if every part of them is the same but for the random generators
(`agrees`).  This is more than a comparison of what they show: nothing that a session
does afterwards tells them apart, as long as it draws no random number.  So every
part that an instruction or a call reads is among the parts that are compared, and
the generator is read by `random` and by nothing else (`blind_execute`,
`blind_apply`).

A session that does draw can tell machines with different generators apart.  If the
generators are the same, agreeing is being equal, and a session cannot tell anything.
-/

import Chip8.Proofs.Overlay

namespace Chip8
namespace Machine

/-- The machines are equal but for their random generators. -/
def SameButRandom (a b : Machine) : Prop := a.withRandom b.random = b

/-- Machines agree exactly if they are equal but for their random generators. -/
theorem agrees_iff_sameButRandom {a b : Machine} : a.agrees b = true ↔ a.SameButRandom b :=
  agrees_iff a b

/-- Of machines that are equal but for the generator each is the other with its generator
put in. -/
theorem SameButRandom.exists_withRandom {a b : Machine} (h : a.SameButRandom b) :
    ∃ random, b = a.withRandom random :=
  ⟨b.random, h.symm⟩

/-- A running machine that comes to `random` executes it. -/
theorem executes_random {m : Machine} {x : Reg} {mask : UInt8} (hp : m.flags.paused = false)
    (hi : m.instr? = some (.random x mask)) : m.Executes (.random x mask) :=
  executes_of_ok hp hi rfl

/-- **A cycle that draws nothing is the same whatever the random generator.**  The
instruction that draws cannot fail, so it would be executed. -/
theorem SameButRandom.step {a b : Machine} (h : a.SameButRandom b)
    (hp : a.flags.paused = false) (hx : ∀ i, a.Executes i → i.draws = false) :
    a.step.Matches everyRecord SameButRandom b.step := by
  rcases h.exists_withRandom with ⟨random, rfl⟩
  refine matches_step h rfl rfl (fun _ => rfl) fun i hi => ?_
  have hdraws : i.draws = false := by
    rw [Instr.draws_eq_false_iff]
    rintro x mask rfl
    cases hx _ (executes_random hp hi)
  refine matches_perform ?_ ?_ ?_
  · show (a.advance.execute i).Matches _ _ ((a.advance.withRandom random).execute i)
    rw [(a.advance.blind_execute hdraws).apply_withRandom]
    exact ⟨rfl, rfl, rfl⟩
  · intro c d hcd
    rcases hcd.exists_withRandom with ⟨_, rfl⟩
    rfl
  · intro c d hcd
    rcases hcd.exists_withRandom with ⟨_, rfl⟩
    rfl

/-- **Machines that agree run in lockstep as long as they draw nothing.** -/
theorem SameButRandom.lockstep :
    LockstepWhile everyRecord (fun i => i.draws = false) SameButRandom where
  paused := by
    intro a b h
    rcases h.exists_withRandom with ⟨random, rfl⟩
    rfl
  step := SameButRandom.step
  host := by
    intro a b h c hc
    rcases h.exists_withRandom with ⟨random, rfl⟩
    rw [(a.blind_apply hc).apply_withRandom]
    exact ⟨rfl, rfl, rfl⟩

/-- **Agreement is a congruence.**  Let two machines agree.  In a session that executes
no `random`, every call has the same result on both, and they agree after it.  If the
random generators are the same, this holds in every session, and the generators are
the same after every call. -/
theorem agrees_congruence {a b : Machine} (h : a.agrees b = true) (calls : List HostCall) :
    ((∀ x mask, .random x mask ∉ HostCall.executed a (HostCall.timeline a calls)) →
      ∀ k (hk : k < calls.length),
        (calls[k].apply (HostCall.stateAt a calls k)).result =
            (calls[k].apply (HostCall.stateAt b calls k)).result ∧
          (HostCall.stateAt a calls (k + 1)).agrees (HostCall.stateAt b calls (k + 1)) = true) ∧
      (a.random = b.random → ∀ k (hk : k < calls.length),
        (calls[k].apply (HostCall.stateAt a calls k)).result =
            (calls[k].apply (HostCall.stateAt b calls k)).result ∧
          (HostCall.stateAt a calls (k + 1)).agrees (HostCall.stateAt b calls (k + 1)) = true ∧
          (HostCall.stateAt a calls (k + 1)).random =
            (HostCall.stateAt b calls (k + 1)).random) := by
  have hab : a.SameButRandom b := agrees_iff_sameButRandom.1 h
  constructor
  · intro hno k hk
    have hdraws (i : Instr) (hi : i ∈ HostCall.executed a (HostCall.timeline a calls)) :
        i.draws = false := by
      rw [Instr.draws_eq_false_iff]
      rintro x mask rfl
      exact hno x mask hi
    have hcall := SameButRandom.lockstep.session hab hdraws hk
    refine ⟨hcall.result, ?_⟩
    rw [HostCall.stateAt_succ a calls hk, HostCall.stateAt_succ b calls hk]
    exact agrees_iff_sameButRandom.2 hcall.machine
  · intro hrandom k hk
    have heq : a = b := by
      rw [← show a.withRandom b.random = b from hab, ← hrandom]
      rfl
    rw [heq]
    exact ⟨rfl, agrees_refl _, rfl⟩

/-- A program that skips a `random` and waits for a key runs alike with another seed.
One that draws does not, unless the generator is the same. -/
theorem agrees_congruence_otherSeed :
    let a := ofSeed 8
    let b := ofSeed 9
    let quiet : List HostCall :=
      [.load [0x60, 0x05, 0x30, 0x05, 0xC1, 0xFF, 0xF2, 0x0A], .multistep 3, .setKey 7 true,
        .frame 1]
    let drawing : List HostCall := [.load [0xC1, 0xFF], .tick]
    a.agrees b = true ∧
      (HostCall.stateAt a quiet 4).agrees (HostCall.stateAt b quiet 4) = true ∧
      (HostCall.stateAt a drawing 2).reg 1 ≠ (HostCall.stateAt b drawing 2).reg 1 ∧
      (HostCall.stateAt a drawing 2).agrees (HostCall.stateAt (b.withRandom a.random) drawing 2) =
        true := by
  intro a b quiet drawing
  have hab : a.agrees b = true := (agrees_iff a b).2 rfl
  have hsame : a.agrees (b.withRandom a.random) = true := (agrees_iff a _).2 rfl
  have hquiet : ∀ i ∈ HostCall.executed a (HostCall.timeline a quiet), i.draws = false := by
    decide +kernel
  have hno (x : Reg) (mask : UInt8) :
      .random x mask ∉ HostCall.executed a (HostCall.timeline a quiet) :=
    fun hmem => Bool.noConfusion (hquiet _ hmem)
  refine ⟨hab, ?_, by decide +kernel, ?_⟩
  · exact ((agrees_congruence hab quiet).1 hno 3 (by decide)).2
  · exact ((agrees_congruence hsame drawing).2 rfl 1 (by decide)).2.1

end Machine
end Chip8
