import RiscvMonitor.HartWalk
import RiscvMonitor.StopComplete

/-!
# What the state of a hart says

A hart in S-mode is a started one, to everyone who asks.  There is one way back into
S-mode for a hart that is not: one that is called off in the middle of a start or a
resume, because its domain is being stopped, and that was only visiting, goes back
to its caller's S-mode in whatever state it was.
-/

namespace RiscvMonitor.Lifecycle

open Sys

variable {x : Xlen}

def Pc.inside : Pc x → Bool
  | .smode | .trapExit | .stopSelf true | .switchTo _ | .yield _ | .bootLock _ _ _ _ .trapExit
  | .bootPlat _ .trapExit | .stopSection _ | .stopBarrier _ | .stopScan _ _ _ | .stopCheck _ _ _
  | .stopDone _ | .stopUnlock _ => true
  | _ => false

def Truthful (s : Sys x) : Prop := ∀ h, (s.pc h).inside = true → s.hsm h = .started

/-- A hart that is called off goes back to a caller only as a started one. -/
def ReturnsStarted (s : Sys x) (e : Nat × Act x) : Prop :=
  s.pc e.1 = .stopSelf false → s.callerWaits (s.domain e.1) e.1 = true → s.hsm e.1 = .started

instance (s : Sys x) (e : Nat × Act x) : Decidable (ReturnsStarted s e) :=
  inferInstanceAs (Decidable (_ → _ → _))

theorem init_truthful (home : Nat → Nat) (bootHart : Nat) :
    Truthful (init home bootHart : Sys x) := by
  intro h hin
  rcases init_pc home bootHart h with heq | heq <;> rw [heq] at hin <;> cases hin

section Steps

variable {cfg : Config x} {s t : Sys x} {h : Nat} {a : Act x} {p q : Pc x}

theorem Pc.inside_of_stops {d : Nat} (hp : p.stops = some d) : p.inside = true := by
  cases p <;> first | rfl | cases hp

theorem Cont.inside_pc {cont : Cont} (hin : (cont.pc : Pc x).inside = true) : cont = .trapExit := by
  cases cont with
  | trapExit => rfl
  | domainsStart => cases hin

theorem Goes.inside (hgo : Goes cfg s h a p q) (hin : q.inside = true) : p.inside = true := by
  cases hgo with
  | starts hpc =>
    rcases hpc with ⟨rfl, -, -⟩ | ⟨rfl, -, rfl⟩
    · rfl
    · cases hin
  | unasked =>
    rw [Cont.inside_pc hin]
    rfl
  | stopping hold => exact Pc.inside_of_stops hold
  | giveUp => cases hin
  | unlocks => rfl
  | _ => first | rfl | cases hin

theorem Sets.inside {hsm : HsmState} (hset : Sets cfg s h p hsm q) (hin : q.inside = true) :
    hsm = .started := by
  cases hset <;> first | rfl | cases hin

theorem Poked.started {i : Nat} {hart : Hart x} (hp : Poked s h i hart)
    (hhsm : s.hsm i = .started) : hart = s.hart i := by
  cases hp with
  | same => rfl
  | boot _ hstopped =>
    rw [hstopped] at hhsm
    cases hhsm
  | unboot _ hpending =>
    rw [hpending] at hhsm
    cases hhsm

theorem Departs.inside {d : Nat} (hway : Departs cfg s h a d) :
    (s.pc h).inside = true ∨
      (s.pc h = .stopSelf false ∧ s.callerWaits (s.domain h) h = true) := by
  cases hway with
  | enters hpc | switches hpc | chains hpc | yields hpc =>
    left
    rw [hpc]
    rfl
  | leaves hpc =>
    left
    rcases hpc with hpc | ⟨_, hpc⟩
    · rw [hpc]
      rfl
    · rw [hpc]
      rfl
  | @goesBack inCall hpc hcaller hcalling =>
    cases inCall with
    | true =>
      left
      rw [hpc]
      rfl
    | false => exact Or.inr ⟨hpc, callerWaits_iff.mpr ⟨_, hcaller, hcalling⟩⟩

theorem Truthful.walk {hart : Hart x} (ht : Truthful s) (hr : ReturnsStarted s (h, a))
    (hw : Walk cfg s h a hart) (hin : hart.pc.inside = true) : hart.hsm = .started := by
  cases hw with
  | goes hgo => exact ht h (hgo.inside hin)
  | sets hset => exact hset.inside hin
  | sleeps | boots => cases hin
  | @asked hart target _ _ _ cont hpc hpoked =>
    have hold : s.hsm h = .started := by
      apply ht h
      rw [hpc]
      cases cont with
      | trapExit => rfl
      | domainsStart => cases hin
    rw [hpoked.started hold]
    exact hold
  | @answered hart target cont hpc hpoked =>
    have hold : s.hsm h = .started := by
      apply ht h
      rw [hpc, Cont.inside_pc hin]
      rfl
    rw [hpoked.started hold]
    exact hold
  | moves hway _ hlands =>
    have hold : s.hsm h = .started := by
      rcases hway.inside with hold | ⟨hpc, hwaits⟩
      · exact ht h hold
      · exact hr hpc hwaits
    cases hlands with
    | runs => exact hold
    | stops => cases hin

theorem Truthful.step (hc : Contexts cfg s) (ht : Truthful s) (hr : ReturnsStarted s (h, a))
    (hstep : step cfg s h a = some t) : Truthful t := by
  have he := hc.step_effect hstep
  intro i hin
  by_cases hi : i = h
  · subst hi
    exact ht.walk hr (step_walk (hc.cur_not_calling i) hstep) hin
  · rw [he.pc_other hi] at hin
    have hold := ht i hin
    have hsame : t.hart i = s.hart i := (he.other hi).started hold
    exact (congrArg Hart.hsm hsame).trans hold

end Steps

/-- In every state of every run in which no hart is called off to a caller before
    it has started or resumed, a hart in S-mode is a started one. -/
theorem hsm_truthful (cfg : Config x) (home : Nat → Nat) (bootHart : Nat)
    (es : List (Nat × Act x)) (s : Sys x)
    (halong : Runs.Along (fun s e => step cfg s e.1 e.2) ReturnsStarted (init home bootHart) es)
    (hrun : run cfg (init home bootHart) es = some s) (h : Nat) (hpc : s.pc h = .smode) :
    s.hsm h = .started := by
  have hinv : Contexts cfg s ∧ Truthful s :=
    halong.invariant (I := fun s => Contexts cfg s ∧ Truthful s)
      (fun _ _ _ hi hr hstep => ⟨hi.1.step hstep, hi.2.step hi.1 hr hstep⟩)
      ⟨init_contexts cfg home bootHart, init_truthful home bootHart⟩ hrun
  apply hinv.2 h
  rw [hpc]
  rfl

/-- Hart 0 is called back from domain 2, which it ran, and is in S-mode again. -/
theorem hsm_truthful_relay :
    ∃ s, run relay (init relayHome 0) relayStop = some s ∧ s.pc 0 = .smode ∧ s.domain 0 = 1 ∧
      s.hsm 0 = .started := by
  have hview : ∃ s ∈ run relay (init relayHome 0) relayStop, s.pc 0 = .smode ∧ s.domain 0 = 1 := by
    decide +kernel
  obtain ⟨s, hs, hpc, hdomain⟩ := hview
  exact ⟨s, hs, hpc, hdomain,
    hsm_truthful relay relayHome 0 relayStop s (by decide +kernel) hs 0 hpc⟩

/-- Hart 0 visits domain 2 and suspends there, to resume at an address; hart 1 stops
    the domain, and hart 0 wakes up to that. -/
def relaySleeper : List (Nat × Act .rv64) :=
  relayBoot ++
    [(0, .call (.enter 2 0)), (0, .go), (0, .call (.hartSuspend false false 0x80200000 0)),
     (0, .platform true), (1, .call (.domainStop 2)), (1, .go), (0, .go), (0, .go), (0, .go)]

/-- It is in its caller's S-mode, and everyone takes it for suspended. -/
theorem hsm_untruthful :
    ∃ s, run relay (init relayHome 0) relaySleeper = some s ∧ s.pc 0 = .smode ∧
      s.domain 0 = 1 ∧ s.hsm 0 = .suspended :=
  Runs.exists_end (by decide +kernel)

end RiscvMonitor.Lifecycle
