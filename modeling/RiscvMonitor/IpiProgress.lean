import RiscvMonitor.IpiAtoms

/-!
# How far a call has got with a hart

For a hart that it names, a `send_ipi` call reads the assigned bit, posts the event
if the hart is there, and looks for it among the parked harts if it is not.  In
between it rests on what it has read.
-/

namespace RiscvMonitor.Delivery

open Lifecycle (CtxState)
open Sys

variable {x : Xlen}

inductive Progress where
  | out
  | unread
  | held
  /-- Not in the mask, to be looked for among the parked. -/
  | skipped
  | passed
  | locking
  /-- The event is posted and the interrupt is not raised yet. -/
  | between
  | settled
deriving DecidableEq

/-- The legacy calls do not look for parked harts. -/
def Request.missed (rq : Request x) : Progress := if rq.legacy then .passed else .skipped

/-- The progress `p` with hart `h`, if the call is for an IPI and names it. -/
def Request.tell (rq : Request x) (h : Nat) (p : Progress) : Progress :=
  if rq.fence = none ∧ rq.names h = true then p else .out

def Pc.progress (pc : Pc x) (h : Nat) : Progress :=
  match pc with
  | .readAssigned rq i running =>
    rq.tell h (if h ∈ running then .held else if i ≤ h then .unread else rq.missed)
  | .readState rq i running =>
    rq.tell h (if h ∈ running ∨ h = i then .held else if i < h then .unread else rq.missed)
  | .check rq _ running | .checkParked rq _ _ running =>
    rq.tell h (if h ∈ running then .held else rq.missed)
  | .post rq targets rest =>
    rq.tell h (if h ∈ rest then .held else if h ∈ targets then .settled else rq.missed)
  | .raise rq targets i rest =>
    rq.tell h (if h ∈ rest then .held else if h = i then .between
      else if h ∈ targets then .settled else rq.missed)
  | .parkedAny rq targets i =>
    rq.tell h (if h ∈ targets then .settled else if i ≤ h then .skipped else .passed)
  | .parkedScan rq targets i =>
    rq.tell h (if h ∈ targets then .settled else if i ≤ h then .skipped else .settled)
  | .parkedLock rq targets i =>
    rq.tell h (if h ∈ targets then .settled else if i < h then .skipped
      else if h = i then .locking else .settled)
  | .parkedRaise rq targets i =>
    rq.tell h (if h ∈ targets then .settled else if i < h then .skipped
      else if h = i then .between else .settled)
  | .ret .success rq => rq.tell h .settled
  | _ => .out

def Ret.fences : Ret x → Option (Request x)
  | .enqueue rq _ _ | .await rq => some rq
  | .smode | .asleep => none

def Serve.fences : Serve x → Option (Request x)
  | .ipi _ ret => ret.fences
  | .await rq => some rq

def Pc.fences : Pc x → Option (Request x)
  | .enqueue rq _ _ | .fenceOr rq _ _ _ _ | .fenceRaise rq _ _ _ _ | .fenceSelf rq | .await rq =>
    some rq
  | .ipiClear after | .ipiSwap after => after.fences
  | .serve site | .fencing _ site => site.fences
  | _ => none

/-- What has to be so at each point, for the call to reach hart `h` in domain `d`. -/
def Owes (s : Sys x) (d h : Nat) : Progress → Prop
  | .out => True
  | .unread => (s.ctx d h).state ≠ .none ∨ s.pc h = .arrive d
  | .held => Stays s d h
  | .skipped => s.parked d h = true
  | .passed => False
  | .locking => (s.ctx d h).state ≠ .none
  | .between => Stays s d h ∧ Sent s h
  | .settled => Due s d h

/-- A hart is not in the course of leaving, or just coming back, when its assigned bit
    is read, nor half way into or out of a suspend when its state is; it does not leave
    with an event pending or on its way, nor come back between the two scans.  The
    legacy calls do not find a hart that is parked. -/
def KeepsIpis (cfg : Config) (s : Sys x) (h : Nat) : Prop :=
  match s.pc h with
  | .readAssigned rq i _ =>
    rq.fence = none → rq.names i = true →
      if s.assigned (s.domain h) i = true then (s.pc i).leaving = false
      else s.pc i ≠ .assign (s.domain h) ∧
        (rq.legacy = true → s.parked (s.domain h) i = false)
  | .readState rq i _ =>
    rq.fence = none → rq.names i = true →
      s.hsm i = .started ∨ s.hsm i = .suspended ∨ s.hsm i = .stopped
  | .switchLock _ _ =>
    (s.hart h).smode = false ∧
      ∀ g < cfg.harts, s.domain g = s.domain h → (s.pc g).progress h ≠ .held
  | .unpark target =>
    ∀ g < cfg.harts, s.domain g = target → (s.pc g).progress h ≠ .skipped
  | _ => True

instance (cfg : Config) (s : Sys x) (h : Nat) : Decidable (KeepsIpis cfg s h) := by
  unfold KeepsIpis
  induction s.pc h using Pc.casesOn <;> infer_instance

variable {p q : Progress} {pc : Pc x} {rq : Request x} {running targets : List Nat} {n : Nat}

section Steps

variable {cfg : Config} {s t : Sys x} {h i d : Nat} {a : Act x}

/-! ### Steps of others -/

theorem HartMasks.delivers_here (hm : HartMasks s h) (hs : Stays s d h)
    (hd : s.delivers h = some (s.domain h)) : s.delivers h = some d := by
  have hswitching : (s.pc h).switching = none := by
    have hleaving := hs.2
    unfold Sys.delivers at hd
    cases hpc : s.pc h with
    | restore => rw [hpc] at hleaving; cases hleaving
    | unpark | assign | arrive => simp only [hpc, reduceCtorEq] at hd
    | _ => rfl
  rw [hd, (hm.stays_iff hswitching).mp hs]

/-- What a call rests on is kept, or the interrupt is there, unless the hart leaves
    with an event pending or on its way, or comes back before it is found. -/
theorem Owes.effect (he : Effect cfg s h a t) (hm : Masks s) (ho : Owes s d i p)
    (hpark : i = h → ∀ target state, s.pc h = .switchLock target state →
      (s.hart h).smode = false ∧ (s.domain h = d → p ≠ .held))
    (hunpark : i = h → s.pc h = .unpark d → p ≠ .skipped) :
    Owes t d i p ∨ (i = h ∧ s.delivers h = some d) := by
  have hstays : Stays s d i → (Sent s i ∨ p = .held) → Stays t d i := by
    intro hs hwhy
    by_cases hlock : i = h ∧ ∃ target state, s.pc h = .switchLock target state
    · obtain ⟨rfl, target, state, hpc⟩ := hlock
      obtain ⟨hsmode, hheld⟩ := hpark rfl target state hpc
      rcases hwhy with (hsent | hserving) | hp
      · rw [hsmode] at hsent
        cases hsent
      · rw [hpc] at hserving
        cases hserving
      · exact absurd hp (hheld (((hm.hart i).stays_iff (by rw [hpc]; rfl)).mp hs))
    · refine he.stays hs ?_
      by_cases hi : i = h
      · exact .inr fun target state hpc => hlock ⟨hi, target, state, hpc⟩
      · exact .inl hi
  have hhere : Stays s d i → i = h ∧ s.delivers h = some (s.domain h) →
      i = h ∧ s.delivers h = some d := by
    rintro hs ⟨rfl, hd⟩
    exact ⟨rfl, (hm.hart i).delivers_here hs hd⟩
  cases p with
  | out => exact .inl trivial
  | passed => exact ho.elim
  | held => exact .inl (hstays ho (.inr rfl))
  | locking => exact .inl (he.ran_mono (hm.hart h) ho)
  | skipped =>
    refine .inl (he.parked_mono ho ?_)
    by_cases hi : i = h
    · exact .inr fun hpc => hunpark hi hpc rfl
    · exact .inl hi
  | unread =>
    refine .inl ?_
    rcases ho with hran | harrive
    · exact .inl (he.ran_mono (hm.hart h) hran)
    · by_cases hi : i = h
      · subst hi
        refine .inl ?_
        cases he with
        | arrive hpc =>
          cases hpc.symm.trans harrive
          simp [contextArrive, Lifecycle.update_update_apply]
        | move hmove =>
          have hplain := hmove.plain.1
          rw [harrive] at hplain
          cases hplain
        | run hpc | suspend hpc | platform hpc | woken hpc | resumed hpc | post hpc | raise hpc
        | parkedPost hpc | parkedKeep hpc | parkedRaise hpc | enqueue hpc | fenceOr hpc
        | fenceRaise hpc | ipiClear hpc | ipiFences hpc | ipiSmode hpc | pop hpc | served hpc
        | fencing hpc | park hpc | restore hpc | unpark hpc | assign hpc =>
          cases hpc.symm.trans harrive
      · exact .inr ((he.pc_other hi).trans harrive)
  | between =>
    rcases he.sent ho.2 with hsent | hd
    · exact .inl ⟨hstays ho.1 (.inl ho.2), hsent⟩
    · exact .inr (hhere ho.1 hd)
  | settled =>
    rcases ho with ⟨hs, hr⟩ | hk
    · rcases he.raised hr with hraised | hd
      · exact .inl (.inl ⟨hstays hs (.inl (hr.imp_left And.left)), hraised⟩)
      · exact .inr (hhere hs hd)
    · exact (he.marked hm hk).imp_left .inr

/-! ### The lists of a call -/

/-- The targets of a call for an IPI are named, and it is such a call that looks for parked
    harts. -/
def Pc.Sends : Pc x → Prop
  | .post rq targets rest =>
    (rq.fence = none ∧ ∀ i ∈ targets, rq.names i = true) ∧ ∀ i ∈ rest, i ∈ targets
  | .raise rq targets i rest =>
    (rq.fence = none ∧ ∀ i ∈ targets, rq.names i = true) ∧ i ∈ targets ∧ ∀ j ∈ rest, j ∈ targets
  | .parkedAny rq _ _ | .parkedScan rq _ _ | .parkedLock rq _ _ | .parkedRaise rq _ _ =>
    rq.fence = none
  | _ => True

theorem send_sends (cfg : Config) (rq : Request x) (running : List Nat) :
    (send cfg rq running).Sends := by
  unfold send
  dsimp only
  split
  · next hf => exact ⟨⟨hf, fun i hi => (List.mem_filter.mp hi).2⟩, fun _ hi => hi⟩
  · split <;> trivial

theorem Moves.sends (hmove : Moves cfg s h a pc) (hs : (s.pc h).Sends) : pc.Sends := by
  cases hmove with
  | call =>
    unfold ecall
    split <;> trivial
  | readAssigned =>
    unfold Delivery.readAssigned
    split
    · split <;> trivial
    · split
      · exact send_sends ..
      · split
        · exact send_sends ..
        · trivial
  | check =>
    unfold Delivery.check
    split
    · exact send_sends ..
    · trivial
    · split
      · trivial
      · split <;> trivial
  | parkedAny hpc =>
    rw [hpc] at hs
    unfold Delivery.parkedAny
    split
    · split <;> exact hs
    · trivial
  | parkedScan hpc =>
    rw [hpc] at hs
    unfold Delivery.parkedScan
    split
    · split <;> exact hs
    · trivial
  | parkedGone hpc =>
    rw [hpc] at hs
    exact hs
  | posted hpc =>
    rw [hpc] at hs
    split
    · trivial
    · exact hs.1.1
  | postNone hpc =>
    rw [hpc] at hs
    exact ⟨hs.1, fun i hi => hs.2 i (List.mem_cons_of_mem _ hi)⟩
  | @ipiNone ret => cases ret <;> trivial
  | checkParked | enqueued | fenceNone | await => split <;> trivial
  | trap | switch | readState | enqueueSelf | enqueueFull | fenceSelf | ret | served
  | asleepTrap | wake => trivial

theorem Effect.sends (he : Effect cfg s h a t) (hs : (s.pc h).Sends) : (t.pc h).Sends := by
  cases he with
  | move hmove =>
    rw [goto_pc_self]
    exact hmove.sends hs
  | post hpc =>
    rw [goto_pc_self]
    rw [hpc] at hs
    exact ⟨hs.1, hs.2 _ List.mem_cons_self, fun j hj => hs.2 j (List.mem_cons_of_mem _ hj)⟩
  | raise hpc =>
    rw [goto_pc_self]
    rw [hpc] at hs
    exact ⟨hs.1, hs.2.2⟩
  | run =>
    rw [Sys.pc, setHart_hart_self]
    exact hs
  | @ipiSmode ret | @served _ ret =>
    rw [Sys.pc, setHart_hart_self]
    cases ret <;> trivial
  | @platform ok =>
    rw [Sys.pc, setHart_hart_self]
    cases ok <;> trivial
  | suspend | woken | resumed | ipiClear | ipiFences | pop | enqueue | restore | arrive =>
    simp only [Sys.pc, contextRestore, contextArrive, setHart_hart_self, Pc.Sends]
  | fenceRaise =>
    rw [goto_pc_self]
    split <;> trivial
  | parkedPost hpc | parkedKeep hpc | parkedRaise hpc =>
    rw [goto_pc_self]
    rw [hpc] at hs
    exact hs
  | fenceOr | fencing | park | unpark | assign =>
    simp only [contextPark, Delivery.fencing, goto_pc_self, Pc.Sends]

theorem Ret.pc_fences (ret : Ret x) : ret.pc.fences = ret.fences := by
  cases ret <;> rfl

theorem send_fences {rq' : Request x} (hf : (send cfg rq running).fences = some rq') :
    rq'.fence ≠ none := by
  unfold send at hf
  dsimp only at hf
  split at hf
  · cases hf
  · next hfence =>
    split at hf
    · cases hf
    · cases hf
      rw [hfence]
      nofun

theorem Moves.fences (hmove : Moves cfg s h a pc)
    (hs : ∀ rq, (s.pc h).fences = some rq → rq.fence ≠ none) (hf : pc.fences = some rq) :
    rq.fence ≠ none := by
  cases hmove with
  | call =>
    unfold ecall at hf
    split at hf <;> cases hf
  | readAssigned =>
    unfold Delivery.readAssigned at hf
    split at hf
    · split at hf <;> cases hf
    · split at hf
      · exact send_fences hf
      · split at hf
        · exact send_fences hf
        · cases hf
  | check =>
    unfold Delivery.check at hf
    split at hf
    · exact send_fences hf
    · cases hf
    · split at hf
      · cases hf
      · split at hf <;> cases hf
  | parkedAny =>
    unfold Delivery.parkedAny at hf
    split at hf
    · split at hf <;> cases hf
    · cases hf
  | parkedScan =>
    unfold Delivery.parkedScan at hf
    split at hf
    · split at hf <;> cases hf
    · cases hf
  | checkParked | posted => split at hf <;> cases hf
  | ipiNone hpc =>
    refine hs rq ?_
    rw [hpc]
    exact (Ret.pc_fences _).symm.trans hf
  | enqueued hpc | fenceNone hpc =>
    refine hs rq ?_
    rw [hpc]
    split at hf <;> exact hf
  | await hpc =>
    split at hf
    · cases hf
    · refine hs rq ?_
      rw [hpc]
      exact hf
  | enqueueSelf hpc | enqueueFull hpc | fenceSelf hpc | served hpc =>
    refine hs rq ?_
    rw [hpc]
    exact hf
  | trap | switch | readState | postNone | parkedGone | ret | asleepTrap | wake => cases hf

theorem Effect.fences (he : Effect cfg s h a t)
    (hs : ∀ rq, (s.pc h).fences = some rq → rq.fence ≠ none) (hf : (t.pc h).fences = some rq) :
    rq.fence ≠ none := by
  cases he with
  | move hmove =>
    rw [goto_pc_self] at hf
    exact hmove.fences hs hf
  | run =>
    rw [Sys.pc, setHart_hart_self] at hf
    exact hs rq hf
  | ipiSmode hpc | served hpc =>
    rw [Sys.pc, setHart_hart_self, Ret.pc_fences] at hf
    exact hs rq (by rw [hpc]; exact hf)
  | ipiClear hpc | ipiFences hpc | pop hpc | enqueue hpc =>
    rw [Sys.pc, setHart_hart_self] at hf
    exact hs rq (by rw [hpc]; exact hf)
  | fenceOr hpc =>
    rw [goto_pc_self] at hf
    exact hs rq (by rw [hpc]; exact hf)
  | fencing hpc =>
    rw [Delivery.fencing, goto_pc_self] at hf
    exact hs rq (by rw [hpc]; exact hf)
  | fenceRaise hpc =>
    rw [goto_pc_self] at hf
    refine hs rq ?_
    rw [hpc]
    split at hf <;> exact hf
  | @platform ok =>
    rw [Sys.pc, setHart_hart_self] at hf
    cases ok <;> cases hf
  | suspend | woken | resumed | restore | arrive =>
    simp [Sys.pc, contextRestore, contextArrive, Pc.fences] at hf
  | post | raise | parkedPost | parkedKeep | parkedRaise | park | unpark | assign =>
    simp [contextPark, Pc.fences] at hf

/-! ### Steps of the call -/

inductive Advance (cfg : Config) (s : Sys x) (d i : Nat) : Progress → Progress → Prop
  | refl (p : Progress) : Advance cfg s d i p p
  | drop (p : Progress) : Advance cfg s d i p .out
  | read (hs : Stays s d i) : Advance cfg s d i .unread .held
  | skip {rq : Request x} (hnot : s.assigned d i = false)
      (hcoming : s.pc i ≠ .assign d) (hlegacy : rq.legacy = true → s.parked d i = false) :
      Advance cfg s d i .unread rq.missed
  | stopped {q : Progress} (hstopped : s.hsm i = .stopped) (hq : q ≠ .held) :
      Advance cfg s d i .held q
  | beyond {p q : Progress} (hi : i < cfg.harts → cfg.present i = false) (hq : q ≠ .held) :
      Advance cfg s d i p q
  | passed {q : Progress} (hq : q ≠ .held) : Advance cfg s d i .passed q
  | unparked {q : Progress} (hp : s.parked d i = false) (hq : q ≠ .held) :
      Advance cfg s d i .skipped q
  | lock (hp : s.parked d i = true) : Advance cfg s d i .skipped .locking
  | gone {q : Progress} (hnone : (s.ctx d i).state = .none) (hq : q ≠ .held) :
      Advance cfg s d i .locking q

theorem Request.missed_ne_held (rq : Request x) : rq.missed ≠ .held := by
  unfold Request.missed
  split <;> nofun

theorem Advance.tell (ha : rq.fence = none → rq.names i = true → Advance cfg s d i p q) :
    Advance cfg s d i (rq.tell i p) (rq.tell i q) := by
  unfold Request.tell
  split
  · next hrq => exact ha hrq.1 hrq.2
  · exact .refl _

theorem Advance.unless {c : Prop} [Decidable c] {r : Progress} (ha : ¬ c → Advance cfg s d i p q) :
    Advance cfg s d i (if c then r else p) (if c then r else q) := by
  by_cases hc : c
  · rw [if_pos hc, if_pos hc]
    exact .refl _
  · rw [if_neg hc, if_neg hc]
    exact ha hc

theorem post_held_iff {rest : List Nat} :
    (Pc.post rq targets rest).progress i = .held ↔
      (rq.fence = none ∧ rq.names i = true) ∧ i ∈ rest := by
  have hmissed := rq.missed_ne_held
  simp only [Pc.progress, Request.tell]
  split_ifs <;> simp_all

theorem raise_held_iff {rest : List Nat} {j : Nat} :
    (Pc.raise rq targets j rest).progress i = .held ↔
      (rq.fence = none ∧ rq.names i = true) ∧ i ∈ rest := by
  have hmissed := rq.missed_ne_held
  simp only [Pc.progress, Request.tell]
  split_ifs <;> simp_all

theorem Advance.held (ha : Advance cfg s d i p .held) (hs : p = .held → Stays s d i) :
    Stays s d i := by
  generalize hq : Progress.held = q at ha
  cases ha with
  | refl => exact hs hq.symm
  | drop => cases hq
  | read hstays => exact hstays
  | skip => exact absurd hq.symm (Request.missed_ne_held _)
  | stopped _ hne | beyond _ hne | passed hne | unparked _ hne | gone _ hne =>
    exact absurd hq.symm hne
  | lock => cases hq

theorem HartMasks.parked_of_ran (hm : HartMasks s i) (hran : (s.ctx d i).state ≠ .none)
    (hnot : s.assigned d i = false) (hcoming : s.pc i ≠ .assign d) : s.parked d i = true := by
  have hto : (s.pc i).assignedTo (s.domain i) ≠ some d := by
    rw [ne_eq, ← hm.assigned, hnot]
    nofun
  rw [hm.parked]
  refine ⟨?_, ?_⟩
  · by_contra hk
    obtain ⟨hd, hs⟩ := hm.running d (CtxState.running_of_not_kept hran hk)
    refine hto ?_
    cases hpc : s.pc i with
    | restore | unpark | assign | arrive => rw [hpc] at hs; cases hs
    | _ => exact congrArg some hd
  · intro hc
    cases hpc : s.pc i with
    | assign target =>
      rw [hpc] at hc
      exact hcoming (hpc.trans (congrArg _ (Option.some.inj hc)))
    | arrive target =>
      rw [hpc] at hc hto
      exact hto hc
    | _ => rw [hpc] at hc; cases hc

theorem Advance.owes (ha : Advance cfg s d i p q) (hm : HartMasks s i) (hi : i < cfg.harts)
    (hpresent : cfg.present i = true) (hup : s.pc i ≠ .stopped) (ho : Owes s d i p) :
    Owes s d i q := by
  cases ha with
  | refl => exact ho
  | drop => trivial
  | read hs => exact hs
  | @skip rq hnot hcoming hlegacy =>
    have hran : (s.ctx d i).state ≠ .none := by
      refine ho.resolve_right fun harrive => ?_
      have hto := (hm.assigned d).mpr (by rw [harrive]; rfl)
      rw [hnot] at hto
      cases hto
    have hparked := hm.parked_of_ran hran hnot hcoming
    unfold Request.missed
    split
    · next hl =>
      rw [hlegacy hl] at hparked
      cases hparked
    · exact hparked
  | stopped hstopped => exact absurd (hm.stopped.mp hstopped) hup
  | beyond habsent =>
    rw [habsent hi] at hpresent
    cases hpresent
  | passed => exact ho.elim
  | unparked hp =>
    have hparked : s.parked d i = true := ho
    rw [hp] at hparked
    cases hparked
  | lock hp => exact ((hm.parked d).mp hp).1.ne_none
  | gone hnone => exact absurd hnone ho

theorem send_progress (cfg : Config) (rq : Request x) (running : List Nat) (i : Nat) :
    (send cfg rq running).progress i = rq.tell i (if i ∈ running then .held else rq.missed) := by
  unfold send Request.tell
  dsimp only
  cases hf : rq.fence with
  | some req =>
    simp only [reduceCtorEq, false_and, if_false]
    split <;> rfl
  | none =>
    simp only [Pc.progress, Request.tell, hf, true_and]
    by_cases hn : rq.names i = true
    · by_cases hr : i ∈ running <;> simp [hn, hr, List.mem_filter]
    · simp [hn]

theorem Advance.complete (hn : cfg.harts ≤ n) :
    Advance cfg s d i
      (rq.tell i (if i ∈ running then .held else if n ≤ i then .unread else rq.missed))
      (rq.tell i (if i ∈ running then .held else rq.missed)) := by
  refine .tell fun _ _ => ?_
  by_cases hr : i ∈ running
  · rw [if_pos hr, if_pos hr]
    exact .refl _
  · rw [if_neg hr, if_neg hr]
    split
    · next hle =>
      exact .beyond (fun hi => absurd hi (Nat.not_lt.mpr (hn.trans hle))) rq.missed_ne_held
    · exact .refl _

theorem readAssigned_advance (hpc : s.pc h = .readAssigned rq n running) (hk : KeepsIpis cfg s h) :
    Advance cfg s (s.domain h) i ((s.pc h).progress i)
      ((readAssigned cfg s h rq n running).progress i) := by
  simp only [KeepsIpis, hpc] at hk
  rw [hpc]
  unfold readAssigned
  split
  · split
    · next hread =>
      refine .tell fun hf hnames => ?_
      by_cases hr : i ∈ running
      · rw [if_pos hr, if_pos (.inl hr)]
        exact .refl _
      · rw [if_neg hr]
        by_cases hi : i = n
        · subst hi
          specialize hk hf hnames
          rw [if_pos hread.2] at hk
          rw [if_pos le_rfl, if_pos (.inr rfl)]
          exact .read ⟨hread.2, hk⟩
        · rw [if_neg (not_or.mpr ⟨hr, hi⟩)]
          simp only [show n ≤ i ↔ n < i by omega]
          exact .refl _
    · next hread =>
      refine .tell fun hf hnames => ?_
      by_cases hr : i ∈ running
      · rw [if_pos hr, if_pos hr]
        exact .refl _
      · rw [if_neg hr, if_neg hr]
        by_cases hi : i = n
        · subst hi
          specialize hk hf hnames
          rw [if_pos le_rfl, if_neg (Nat.not_succ_le_self i)]
          by_cases ha : s.assigned (s.domain h) i = true
          · refine .beyond (fun _ => ?_) rq.missed_ne_held
            exact Bool.not_eq_true _ ▸ fun hp => hread ⟨hp, ha⟩
          · rw [if_neg ha] at hk
            exact .skip (Bool.not_eq_true _ ▸ ha) hk.1 hk.2
        · simp only [show n ≤ i ↔ n + 1 ≤ i by omega]
          exact .refl _
  · next hn =>
    have hcomplete : Advance cfg s (s.domain h) i ((Pc.readAssigned rq n running).progress i)
        ((Pc.check rq [] running).progress i) := .complete (Nat.not_lt.mp hn)
    split
    · rw [send_progress]
      exact hcomplete
    · split
      · rw [send_progress]
        exact hcomplete
      · exact hcomplete

theorem readState_advance (hpc : s.pc h = .readState rq n running) (hk : KeepsIpis cfg s h) :
    Advance cfg s d i ((s.pc h).progress i) ((readState s rq n running).progress i) := by
  simp only [KeepsIpis, hpc] at hk
  rw [hpc]
  unfold readState
  refine .tell fun hf hnames => ?_
  by_cases hi : i = n
  · subst hi
    rw [if_pos (.inr rfl)]
    split
    · rw [if_pos (List.mem_append_right _ (List.mem_singleton_self i))]
      exact .refl _
    · next hstate =>
      obtain ⟨hstarted, hsuspended⟩ := not_or.mp hstate
      split
      · exact .refl _
      · rw [if_neg (Nat.not_succ_le_self i)]
        exact .stopped (((hk hf hnames).resolve_left hstarted).resolve_left hsuspended)
          rq.missed_ne_held
  · have hmem : (i ∈ if s.hsm n = .started ∨ s.hsm n = .suspended then running ++ [n] else running) ↔
        i ∈ running ∨ i = n := by
      split <;> simp [hi]
    simp only [hmem, show n < i ↔ n + 1 ≤ i from Iff.rfl]
    exact .refl _

theorem check_advance {rest : List (Option Nat)} (hpc : s.pc h = .check rq rest running) :
    Advance cfg s d i ((s.pc h).progress i) ((check cfg s h rq rest running).progress i) := by
  rw [hpc]
  unfold check
  split
  · rw [send_progress]
    exact .refl _
  · exact .drop _
  · split
    · exact .drop _
    · split
      · exact .refl _
      · exact .refl _

theorem parkedAny_advance (hpc : s.pc h = .parkedAny rq targets n) :
    Advance cfg s (s.domain h) i ((s.pc h).progress i)
      ((parkedAny cfg s h rq targets n).progress i) := by
  rw [hpc]
  unfold parkedAny
  split
  · split
    · refine .tell fun _ _ => .unless fun _ => ?_
      rw [if_pos (Nat.zero_le i)]
      split
      · exact .refl _
      · exact .passed nofun
    · next hp =>
      refine .tell fun _ _ => .unless fun _ => ?_
      by_cases hi : i = n
      · subst hi
        rw [if_pos le_rfl, if_neg (Nat.not_succ_le_self i)]
        exact .unparked (Bool.not_eq_true _ ▸ hp) nofun
      · simp only [show n ≤ i ↔ n + 1 ≤ i by omega]
        exact .refl _
  · next hn =>
    refine .tell fun _ _ => ?_
    split
    · exact .refl _
    · split
      · next hle => exact .beyond (fun hi => absurd (hle.trans_lt hi) hn) nofun
      · exact .passed nofun

theorem parkedScan_advance (hpc : s.pc h = .parkedScan rq targets n) :
    Advance cfg s (s.domain h) i ((s.pc h).progress i)
      ((parkedScan cfg s h rq targets n).progress i) := by
  rw [hpc]
  unfold parkedScan
  split
  · split
    · next hp =>
      refine .tell fun _ _ => .unless fun _ => ?_
      by_cases hi : i = n
      · subst hi
        rw [if_pos le_rfl, if_neg (Nat.lt_irrefl i), if_pos rfl]
        exact .lock hp.1
      · simp only [show n ≤ i ↔ n < i by omega, if_neg hi]
        exact .refl _
    · next hp =>
      refine .tell fun _ hnames => .unless fun _ => ?_
      by_cases hi : i = n
      · subst hi
        rw [if_pos le_rfl, if_neg (Nat.not_succ_le_self i)]
        exact .unparked (Bool.not_eq_true _ ▸ fun hparked => hp ⟨hparked, hnames⟩) nofun
      · simp only [show n ≤ i ↔ n + 1 ≤ i by omega]
        exact .refl _
  · next hn =>
    refine .tell fun _ _ => ?_
    split
    · exact .refl _
    · split
      · next hle => exact .beyond (fun hi => absurd (hle.trans_lt hi) hn) nofun
      · exact .refl _

theorem Moves.advance (hmove : Moves cfg s h a pc) (hk : KeepsIpis cfg s h)
    (hfences : ∀ rq, (s.pc h).fences = some rq → rq.fence ≠ none) (hipi : cfg.ipiAvailable = true)
    (hcall : ∀ rq, a ≠ .call rq) (i : Nat) :
    Advance cfg s (s.domain h) i ((s.pc h).progress i) (pc.progress i) := by
  cases hmove with
  | call => exact absurd rfl (hcall _)
  | readAssigned hpc => exact readAssigned_advance hpc hk
  | readState hpc => exact readState_advance hpc hk
  | check hpc => exact check_advance hpc
  | checkParked hpc =>
    rw [hpc]
    split
    · exact .refl _
    · exact .drop _
  | postNone hpc hnone =>
    rw [hipi] at hnone
    cases hnone
  | @posted rq targets hpc =>
    rw [hpc]
    cases hl : rq.legacy with
    | true =>
      refine .tell fun _ _ => ?_
      simp only [List.not_mem_nil, if_false, Request.missed, hl, if_true]
      split
      · exact .refl _
      · exact .passed nofun
    | false =>
      refine .tell fun _ _ => ?_
      simp only [List.not_mem_nil, if_false, Request.missed, hl, Nat.zero_le, if_true]
      exact .refl _
  | parkedAny hpc => exact parkedAny_advance hpc
  | parkedScan hpc => exact parkedScan_advance hpc
  | @parkedGone rq targets n hpc haway hnone =>
    rw [hpc]
    refine .tell fun _ _ => .unless fun _ => ?_
    by_cases hi : i = n
    · subst hi
      rw [if_neg (Nat.lt_irrefl i), if_pos rfl, if_neg (Nat.not_succ_le_self i)]
      exact .gone hnone nofun
    · simp only [if_neg hi, show n < i ↔ n + 1 ≤ i from Iff.rfl]
      exact .refl _
  | @await rq hpc =>
    split
    · have hout : (Pc.ret .success rq).progress i = .out :=
        if_neg fun hrq => hfences rq (by rw [hpc]; rfl) hrq.1
      rw [hout]
      exact .drop _
    · exact .drop _
  | @ipiNone ret hpc =>
    have hout : ret.pc.progress i = .out := by cases ret <;> rfl
    rw [hout]
    exact .drop _
  | enqueued hpc | fenceNone hpc => split <;> exact .drop _
  | trap hpc | switch hpc | enqueueSelf hpc | enqueueFull hpc | fenceSelf hpc | ret hpc
  | served hpc | asleepTrap hpc | wake hpc => exact .drop _

end Steps

end RiscvMonitor.Delivery
