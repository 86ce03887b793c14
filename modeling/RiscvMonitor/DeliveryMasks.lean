import RiscvMonitor.DeliverySteps

/-!
# The masks during a switch

A switch is one section of `domain_lock`, but whoever reads the masks does not take
the lock.  At each step of the switch this is what they say: between two domains a
hart is assigned to neither, and for a moment it is not parked in the domain it
goes to either.
-/

namespace RiscvMonitor.Delivery

open Lifecycle (CtxState update_update_apply)
open Sys

variable {x : Xlen}

def Pc.switching : Pc x → Option Nat
  | .restore target | .unpark target | .assign target | .arrive target => some target
  | _ => none

def Pc.assignedTo (pc : Pc x) (domain : Nat) : Option Nat :=
  match pc with
  | .unpark _ | .assign _ => none
  | .arrive target => some target
  | _ => some domain

def Pc.coming : Pc x → Option Nat
  | .assign target | .arrive target => some target
  | _ => none

def Pc.locked : Pc x → Bool
  | .restore _ | .unpark _ | .assign _ | .arrive _ | .parkedRaise _ _ _ => true
  | _ => false

/-- Neither in a switch or about to, nor with the lock, nor stopped. -/
def Pc.plain : Pc x → Bool
  | .stopped | .switchLock _ _ | .restore _ | .unpark _ | .assign _ | .arrive _
  | .parkedRaise _ _ _ => false
  | _ => true

/-- What the masks and the contexts say of hart `h`. -/
structure HartMasks (s : Sys x) (h : Nat) : Prop where
  assigned : ∀ d, s.assigned d h = true ↔ (s.pc h).assignedTo (s.domain h) = some d
  parked : ∀ d, s.parked d h = true ↔ (s.ctx d h).state.kept ∧ (s.pc h).coming ≠ some d
  running : ∀ d, (s.ctx d h).state = .running → s.domain h = d ∧ (s.pc h).switching = none
  ran : s.pc h ≠ .stopped → (s.ctx (s.domain h) h).state ≠ .none
  here : (s.pc h).switching = none → ¬ (s.ctx (s.domain h) h).state.kept
  target : ∀ d, (s.pc h).switching = some d → d ≠ s.domain h
  lockTarget : ∀ d state, s.pc h = .switchLock d state → d ≠ s.domain h ∧ state.kept
  stopped : s.hsm h = .stopped ↔ s.pc h = .stopped

structure LockHeld (s : Sys x) : Prop where
  held : ∀ h, (s.pc h).locked = true → s.lock = true
  alone : ∀ h i, (s.pc h).locked = true → (s.pc i).locked = true → h = i

structure Masks (s : Sys x) : Prop where
  hart : ∀ h, HartMasks s h
  lock : LockHeld s

theorem init_pc (home : Nat → Nat) (up : Nat → Bool) (h : Nat) :
    (init home up : Sys x).pc h = .smode ∨ (init home up : Sys x).pc h = .stopped := by
  simp only [init, Sys.pc]
  exact ite_eq_or_eq ..

theorem init_masks (home : Nat → Nat) (up : Nat → Bool) : Masks (init home up : Sys x) := by
  have hpc : ∀ h, (init home up : Sys x).pc h = if up h then .smode else .stopped := fun _ => rfl
  have hplain : ∀ h, ((init home up : Sys x).pc h).switching = none ∧
      ((init home up : Sys x).pc h).coming = none ∧ ((init home up : Sys x).pc h).locked = false ∧
      ∀ d, ((init home up : Sys x).pc h).assignedTo d = some d := by
    intro h
    rw [hpc]
    cases up h <;> exact ⟨rfl, rfl, rfl, fun _ => rfl⟩
  have hkept : ∀ d h, ¬ ((init home up : Sys x).ctx d h).state.kept := by
    intro d h hk
    simp only [init] at hk
    split at hk <;> rcases hk with hk | hk <;> cases hk
  refine ⟨fun h => ?_, ?_⟩
  · constructor
    · intro d
      rw [(hplain h).2.2.2]
      simp [init, Sys.domain]
    · intro d
      exact iff_of_false Bool.false_ne_true fun hk => hkept d h hk.1
    · intro d hr
      simp only [init] at hr
      split_ifs at hr with heq
      exact ⟨heq.2, (hplain h).1⟩
    · intro hne
      rw [hpc] at hne
      simp only [init, Sys.domain]
      cases hup : up h with
      | true => simp
      | false => simp [hup] at hne
    · exact fun _ => hkept _ h
    · intro d hs
      rw [(hplain h).1] at hs
      cases hs
    · intro d state heq
      rw [hpc] at heq
      split at heq <;> cases heq
    · simp only [init, Sys.hsm, Sys.pc]
      cases up h <;> simp
  · constructor
    · intro h hl
      rw [(hplain h).2.2.1] at hl
      cases hl
    · intro h i hl
      rw [(hplain h).2.2.1] at hl
      cases hl

/-! ### Plain steps -/

structure Pc.Calm (pc : Pc x) : Prop where
  switching : pc.switching = none
  coming : pc.coming = none
  assignedTo : ∀ d, pc.assignedTo d = some d
  notStopped : pc ≠ .stopped
  notLock : ∀ d state, pc ≠ .switchLock d state

variable {pc : Pc x}

theorem Pc.calm_of_plain (hp : pc.plain = true) : pc.Calm ∧ pc.locked = false := by
  cases pc with
  | stopped | switchLock | restore | unpark | assign | arrive | parkedRaise => cases hp
  | _ => exact ⟨⟨rfl, rfl, fun _ => rfl, nofun, nofun⟩, rfl⟩

theorem Pc.calm_parkedRaise (rq : Request x) (targets : List Nat) (i : Nat) :
    (Pc.parkedRaise rq targets i).Calm :=
  ⟨rfl, rfl, fun _ => rfl, nofun, nofun⟩

theorem Ret.pc_plain (ret : Ret x) : ret.pc.plain = true := by
  cases ret <;> rfl

def Pc.inCall : Pc x → Bool
  | .readAssigned _ _ _ | .readState _ _ _ | .check _ _ _ | .checkParked _ _ _ _ | .post _ _ _
  | .parkedAny _ _ _ | .parkedScan _ _ _ | .parkedLock _ _ _ | .enqueue _ _ _ | .ret _ _ => true
  | _ => false

theorem Pc.plain_of_inCall (hc : pc.inCall = true) : pc.plain = true := by
  cases pc with
  | readAssigned | readState | check | checkParked | post | parkedAny | parkedScan | parkedLock
  | enqueue | ret => rfl
  | _ => cases hc

theorem send_inCall (cfg : Config) (rq : Request x) (running : List Nat) :
    (send cfg rq running).inCall = true := by
  unfold send
  dsimp only
  split
  · rfl
  · split <;> rfl

theorem readAssigned_inCall (cfg : Config) (s : Sys x) (h : Nat) (rq : Request x) (i : Nat)
    (running : List Nat) : (readAssigned cfg s h rq i running).inCall = true := by
  unfold readAssigned
  split
  · split <;> rfl
  · split
    · exact send_inCall cfg rq running
    · split
      · exact send_inCall cfg rq running
      · rfl

theorem check_inCall (cfg : Config) (s : Sys x) (h : Nat) (rq : Request x)
    (rest : List (Option Nat)) (running : List Nat) :
    (check cfg s h rq rest running).inCall = true := by
  unfold check
  split
  · exact send_inCall cfg rq running
  · rfl
  · split
    · rfl
    · split <;> rfl

theorem ecall_inCall (cfg : Config) (rq : Request x) : (ecall cfg rq).inCall = true := by
  unfold ecall
  split <;> rfl

section

variable (cfg : Config) (s : Sys x) (h : Nat) (rq : Request x) (targets : List Nat) (i : Nat)

theorem parkedAny_inCall : (parkedAny cfg s h rq targets i).inCall = true := by
  unfold parkedAny
  split
  · split <;> rfl
  · rfl

theorem parkedScan_inCall : (parkedScan cfg s h rq targets i).inCall = true := by
  unfold parkedScan
  split
  · split <;> rfl
  · rfl

end

theorem Moves.plain {cfg : Config} {s : Sys x} {h : Nat} {a : Act x} (hm : Moves cfg s h a pc) :
    (s.pc h).plain = true ∧ (pc.plain = true ∨
      ∃ d state, pc = .switchLock d state ∧ d ≠ s.domain h ∧ state.kept) := by
  cases hm with
  | switch hpc _ hne hstate =>
    rw [hpc]
    exact ⟨rfl, .inr ⟨_, _, rfl, hne, hstate⟩⟩
  | readAssigned hpc => exact ⟨by rw [hpc]; rfl, .inl (Pc.plain_of_inCall (readAssigned_inCall ..))⟩
  | check hpc => exact ⟨by rw [hpc]; rfl, .inl (Pc.plain_of_inCall (check_inCall ..))⟩
  | call hpc => exact ⟨by rw [hpc]; rfl, .inl (Pc.plain_of_inCall (ecall_inCall ..))⟩
  | parkedAny hpc => exact ⟨by rw [hpc]; rfl, .inl (Pc.plain_of_inCall (parkedAny_inCall ..))⟩
  | parkedScan hpc => exact ⟨by rw [hpc]; rfl, .inl (Pc.plain_of_inCall (parkedScan_inCall ..))⟩
  | ipiNone hpc => exact ⟨by rw [hpc]; rfl, .inl (Ret.pc_plain _)⟩
  | checkParked hpc | posted hpc | enqueued hpc | fenceNone hpc | await hpc =>
    refine ⟨by rw [hpc]; rfl, .inl ?_⟩
    split <;> rfl
  | trap hpc | readState hpc | postNone hpc | parkedGone hpc | enqueueSelf hpc | enqueueFull hpc
  | fenceSelf hpc | ret hpc | served hpc | asleepTrap hpc | wake hpc =>
    exact ⟨by rw [hpc]; rfl, .inl rfl⟩

inductive Path (s : Sys x) (h : Nat) (pc : Pc x) : Prop
  | plain (hold : (s.pc h).plain = true) (hnew : pc.plain = true)
  | lock {target : Nat} {state : CtxState} (hold : (s.pc h).plain = true)
      (hnew : pc = .switchLock target state) (hne : target ≠ s.domain h) (hkept : state.kept)
  | parkedPost {rq : Request x} {targets : List Nat} {i : Nat}
      (hold : s.pc h = .parkedLock rq targets i) (hnew : pc = .parkedRaise rq targets i)
  | parkedRaise {rq : Request x} {targets : List Nat} {i : Nat}
      (hold : s.pc h = .parkedRaise rq targets i) (hnew : pc = .parkedScan rq targets (i + 1))
  | park {target : Nat} {state : CtxState} (hold : s.pc h = .switchLock target state)
      (hnew : pc = .restore target)
  | restore {target : Nat} (hold : s.pc h = .restore target) (hnew : pc = .unpark target)
  | unpark {target : Nat} (hold : s.pc h = .unpark target) (hnew : pc = .assign target)
  | assign {target : Nat} (hold : s.pc h = .assign target) (hnew : pc = .arrive target)
  | arrive {target : Nat} (hold : s.pc h = .arrive target) (hnew : pc = .smode)

theorem Effect.path {cfg : Config} {s t : Sys x} {h : Nat} {a : Act x} (he : Effect cfg s h a t) :
    Path s h (t.pc h) := by
  cases he with
  | move hmove =>
    rw [goto_pc_self]
    obtain ⟨hold, hnew | ⟨target, state, heq, hne, hkept⟩⟩ := hmove.plain
    · exact .plain hold hnew
    · exact .lock hold heq hne hkept
  | run hpc =>
    have hold : (s.pc h).plain = true := by rw [hpc]; rfl
    refine .plain hold ?_
    rw [Sys.pc, setHart_hart_self]
    exact hold
  | suspend hpc | woken hpc | resumed hpc | ipiClear hpc | ipiFences hpc | pop hpc | enqueue hpc =>
    refine .plain (by rw [hpc]; rfl) ?_
    rw [Sys.pc, setHart_hart_self]
    rfl
  | @platform ok hpc =>
    refine .plain (by rw [hpc]; rfl) ?_
    rw [Sys.pc, setHart_hart_self]
    cases ok <;> rfl
  | ipiSmode hpc | served hpc =>
    refine .plain (by rw [hpc]; rfl) ?_
    rw [Sys.pc, setHart_hart_self]
    exact Ret.pc_plain _
  | post hpc | raise hpc | fenceOr hpc | parkedKeep hpc =>
    refine .plain (by rw [hpc]; rfl) ?_
    rw [goto_pc_self]
    rfl
  | fencing hpc =>
    refine .plain (by rw [hpc]; rfl) ?_
    rw [Delivery.fencing, goto_pc_self]
    rfl
  | fenceRaise hpc =>
    refine .plain (by rw [hpc]; rfl) ?_
    rw [goto_pc_self]
    split <;> rfl
  | parkedPost hpc => exact .parkedPost hpc (goto_pc_self _ _ _)
  | parkedRaise hpc => exact .parkedRaise hpc (goto_pc_self _ _ _)
  | park hpc => exact .park hpc (goto_pc_self _ _ _)
  | restore hpc => exact .restore hpc (congrArg Hart.pc (setHart_hart_self _ _ _))
  | unpark hpc => exact .unpark hpc (goto_pc_self _ _ _)
  | assign hpc => exact .assign hpc (goto_pc_self _ _ _)
  | arrive hpc => exact .arrive hpc (congrArg Hart.pc (setHart_hart_self _ _ _))

theorem Effect.call {cfg : Config} {s t : Sys x} {h : Nat} {rq : Request x}
    (he : Effect cfg s h (.call rq) t) : s.pc h = .smode ∧ t = s.goto h (ecall cfg rq) := by
  cases he with
  | move hmove =>
    cases hmove with
    | call hpc => exact ⟨hpc, rfl⟩

variable {target : Nat}

section Steps

variable {cfg : Config} {s t : Sys x} {h i : Nat} {a : Act x}

theorem HartMasks.same (hm : HartMasks s i) (hs : SameMasks s t i) : HartMasks t i := by
  constructor
  · intro d
    rw [hs.assigned, hs.pc, hs.domain]
    exact hm.assigned d
  · intro d
    rw [hs.parked, hs.state, hs.pc]
    exact hm.parked d
  · intro d
    rw [hs.state, hs.domain, hs.pc]
    exact hm.running d
  · rw [hs.pc, hs.domain, hs.state]
    exact hm.ran
  · rw [hs.pc, hs.domain, hs.state]
    exact hm.here
  · rw [hs.pc, hs.domain]
    exact hm.target
  · rw [hs.pc, hs.domain]
    exact hm.lockTarget
  · rw [hs.hsm, hs.pc]
    exact hm.stopped

theorem HartMasks.still (hm : HartMasks s h) (hstate : ∀ d, (t.ctx d h).state = (s.ctx d h).state)
    (hassigned : t.assigned = s.assigned) (hparked : t.parked = s.parked)
    (hdomain : t.domain h = s.domain h) (hhsm : t.hsm h = s.hsm h ∨ t.hsm h ≠ .stopped)
    (hold : (s.pc h).Calm) (hnew : (t.pc h).Calm ∨
      ∃ d state, t.pc h = .switchLock d state ∧ d ≠ s.domain h ∧ state.kept) : HartMasks t h := by
  obtain ⟨hold₁, hold₂, hold₄, hold₅, -⟩ := hold
  have hpc : (t.pc h).switching = none ∧ (t.pc h).coming = none ∧
      (∀ d, (t.pc h).assignedTo d = some d) ∧ t.pc h ≠ .stopped ∧
      ∀ d state, t.pc h = .switchLock d state → d ≠ s.domain h ∧ state.kept := by
    rcases hnew with ⟨h₁, h₂, h₄, h₅, h₆⟩ | ⟨d, state, heq, hne, hkept⟩
    · exact ⟨h₁, h₂, h₄, h₅, fun d state heq => absurd heq (h₆ d state)⟩
    · rw [heq]
      refine ⟨rfl, rfl, fun _ => rfl, nofun, ?_⟩
      intro d' state' heq'
      cases heq'
      exact ⟨hne, hkept⟩
  obtain ⟨hnew₁, hnew₂, hnew₄, hnew₅, hnew₆⟩ := hpc
  constructor
  · intro d
    rw [hassigned, hm.assigned, hdomain, hold₄, hnew₄]
  · intro d
    rw [hparked, hm.parked, hstate, hold₂, hnew₂]
  · intro d hr
    rw [hstate] at hr
    rw [hdomain]
    exact ⟨(hm.running d hr).1, hnew₁⟩
  · intro _
    rw [hdomain, hstate]
    exact hm.ran hold₅
  · intro _
    rw [hdomain, hstate]
    exact hm.here hold₁
  · intro d hs
    rw [hnew₁] at hs
    cases hs
  · rw [hdomain]
    exact hnew₆
  · refine iff_of_false ?_ hnew₅
    rcases hhsm with heq | hne
    · rw [heq, hm.stopped]
      exact hold₅
    · exact hne

theorem LockHeld.same (hl : LockHeld s) (hlock : t.lock = s.lock)
    (hlocked : ∀ i, (t.pc i).locked = (s.pc i).locked) : LockHeld t where
  held i hi := by
    rw [hlock]
    exact hl.held i (hlocked i ▸ hi)
  alone i j hi hj := hl.alone i j (hlocked i ▸ hi) (hlocked j ▸ hj)

theorem LockHeld.keep (hl : LockHeld s) (hlock : t.lock = s.lock)
    (hself : (t.pc h).locked = (s.pc h).locked) (hother : ∀ i, i ≠ h → t.pc i = s.pc i) :
    LockHeld t := by
  refine hl.same hlock fun i => ?_
  by_cases hi : i = h
  · rw [hi, hself]
  · rw [hother i hi]

theorem LockHeld.acquire (hl : LockHeld s) (hfree : s.lock = false) (hlock : t.lock = true)
    (hother : ∀ i, i ≠ h → t.pc i = s.pc i) : LockHeld t := by
  have honly : ∀ i, (t.pc i).locked = true → i = h := by
    intro i hi
    by_contra hne
    rw [hother i hne] at hi
    have htaken := hl.held i hi
    rw [hfree] at htaken
    cases htaken
  exact ⟨fun _ _ => hlock, fun i j hi hj => (honly i hi).trans (honly j hj).symm⟩

theorem LockHeld.release (hl : LockHeld s) (hold : (s.pc h).locked = true)
    (hnew : (t.pc h).locked = false) (hother : ∀ i, i ≠ h → t.pc i = s.pc i) : LockHeld t := by
  have hnone : ∀ i, (t.pc i).locked ≠ true := by
    intro i hi
    by_cases hih : i = h
    · rw [hih, hnew] at hi
      cases hi
    · rw [hother i hih] at hi
      exact hih (hl.alone i h hi hold)
  exact ⟨fun i hi => absurd hi (hnone i), fun i _ hi => absurd hi (hnone i)⟩

/-! ### The steps of a switch -/

theorem HartMasks.park {state : CtxState} (hm : HartMasks s h)
    (hpc : s.pc h = .switchLock target state) : HartMasks (contextPark s h target state) h := by
  obtain ⟨hne, hkept⟩ := hm.lockTarget target state hpc
  have hpc' : (contextPark s h target state).pc h = .restore target := goto_pc_self _ _ _
  have hdomain : (contextPark s h target state).domain h = s.domain h :=
    goto_field _ _ Hart.domain (fun _ _ => rfl) _ _
  have hhsm : (contextPark s h target state).hsm h = s.hsm h :=
    goto_field _ _ Hart.hsm (fun _ _ => rfl) _ _
  have hstate : ∀ d, ((contextPark s h target state).ctx d h).state =
      if d = s.domain h then state else (s.ctx d h).state := by
    intro d
    simp only [contextPark, goto, setHart_ctx, setParked_ctx, setCtx_ctx, update_update_apply]
    by_cases hd : d = s.domain h
    · simp [hd]
    · simp [hd]
  have hparked : ∀ d, (contextPark s h target state).parked d h =
      if d = s.domain h then true else s.parked d h := by
    intro d
    simp only [contextPark, goto, setHart_parked, setParked_parked, update_update_apply]
    by_cases hd : d = s.domain h
    · simp [hd]
    · simp [hd]
  constructor
  · intro d
    rw [hpc', hdomain]
    have hold := hm.assigned d
    rw [hpc] at hold
    exact hold
  · intro d
    rw [hparked, hstate, hpc']
    split
    · exact iff_of_true rfl ⟨hkept, by rintro ⟨⟩⟩
    · rw [hm.parked, hpc]
      exact Iff.rfl
  · intro d hr
    rw [hstate] at hr
    split at hr
    · rw [hr] at hkept
      rcases hkept with hk | hk <;> cases hk
    · next hd => exact absurd (hm.running d hr).1.symm hd
  · intro _
    rw [hdomain, hstate, if_pos rfl]
    exact hkept.ne_none
  · rw [hpc']
    rintro ⟨⟩
  · intro d hd
    rw [hpc'] at hd
    cases hd
    rw [hdomain]
    exact hne
  · rw [hpc']
    rintro _ _ ⟨⟩
  · simp [hhsm, hm.stopped, hpc, hpc']

theorem HartMasks.not_running {d : Nat} (hm : HartMasks s h)
    (hs : (s.pc h).switching = some target) : (s.ctx d h).state ≠ .running := by
  intro hr
  rw [(hm.running d hr).2] at hs
  cases hs

theorem Pc.switching_ne (hs : pc.switching = some target) :
    pc ≠ .stopped ∧ ∀ d state, pc ≠ .switchLock d state := by
  constructor
  · rintro rfl
    cases hs
  · rintro d state rfl
    cases hs

section

variable (hm : HartMasks s h)
include hm

theorem HartMasks.switched (hold : (s.pc h).switching = some target)
    (hnew : (t.pc h).switching = some target) (hdomain : t.domain h = s.domain h)
    (hhsm : t.hsm h = s.hsm h) (hstate : ∀ d, (t.ctx d h).state = (s.ctx d h).state)
    (hassigned : ∀ d, t.assigned d h = true ↔ (t.pc h).assignedTo (s.domain h) = some d)
    (hparked : ∀ d, t.parked d h = true ↔ (s.ctx d h).state.kept ∧ (t.pc h).coming ≠ some d) :
    HartMasks t h := by
  constructor
  · rw [hdomain]
    exact hassigned
  · intro d
    rw [hstate]
    exact hparked d
  · intro d hr
    rw [hstate] at hr
    exact absurd hr (hm.not_running hold)
  · intro _
    rw [hdomain, hstate]
    exact hm.ran (Pc.switching_ne hold).1
  · rw [hnew]
    nofun
  · rw [hnew, hdomain, ← hold]
    exact hm.target
  · exact fun d state heq => absurd heq ((Pc.switching_ne hnew).2 d state)
  · rw [hhsm, hm.stopped]
    exact iff_of_false (Pc.switching_ne hold).1 (Pc.switching_ne hnew).1

theorem HartMasks.restore (hpc : s.pc h = .restore target) :
    HartMasks (contextRestore s h target) h := by
  have hpc' : (contextRestore s h target).pc h = .unpark target :=
    congrArg Hart.pc (setHart_hart_self _ _ _)
  refine hm.switched (by rw [hpc]; rfl) (by rw [hpc']; rfl) (by simp [contextRestore, Sys.domain])
    (by simp [contextRestore, Sys.hsm]) ?_ ?_ ?_
  · intro d
    simp only [contextRestore, setHart_ctx, setAssigned_ctx, setCtx_ctx, update_update_apply]
    by_cases hd : d = target
    · simp [hd]
    · simp [hd]
  · intro d
    rw [hpc']
    refine iff_of_false ?_ (by rintro ⟨⟩)
    simp only [contextRestore, setHart_assigned, setAssigned_assigned, update_update_apply]
    split
    · exact Bool.false_ne_true
    · next hd =>
      intro hassigned
      have hold := (hm.assigned d).mp hassigned
      rw [hpc] at hold
      exact hd ⟨(Option.some.inj hold).symm, trivial⟩
  · intro d
    have hold := hm.parked d
    rw [hpc] at hold
    rw [hpc']
    exact hold

theorem HartMasks.unpark (hpc : s.pc h = .unpark target) :
    HartMasks ((s.setParked target h false).goto h (.assign target)) h := by
  refine hm.switched (by rw [hpc]; rfl) (by rw [goto_pc_self]; rfl)
    (goto_field _ _ Hart.domain (fun _ _ => rfl) _ _)
    (goto_field _ _ Hart.hsm (fun _ _ => rfl) _ _) (fun _ => rfl) ?_ ?_
  · intro d
    have hold := hm.assigned d
    rw [hpc] at hold
    rw [goto_pc_self]
    exact hold
  · intro d
    rw [goto_pc_self]
    simp only [goto, setHart_parked, setParked_parked, update_update_apply]
    split
    · next hd => exact iff_of_false Bool.false_ne_true fun hk => hk.2 (by rw [hd.1]; rfl)
    · next hd =>
      rw [hm.parked, hpc]
      refine and_congr_right fun _ => iff_of_true (by rintro ⟨⟩) ?_
      intro heq
      exact hd ⟨(Option.some.inj heq).symm, trivial⟩

theorem HartMasks.assign (hpc : s.pc h = .assign target) :
    HartMasks ((s.setAssigned target h true).goto h (.arrive target)) h := by
  refine hm.switched (by rw [hpc]; rfl) (by rw [goto_pc_self]; rfl)
    (goto_field _ _ Hart.domain (fun _ _ => rfl) _ _)
    (goto_field _ _ Hart.hsm (fun _ _ => rfl) _ _) (fun _ => rfl) ?_ ?_
  · intro d
    rw [goto_pc_self]
    simp only [goto, setHart_assigned, setAssigned_assigned, update_update_apply]
    split
    · next hd => exact iff_of_true rfl (by rw [hd.1]; rfl)
    · next hd =>
      refine iff_of_false ?_ fun heq => hd ⟨(Option.some.inj heq).symm, trivial⟩
      intro hassigned
      have hold := (hm.assigned d).mp hassigned
      rw [hpc] at hold
      cases hold
  · intro d
    have hold := hm.parked d
    rw [hpc] at hold
    rw [goto_pc_self]
    exact hold

theorem HartMasks.arrive (hpc : s.pc h = .arrive target) :
    HartMasks (contextArrive s h target) h := by
  have hswitching : (s.pc h).switching = some target := by
    rw [hpc]
    rfl
  have hpc' : (contextArrive s h target).pc h = .smode := congrArg Hart.pc (setHart_hart_self _ _ _)
  have hdomain : (contextArrive s h target).domain h = target :=
    congrArg Hart.domain (setHart_hart_self _ _ _)
  have hhsm : (contextArrive s h target).hsm h = s.hsm h := by simp [contextArrive, Sys.hsm]
  have hstate : ∀ d, ((contextArrive s h target).ctx d h).state =
      if d = target then .running else (s.ctx d h).state := by
    intro d
    simp only [contextArrive, setHart_ctx, setCtx_ctx, update_update_apply]
    by_cases hd : d = target
    · simp [hd]
    · simp [hd]
  constructor
  · intro d
    rw [hpc', hdomain]
    have hold := hm.assigned d
    rw [hpc] at hold
    exact hold
  · intro d
    rw [hpc', hstate]
    change s.parked d h = true ↔ _
    rw [hm.parked, hpc]
    split
    · next hd =>
      refine iff_of_false (fun hk => hk.2 (by rw [hd]; rfl)) fun hk => ?_
      rcases hk.1 with hk | hk <;> cases hk
    · next hd =>
      refine and_congr_right fun _ => iff_of_true ?_ (by rintro ⟨⟩)
      intro heq
      exact hd (Option.some.inj heq).symm
  · intro d hr
    rw [hstate] at hr
    rw [hpc', hdomain]
    split at hr
    · next hd => exact ⟨hd.symm, rfl⟩
    · exact absurd hr (hm.not_running hswitching)
  · intro _
    rw [hdomain, hstate, if_pos rfl]
    rintro ⟨⟩
  · intro _ hk
    rw [hdomain, hstate, if_pos rfl] at hk
    rcases hk with hk | hk <;> cases hk
  · rw [hpc']
    rintro _ ⟨⟩
  · rw [hpc']
    rintro _ _ ⟨⟩
  · simp [hhsm, hm.stopped, hpc, hpc']

end

/-! ### Every step -/

theorem Masks.of_plain (hm : Masks s) (he : Effect cfg s h a t)
    (hstate : ∀ d, (t.ctx d h).state = (s.ctx d h).state) (hassigned : t.assigned = s.assigned)
    (hparked : t.parked = s.parked) (hlock : t.lock = s.lock) (hold : (s.pc h).plain = true)
    (hfree : (t.pc h).locked = false) : Masks t := by
  obtain ⟨hcalm, hunlocked⟩ := Pc.calm_of_plain hold
  have hdomain : t.domain h = s.domain h := by
    refine he.domain_eq h (.inr fun target heq => ?_)
    rw [heq] at hold
    cases hold
  have hnew : (t.pc h).Calm ∨
      ∃ d state, t.pc h = .switchLock d state ∧ d ≠ s.domain h ∧ state.kept := by
    cases he.path with
    | plain _ hnew => exact .inl (Pc.calm_of_plain hnew).1
    | lock _ hnew hne hkept => exact .inr ⟨_, _, hnew, hne, hkept⟩
    | parkedPost _ hnew =>
      rw [hnew] at hfree
      cases hfree
    | parkedRaise heq | park heq | restore heq | unpark heq | assign heq | arrive heq =>
      rw [heq] at hold
      cases hold
  refine ⟨fun i => ?_, hm.lock.keep hlock (hfree.trans hunlocked.symm) fun i => he.pc_other⟩
  by_cases hi : i = h
  · subst hi
    exact (hm.hart i).still hstate hassigned hparked hdomain he.hsm_self hcalm hnew
  · exact (hm.hart i).same (he.other hi)

theorem Masks.of_locked (hm : Masks s) (he : Effect cfg s h a t) (hh : HartMasks t h)
    (hlock : LockHeld t) : Masks t := by
  refine ⟨fun i => ?_, hlock⟩
  by_cases hi : i = h
  · rw [hi]
    exact hh
  · exact (hm.hart i).same (he.other hi)

theorem Masks.effect (hm : Masks s) (he : Effect cfg s h a t) : Masks t := by
  have hother : ∀ i, i ≠ h → t.pc i = s.pc i := fun i => he.pc_other
  have hhsm := he.hsm_self
  have hdomain : (∀ target, s.pc h ≠ .arrive target) → t.domain h = s.domain h :=
    fun hne => he.domain_eq h (.inr hne)
  have hpath := he.path
  have hplain := hm.of_plain he
  have hlocked := hm.of_locked he
  have hfree : (s.pc h).plain = true → (∀ rq targets i, s.pc h ≠ .parkedLock rq targets i) →
      (t.pc h).locked = false := by
    intro hold hne
    cases hpath with
    | plain _ hnew => exact (Pc.calm_of_plain hnew).2
    | lock _ hnew => rw [hnew]; rfl
    | parkedPost heq => exact absurd heq (hne _ _ _)
    | parkedRaise heq | park heq | restore heq | unpark heq | assign heq | arrive heq =>
      rw [heq] at hold
      cases hold
  cases he with
  | move hmove =>
    refine hplain (fun _ => rfl) rfl rfl rfl hmove.plain.1 ?_
    rw [goto_pc_self]
    rcases hmove.plain.2 with hnew | ⟨target, state, heq, -⟩
    · exact (Pc.calm_of_plain hnew).2
    · rw [heq]
      rfl
  | run hpc | suspend hpc | platform hpc | woken hpc | resumed hpc | post hpc | raise hpc
  | enqueue hpc | fenceOr hpc | fenceRaise hpc | ipiClear hpc | ipiFences hpc | ipiSmode hpc
  | pop hpc | served hpc | fencing hpc =>
    have hold : (s.pc h).plain = true := by rw [hpc]; rfl
    exact hplain (fun _ => rfl) rfl rfl rfl hold (hfree hold (by simp [hpc]))
  | parkedKeep hpc =>
    refine hplain (fun d => ?_) rfl rfl rfl (by rw [hpc]; rfl) ?_
    · simp only [goto, setHart_ctx, setCtx_ctx, update_update_apply]
      split
      · next heq => rw [heq.1, heq.2]
      · rfl
    · rw [goto_pc_self]
      rfl
  | parkedPost hpc hunlocked =>
    refine hlocked ((hm.hart h).still (fun _ => rfl) rfl rfl (hdomain (by simp [hpc])) hhsm
      (hpc ▸ (Pc.calm_of_plain rfl).1) (.inl ?_)) (hm.lock.acquire hunlocked rfl hother)
    rw [goto_pc_self]
    exact Pc.calm_parkedRaise ..
  | parkedRaise hpc =>
    refine hlocked ((hm.hart h).still (fun _ => rfl) rfl rfl (hdomain (by simp [hpc])) hhsm
      (hpc ▸ Pc.calm_parkedRaise ..) (.inl ?_)) (hm.lock.release (by rw [hpc]; rfl) ?_ hother)
    · rw [goto_pc_self]
      exact (Pc.calm_of_plain rfl).1
    · rw [goto_pc_self]
      rfl
  | park hpc hunlocked =>
    exact hlocked ((hm.hart h).park hpc) (hm.lock.acquire hunlocked rfl hother)
  | restore hpc =>
    refine hlocked ((hm.hart h).restore hpc) (hm.lock.keep rfl ?_ hother)
    rw [Sys.pc, contextRestore, setHart_hart_self, hpc]
    rfl
  | unpark hpc =>
    refine hlocked ((hm.hart h).unpark hpc) (hm.lock.keep rfl ?_ hother)
    rw [goto_pc_self, hpc]
    rfl
  | assign hpc =>
    refine hlocked ((hm.hart h).assign hpc) (hm.lock.keep rfl ?_ hother)
    rw [goto_pc_self, hpc]
    rfl
  | arrive hpc =>
    refine hlocked ((hm.hart h).arrive hpc) (hm.lock.release (by rw [hpc]; rfl) ?_ hother)
    rw [Sys.pc, contextArrive, setHart_hart_self]
    rfl

theorem Effect.domain_or_smode (he : Effect cfg s h a t) :
    t.domain h = s.domain h ∨ t.pc h = .smode := by
  by_cases harrive : ∃ target, s.pc h = .arrive target
  · obtain ⟨target, hpc⟩ := harrive
    cases he.path with
    | arrive _ hnew => exact .inr hnew
    | plain hp | lock hp => rw [hpc] at hp; cases hp
    | parkedPost heq | parkedRaise heq | park heq | restore heq | unpark heq | assign heq =>
      cases hpc.symm.trans heq
  · exact .inl (he.domain_eq h (.inr fun target hpc => harrive ⟨target, hpc⟩))

theorem Effect.not_stopped (he : Effect cfg s h a t) (hup : s.pc i ≠ .stopped) :
    t.pc i ≠ .stopped := by
  by_cases hi : i = h
  · subst hi
    cases he.path with
    | plain _ hnew =>
      intro hpc
      rw [hpc] at hnew
      cases hnew
    | lock _ hnew | parkedPost _ hnew | parkedRaise _ hnew | park _ hnew | restore _ hnew
    | unpark _ hnew | assign _ hnew | arrive _ hnew =>
      rw [hnew]
      nofun
  · rw [he.pc_other hi]
    exact hup

theorem Masks.not_switching (hm : Masks s) (hfree : s.lock = false) (i : Nat) :
    (s.pc i).locked = false := by
  by_contra hl
  have htaken := hm.lock.held i (Bool.not_eq_false _ ▸ hl)
  rw [hfree] at htaken
  cases htaken

end Steps

theorem Pc.settled_of_not_locked {pc : Pc x} (hl : pc.locked = false) (d : Nat) :
    pc.assignedTo d = some d ∧ pc.coming = none := by
  cases pc <;> first | exact ⟨rfl, rfl⟩ | cases hl

/-- Hart 0 is between two domains. -/
def betweenDomains : Option (Sys .rv64) :=
  run ⟨1, fun _ => true, true, true, true⟩ (init (fun _ => 1) fun _ => true)
    [(0, .switch 2 .calling), (0, .go), (0, .go), (0, .go)]

end RiscvMonitor.Delivery
