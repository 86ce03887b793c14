import RiscvMonitor.Delivery

/-!
# What a step does to the harts

The steps by what they change.  Most of them only move the hart on; those that
touch another hart, a mask, a context or the lock have a case each.
-/

namespace RiscvMonitor.Delivery

open Lifecycle (CtxState update_update_apply)
open Sys

variable {x : Xlen}

section Accessors

variable (s : Sys x) (h : Nat)

theorem setHart_hart (hart : Hart x) (i : Nat) :
    (s.setHart h hart).hart i = if i = h then hart else s.hart i := by
  by_cases hi : i = h
  · simp [hi]
  · simp [hi]

theorem setHart_hart_self (hart : Hart x) : (s.setHart h hart).hart h = hart := by
  rw [setHart_hart, if_pos rfl]

theorem setHart_hart_of_ne {i : Nat} (hi : i ≠ h) (hart : Hart x) :
    (s.setHart h hart).hart i = s.hart i := by
  rw [setHart_hart, if_neg hi]

theorem goto_hart (pc : Pc x) (i : Nat) :
    (s.goto h pc).hart i = if i = h then { s.hart h with pc := pc } else s.hart i :=
  setHart_hart s h _ i

@[simp] theorem goto_pc (pc : Pc x) (i : Nat) :
    (s.goto h pc).pc i = if i = h then pc else s.pc i := by
  rw [Sys.pc, goto_hart]
  split <;> rfl

theorem goto_pc_self (pc : Pc x) : (s.goto h pc).pc h = pc := by
  rw [goto_pc, if_pos rfl]

theorem goto_pc_of_ne {i : Nat} (hi : i ≠ h) (pc : Pc x) : (s.goto h pc).pc i = s.pc i := by
  rw [goto_pc, if_neg hi]

theorem tell_hart (i : Nat) (hart : Hart x) (pc : Pc x) (j : Nat) :
    ((s.setHart i hart).goto h pc).hart j =
      if j = h then { (if h = i then hart else s.hart h) with pc := pc }
      else if j = i then hart else s.hart j := by
  rw [goto_hart]
  split
  · rw [setHart_hart]
  · rw [setHart_hart]

theorem tell_pc {i : Nat} {hart : Hart x} (hpc : hart.pc = s.pc i) (pc : Pc x) (j : Nat) :
    ((s.setHart i hart).goto h pc).pc j = if j = h then pc else s.pc j := by
  rw [Sys.pc, tell_hart]
  split
  · rfl
  · split
    · next hj => rw [hpc, hj]
    · rfl

section

variable {α : Type*} (f : Hart x → α) (hf : ∀ (hart : Hart x) pc, f { hart with pc := pc } = f hart)
include α hf

theorem tell_field (i : Nat) (hart : Hart x) (pc : Pc x) (j : Nat) :
    f (((s.setHart i hart).goto h pc).hart j) = if j = i then f hart else f (s.hart j) := by
  rw [tell_hart]
  by_cases hj : j = h
  · subst hj
    rw [if_pos rfl, hf]
    split <;> rfl
  · rw [if_neg hj]
    split <;> rfl

theorem goto_field (pc : Pc x) (j : Nat) : f ((s.goto h pc).hart j) = f (s.hart j) := by
  rw [goto_hart]
  split
  · next hj => rw [hf, hj]
  · rfl

end

end Accessors

/-! ### Moves -/

inductive Moves (cfg : Config) (s : Sys x) (h : Nat) : Act x → Pc x → Prop
  | trap (hpc : s.pc h = .smode) (hline : s.line h = true) : Moves cfg s h .go (.ipiClear .smode)
  | call {rq : Request x} (hpc : s.pc h = .smode) (hline : s.line h = false) :
      Moves cfg s h (.call rq) (ecall cfg rq)
  | switch {target : Nat} {state : CtxState} (hpc : s.pc h = .smode) (hline : s.line h = false)
      (hne : target ≠ s.domain h) (hstate : state = .calling ∨ state = .idle) :
      Moves cfg s h (.switch target state) (.switchLock target state)
  | readAssigned {rq : Request x} {i : Nat} {running : List Nat}
      (hpc : s.pc h = .readAssigned rq i running) :
      Moves cfg s h .go (readAssigned cfg s h rq i running)
  | readState {rq : Request x} {i : Nat} {running : List Nat}
      (hpc : s.pc h = .readState rq i running) : Moves cfg s h .go (readState s rq i running)
  | check {rq : Request x} {rest : List (Option Nat)} {running : List Nat}
      (hpc : s.pc h = .check rq rest running) : Moves cfg s h .go (check cfg s h rq rest running)
  | checkParked {rq : Request x} {i : Nat} {rest : List (Option Nat)} {running : List Nat}
      (hpc : s.pc h = .checkParked rq i rest running) :
      Moves cfg s h .go
        (if s.parked (s.domain h) i then .check rq rest running else .ret .invalidParam rq)
  | postNone {rq : Request x} {targets : List Nat} {i : Nat} {rest : List Nat}
      (hpc : s.pc h = .post rq targets (i :: rest)) (hipi : cfg.ipiAvailable = false) :
      Moves cfg s h .go (.post rq targets rest)
  | posted {rq : Request x} {targets : List Nat} (hpc : s.pc h = .post rq targets []) :
      Moves cfg s h .go (if rq.legacy then .ret .success rq else .parkedAny rq targets 0)
  | parkedAny {rq : Request x} {targets : List Nat} {i : Nat}
      (hpc : s.pc h = .parkedAny rq targets i) :
      Moves cfg s h .go (parkedAny cfg s h rq targets i)
  | parkedScan {rq : Request x} {targets : List Nat} {i : Nat}
      (hpc : s.pc h = .parkedScan rq targets i) :
      Moves cfg s h .go (parkedScan cfg s h rq targets i)
  | parkedGone {rq : Request x} {targets : List Nat} {i : Nat}
      (hpc : s.pc h = .parkedLock rq targets i) (haway : s.domain i ≠ s.domain h)
      (hnone : (s.ctx (s.domain h) i).state = .none) :
      Moves cfg s h .go (.parkedScan rq targets (i + 1))
  | enqueued {rq : Request x} {targets : List Nat} (hpc : s.pc h = .enqueue rq targets []) :
      Moves cfg s h .go (if h ∈ targets then .fenceSelf rq else .await rq)
  | enqueueSelf {rq : Request x} {targets rest : List Nat}
      (hpc : s.pc h = .enqueue rq targets (h :: rest)) :
      Moves cfg s h .go (.enqueue rq targets rest)
  | enqueueFull {rq : Request x} {targets : List Nat} {i : Nat} {rest : List Nat}
      (hpc : s.pc h = .enqueue rq targets (i :: rest)) (hi : i ≠ h) :
      Moves cfg s h .go (.fenceOr rq targets i rest true)
  | fenceNone {rq : Request x} {targets : List Nat} {i : Nat} {rest : List Nat} {full : Bool}
      (hpc : s.pc h = .fenceOr rq targets i rest full) (hipi : cfg.ipiAvailable = false) :
      Moves cfg s h .go (if full then .ipiClear (.enqueue rq targets (i :: rest))
        else .enqueue rq targets rest)
  | fenceSelf {rq : Request x} (hpc : s.pc h = .fenceSelf rq) : Moves cfg s h .go (.await rq)
  | await {rq : Request x} (hpc : s.pc h = .await rq) :
      Moves cfg s h .go (if (s.hart h).out = 0 then .ret .success rq else .serve (.await rq))
  | ret {rc : SbiError} {rq : Request x} (hpc : s.pc h = .ret rc rq) : Moves cfg s h .go .smode
  | ipiNone {ret : Ret x} (hpc : s.pc h = .ipiClear ret) (hipi : cfg.ipiAvailable = false) :
      Moves cfg s h .go ret.pc
  | served {rq : Request x} (hpc : s.pc h = .serve (.await rq)) (hempty : (s.hart h).queue = []) :
      Moves cfg s h .go (.ipiClear (.await rq))
  | asleepTrap (hpc : s.pc h = .asleep) (hline : s.line h = true) :
      Moves cfg s h .go (.ipiClear .asleep)
  | wake (hpc : s.pc h = .asleep) : Moves cfg s h .wake .woken

/-! ### Effects -/

inductive Effect (cfg : Config) (s : Sys x) (h : Nat) : Act x → Sys x → Prop
  | move {a : Act x} {pc : Pc x} (hmove : Moves cfg s h a pc) : Effect cfg s h a (s.goto h pc)
  | run {clear : Bool} (hpc : s.pc h = .smode) (hline : s.line h = false) :
      Effect cfg s h (.run clear)
        (s.setHart h { s.hart h with ssip := (s.hart h).ssip && !clear })
  | suspend (hpc : s.pc h = .smode) (hline : s.line h = false) (hhsm : s.hsm h = .started) :
      Effect cfg s h .suspend
        (s.setHart h { s.hart h with hsm := .suspendPending, pc := .suspending })
  | platform {ok : Bool} (hpc : s.pc h = .suspending) :
      Effect cfg s h (.platform ok) (s.setHart h { s.hart h with
        hsm := if ok then .suspended else .started, pc := if ok then .asleep else .smode })
  | woken (hpc : s.pc h = .woken) :
      Effect cfg s h .go (s.setHart h { s.hart h with hsm := .resumePending, pc := .resumed })
  | resumed (hpc : s.pc h = .resumed) :
      Effect cfg s h .go (s.setHart h { s.hart h with hsm := .started, pc := .smode })
  | post {rq : Request x} {targets : List Nat} {i : Nat} {rest : List Nat}
      (hpc : s.pc h = .post rq targets (i :: rest)) (hipi : cfg.ipiAvailable = true) :
      Effect cfg s h .go
        ((s.setHart i { s.hart i with smode := true }).goto h (.raise rq targets i rest))
  | raise {rq : Request x} {targets : List Nat} {i : Nat} {rest : List Nat}
      (hpc : s.pc h = .raise rq targets i rest) :
      Effect cfg s h .go
        ((s.setHart i { s.hart i with line := true }).goto h (.post rq targets rest))
  | parkedPost {rq : Request x} {targets : List Nat} {i : Nat}
      (hpc : s.pc h = .parkedLock rq targets i) (hlock : s.lock = false)
      (hback : s.domain i = s.domain h) :
      Effect cfg s h .go (({ s with lock := true }.setHart i { s.hart i with smode := true }).goto h
        (.parkedRaise rq targets i))
  | parkedKeep {rq : Request x} {targets : List Nat} {i : Nat}
      (hpc : s.pc h = .parkedLock rq targets i) (hlock : s.lock = false)
      (haway : s.domain i ≠ s.domain h) (hran : (s.ctx (s.domain h) i).state ≠ .none) :
      Effect cfg s h .go ((s.setCtx (s.domain h) i { s.ctx (s.domain h) i with ipi := true }).goto h
        (.parkedScan rq targets (i + 1)))
  | parkedRaise {rq : Request x} {targets : List Nat} {i : Nat}
      (hpc : s.pc h = .parkedRaise rq targets i) :
      Effect cfg s h .go (({ s with lock := false }.setHart i { s.hart i with line := true }).goto h
        (.parkedScan rq targets (i + 1)))
  | enqueue {rq : Request x} {req : FenceReq x} {targets : List Nat} {i : Nat} {rest : List Nat}
      (hpc : s.pc h = .enqueue rq targets (i :: rest)) (hreq : rq.fence = some req) (hi : i ≠ h)
      (hroom : (s.hart i).queue.length < rfenceQueueLen) :
      Effect cfg s h .go
        ((s.setHart i { s.hart i with queue := (s.hart i).queue ++ [⟨req, h⟩] }).setHart h
          { s.hart h with out := (s.hart h).out + 1, pc := .fenceOr rq targets i rest false })
  | fenceOr {rq : Request x} {targets : List Nat} {i : Nat} {rest : List Nat} {full : Bool}
      (hpc : s.pc h = .fenceOr rq targets i rest full) :
      Effect cfg s h .go ((s.setHart i { s.hart i with rfence := true }).goto h
        (.fenceRaise rq targets i rest full))
  | fenceRaise {rq : Request x} {targets : List Nat} {i : Nat} {rest : List Nat} {full : Bool}
      (hpc : s.pc h = .fenceRaise rq targets i rest full) :
      Effect cfg s h .go ((s.setHart i { s.hart i with line := true }).goto h
        (if full then .ipiClear (.enqueue rq targets (i :: rest)) else .enqueue rq targets rest))
  | ipiClear {ret : Ret x} (hpc : s.pc h = .ipiClear ret) :
      Effect cfg s h .go (s.setHart h { s.hart h with line := false, pc := .ipiSwap ret })
  | ipiFences {ret : Ret x} (hpc : s.pc h = .ipiSwap ret) (hfences : (s.hart h).rfence = true) :
      Effect cfg s h .go (s.setHart h { s.hart h with
        smode := false, rfence := false, pc := .serve (.ipi (s.hart h).smode ret) })
  | ipiSmode {ret : Ret x} (hpc : s.pc h = .ipiSwap ret) (hfences : (s.hart h).rfence = false) :
      Effect cfg s h .go (s.setHart h { s.hart h with
        smode := false, rfence := false, ssip := (s.hart h).ssip || (s.hart h).smode, pc := ret.pc })
  | pop {e : Entry x} {queue : List (Entry x)} {site : Serve x} (hpc : s.pc h = .serve site)
      (hqueue : (s.hart h).queue = e :: queue) :
      Effect cfg s h .go (s.setHart h { s.hart h with queue := queue, pc := .fencing e site })
  | served {smode : Bool} {ret : Ret x} (hpc : s.pc h = .serve (.ipi smode ret))
      (hempty : (s.hart h).queue = []) :
      Effect cfg s h .go
        (s.setHart h { s.hart h with ssip := (s.hart h).ssip || smode, pc := ret.pc })
  | fencing {e : Entry x} {site : Serve x} (hpc : s.pc h = .fencing e site) :
      Effect cfg s h .go (fencing s h e site)
  | park {target : Nat} {state : CtxState} (hpc : s.pc h = .switchLock target state)
      (hlock : s.lock = false) : Effect cfg s h .go (contextPark s h target state)
  | restore {target : Nat} (hpc : s.pc h = .restore target) :
      Effect cfg s h .go (contextRestore s h target)
  | unpark {target : Nat} (hpc : s.pc h = .unpark target) :
      Effect cfg s h .go ((s.setParked target h false).goto h (.assign target))
  | assign {target : Nat} (hpc : s.pc h = .assign target) :
      Effect cfg s h .go ((s.setAssigned target h true).goto h (.arrive target))
  | arrive {target : Nat} (hpc : s.pc h = .arrive target) :
      Effect cfg s h .go (contextArrive s h target)

theorem step_hart {cfg : Config} {s t : Sys x} {h : Nat} {a : Act x}
    (hstep : step cfg s h a = some t) : h < cfg.harts ∧ cfg.present h = true := by
  unfold step at hstep
  dsimp only at hstep
  split at hstep
  · assumption
  · cases hstep

section Inversion

variable {cfg : Config} {s t : Sys x} {h : Nat} {a : Act x}

theorem smodeStep_effect (hpc : s.pc h = .smode) (hline : s.line h = false)
    (hstep : smodeStep cfg s h a = some t) : Effect cfg s h a t := by
  cases a with
  | run clear =>
    cases hstep
    exact .run hpc hline
  | call rq =>
    cases hstep
    exact .move (.call hpc hline)
  | switch target state =>
    simp only [smodeStep] at hstep
    split at hstep
    · next hok =>
      cases hstep
      exact .move (.switch hpc hline hok.1 hok.2)
    · cases hstep
  | suspend =>
    simp only [smodeStep] at hstep
    split at hstep
    · next hhsm =>
      cases hstep
      exact .suspend hpc hline hhsm
    · cases hstep
  | go | wake | platform => cases hstep

theorem domainIpiParked_effect {rq : Request x} {targets : List Nat} {i : Nat}
    (hpc : s.pc h = .parkedLock rq targets i) (hlock : s.lock = false) :
    Effect cfg s h .go (domainIpiParked s h rq targets i) := by
  unfold domainIpiParked
  dsimp only
  split
  · next hback => exact .parkedPost hpc hlock hback
  · next haway =>
    split
    · next hran => exact .parkedKeep hpc hlock haway hran
    · next hnone => exact .move (.parkedGone hpc haway (not_not.mp hnone))

theorem enqueue_effect {rq : Request x} {req : FenceReq x} {targets rest : List Nat}
    (hpc : s.pc h = .enqueue rq targets rest) (hreq : rq.fence = some req) :
    Effect cfg s h .go (enqueue s h rq req targets rest) := by
  cases rest with
  | nil => exact .move (.enqueued hpc)
  | cons i rest =>
    unfold enqueue
    dsimp only
    split
    · next hi =>
      subst hi
      exact .move (.enqueueSelf hpc)
    · next hi =>
      split
      · next hroom =>
        rw [setHart_hart_of_ne _ _ (Ne.symm hi)]
        exact .enqueue hpc hreq hi hroom
      · exact .move (.enqueueFull hpc hi)

theorem serve_effect {site : Serve x} (hpc : s.pc h = .serve site) :
    Effect cfg s h .go (serve s h site) := by
  unfold serve
  split
  · next hqueue => exact .pop hpc hqueue
  · next hempty => exact .served hpc hempty
  · next hempty => exact .move (.served hpc hempty)

theorem ipiSwap_effect {ret : Ret x} (hpc : s.pc h = .ipiSwap ret) :
    Effect cfg s h .go (ipiSwap s h ret) := by
  unfold ipiSwap
  dsimp only
  split_ifs with hfences
  · exact .ipiFences hpc hfences
  · exact .ipiSmode hpc (Bool.not_eq_true _ ▸ hfences)

theorem step_effect (hstep : step cfg s h a = some t) : Effect cfg s h a t := by
  unfold step at hstep
  dsimp only at hstep
  generalize hpc : s.pc h = pc at hstep
  split at hstep
  case isFalse => cases hstep
  split at hstep
  -- what the hart does not have is gone, and where it is checked both ways are left
  all_goals first
    | cases hstep
    | (split at hstep <;> first | cases hstep | skip)
    | skip
  · exact .move (.trap hpc ‹_›)
  · exact smodeStep_effect hpc (Bool.not_eq_true _ ▸ ‹_›) hstep
  · exact .move (.readAssigned hpc)
  · exact .move (.readState hpc)
  · exact .move (.check hpc)
  · exact .move (.checkParked hpc)
  · exact .post hpc ‹_›
  · exact .move (.postNone hpc (Bool.not_eq_true _ ▸ ‹_›))
  · exact .move (.posted hpc)
  · exact .raise hpc
  · exact .move (.parkedAny hpc)
  · exact .move (.parkedScan hpc)
  · exact domainIpiParked_effect hpc (Bool.not_eq_true _ ▸ ‹_›)
  · exact .parkedRaise hpc
  · obtain ⟨req, hreq, rfl⟩ := Option.map_eq_some_iff.mp hstep
    exact enqueue_effect hpc hreq
  · exact .fenceOr hpc
  · exact .move (.fenceNone hpc (Bool.not_eq_true _ ▸ ‹_›))
  · exact .fenceRaise hpc
  · exact .move (.fenceSelf hpc)
  · exact .move (.await hpc)
  · exact .move (.ret hpc)
  · exact .ipiClear hpc
  · exact .move (.ipiNone hpc (Bool.not_eq_true _ ▸ ‹_›))
  · exact ipiSwap_effect hpc
  · exact serve_effect hpc
  · exact .fencing hpc
  · exact .park hpc (Bool.not_eq_true _ ▸ ‹_›)
  · exact .restore hpc
  · exact .unpark hpc
  · exact .assign hpc
  · exact .arrive hpc
  · exact .platform hpc
  · exact .move (.asleepTrap hpc ‹_›)
  · exact .move (.wake hpc)
  · exact .woken hpc
  · exact .resumed hpc

theorem Effect.pc_other {i : Nat} (he : Effect cfg s h a t) (hi : i ≠ h) : t.pc i = s.pc i := by
  cases he with
  | move | parkedKeep | park | unpark | assign => exact goto_pc_of_ne _ _ hi _
  | run | suspend | platform | woken | resumed | ipiClear | ipiFences | ipiSmode | pop | served
  | restore | arrive =>
    exact congrArg Hart.pc (setHart_hart_of_ne _ _ hi _)
  | post | raise | parkedPost | parkedRaise | fenceOr | fenceRaise | fencing =>
    refine (tell_pc _ _ ?_ _ _).trans (if_neg hi)
    rfl
  | enqueue =>
    rw [Sys.pc, setHart_hart_of_ne _ _ hi, setHart_hart]
    split
    · next hj => rw [hj]; rfl
    · rfl

theorem Effect.domain_eq (he : Effect cfg s h a t) (i : Nat)
    (hne : i ≠ h ∨ ∀ target, s.pc h ≠ .arrive target) : t.domain i = s.domain i := by
  have hself : ∀ {u : Sys x} {hart : Hart x}, u.hart = s.hart → hart.domain = s.domain h →
      (u.setHart h hart).domain i = s.domain i := by
    intro u hart hu hd
    rw [Sys.domain, setHart_hart, hu]
    split
    · next hi => rw [hd, hi]
    · rfl
  cases he with
  | move | parkedKeep | park | unpark | assign => exact goto_field _ _ Hart.domain (fun _ _ => rfl) _ _
  | run | suspend | platform | woken | resumed | ipiClear | ipiFences | ipiSmode | pop | served
  | restore => exact hself rfl rfl
  | post | raise | parkedPost | parkedRaise | fenceOr | fenceRaise | fencing =>
    refine (tell_field _ _ Hart.domain (fun _ _ => rfl) _ _ _ _).trans ?_
    split
    · next hj => rw [hj]; rfl
    · rfl
  | @enqueue _ _ _ j =>
    rw [Sys.domain, setHart_hart, setHart_hart]
    split_ifs with hi hj
    · rw [hi]; rfl
    · rw [hj]; rfl
    · rfl
  | arrive hpc =>
    rcases hne with hi | hnot
    · exact congrArg Hart.domain (setHart_hart_of_ne _ _ hi _)
    · exact absurd hpc (hnot _)

theorem Effect.hsm_self (he : Effect cfg s h a t) : t.hsm h = s.hsm h ∨ t.hsm h ≠ .stopped := by
  cases he with
  | move | parkedKeep | park | unpark | assign =>
    exact .inl (goto_field _ _ Hart.hsm (fun _ _ => rfl) _ _)
  | suspend | woken | resumed =>
    refine .inr ?_
    rw [Sys.hsm, setHart_hart_self]
    nofun
  | @platform ok =>
    refine .inr ?_
    rw [Sys.hsm, setHart_hart_self]
    cases ok <;> nofun
  | run | ipiClear | ipiFences | ipiSmode | pop | served | restore | arrive =>
    refine .inl ((congrArg Hart.hsm (setHart_hart_self _ _ _)).trans ?_)
    rfl
  | post | raise | parkedPost | parkedRaise | fenceOr | fenceRaise | fencing =>
    refine .inl ((tell_field _ _ Hart.hsm (fun _ _ => rfl) _ _ _ _).trans ?_)
    split
    · next hj => rw [hj]; rfl
    · rfl
  | enqueue =>
    refine .inl ((congrArg Hart.hsm (setHart_hart_self _ _ _)).trans ?_)
    rfl

structure SameMasks (s t : Sys x) (i : Nat) : Prop where
  pc : t.pc i = s.pc i
  domain : t.domain i = s.domain i
  hsm : t.hsm i = s.hsm i
  state : ∀ d, (t.ctx d i).state = (s.ctx d i).state
  assigned : ∀ d, t.assigned d i = s.assigned d i
  parked : ∀ d, t.parked d i = s.parked d i

theorem Effect.other {i : Nat} (he : Effect cfg s h a t) (hi : i ≠ h) : SameMasks s t i := by
  refine ⟨he.pc_other hi, he.domain_eq i (.inl hi), ?_, ?_, ?_, ?_⟩
  · cases he with
    | move | parkedKeep | park | unpark | assign => exact goto_field _ _ Hart.hsm (fun _ _ => rfl) _ _
    | run | suspend | platform | woken | resumed | ipiClear | ipiFences | ipiSmode | pop | served
    | restore | arrive =>
      exact congrArg Hart.hsm (setHart_hart_of_ne _ _ hi _)
    | post | raise | parkedPost | parkedRaise | fenceOr | fenceRaise | fencing =>
      refine (tell_field _ _ Hart.hsm (fun _ _ => rfl) _ _ _ _).trans ?_
      split
      · next hj => rw [hj]; rfl
      · rfl
    | enqueue =>
      rw [Sys.hsm, setHart_hart_of_ne _ _ hi, setHart_hart]
      split
      · next hj => rw [hj]; rfl
      · rfl
  · intro d
    cases he with
    | @parkedKeep _ _ j =>
      simp only [goto, setHart_ctx, setCtx_ctx, update_update_apply]
      split
      · next heq => rw [heq.1, heq.2]
      · rfl
    | park =>
      simp [contextPark, goto, update_update_apply, hi]
    | restore => simp [contextRestore, update_update_apply, hi]
    | arrive => simp [contextArrive, update_update_apply, hi]
    | _ => rfl
  · intro d
    cases he with
    | restore => simp [contextRestore, update_update_apply, hi]
    | assign => simp [goto, update_update_apply, hi]
    | _ => rfl
  · intro d
    cases he with
    | park => simp [contextPark, goto, update_update_apply, hi]
    | unpark => simp [goto, update_update_apply, hi]
    | _ => rfl

end Inversion

end RiscvMonitor.Delivery
