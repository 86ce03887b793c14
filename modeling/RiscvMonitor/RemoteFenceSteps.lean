import RiscvMonitor.RemoteFences

/-!
# What a step of the fence protocol does

Said once, for the invariants to use.  Most steps move the hart that takes them
and touch none of the queues, counts and events; `Life` has those of the hart's
life cycle, `Moves` those of the protocol.
-/

namespace RiscvMonitor.RemoteFences

open Delivery (FenceReq Entry rfenceQueueLen)

variable {x : Xlen} {cfg : Config} {s t : Sys x} {h : Nat}

inductive Life (s : Sys x) (h : Nat) : Pc x → Pc x → Prop
  | interrupt (hline : s.line h = true) : Life s h .smode (.ipiClear .smode)
  | boot (target : Nat) : Life s h .smode (.bootPlat target)
  | booted (target : Nat) : Life s h (.bootPlat target) (.kick target)
  | bootFailed (target : Nat) : Life s h (.bootPlat target) .smode
  | stop : Life s h .smode .arrive
  | resumeReset (hsm : s.hsm h = .suspended) : Life s h .arrive .resumeReset
  | arrive (hsm : s.hsm h ≠ .suspended) : Life s h .arrive .park
  | park : Life s h .park .waitClear
  | reset : Life s h .resumeReset .enterClear
  | started (hsm : s.hsm h = .startPending) : Life s h .wait .enterClear
  | wfi : Life s h .wait (.ipiClear .wait)
  | waitOff : Life s h .wait .off
  | begin : Life s h .begin .smode
  | suspend (retentive : Bool) : Life s h .smode (.suspending retentive)
  | asleep (retentive : Bool) : Life s h (.suspending retentive) (.asleep retentive)
  | awake (retentive : Bool) : Life s h (.suspending retentive) .smode
  | wakeIpi (retentive : Bool) : Life s h (.asleep retentive) (.ipiClear (.asleep retentive))
  | wake (retentive : Bool) : Life s h (.asleep retentive) (.woken retentive)
  | asleepOff : Life s h (.asleep false) .off
  | wokenRetentive : Life s h (.woken true) .resumed
  | woken : Life s h (.woken false) .begin
  | resumed : Life s h .resumed .smode
  | on : Life s h .off .arrive

inductive Moves (cfg : Config) (s : Sys x) (h : Nat) : Pc x → Pc x → Prop
  | skip {req mask i} (hi : i < cfg.harts) (hnot : ¬ (i ∈ mask ∧ i ≠ h)) :
      Moves cfg s h (.enqueue req mask i) (.enqueue req mask (i + 1))
  | full {req mask i} (hi : i < cfg.harts) (hfull : (s.queue i).push ⟨req, h⟩ = none) :
      Moves cfg s h (.enqueue req mask i) (.sendOr req mask i true)
  | queued {req mask i} (hi : ¬ i < cfg.harts) :
      Moves cfg s h (.enqueue req mask i) (.fenceSelf req mask)
  | self {req mask} : Moves cfg s h (.fenceSelf req mask) (.await req mask)
  | await {req mask} : Moves cfg s h (.await req mask) (.serve (.await req mask))
  | done {req mask} (hout : s.out h = 0) : Moves cfg s h (.await req mask) (.ret req mask)
  | ret {req mask} : Moves cfg s h (.ret req mask) .smode
  | served {site} (hempty : (s.queue h).contents = []) : Moves cfg s h (.serve site) site.pc

inductive Raises (i : Nat) : Pc x → Pc x → Prop
  | full {req mask} : Raises i (.sendRaise req mask i true) (.ipiClear (.enqueue req mask i))
  | sent {req mask} : Raises i (.sendRaise req mask i false) (.enqueue req mask (i + 1))
  | kick : Raises i (.kick i) .smode

inductive Lowers : Pc x → Pc x → Prop
  | ipi {ret} : Lowers (.ipiClear ret) (.ipiSwap ret)
  | wait : Lowers .waitClear .waitZero
  | enter : Lowers .enterClear .enterZero

inductive Zeroes (s : Sys x) (h : Nat) : Pc x → Pc x → Prop
  | fences {ret} (hrfence : s.rfence h = true) : Zeroes s h (.ipiSwap ret) (.serve (.ipi ret))
  | nothing {ret} (hrfence : s.rfence h = false) : Zeroes s h (.ipiSwap ret) ret.pc
  | wait : Zeroes s h .waitZero (.serve .wait)
  | enter : Zeroes s h .enterZero .begin

inductive Effect (cfg : Config) (s : Sys x) (h : Nat) : Sys x → Prop
  | idle (hpc : s.pc h = .smode) : Effect cfg s h s
  /-- Of the other harts none is suspended by it. -/
  | life {q} (hsm : Nat → HsmState) (hlife : Life s h (s.pc h) q)
      (hother : ∀ i ≠ h, hsm i = .suspended → s.hsm i = .suspended) :
      Effect cfg s h ({ s with hsm := hsm }.goto h q)
  | move {q} (hmove : Moves cfg s h (s.pc h) q) : Effect cfg s h (s.goto h q)
  | request (req : FenceReq x) (mask : List Nat) (hpc : s.pc h = .smode) :
      Effect cfg s h ((s.setOut h 0).goto h (.enqueue req mask 0))
  | push {req mask i q} (hpc : s.pc h = .enqueue req mask i) (hi : i < cfg.harts)
      (hmask : i ∈ mask) (hne : i ≠ h) (hpush : (s.queue i).push ⟨req, h⟩ = some q) :
      Effect cfg s h
        (((s.setQueue i q).setOut h (s.out h + 1)).goto h (.sendOr req mask i false))
  | sendOr {req mask i full} (hpc : s.pc h = .sendOr req mask i full) :
      Effect cfg s h ((s.setRfence i true).goto h (.sendRaise req mask i full))
  | raise {i q} (hraise : Raises i (s.pc h) q) : Effect cfg s h ((s.setLine i true).goto h q)
  | lower {q} (hlower : Lowers (s.pc h) q) : Effect cfg s h ((s.setLine h false).goto h q)
  | zero {q} (hzero : Zeroes s h (s.pc h) q) : Effect cfg s h ((s.setRfence h false).goto h q)
  | pop {site e q} (hpc : s.pc h = .serve site) (hpop : (s.queue h).pop = some (e, q)) :
      Effect cfg s h ((s.setQueue h q).goto h (.fencing e site))
  | fenced {site e} (hpc : s.pc h = .fencing e site) :
      Effect cfg s h ((s.setOut e.requester (s.out e.requester - 1)).goto h (.serve site))

/-! ### Every step is one of these -/

variable {q : Pc x}

theorem Effect.of_life (hlife : Life s h (s.pc h) q) : Effect cfg s h (s.goto h q) :=
  .life s.hsm hlife fun _ _ hsm => hsm

theorem Effect.of_self (state : HsmState) (hlife : Life s h (s.pc h) q) :
    Effect cfg s h ((s.setHsm h state).goto h q) := by
  refine .life _ hlife ?_
  intro i hne hsm
  rwa [Function.update_of_ne hne] at hsm

variable {target : Nat}

theorem Effect.of_other {state : HsmState} (hstate : state ≠ .suspended)
    (hlife : Life s h (s.pc h) q) : Effect cfg s h ((s.setHsm target state).goto h q) := by
  refine .life _ hlife ?_
  intro i _ hsm
  by_cases hi : i = target
  · rw [hi, Function.update_self] at hsm
    exact absurd hsm hstate
  · rwa [Function.update_of_ne hi] at hsm

variable {req : FenceReq x} {mask : List Nat}

theorem rfenceRequest_effect (hpc : s.pc h = .smode) :
    Effect cfg s h (rfenceRequest cfg s h req mask) := by
  unfold rfenceRequest
  split
  · exact .idle hpc
  · exact .request req mask hpc

theorem enqueue_effect {i : Nat} (hpc : s.pc h = .enqueue req mask i) :
    Effect cfg s h (enqueue cfg s h req mask i) := by
  unfold enqueue
  split
  case isTrue hi =>
    split
    case isTrue hmask =>
      split
      case h_1 q hpush => exact .push hpc hi hmask.1 hmask.2 hpush
      case h_2 hfull => exact .move (hpc ▸ .full hi hfull)
    case isFalse hnot => exact .move (hpc ▸ .skip hi hnot)
  case isFalse hi => exact .move (hpc ▸ .queued hi)

theorem serve_effect {site : Serve x} (hpc : s.pc h = .serve site) :
    Effect cfg s h (serve s h site) := by
  unfold serve
  split
  case h_1 e q hpop => exact .pop hpc hpop
  case h_2 hpop => exact .move (hpc ▸ .served (Ring.pop_eq_none.mp hpop))

theorem hartBoot_effect (hpc : s.pc h = .smode) :
    Effect cfg s h (hartBoot cfg s h target) := by
  unfold hartBoot
  split
  · exact .of_other (by decide) (hpc ▸ .boot target)
  · exact .idle hpc

theorem stop_effect (hpc : s.pc h = .smode) :
    Effect cfg s h (if s.hsm h = .started then (s.setHsm h .stopPending).goto h .arrive else s) := by
  split
  · exact .of_self _ (hpc ▸ .stop)
  · exact .idle hpc

theorem suspend_effect (retentive : Bool) (hpc : s.pc h = .smode) :
    Effect cfg s h (if s.hsm h = .started then
      (s.setHsm h .suspendPending).goto h (.suspending retentive) else s) := by
  split
  · exact .of_self _ (hpc ▸ .suspend retentive)
  · exact .idle hpc

theorem bootFailed_effect (hpc : s.pc h = .bootPlat target) :
    Effect cfg s h
      ((if s.hsm target = .startPending then s.setHsm target .stopped else s).goto h .smode) := by
  split
  · exact .of_other (by decide) (hpc ▸ .bootFailed target)
  · exact .of_life (hpc ▸ .bootFailed target)

theorem await_effect (hpc : s.pc h = .await req mask) :
    Effect cfg s h
      (s.goto h (if s.out h = 0 then .ret req mask else .serve (.await req mask))) := by
  split
  case isTrue hout => exact .move (hpc ▸ .done hout)
  case isFalse => exact .move (hpc ▸ .await)

theorem ipiSwap_effect {ret : Ret x} (hpc : s.pc h = .ipiSwap ret) :
    Effect cfg s h ((s.setRfence h false).goto h
      (if s.rfence h then .serve (.ipi ret) else ret.pc)) := by
  split
  case isTrue hrfence => exact .zero (hpc ▸ .fences hrfence)
  case isFalse hrfence => exact .zero (hpc ▸ .nothing (Bool.eq_false_iff.mpr hrfence))

theorem arrive_effect (hpc : s.pc h = .arrive) :
    Effect cfg s h (s.goto h (if s.hsm h = .suspended then .resumeReset else .park)) := by
  split
  case isTrue hsm => exact .of_life (hpc ▸ .resumeReset hsm)
  case isFalse hsm => exact .of_life (hpc ▸ .arrive hsm)

theorem wait_effect (hpc : s.pc h = .wait) :
    Effect cfg s h
      (s.goto h (if s.hsm h = .startPending then .enterClear else .ipiClear .wait)) := by
  split
  case isTrue hsm => exact .of_life (hpc ▸ .started hsm)
  case isFalse => exact .of_life (hpc ▸ .wfi)

theorem sendRaise_effect {i : Nat} {full : Bool} (hpc : s.pc h = .sendRaise req mask i full) :
    Effect cfg s h ((s.setLine i true).goto h
      (if full then .ipiClear (.enqueue req mask i) else .enqueue req mask (i + 1))) := by
  cases full with
  | true => exact .raise (hpc ▸ .full)
  | false => exact .raise (hpc ▸ .sent)

theorem woken_effect {retentive : Bool} (hpc : s.pc h = .woken retentive) :
    Effect cfg s h ((s.setHsm h .resumePending).goto h (if retentive then .resumed else .begin)) := by
  cases retentive with
  | true => exact .of_self _ (hpc ▸ .wokenRetentive)
  | false => exact .of_self _ (hpc ▸ .woken)

theorem advance_effect {a : Act x} (hadv : advance cfg s h (s.pc h) a = some t) :
    Effect cfg s h t := by
  generalize hpc : s.pc h = pc at hadv
  unfold advance at hadv
  split at hadv
  all_goals first | cases hadv | (split at hadv <;> cases hadv)
  · exact rfenceRequest_effect hpc
  · exact hartBoot_effect hpc
  · exact stop_effect hpc
  · exact suspend_effect _ hpc
  · exact .of_life (hpc ▸ .interrupt ‹_›)
  · exact enqueue_effect hpc
  · exact .sendOr hpc
  · exact sendRaise_effect hpc
  · exact .move (hpc ▸ .self)
  · exact await_effect hpc
  · exact .move (hpc ▸ .ret)
  · exact .lower (hpc ▸ .ipi)
  · exact ipiSwap_effect hpc
  · exact serve_effect hpc
  · exact .fenced hpc
  · exact .of_life (hpc ▸ .booted _)
  · exact bootFailed_effect hpc
  · exact .raise (hpc ▸ .kick)
  · exact arrive_effect hpc
  · exact .of_self _ (hpc ▸ .park)
  · exact .of_self _ (hpc ▸ .reset)
  · exact .lower (hpc ▸ .wait)
  · exact .zero (hpc ▸ .wait)
  · exact wait_effect hpc
  · exact .of_life (hpc ▸ .waitOff)
  · exact .lower (hpc ▸ .enter)
  · exact .zero (hpc ▸ .enter)
  · exact .of_self _ (hpc ▸ .begin)
  · exact .of_self _ (hpc ▸ .asleep _)
  · exact .of_self _ (hpc ▸ .awake _)
  · exact .of_life (hpc ▸ .wakeIpi _)
  · exact .of_life (hpc ▸ .wake _)
  · exact .of_life (hpc ▸ .asleepOff)
  · exact woken_effect hpc
  · exact .of_self _ (hpc ▸ .resumed)
  · exact .of_life (hpc ▸ .on)

theorem step_effect {a : Act x} (hstep : step cfg s (h, a) = some t) :
    h < cfg.harts ∧ Effect cfg s h t := by
  unfold step at hstep
  split at hstep
  case isTrue hh => exact ⟨hh.1, advance_effect hstep⟩
  case isFalse => cases hstep

end RiscvMonitor.RemoteFences
