import RiscvMonitor.Lifecycle

/-!
# What a step of a hart does

The moves of `domain_context.c` in terms of the hart's own contexts and masks, and one
inversion lemma for the step function.  Everything that is proved of runs is proved
from this list.
-/

namespace RiscvMonitor.Lifecycle

open Function (update update_apply update_idem update_self)
open Sys

variable {x : Xlen}

variable {i : Nat}

section Accessors

variable (s : Sys x) (h : Nat)

@[simp] theorem setHart_domain (hart : Hart x) (i : Nat) :
    (s.setHart h hart).domain i = if i = h then hart.domain else s.domain i := by
  simp only [Sys.domain, setHart_hart, update_apply, apply_ite Hart.domain]

@[simp] theorem setHart_hsm (hart : Hart x) (i : Nat) :
    (s.setHart h hart).hsm i = if i = h then hart.hsm else s.hsm i := by
  simp only [Sys.hsm, setHart_hart, update_apply, apply_ite Hart.hsm]

@[simp] theorem setHart_pc (hart : Hart x) (i : Nat) :
    (s.setHart h hart).pc i = if i = h then hart.pc else s.pc i := by
  simp only [Sys.pc, setHart_hart, update_apply, apply_ite Hart.pc]

@[simp] theorem goto_domain (pc : Pc x) (i : Nat) : (s.goto h pc).domain i = s.domain i := by
  rw [goto, setHart_domain, ite_eq_right_iff]
  rintro rfl
  rfl

@[simp] theorem goto_hsm (pc : Pc x) (i : Nat) : (s.goto h pc).hsm i = s.hsm i := by
  rw [goto, setHart_hsm, ite_eq_right_iff]
  rintro rfl
  rfl

@[simp] theorem goto_pc (pc : Pc x) (i : Nat) :
    (s.goto h pc).pc i = if i = h then pc else s.pc i := by
  simp [goto]

theorem goto_pc_of_ne (hi : i ≠ h) (pc : Pc x) : (s.goto h pc).pc i = s.pc i := by
  rw [goto_pc, if_neg hi]

theorem goto_pc_self (pc : Pc x) : (s.goto h pc).pc h = pc := by
  rw [goto_pc, if_pos rfl]

@[simp] theorem setHsm_domain (hsm : HsmState) (i : Nat) :
    (s.setHsm h hsm).domain i = s.domain i := by
  rw [setHsm, setHart_domain, ite_eq_right_iff]
  rintro rfl
  rfl

@[simp] theorem setHsm_hsm (hsm : HsmState) (i : Nat) :
    (s.setHsm h hsm).hsm i = if i = h then hsm else s.hsm i := by
  simp [setHsm]

@[simp] theorem setHsm_pc (hsm : HsmState) (i : Nat) : (s.setHsm h hsm).pc i = s.pc i := by
  rw [setHsm, setHart_pc, ite_eq_right_iff]
  rintro rfl
  rfl

@[simp] theorem setCtx_domain (d i j : Nat) (c : Ctx x) : (s.setCtx d i c).domain j = s.domain j :=
  rfl

end Accessors

/-! ### The switch -/

/-- The hart has left for the context of domain `d`, and nothing else has changed. -/
structure Switched (s t : Sys x) (h d : Nat) (next : Pc x) : Prop where
  hart : ∀ i, i ≠ h → t.hart i = s.hart i
  domain : t.domain h = d
  hsm : t.hsm h = s.hsm h ∨ t.hsm h = .stopPending
  pc : t.pc h = next ∨ t.pc h = .forceStop
  ctx : ∀ d' i, ¬ (d' = d ∧ i = h) → t.ctx d' i = s.ctx d' i
  state : (t.ctx d h).state = .running
  caller : (t.ctx d h).caller = (s.ctx d h).caller
  parked : ∀ d' i, t.parked d' i = if d' = d ∧ i = h then false else s.parked d' i
  assigned : ∀ d' i, t.assigned d' i =
    if d' = d ∧ i = h then true else if d' = s.domain h ∧ i = h then false else s.assigned d' i
  stopping : t.stopping = s.stopping
  stopLock : t.stopLock = s.stopLock
  visitor : t.visitor = s.visitor
  back : t.back = s.back

variable {s : Sys x} {h d : Nat}

theorem contextRestore_switched (next : Pc x) :
    Switched s ((contextRestore s h d).goto h next) h d next where
  hart i hi := by simp [contextRestore, goto, hi]
  domain := by simp [contextRestore]
  hsm := .inl (by simp only [goto_hsm, contextRestore, setHart_hsm, if_true]; rfl)
  pc := .inl (by simp)
  ctx d' i hne := by simp [contextRestore, goto, update_update_apply, hne]
  state := by simp [contextRestore, goto, update_update_apply]
  caller := by simp [contextRestore, goto, update_update_apply]
  parked d' i := by simp [contextRestore, goto, update_update_apply]
  assigned d' i := by simp [contextRestore, goto, update_update_apply]
  stopping := rfl
  stopLock := rfl
  visitor := rfl
  back := rfl

structure Prepared (s s' : Sys x) (h d : Nat) : Prop where
  hart : ∀ i, i ≠ h → s'.hart i = s.hart i
  domain : s'.domain h = s.domain h
  hsm : s'.hsm h = s.hsm h ∨ s'.hsm h = .stopPending
  ctx : ∀ d' i, ¬ (d' = d ∧ i = h) → s'.ctx d' i = s.ctx d' i
  caller : (s'.ctx d h).caller = (s.ctx d h).caller
  parked : s'.parked = s.parked
  assigned : s'.assigned = s.assigned
  stopping : s'.stopping = s.stopping
  stopLock : s'.stopLock = s.stopLock
  visitor : s'.visitor = s.visitor
  back : s'.back = s.back

variable {s' t : Sys x} {next : Pc x}

theorem Prepared.switched (hp : Prepared s s' h d)
    (hs : Switched s' t h d next) : Switched s t h d next where
  hart i hi := (hs.hart i hi).trans (hp.hart i hi)
  domain := hs.domain
  hsm := by
    rcases hs.hsm with heq | hstop
    · rw [heq]
      exact hp.hsm
    · exact .inr hstop
  pc := hs.pc
  ctx d' i hne := (hs.ctx d' i hne).trans (hp.ctx d' i hne)
  state := hs.state
  caller := hs.caller.trans hp.caller
  parked d' i := by rw [hs.parked, hp.parked]
  assigned d' i := by rw [hs.assigned, hp.assigned, hp.domain]
  stopping := hs.stopping.trans hp.stopping
  stopLock := hs.stopLock.trans hp.stopLock
  visitor := hs.visitor.trans hp.visitor
  back := hs.back.trans hp.back

theorem prepared_setCtx {c : Ctx x} (hc : c.caller = (s.ctx d h).caller) :
    Prepared s (s.setCtx d h c) h d where
  hart _ _ := rfl
  domain := rfl
  hsm := .inl rfl
  ctx d' i hne := by simp [update_update_apply, hne]
  caller := by simp [hc]
  parked := rfl
  assigned := rfl
  stopping := rfl
  stopLock := rfl
  visitor := rfl
  back := rfl

theorem Prepared.setHsm (hp : Prepared s s' h d) :
    Prepared s (s'.setHsm h .stopPending) h d where
  hart i hi := by simp [Sys.setHsm, hi, hp.hart i hi]
  domain := by simp [hp.domain]
  hsm := .inr (by simp)
  ctx := hp.ctx
  caller := hp.caller
  parked := hp.parked
  assigned := hp.assigned
  stopping := hp.stopping
  stopLock := hp.stopLock
  visitor := hp.visitor
  back := hp.back

theorem Switched.forced (hs : Switched s t h d .forceStop) :
    Switched s t h d next :=
  { hs with pc := .inr (hs.pc.elim id id) }

theorem contextSwitch_switched (cfg : Config x) (s : Sys x) (h d : Nat) (error : SbiError)
    (value : Word x) (next : Pc x) :
    Switched s (contextSwitch cfg s h d error value next) h d next := by
  unfold contextSwitch
  dsimp only
  split
  · split
    · refine Switched.forced (Prepared.switched ?_ (contextRestore_switched .forceStop))
      exact Prepared.setHsm (prepared_setCtx rfl)
    · refine Prepared.switched ?_ (contextRestore_switched next)
      exact prepared_setCtx rfl
  · refine Prepared.switched ?_ (contextRestore_switched next)
    exact prepared_setCtx rfl

/-- How the context of the domain that is left stays behind, and the link of the
    one that comes. -/
structure Farewell where
  state : CtxState
  caller : Option Nat
  parked : Bool
  link : Option Nat

structure Moved (s t : Sys x) (h d : Nat) (w : Farewell) : Prop where
  hart : ∀ i, i ≠ h → t.hart i = s.hart i
  domain : t.domain h = d
  hsm : t.hsm h = s.hsm h ∨ t.hsm h = .stopPending
  pc : t.pc h = .trapExit ∨ t.pc h = .smode ∨ t.pc h = .forceStop
  other : ∀ d' i, i ≠ h → t.ctx d' i = s.ctx d' i
  state : ∀ d', (t.ctx d' h).state =
    if d' = d then .running else if d' = s.domain h then w.state else (s.ctx d' h).state
  caller : ∀ d', (t.ctx d' h).caller =
    if d' = d then w.link else if d' = s.domain h then w.caller else (s.ctx d' h).caller
  parked : ∀ d' i, t.parked d' i =
    if d' = d ∧ i = h then false else if d' = s.domain h ∧ i = h then w.parked else s.parked d' i
  assigned : ∀ d' i, t.assigned d' i =
    if d' = d ∧ i = h then true else if d' = s.domain h ∧ i = h then false else s.assigned d' i
  stopping : t.stopping = s.stopping
  stopLock : t.stopLock = s.stopLock
  visitor : t.visitor = s.visitor

structure Leaving (s s' : Sys x) (h d : Nat) (w : Farewell) : Prop where
  hart : s'.hart = s.hart
  other : ∀ d' i, i ≠ h → s'.ctx d' i = s.ctx d' i
  rest : ∀ d', d' ≠ d → d' ≠ s.domain h → s'.ctx d' h = s.ctx d' h
  state : (s'.ctx (s.domain h) h).state = w.state
  caller : (s'.ctx (s.domain h) h).caller = w.caller
  link : (s'.ctx d h).caller = w.link
  parked : ∀ d' i, s'.parked d' i = if d' = s.domain h ∧ i = h then w.parked else s.parked d' i
  assigned : s'.assigned = s.assigned
  stopping : s'.stopping = s.stopping
  stopLock : s'.stopLock = s.stopLock
  visitor : s'.visitor = s.visitor

theorem Leaving.read {w : Farewell} {α : Type} (hl : Leaving s s' h d w)
    (hs : Switched s' t h d next) (f : Ctx x → α) {new old : α} (hnew : f (t.ctx d h) = new)
    (hold : f (s'.ctx (s.domain h) h) = old) (d' : Nat) : f (t.ctx d' h) =
      if d' = d then new else if d' = s.domain h then old else f (s.ctx d' h) := by
  by_cases hd : d' = d
  · rw [if_pos hd, hd, hnew]
  · rw [if_neg hd, hs.ctx d' h fun hc => hd hc.1]
    by_cases hcur : d' = s.domain h
    · rw [if_pos hcur, hcur, hold]
    · rw [if_neg hcur, hl.rest d' hd hcur]

theorem Leaving.moved {w : Farewell} (hl : Leaving s s' h d w)
    (hs : Switched s' t h d next) (hnext : next = .trapExit ∨ next = .smode) : Moved s t h d w where
  hart i hi := by rw [hs.hart i hi, hl.hart]
  domain := hs.domain
  hsm := by
    have hsame : s'.hsm h = s.hsm h := congrArg Hart.hsm (congrFun hl.hart h)
    rw [← hsame]
    exact hs.hsm
  pc := by
    rcases hs.pc with heq | hforce
    · rw [heq]
      exact hnext.imp_right .inl
    · exact .inr (.inr hforce)
  other d' i hi := (hs.ctx d' i fun hc => hi hc.2).trans (hl.other d' i hi)
  state d' := hl.read hs Ctx.state hs.state hl.state d'
  caller d' := hl.read hs Ctx.caller (hs.caller.trans hl.link) hl.caller d'
  parked d' i := by rw [hs.parked, hl.parked]
  assigned d' i := by
    have hsame : s'.domain h = s.domain h := congrArg Hart.domain (congrFun hl.hart h)
    rw [hs.assigned, hl.assigned, hsame]
  stopping := hs.stopping.trans hl.stopping
  stopLock := hs.stopLock.trans hl.stopLock
  visitor := hs.visitor.trans hl.visitor

theorem Moved.of_setCtx {w : Farewell} {c : Ctx x}
    (hm : Moved (s.setCtx d h c) t h d w) : Moved s t h d w :=
  { hm with
    other := fun d' i hi => by
      rw [hm.other d' i hi]
      simp [update_update_apply, hi]
    state := fun d' => by
      rw [hm.state]
      by_cases hd : d' = d
      · simp [hd]
      · simp [hd, update_update_apply]
    caller := fun d' => by
      rw [hm.caller]
      by_cases hd : d' = d
      · simp [hd]
      · simp [hd, update_update_apply] }

/-! ### The three moves -/

variable {target : Nat} {quiet : Bool}

theorem enterCheck_success {cfg : Config x}
    (hok : enterCheck cfg s h target quiet = .success) :
    target ≠ s.domain h ∧ s.stopping target = false ∧ s.stopping (s.domain h) = false ∧
      (s.ctx target h).state ≠ .running ∧ (s.ctx target h).state ≠ .calling := by
  unfold enterCheck at hok
  dsimp only at hok
  split_ifs at hok with hparam _ hstop hbusy
  obtain ⟨hne, -⟩ := not_or.mp hparam
  obtain ⟨htarget, hcur⟩ := not_or.mp hstop
  obtain ⟨hrun, hcall⟩ := not_or.mp hbusy
  exact ⟨hne, Bool.not_eq_true _ ▸ htarget, Bool.not_eq_true _ ▸ hcur, hrun, hcall⟩

variable {arg : Word x}

theorem enter_moved {cfg : Config x}
    (hok : enterCheck cfg s h target quiet = .success) :
    Moved s (enter cfg s h target arg quiet).1 h target
      ⟨.calling, (s.cur h).caller, true, some (s.domain h)⟩ := by
  have hne := (enterCheck_success hok).1
  unfold enter
  rw [hok]
  dsimp only
  refine Leaving.moved ?_ (contextSwitch_switched ..) (.inl rfl)
  exact
    { hart := rfl
      other := fun d' i hi => by simp [contextPark, update_update_apply, hi]
      rest := fun d' hd hcur => by simp [contextPark, update_update_apply, hd, hcur]
      state := by simp [contextPark, update_update_apply, hne.symm]
      caller := by simp [contextPark, update_update_apply, hne.symm]
      link := by simp
      parked := fun d' i => by simp [contextPark, update_update_apply]
      assigned := rfl
      stopping := rfl
      stopLock := rfl
      visitor := rfl }

variable {value : Word x}

theorem leaveFor_moved {cfg : Config x} (hne : d ≠ s.domain h) :
    Moved s (leaveFor cfg s h d value quiet) h d ⟨.idle, none, true, (s.ctx d h).caller⟩ := by
  unfold leaveFor
  dsimp only
  refine Leaving.moved ?_ (contextSwitch_switched ..) (.inl rfl)
  exact
    { hart := rfl
      other := fun d' i hi => by simp [contextPark, update_update_apply, hi]
      rest := fun d' hd hcur => by simp [contextPark, update_update_apply, hcur]
      state := by simp [contextPark, update_update_apply]
      caller := by simp [contextPark, update_update_apply, Sys.cur]
      link := by simp [contextPark, update_update_apply, hne]
      parked := fun d' i => by simp [contextPark, update_update_apply]
      assigned := rfl
      stopping := rfl
      stopLock := rfl
      visitor := rfl }

theorem contextSwitch_ret {cfg : Config x} {error : SbiError}
    (hran : (s.ctx d h).state ≠ .none) (hquiet : (s.ctx d h).quiet = false) :
    ((contextSwitch cfg s h d error value next).ctx d h).ret = some (error, value) := by
  unfold contextSwitch
  dsimp only
  rw [if_neg hran]
  simp [contextRestore, goto, update_update_apply, hquiet]

theorem Sys.callerWaits_iff :
    s.callerWaits d h = true ↔ ∃ c, (s.ctx d h).caller = some c ∧ (s.ctx c h).state = .calling := by
  unfold callerWaits
  cases (s.ctx d h).caller with
  | none => simp
  | some c => simp

theorem stopSelf_moved {cfg : Config x} {inCall : Bool}
    (hcaller : (s.cur h).caller = some d) (hwaits : s.callerWaits (s.domain h) h = true)
    (hne : d ≠ s.domain h) :
    Moved s (stopSelf cfg s h inCall) h d
        ⟨.none, none, s.parked (s.domain h) h, (s.ctx d h).caller⟩ ∧
      ∃ back, (stopSelf cfg s h inCall).back = update s.back h (s.back h <|> some back) ∧
        back.domain = d ∧ (inCall = false → back.quiet = false → back.ret = some (.failed, 0)) := by
  have hstate : (s.ctx d h).state = .calling := by
    obtain ⟨c, hc, hcalling⟩ := callerWaits_iff.mp hwaits
    change (s.cur h).caller = some c at hc
    rw [hcaller] at hc
    cases hc
    exact hcalling
  unfold stopSelf
  simp only [hcaller, hwaits]
  have hleaving : Leaving s (s.setCtx (s.domain h) h { s.cur h with state := .none, caller := none })
      h d ⟨.none, none, s.parked (s.domain h) h, (s.ctx d h).caller⟩ :=
    { hart := rfl
      other := fun d' i hi => by simp [update_update_apply, hi]
      rest := fun d' hd hcur => by simp [update_update_apply, hcur]
      state := by simp
      caller := by simp
      link := by simp [update_update_apply, hne]
      parked := fun d' i => by
        by_cases hi : d' = s.domain h ∧ i = h
        · simp [hi]
        · simp [hi]
      assigned := rfl
      stopping := rfl
      stopLock := rfl
      visitor := rfl }
  constructor
  · have hm := hleaving.moved (contextSwitch_switched cfg _ h d .failed 0
      (if inCall then .trapExit else .smode)) (by cases inCall <;> simp)
    exact { hm with }
  · refine ⟨_, rfl, rfl, ?_⟩
    intro hcall hquiet
    dsimp only at hquiet ⊢
    simp only [hcall, Bool.false_eq_true, if_false]
    apply contextSwitch_ret
    · simp [update_update_apply, hne, hstate]
    · simp [update_update_apply, hne, hquiet]

/-! ### The inversion lemma -/

def Pc.stops : Pc x → Option Nat
  | .stopSection d | .stopBarrier d | .stopScan d _ _ | .stopCheck d _ _ | .stopDone d
  | .stopUnlock d => some d
  | _ => none

def Pc.marks : Pc x → Option Nat
  | .stopBarrier d | .stopScan d _ _ | .stopCheck d _ _ | .stopDone d => some d
  | _ => none

/-- The scan so far has not found a hart of `d` among the first `n`. -/
def Pc.scanned (cfg : Config x) : Pc x → Option (Nat × Nat)
  | .stopScan d n false | .stopCheck d n false => some (d, n)
  | .stopDone d => some (d, cfg.harts)
  | _ => none

def Pc.waiting : Pc x → Bool
  | .off | .arrive | .park | .wait => true
  | _ => false

variable {pc : Pc x}

theorem Pc.marks_of_stops (h : pc.stops = none) : pc.marks = none := by
  cases pc <;> first | rfl | cases h

structure Pc.Away (pc : Pc x) : Prop where
  stops : pc.stops = none
  waiting : pc.waiting = false

structure OwnMove (s : Sys x) (h : Nat) (hart : Hart x) : Prop where
  domain : hart.domain = s.domain h
  stops : hart.pc.stops = (s.pc h).stops
  marks : hart.pc.marks = (s.pc h).marks
  /-- It becomes stopped at the end of its way to the wait loop only. -/
  becomes : hart.hsm = .stopped → s.hsm h = .stopped ∨ s.pc h = .park

variable {hart : Hart x}

theorem OwnMove.plain (hdomain : hart.domain = s.domain h)
    (hold : (s.pc h).stops = none) (hnew : hart.pc.stops = none)
    (hhsm : hart.hsm = .stopped → s.hsm h = .stopped ∨ s.pc h = .park) : OwnMove s h hart where
  domain := hdomain
  stops := hnew.trans hold.symm
  marks := (Pc.marks_of_stops hnew).trans (Pc.marks_of_stops hold).symm
  becomes := hhsm

inductive Goes (cfg : Config x) (s : Sys x) (h : Nat) (a : Act x) : Pc x → Pc x → Prop
  | arrives : Goes cfg s h a .off .arrive
  | resets (hhsm : s.hsm h = .suspended) : Goes cfg s h a .arrive .resumeReset
  | parks : Goes cfg s h a .arrive .park
  | wakes (hhsm : s.hsm h = .startPending) : Goes cfg s h a .wait .enter
  | powersDown : Goes cfg s h a .wait .off
  | marks : Goes cfg s h a .enter .started
  | begins : Goes cfg s h a .started .begin
  | traps : Goes cfg s h a .smode .trapExit
  | returns : Goes cfg s h a .trapExit .smode
  | giveUp {pc : Pc x} (hpc : pc = .started ∨ pc = .trapExit ∨ pc = .woken false) :
      Goes cfg s h a pc (.stopSelf false)
  | halts {inCall : Bool} : Goes cfg s h a (.stopSelf inCall) .forceStop
  | switches {d : Nat} (hbridge : cfg.bridge (s.domain h) d = true)
      (hact : a = .call (.switchTo d)) :
      Goes cfg s h a .smode (.switchTo d)
  | refused {d : Nat} : Goes cfg s h a (.switchTo d) .trapExit
  | yields {owners : List Nat} :
      Goes cfg s h a .smode
        (.yield (none :: (owners.filter (cfg.bridge · (s.domain h))).map some))
  | offers {first : Option Nat} {firsts : List (Option Nat)} :
      Goes cfg s h a (.yield (first :: firsts)) (.yield firsts)
  | gaveUp : Goes cfg s h a (.yield []) .trapExit
  /-- `hsm_hart_start()` passes its checks. -/
  | asks {target : Nat} {addr arg : Word x} (hact : a = .call (.hartStart target addr arg))
      (hassigned : s.assigned (s.domain h) target = true)
      (hentry : cfg.entryOk (s.domain h) addr = true) :
      Goes cfg s h a .smode (.bootLock target addr arg .supervisor .trapExit)
  /-- `domain_start()` passes its checks, in a call or at boot. -/
  | starts {pc : Pc x} {d i : Nat} {cont : Cont}
      (hpc : (pc = .smode ∧ a = .call (.domainStart d) ∧ cont = .trapExit) ∨
        (pc = .domainsStart d ∧ a = .go ∧ cont = .domainsStart (d + 1)))
      (hboot : (cfg.domain d).bootHart = some i) (hassigned : s.assigned d i = true)
      (hentry : cfg.entryOk d (cfg.domain d).nextAddr = true) :
      Goes cfg s h a pc (.bootLock i (cfg.domain d).nextAddr ((cfg.domain d).nextArg1.getD cfg.fdt)
        (cfg.domain d).nextMode cont)
  | unasked {target : Nat} {addr arg : Word x} {mode : NextMode} {cont : Cont} :
      Goes cfg s h a (.bootLock target addr arg mode cont) cont.pc
  | skips {d : Nat} : Goes cfg s h a (.domainsStart d) (.domainsStart (d + 1))
  | rests {d : Nat} : Goes cfg s h a (.domainsStart d) .arrive
  | wakesUp {retentive : Bool} : Goes cfg s h a (.asleep retentive) (.woken retentive)
  | sleepsOn : Goes cfg s h a (.asleep false) .off
  | goesOn : Goes cfg s h a (.woken false) (.resuming false)
  | locks {d : Nat} : Goes cfg s h a .smode (.stopSection d)
  /-- What the scan passes over is not there, or is stopped. -/
  | stopping {pc pc' : Pc x} {d : Nat} (hold : pc.stops = some d) (hnew : pc'.stops = some d)
      (hscan : ∀ d n, pc'.scanned cfg = some (d, n) → ∀ j < n, j ≠ h → cfg.present j = true →
        s.assigned d j = false ∨ s.hsm j = .stopped ∨
          ∃ m, pc.scanned cfg = some (d, m) ∧ j < m) :
      Goes cfg s h a pc pc'
  | unlocks {d : Nat} {pc : Pc x} (hpc : pc = .trapExit ∨ pc = .stopSelf true) :
      Goes cfg s h a (.stopUnlock d) pc

inductive Sets (cfg : Config x) (s : Sys x) (h : Nat) : Pc x → HsmState → Pc x → Prop
  | parked : Sets cfg s h .park .stopped .wait
  | resumes {pc : Pc x} (hpc : pc = .resumeReset ∨ pc = .resuming false) :
      Sets cfg s h pc .resumePending .enter
  | begun : Sets cfg s h .begin .started .smode
  | forced : Sets cfg s h .forceStop .stopPending .arrive
  | stops (hhsm : s.hsm h = .started) : Sets cfg s h .smode .stopPending .arrive
  | suspends {retentive platform : Bool} {addr arg : Word x} (hhsm : s.hsm h = .started)
      (hentry : retentive = false → cfg.entryOk (s.domain h) addr = true) :
      Sets cfg s h .smode .suspendPending (.suspending retentive platform addr arg)
  | stays {retentive platform : Bool} {addr arg : Word x} :
      Sets cfg s h (.suspending retentive platform addr arg) .started .trapExit
  | sleeps {platform : Bool} {addr arg : Word x} :
      Sets cfg s h (.suspending true platform addr arg) .suspended (.asleep true)
  | wakes : Sets cfg s h (.woken true) .resumePending (.resuming true)
  | resumed : Sets cfg s h (.resuming true) .started .trapExit

inductive Departs (cfg : Config x) (s : Sys x) (h : Nat) (a : Act x) : Nat → Prop
  | enters {d : Nat} {arg : Word x} (hpc : s.pc h = .smode) (hact : a = .call (.enter d arg))
      (hok : enterCheck cfg s h d false = .success) : Departs cfg s h a d
  | switches {d : Nat} (hpc : s.pc h = .switchTo d) (hok : enterCheck cfg s h d true = .success) :
      Departs cfg s h a d
  | leaves {d : Nat} (hpc : s.pc h = .smode ∨ ∃ firsts, s.pc h = .yield firsts)
      (hcaller : (s.cur h).caller = some d) (hcalling : (s.ctx d h).state = .calling) :
      Departs cfg s h a d
  | chains {d : Nat} {value : Word x} (hpc : s.pc h = .smode) (hact : a = .call (.exit value))
      (hwaits : s.callerWaits (s.domain h) h = false)
      (htarget : leaveTarget cfg s h false none = some d) : Departs cfg s h a d
  | yields {d : Nat} {firsts : List (Option Nat)} (hpc : s.pc h = .yield (some d :: firsts))
      (htarget : leaveTarget cfg s h true (some d) = some d) : Departs cfg s h a d
  | goesBack {d : Nat} {inCall : Bool} (hpc : s.pc h = .stopSelf inCall)
      (hcaller : (s.cur h).caller = some d) (hcalling : (s.ctx d h).state = .calling) :
      Departs cfg s h a d

/-- How it gets there: it runs on, or has to stop for the domain to start it. -/
inductive Lands (cfg : Config x) (s : Sys x) (h d : Nat) (next : Pc x) : Hart x → Prop
  | runs (hboot : (s.ctx d h).state = .none → (cfg.domain d).bootHart = some h) :
      Lands cfg s h d next { s.hart h with domain := d, pc := next }
  | stops (hnone : (s.ctx d h).state = .none) (hboot : (cfg.domain d).bootHart ≠ some h) :
      Lands cfg s h d next { s.hart h with domain := d, hsm := .stopPending, pc := .forceStop }

/-- What hart `h` does to the record of hart `i` with `hsm_hart_boot()`. -/
inductive Poked (s : Sys x) (h i : Nat) : Hart x → Prop
  | same : Poked s h i (s.hart i)
  | boot {addr arg : Word x} {mode : NextMode} {cont : Cont}
      (hpc : s.pc h = .bootLock i addr arg mode cont) (hhsm : s.hsm i = .stopped) :
      Poked s h i
        { s.hart i with startAddr := addr, startArg := arg, startMode := mode, hsm := .startPending }
  | unboot {cont : Cont} (hpc : s.pc h = .bootPlat i cont) (hhsm : s.hsm i = .startPending) :
      Poked s h i { s.hart i with hsm := .stopped }

inductive Walk (cfg : Config x) (s : Sys x) (h : Nat) (a : Act x) : Hart x → Prop
  | goes {pc : Pc x} (hgo : Goes cfg s h a (s.pc h) pc) : Walk cfg s h a { s.hart h with pc := pc }
  | sets {hsm : HsmState} {pc : Pc x} (hset : Sets cfg s h (s.pc h) hsm pc) :
      Walk cfg s h a { s.hart h with hsm := hsm, pc := pc }
  | sleeps {platform : Bool} {addr arg : Word x} (hpc : s.pc h = .suspending false platform addr arg) :
      Walk cfg s h a { s.hart h with
        startAddr := addr, startArg := arg, startMode := .supervisor, hsm := .suspended,
        pc := .asleep false }
  /-- `hsm_boot_hart_start()` -/
  | boots {d : Nat} {arg : Word x} {mode : NextMode} (hpc : s.pc h = .domainsStart d)
      (hboot : (cfg.domain (s.domain h)).bootHart = some h)
      (hentry : cfg.entryOk (s.domain h) (cfg.domain (s.domain h)).nextAddr = true) :
      Walk cfg s h a { s.hart h with
        startAddr := (cfg.domain (s.domain h)).nextAddr, startArg := arg, startMode := mode,
        hsm := .startPending, pc := .enter }
  /-- It starts a hart, itself perhaps. -/
  | asked {hart : Hart x} {target : Nat} {addr arg : Word x} {mode : NextMode} {cont : Cont}
      (hpc : s.pc h = .bootLock target addr arg mode cont) (hpoked : Poked s h h hart) :
      Walk cfg s h a { hart with pc := .bootPlat target cont }
  | answered {hart : Hart x} {target : Nat} {cont : Cont} (hpc : s.pc h = .bootPlat target cont)
      (hpoked : Poked s h h hart) : Walk cfg s h a { hart with pc := cont.pc }
  | moves {hart : Hart x} {d : Nat} {next : Pc x} (hway : Departs cfg s h a d)
      (hnext : next = .trapExit ∨ (next = .smode ∧ s.pc h = .stopSelf false))
      (hlands : Lands cfg s h d next hart) : Walk cfg s h a hart

def Enters (s : Sys x) (h : Nat) (a : Act x) (target : Nat) (quiet : Bool) : Prop :=
  (quiet = false ∧ s.pc h = .smode ∧ ∃ arg, a = .call (.enter target arg)) ∨
    (quiet = true ∧ s.pc h = .switchTo target ∧ a = .go)

/-- What a step of hart `h` does to the system. -/
inductive Effect (cfg : Config x) (s : Sys x) (h : Nat) (a : Act x) : Sys x → Prop
  | own {hart : Hart x} (hmove : OwnMove s h hart) (hwalk : Walk cfg s h a hart) :
      Effect cfg s h a (s.setHart h hart)
  | boot {target : Nat} {addr arg : Word x} {mode : NextMode} {cont : Cont}
      (hpc : s.pc h = .bootLock target addr arg mode cont)
      (hstop : s.stopping (s.domain target) = false) (hhsm : s.hsm target = .stopped) :
      Effect cfg s h a
        (((s.setStart target addr arg mode).setHsm target .startPending).goto h (.bootPlat target cont))
  | unboot {target : Nat} {cont : Cont} (hpc : s.pc h = .bootPlat target cont)
      (hact : a = .platform false) (hplatform : cfg.platformStart = true)
      (hhsm : s.hsm target = .startPending) :
      Effect cfg s h a ((s.setHsm target .stopped).goto h cont.pc)
  | started (hpc : s.pc h = .enter) : Effect cfg s h a (contextStarted s h)
  | entered {t : Sys x} {target : Nat} {quiet : Bool} (hact : Enters s h a target quiet)
      (hok : enterCheck cfg s h target quiet = .success) (hback : t.back = s.back)
      (hmoved : Moved s t h target ⟨.calling, (s.cur h).caller, true, some (s.domain h)⟩)
      (hlands : Lands cfg s h target .trapExit (t.hart h)) : Effect cfg s h a t
  | left {t : Sys x} {d : Nat} {link : Option Nat}
      (hpc : s.pc h = .smode ∨ ∃ firsts, s.pc h = .yield firsts)
      (hstop : s.stopping (s.domain h) = false) (hne : d ≠ s.domain h)
      (hwhere : ((s.cur h).caller = some d ∧ (s.ctx d h).state = .calling ∧
          link = (s.ctx d h).caller) ∨
        (s.callerWaits (s.domain h) h = false ∧ s.stopping d = false ∧
          (s.ctx d h).state = .none ∧ link = none))
      (hback : t.back = s.back) (hmoved : Moved s t h d ⟨.idle, none, true, link⟩)
      (hway : Departs cfg s h a d) (hlands : Lands cfg s h d .trapExit (t.hart h)) :
      Effect cfg s h a t
  | refused {d : Nat} {pc : Pc x} (hold : (s.pc h).stops = none) (hwait : (s.pc h).waiting = false)
      (hnew : pc.stops = none) (hne : d ≠ s.domain h) (hstate : (s.ctx d h).state = .none)
      (hgo : Goes cfg s h a (s.pc h) pc) :
      Effect cfg s h a ((s.setCtx d h { s.ctx d h with caller := none }).goto h pc)
  | returned {t : Sys x} {d : Nat} {inCall : Bool} {back : Back x}
      (hpc : s.pc h = .stopSelf inCall) (hcaller : (s.cur h).caller = some d)
      (hstate : (s.ctx d h).state = .calling)
      (hmoved : Moved s t h d ⟨.none, none, s.parked (s.domain h) h, (s.ctx d h).caller⟩)
      (hback : t.back = update s.back h (s.back h <|> some back)) (hdomain : back.domain = d)
      (hret : inCall = false → back.quiet = false → back.ret = some (.failed, 0))
      (hlands : Lands cfg s h d (if inCall then .trapExit else .smode) (t.hart h)) :
      Effect cfg s h a t
  | halted {inCall : Bool} (hpc : s.pc h = .stopSelf inCall)
      (hwaits : s.callerWaits (s.domain h) h = false) :
      Effect cfg s h a ((s.setCtx (s.domain h) h
        { s.cur h with state := .none, caller := none }).goto h .forceStop)
  | domainStart {d : Nat} {pc : Pc x} (hold : (s.pc h).stops = none)
      (hwait : (s.pc h).waiting = false) (hnew : pc.stops = none)
      (hok : domainStartCheck cfg s d = .success) (hgo : Goes cfg s h a (s.pc h) pc) :
      Effect cfg s h a ({ s with
        ctx := update s.ctx d fun i => { s.ctx d i with state := .none } }.goto h pc)
  | lock {d : Nat} (hpc : s.pc h = .smode) (hfree : s.stopLock = false) :
      Effect cfg s h a ({ s with stopLock := true }.goto h (.stopSection d))
  | stopSection {d : Nat} (hpc : s.pc h = .stopSection d) (hact : a = .go) :
      Effect cfg s h a (stopSection s h d)
  | cleared {d : Nat} (hpc : s.pc h = .stopDone d) :
      Effect cfg s h a ({ s with
        stopping := update s.stopping d false }.goto h (.stopUnlock d))
  | unlocked {d : Nat} {pc : Pc x} (hpc : s.pc h = .stopUnlock d) (hnew : pc.stops = none)
      (hgo : Goes cfg s h a (.stopUnlock d) pc) :
      Effect cfg s h a ({ s with stopLock := false }.goto h pc)

theorem OwnMove.domain_eq (hmove : OwnMove s h hart)
    (i : Nat) : (s.setHart h hart).domain i = s.domain i := by
  rw [setHart_domain]
  split
  · next hi => rw [hi, hmove.domain]
  · rfl

@[simp] theorem setStart_domain (s : Sys x) (h i : Nat) (addr arg : Word x) (mode : NextMode) :
    (s.setStart h addr arg mode).domain i = s.domain i := by
  rw [setStart, setHart_domain]
  split
  · next hi => rw [hi]; rfl
  · rfl

variable {addr : Word x} {cont : Cont}

section Effects

variable {cfg : Config x} {a : Act x}

theorem setHsm_goto (s : Sys x) (h : Nat) (hsm : HsmState) (pc : Pc x) :
    (s.setHsm h hsm).goto h pc = s.setHart h { s.hart h with hsm := hsm, pc := pc } := by
  simp only [goto, setHsm, setHart, update_idem, update_self]

theorem setStart_setHsm (s : Sys x) (h : Nat) (addr arg : Word x) (mode : NextMode)
    (hsm : HsmState) : (s.setStart h addr arg mode).setHsm h hsm =
      s.setHart h { s.hart h with
        startAddr := addr, startArg := arg, startMode := mode, hsm := hsm } := by
  simp only [setStart, setHsm, setHart, update_idem, update_self]

theorem setHart_goto (s : Sys x) (h : Nat) (hart : Hart x) (pc : Pc x) :
    (s.setHart h hart).goto h pc = s.setHart h { hart with pc := pc } := by
  simp only [goto, setHart, update_idem, update_self]

theorem goto_hart (s : Sys x) (h : Nat) (pc : Pc x) :
    (s.goto h pc).hart h = { s.hart h with pc := pc } := by
  rw [goto, setHart_hart, update_self]

theorem contextSwitch_lands {s' : Sys x} {error : SbiError} {next : Pc x}
    (hhart : s'.hart h = s.hart h) (hstate : (s'.ctx d h).state = (s.ctx d h).state) :
    Lands cfg s h d next ((contextSwitch cfg s' h d error value next).hart h) := by
  unfold contextSwitch
  dsimp only
  split
  · next hnone =>
    rw [hstate] at hnone
    split
    · next hboot =>
      rw [goto_hart]
      simp only [contextRestore, setHart_hart, update_self, setHsm, setCtx_hart, hhart]
      exact .stops hnone hboot
    · next hboot =>
      rw [goto_hart]
      simp only [contextRestore, setHart_hart, update_self, setCtx_hart, hhart]
      exact .runs fun _ => not_not.mp hboot
  · next hran =>
    rw [hstate] at hran
    rw [goto_hart]
    simp only [contextRestore, setHart_hart, update_self, setCtx_hart, hhart]
    exact .runs fun hnone => absurd hnone hran

theorem enter_lands (hok : enterCheck cfg s h d quiet = .success) :
    Lands cfg s h d .trapExit ((enter cfg s h d arg quiet).1.hart h) := by
  have hne := (enterCheck_success hok).1
  unfold enter
  rw [hok]
  refine contextSwitch_lands rfl ?_
  simp [contextPark, update_update_apply, hne]

theorem leaveFor_lands (hne : d ≠ s.domain h) :
    Lands cfg s h d .trapExit ((leaveFor cfg s h d value quiet).hart h) := by
  unfold leaveFor
  refine contextSwitch_lands rfl ?_
  simp [contextPark, update_update_apply, hne]

theorem stopSelf_lands {inCall : Bool} (hcaller : (s.cur h).caller = some d)
    (hwaits : s.callerWaits (s.domain h) h = true) (hne : d ≠ s.domain h) :
    Lands cfg s h d (if inCall then .trapExit else .smode)
      ((stopSelf cfg s h inCall).hart h) := by
  unfold stopSelf
  simp only [hcaller, hwaits]
  refine contextSwitch_lands rfl ?_
  simp [update_update_apply, hne]

variable {p : Pc x}

theorem goto_effect (hpc : s.pc h = p) (hold : p.stops = none) (hnew : pc.stops = none)
    (hgo : Goes cfg s h a p pc) : Effect cfg s h a (s.goto h pc) :=
  .own (OwnMove.plain rfl (hpc ▸ hold) hnew .inl) (.goes (hpc ▸ hgo))

theorem setHsm_effect {hsm : HsmState} (hpc : s.pc h = p) (hold : p.stops = none)
    (hnew : pc.stops = none) (hhsm : hsm = .stopped → p = .park) (hset : Sets cfg s h p hsm pc) :
    Effect cfg s h a ((s.setHsm h hsm).goto h pc) := by
  subst hpc
  rw [setHsm_goto]
  exact .own (OwnMove.plain rfl hold hnew fun hs => .inr (hhsm hs)) (.sets hset)

theorem setStart_effect {mode : NextMode} {hsm : HsmState} (hold : (s.pc h).stops = none)
    (hnew : pc.stops = none) (hhsm : hsm ≠ .stopped)
    (hwalk : Walk cfg s h a { s.hart h with
      startAddr := addr, startArg := arg, startMode := mode, hsm := hsm, pc := pc }) :
    Effect cfg s h a (((s.setStart h addr arg mode).setHsm h hsm).goto h pc) := by
  rw [setStart_setHsm, setHart_goto]
  exact .own (OwnMove.plain rfl hold hnew fun hs => absurd hs hhsm) hwalk

theorem Cont.stops_pc (cont : Cont) : (cont.pc : Pc x).stops = none := by
  cases cont <;> rfl

theorem Enters.away (hact : Enters s h a target quiet) : (s.pc h).Away := by
  rcases hact with ⟨-, hpc, -⟩ | ⟨-, hpc, -⟩ <;> exact hpc ▸ ⟨rfl, rfl⟩

theorem Enters.goes (hact : Enters s h a target quiet) :
    Goes cfg s h a (s.pc h) .trapExit := by
  rcases hact with ⟨-, hpc, -⟩ | ⟨-, hpc, -⟩
  · exact hpc ▸ .traps
  · exact hpc ▸ .refused

theorem exists_caller (hcur : (s.cur h).state ≠ .calling)
    (hwaits : s.callerWaits (s.domain h) h = true) :
    ∃ c, (s.cur h).caller = some c ∧ (s.ctx c h).state = .calling ∧ c ≠ s.domain h := by
  obtain ⟨c, hc, hcalling⟩ := callerWaits_iff.mp hwaits
  refine ⟨c, hc, hcalling, ?_⟩
  rintro rfl
  exact hcur hcalling

theorem enterCheck_refused (hok : enterCheck cfg s h d quiet ≠ .success) :
    enter cfg s h d arg quiet = (s.goto h .trapExit, enterCheck cfg s h d quiet) := by
  unfold enter
  split
  · next heq => exact absurd heq hok
  · rfl

theorem enter_effect (hact : Enters s h a target quiet) :
    Effect cfg s h a (enter cfg s h target arg quiet).1 := by
  by_cases hok : enterCheck cfg s h target quiet = .success
  · refine .entered hact hok ?_ (enter_moved hok) (enter_lands hok)
    unfold enter
    rw [hok]
    exact (contextSwitch_switched ..).back
  · rw [enterCheck_refused hok]
    exact goto_effect rfl hact.away.stops rfl hact.goes

theorem leaveTarget_spec {first : Option Nat} (hd : leaveTarget cfg s h quiet first = some d) :
    d ≠ s.domain h ∧ s.stopping d = false ∧ (s.ctx d h).state = .none := by
  unfold leaveTarget at hd
  split at hd
  · have hfilter := (Option.filter_eq_some_iff.mp hd).2
    simp only [Bool.and_eq_true, bne_iff_ne, beq_iff_eq, Bool.not_eq_true'] at hfilter
    exact ⟨hfilter.1.1.1.1.1, hfilter.1.1.2, hfilter.1.2⟩
  · have hfind := List.find?_some hd
    simp only [Bool.and_eq_true, bne_iff_ne, beq_iff_eq, Bool.not_eq_true'] at hfind
    exact ⟨hfind.1.1.1.1.2, hfind.1.2, hfind.2⟩

theorem leave_effect {first : Option Nat} {refused : Pc x} (hcur : (s.cur h).state ≠ .calling)
    (hpc : s.pc h = .smode ∨ ∃ firsts, s.pc h = .yield firsts) (hnew : refused.stops = none)
    (hway : ∀ d, s.callerWaits (s.domain h) h = false →
      leaveTarget cfg s h quiet first = some d → Departs cfg s h a d)
    (hgo : Goes cfg s h a (s.pc h) refused) :
    Effect cfg s h a (leave cfg s h value quiet first refused).1 := by
  have haway : (s.pc h).Away := by
    rcases hpc with hpc | ⟨_, hpc⟩ <;> exact hpc ▸ ⟨rfl, rfl⟩
  unfold leave
  dsimp only
  cases hwaits : s.callerWaits (s.domain h) h with
  | true =>
    obtain ⟨c, hc, hcalling, hne⟩ := exists_caller hcur hwaits
    simp only [if_true, hc]
    split
    · exact goto_effect rfl haway.stops hnew hgo
    · next hstop =>
      refine .left hpc (Bool.not_eq_true _ ▸ hstop) hne (.inl ⟨hc, hcalling, rfl⟩) ?_
        (leaveFor_moved hne) (.leaves hpc hc hcalling) (leaveFor_lands hne)
      exact (contextSwitch_switched ..).back
  | false =>
    simp only [Bool.false_eq_true, if_false]
    split
    · exact goto_effect rfl haway.stops hnew hgo
    · next d hd =>
      obtain ⟨hne, hstopping, hnone⟩ := leaveTarget_spec hd
      split
      · exact .refused haway.stops haway.waiting hnew hne hnone hgo
      · next hstop =>
        refine .left hpc (Bool.not_eq_true _ ▸ hstop) hne
          (.inr ⟨hwaits, hstopping, hnone, rfl⟩) ?_ ?_ (hway d hwaits hd) ?_
        · exact (contextSwitch_switched ..).back
        · refine Moved.of_setCtx (c := { s.ctx d h with caller := none }) ?_
          have hm : Moved (s.setCtx d h { s.ctx d h with caller := none })
              (leaveFor cfg _ h d value quiet) h d _ := leaveFor_moved hne
          simpa using hm
        · unfold leaveFor
          refine contextSwitch_lands rfl ?_
          simp [contextPark, update_update_apply, hne]

theorem domainStartCheck_boot (hok : domainStartCheck cfg s d = .success)
    (hboot : (cfg.domain d).bootHart = some i) :
    s.assigned d i = true ∧ cfg.entryOk d (cfg.domain d).nextAddr = true := by
  unfold domainStartCheck at hok
  rw [hboot] at hok
  split_ifs at hok with _ _ hassigned hentry
  exact ⟨Bool.not_eq_false _ ▸ hassigned, Bool.not_eq_false _ ▸ hentry⟩

theorem domainStart_effect (haway : (s.pc h).Away)
    (hpc : (s.pc h = .smode ∧ a = .call (.domainStart d) ∧ cont = .trapExit) ∨
      (s.pc h = .domainsStart d ∧ a = .go ∧ cont = .domainsStart (d + 1))) :
    Effect cfg s h a (domainStart cfg s h d cont) := by
  unfold domainStart
  dsimp only
  split
  · next hok hboot =>
    obtain ⟨hassigned, hentry⟩ := domainStartCheck_boot hok hboot
    exact .domainStart haway.stops haway.waiting rfl hok (.starts hpc hboot hassigned hentry)
  · refine goto_effect rfl haway.stops cont.stops_pc ?_
    rcases hpc with ⟨hpc, -, rfl⟩ | ⟨hpc, -, rfl⟩
    · exact hpc ▸ .traps
    · exact hpc ▸ .skips

theorem stopSelf_effect {inCall : Bool} (hcur : (s.cur h).state ≠ .calling)
    (hpc : s.pc h = .stopSelf inCall) : Effect cfg s h a (stopSelf cfg s h inCall) := by
  cases hwaits : s.callerWaits (s.domain h) h with
  | true =>
    obtain ⟨c, hc, hcalling, hne⟩ := exists_caller hcur hwaits
    obtain ⟨hmoved, back, hback, hdomain, hret⟩ :=
      @stopSelf_moved _ s h c cfg inCall hc hwaits hne
    exact .returned hpc hc hcalling hmoved hback hdomain hret (stopSelf_lands hc hwaits hne)
  | false =>
    have heq : stopSelf cfg s h inCall = (s.setCtx (s.domain h) h
        { s.cur h with state := .none, caller := none }).goto h .forceStop := by
      unfold stopSelf
      dsimp only
      split
      · next hyes =>
        rw [hwaits] at hyes
        cases hyes
      · rfl
    rw [heq]
    exact .halted hpc hwaits

theorem hartSuspend_effect {retentive platform : Bool} (hpc : s.pc h = .smode) :
    Effect cfg s h a (hartSuspend cfg s h retentive platform addr arg) := by
  unfold hartSuspend transition
  split
  · exact goto_effect hpc rfl rfl .traps
  · next hok =>
    by_cases hhsm : s.hsm h = .started
    · rw [if_pos hhsm]
      refine setHsm_effect hpc rfl rfl nofun (.suspends hhsm ?_)
      intro hret
      by_contra hentry
      exact hok (.inr ⟨hret, Bool.not_eq_true _ ▸ hentry⟩)
    · rw [if_neg hhsm]
      exact goto_effect hpc rfl rfl .traps

theorem ecall_effect (c : Call x) (hcur : (s.cur h).state ≠ .calling) (hpc : s.pc h = .smode) :
    Effect cfg s h (.call c) (ecall cfg s h c) := by
  have hgoto {pc : Pc x} (hnew : pc.stops = none) (hgo : Goes cfg s h (.call c) .smode pc) :
      Effect cfg s h (.call c) (s.goto h pc) := goto_effect hpc rfl hnew hgo
  have hexit : Effect cfg s h (.call c) (s.goto h .trapExit) := hgoto rfl .traps
  cases c with
  | enter target arg =>
    rw [ecall]
    split
    · exact enter_effect (.inl ⟨rfl, hpc, arg, rfl⟩)
    · exact hexit
  | exit value =>
    exact leave_effect hcur (.inl hpc) rfl (fun d hwaits hd => .chains hpc rfl hwaits hd)
      (hpc ▸ .traps)
  | switchTo target =>
    rw [ecall]
    split
    · next hok => exact hgoto rfl (.switches hok.1 rfl)
    · exact hexit
  | switchBack => exact leave_effect hcur (.inl hpc) rfl (fun d _ hd => by cases hd) (hpc ▸ .traps)
  | yield owners => exact hgoto rfl .yields
  | hartStart target addr arg =>
    rw [ecall, hartStart]
    split
    · next hok => exact hgoto rfl (.asks rfl hok.2.1 hok.2.2)
    · exact hexit
  | hartStop =>
    rw [ecall, transition]
    by_cases hhsm : s.hsm h = .started
    · rw [if_pos hhsm]
      exact setHsm_effect hpc rfl rfl nofun (.stops hhsm)
    · rw [if_neg hhsm]
      exact hexit
  | hartSuspend retentive platform addr arg => exact hartSuspend_effect hpc
  | domainStart d =>
    rw [ecall]
    split
    · exact domainStart_effect (hpc ▸ ⟨rfl, rfl⟩) (.inl ⟨hpc, rfl, rfl⟩)
    · exact hexit
  | domainStop d =>
    rw [ecall]
    split
    · next hok => exact .lock hpc hok.2
    · exact hexit

theorem scan_effect {old : Pc x} (hpc : s.pc h = old) (hold : old.stops = some d)
    (hnew : pc.stops = some d) (hmarks : pc.marks = old.marks)
    (hscan : ∀ d n, pc.scanned cfg = some (d, n) → ∀ j < n, j ≠ h → cfg.present j = true →
      s.assigned d j = false ∨ s.hsm j = .stopped ∨
        ∃ m, old.scanned cfg = some (d, m) ∧ j < m) : Effect cfg s h a (s.goto h pc) := by
  subst hpc
  exact .own ⟨rfl, hnew.trans hold.symm, hmarks, .inl⟩ (.goes (.stopping hold hnew hscan))

theorem stopScan_effect {busy : Bool} (hpc : s.pc h = .stopScan d i busy) :
    Effect cfg s h a (stopScan cfg s h d i busy) := by
  unfold stopScan
  split
  · split
    · refine scan_effect hpc rfl rfl rfl ?_
      intro d' n hn j hj _ _
      cases busy with
      | true => cases hn
      | false =>
        cases hn
        exact .inr (.inr ⟨i, rfl, hj⟩)
    · next hskip =>
      refine scan_effect hpc rfl rfl rfl ?_
      intro d' n hn j hj hne _
      cases busy with
      | true => cases hn
      | false =>
        cases hn
        rcases Nat.lt_succ_iff_lt_or_eq.mp hj with hlt | rfl
        · exact .inr (.inr ⟨i, rfl, hlt⟩)
        · left
          rw [not_and] at hskip
          exact Bool.not_eq_true _ ▸ hskip hne
  · next hend =>
    cases busy with
    | true =>
      refine scan_effect hpc rfl rfl rfl ?_
      intro d' n hn j hj
      cases hn
      exact absurd hj (Nat.not_lt_zero j)
    | false =>
      refine scan_effect hpc rfl rfl rfl ?_
      intro d' n hn j hj _ _
      cases hn
      exact .inr (.inr ⟨i, rfl, by omega⟩)

theorem stopCheck_effect {busy : Bool} (hpc : s.pc h = .stopCheck d i busy) :
    Effect cfg s h a (s.goto h (.stopScan d (i + 1)
      (busy || (cfg.present i && s.hsm i != .stopped)))) := by
  refine scan_effect hpc rfl rfl rfl ?_
  intro d' n hn j hj _ hpresent
  cases hbusy : busy || (cfg.present i && s.hsm i != .stopped) with
  | true =>
    rw [hbusy] at hn
    cases hn
  | false =>
    rw [hbusy] at hn
    cases hn
    rw [Bool.or_eq_false_iff] at hbusy
    obtain ⟨rfl, hfree⟩ := hbusy
    rcases Nat.lt_succ_iff_lt_or_eq.mp hj with hlt | rfl
    · exact .inr (.inr ⟨i, rfl, hlt⟩)
    · rw [hpresent, Bool.true_and, bne_eq_false_iff_eq] at hfree
      exact .inr (.inl hfree)

theorem domainsStart_effect (hpc : s.pc h = .domainsStart d) (hact : a = .go) :
    Effect cfg s h a (domainsStart cfg s h d) := by
  have haway : (s.pc h).Away := hpc ▸ ⟨rfl, rfl⟩
  unfold domainsStart
  dsimp only
  split
  · split
    · exact goto_effect hpc rfl rfl .skips
    · exact domainStart_effect haway (.inr ⟨hpc, hact, rfl⟩)
  · split
    · next hmine => exact setStart_effect haway.stops rfl nofun (.boots hpc hmine.1 hmine.2)
    · exact goto_effect hpc rfl rfl .rests

theorem hartBoot_effect {mode : NextMode} (hpc : s.pc h = .bootLock target addr arg mode cont) :
    Effect cfg s h a (hartBoot cfg s h target addr arg mode cont) := by
  unfold hartBoot
  split
  · next hok => exact .boot hpc hok.2.2.1 hok.2.2.2
  · exact goto_effect hpc rfl cont.stops_pc .unasked

theorem hartBootPlatform_effect {ok : Bool} (hpc : s.pc h = .bootPlat target cont) :
    Effect cfg s h (.platform ok) (hartBootPlatform cfg s h target cont ok) := by
  have hgoto : Effect cfg s h (.platform ok) (s.goto h cont.pc) :=
    .own (OwnMove.plain rfl (hpc ▸ rfl) cont.stops_pc .inl) (.answered hpc .same)
  unfold hartBootPlatform transition
  split
  · next hfailed =>
    split
    · next hhsm => exact .unboot hpc (by rw [hfailed.2]) hfailed.1 hhsm
    · exact hgoto
  · exact hgoto

theorem hartSuspendPlatform_effect {retentive platform ok : Bool}
    (hpc : s.pc h = .suspending retentive platform addr arg) :
    Effect cfg s h a (hartSuspendPlatform s h retentive platform addr arg ok) := by
  unfold hartSuspendPlatform
  split
  · exact setHsm_effect hpc rfl rfl nofun .stays
  · cases retentive with
    | true => exact setHsm_effect hpc rfl rfl nofun .sleeps
    | false => exact setStart_effect (hpc ▸ rfl) rfl nofun (.sleeps hpc)

theorem step_effect (hcur : (s.cur h).state ≠ .calling) (hstep : step cfg s h a = some t) :
    Effect cfg s h a t := by
  unfold step at hstep
  generalize hpc : s.pc h = pc at hstep
  split at hstep
  case isFalse => cases hstep
  split at hstep
  all_goals first | cases hstep | (split at hstep <;> cases hstep)
  · exact goto_effect hpc rfl rfl .arrives
  · split
    · next hsuspended => exact goto_effect hpc rfl rfl (.resets hsuspended)
    · exact goto_effect hpc rfl rfl .parks
  · exact setHsm_effect hpc rfl rfl (fun _ => rfl) .parked
  · exact goto_effect hpc rfl rfl (.wakes ‹_›)
  · exact goto_effect hpc rfl rfl .powersDown
  · exact setHsm_effect hpc rfl rfl nofun (.resumes (.inl rfl))
  · exact .started hpc
  · split
    · exact goto_effect hpc rfl rfl (.giveUp (.inl rfl))
    · exact goto_effect hpc rfl rfl .begins
  · exact setHsm_effect hpc rfl rfl nofun .begun
  · exact goto_effect hpc rfl rfl .traps
  · exact ecall_effect _ hcur hpc
  · split
    · exact goto_effect hpc rfl rfl (.giveUp (.inr (.inl rfl)))
    · exact goto_effect hpc rfl rfl .returns
  · exact stopSelf_effect hcur hpc
  · exact setHsm_effect hpc rfl rfl nofun .forced
  · exact hartSuspendPlatform_effect hpc
  · exact goto_effect hpc rfl rfl .wakesUp
  · exact goto_effect hpc rfl rfl .sleepsOn
  · exact setHsm_effect hpc rfl rfl nofun .wakes
  · split
    · exact goto_effect hpc rfl rfl (.giveUp (.inr (.inr rfl)))
    · exact goto_effect hpc rfl rfl .goesOn
  · exact setHsm_effect hpc rfl rfl nofun .resumed
  · exact setHsm_effect hpc rfl rfl nofun (.resumes (.inr rfl))
  · exact hartBoot_effect hpc
  · exact hartBootPlatform_effect hpc
  · exact enter_effect (.inr ⟨rfl, hpc, rfl⟩)
  · exact goto_effect hpc rfl rfl .gaveUp
  · refine leave_effect hcur (.inr ⟨_, hpc⟩) rfl ?_ (hpc ▸ .offers)
    intro d _ hd
    have hfirst := (Option.filter_eq_some_iff.mp hd).1
    rw [hfirst] at hpc hd
    exact .yields hpc hd
  · exact .stopSection hpc rfl
  · refine scan_effect hpc rfl rfl rfl ?_
    intro d n hn j hj
    cases hn
    exact absurd hj (Nat.not_lt_zero j)
  · exact stopScan_effect hpc
  · exact stopCheck_effect hpc
  · exact .cleared hpc
  · split
    · exact .unlocked hpc rfl (.unlocks (.inr rfl))
    · exact .unlocked hpc rfl (.unlocks (.inl rfl))
  · exact domainsStart_effect hpc rfl

theorem Effect.pc_other (he : Effect cfg s h a t) (hi : i ≠ h) :
    t.pc i = s.pc i := by
  cases he with
  | own => rw [setHart_pc, if_neg hi]
  | boot =>
    rw [goto_pc, if_neg hi, setHsm_pc, setStart, setHart_pc]
    split
    · next heq => rw [heq]; rfl
    · rfl
  | unboot => rw [goto_pc, if_neg hi, setHsm_pc]
  | entered _ _ _ hm | left _ _ _ _ _ hm | returned _ _ _ hm => exact congrArg Hart.pc (hm.hart i hi)
  | started | refused | halted | domainStart | lock | stopSection | cleared | unlocked =>
    exact goto_pc_of_ne _ _ hi _

end Effects

end RiscvMonitor.Lifecycle
