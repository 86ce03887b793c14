import RiscvMonitor.RangeCheck
import RiscvMonitor.Runs
import RiscvMonitor.Sbi

/-!
# Harts between domains

The life of a hart: `hsm.c`, the domain switches of `domain_context.c`, the boot's
`domains_start()`, and the parts of the trap path and of the message proxy's bridge
that move a hart.  A step is one hart's: one access to what is shared, or one
section under a lock.  What S-mode does is an input, and so is what the platform
answers and when a hart wakes up.
-/

namespace RiscvMonitor.Lifecycle

open Function (update)

variable {x : Xlen}

inductive CtxState where
  | none
  | running
  | calling
  | idle
deriving DecidableEq, Repr

def CtxState.kept (state : CtxState) : Prop := state = .calling ∨ state = .idle

theorem CtxState.kept.ne_none {state : CtxState} (hk : state.kept) : state ≠ .none := by
  rintro rfl
  rcases hk with hk | hk <;> cases hk

theorem CtxState.running_of_not_kept {state : CtxState} (hne : state ≠ .none) (hk : ¬ state.kept) :
    state = .running := by
  cases state with
  | none => exact absurd rfl hne
  | running => rfl
  | calling => exact absurd (Or.inl rfl) hk
  | idle => exact absurd (Or.inr rfl) hk

/-- `struct domain_context`, as far as the moves read it.  `ret` is what the switch put into the
    registers of the call it waits in. -/
structure Ctx (x : Xlen) where
  state : CtxState
  caller : Option Nat
  quiet : Bool
  ret : Option (SbiError × Word x)

inductive Cont where
  | trapExit
  | domainsStart (d : Nat)
deriving DecidableEq

/-- Where a hart is, before the next access to what is shared. -/
inductive Pc (x : Xlen) where
  /-- Powered down, to come back through the monitor's entry. -/
  | off
  /-- `hsm_hart_wait()` -/
  | arrive
  | park
  | wait
  | resumeReset
  /-- `hsm_hart_enter()` -/
  | enter
  | started
  | begin
  | smode
  | trapExit
  /-- `domain_stop_self()`, in the course of a call or at the end of it all. -/
  | stopSelf (inCall : Bool)
  | forceStop
  /-- `hart_suspend()` -/
  | suspending (retentive platform : Bool) (addr arg : Word x)
  | asleep (retentive : Bool)
  | woken (retentive : Bool)
  | resuming (retentive : Bool)
  /-- `hsm_hart_boot()` -/
  | bootLock (target : Nat) (addr arg : Word x) (mode : NextMode) (cont : Cont)
  | bootPlat (target : Nat) (cont : Cont)
  | switchTo (target : Nat)
  /-- A bridge yields: the domains still to be offered the hart. -/
  | yield (firsts : List (Option Nat))
  /-- `domain_stop()` -/
  | stopSection (d : Nat)
  | stopBarrier (d : Nat)
  | stopScan (d i : Nat) (busy : Bool)
  | stopCheck (d i : Nat) (busy : Bool)
  | stopDone (d : Nat)
  | stopUnlock (d : Nat)
  | domainsStart (d : Nat)
deriving DecidableEq

def Cont.pc : Cont → Pc x
  | .trapExit => .trapExit
  | .domainsStart d => .domainsStart d

structure Hart (x : Xlen) where
  domain : Nat
  hsm : HsmState
  pc : Pc x
  startAddr : Word x
  startArg : Word x
  startMode : NextMode

/-- How `domain_stop_self()` sent a hart back: to which domain, whether from a bridge's call,
    and what that returned otherwise. -/
structure Back (x : Xlen) where
  domain : Nat
  quiet : Bool
  ret : Option (SbiError × Word x)

structure Sys (x : Xlen) where
  hart : Nat → Hart x
  ctx : Nat → Nat → Ctx x
  assigned : Nat → Nat → Bool
  parked : Nat → Nat → Bool
  stopping : Nat → Bool
  /-- `stop_lock` is taken. -/
  stopLock : Bool
  /-- Of the stop that began last: from which domain a hart was visiting, and how
      it first went back since.  Nothing reads these. -/
  visitor : Nat → Option Nat
  back : Nat → Option (Back x)

structure Config (x : Xlen) where
  harts : Nat
  present : Nat → Bool
  monitor : List (MemRegion x)
  domainCount : Nat
  domain : Nat → Domain x
  /-- `entry_from` of a domain: the domains it may be entered from. -/
  entryFrom : Nat → Nat → Bool
  /-- The domains that the tree joins by a bridge, from and to. -/
  bridge : Nat → Nat → Bool
  ipiAvailable : Bool
  platformStart : Bool
  platformSuspend : Bool
  fdt : Word x

def Config.entryOk (cfg : Config x) (d : Nat) (addr : Word x) : Bool :=
  domainRangeOk cfg.monitor (some (cfg.domain d)) addr 4 domainPermSuX

def Config.mayEnter (cfg : Config x) (source target : Nat) : Bool :=
  target != 0 && cfg.entryFrom target source

theorem update_update_apply {α : Type*} (f : Nat → Nat → α) (d h : Nat) (c : α) (d' i : Nat) :
    update f d (update (f d) h c) d' i = if d' = d ∧ i = h then c else f d' i := by
  by_cases hd : d' = d
  · subst hd
    by_cases hi : i = h
    · subst hi
      simp
    · simp [hi]
  · simp [hd]

namespace Sys

def domain (s : Sys x) (h : Nat) : Nat := (s.hart h).domain
def hsm (s : Sys x) (h : Nat) : HsmState := (s.hart h).hsm
def pc (s : Sys x) (h : Nat) : Pc x := (s.hart h).pc

@[simps]
def setHart (s : Sys x) (h : Nat) (hart : Hart x) : Sys x :=
  { s with hart := update s.hart h hart }

def goto (s : Sys x) (h : Nat) (pc : Pc x) : Sys x := s.setHart h { s.hart h with pc := pc }

def setHsm (s : Sys x) (h : Nat) (hsm : HsmState) : Sys x :=
  s.setHart h { s.hart h with hsm := hsm }

def setStart (s : Sys x) (h : Nat) (addr arg : Word x) (mode : NextMode) : Sys x :=
  s.setHart h { s.hart h with startAddr := addr, startArg := arg, startMode := mode }

@[simps]
def setCtx (s : Sys x) (d h : Nat) (c : Ctx x) : Sys x :=
  { s with ctx := update s.ctx d (update (s.ctx d) h c) }

@[simps]
def setParked (s : Sys x) (d h : Nat) (b : Bool) : Sys x :=
  { s with parked := update s.parked d (update (s.parked d) h b) }

@[simps]
def setAssigned (s : Sys x) (d h : Nat) (b : Bool) : Sys x :=
  { s with assigned := update s.assigned d (update (s.assigned d) h b) }

def cur (s : Sys x) (h : Nat) : Ctx x := s.ctx (s.domain h) h

/-- `caller_waits()` for the context of domain `d` on hart `h`. -/
def callerWaits (s : Sys x) (d h : Nat) : Bool :=
  match (s.ctx d h).caller with
  | none => false
  | some c => (s.ctx c h).state == .calling

end Sys

open Sys

/-! ### `domain_context.c`: sections under the domain lock -/

def contextPark (s : Sys x) (h : Nat) (state : CtxState) (quiet : Bool) : Sys x :=
  (s.setCtx (s.domain h) h { s.cur h with state := state, quiet := quiet, ret := none }).setParked
    (s.domain h) h true

def contextRestore (s : Sys x) (h d : Nat) : Sys x :=
  let s' := ((s.setAssigned (s.domain h) h false).setParked d h false).setAssigned d h true
  (s'.setCtx d h { s.ctx d h with state := .running }).setHart h { s.hart h with domain := d }

/-- `context_switch()`, with the hart at `next` then: a context that has not run starts over, on
    the domain's boot hart only. -/
def contextSwitch (cfg : Config x) (s : Sys x) (h d : Nat) (error : SbiError) (value : Word x)
    (next : Pc x) : Sys x :=
  let c := s.ctx d h
  if c.state = .none then
    let s := s.setCtx d h { c with quiet := false, ret := none }
    if (cfg.domain d).bootHart ≠ some h then
      (contextRestore (s.setHsm h .stopPending) h d).goto h .forceStop
    else (contextRestore s h d).goto h next
  else
    let ret := if c.quiet then c.ret else some (error, value)
    (contextRestore (s.setCtx d h { c with quiet := false, ret := ret }) h d).goto h next

def enterCheck (cfg : Config x) (s : Sys x) (h target : Nat) (quiet : Bool) : SbiError :=
  let state := (s.ctx target h).state
  if target = s.domain h ∨ h ∉ (cfg.domain target).possible then .invalidParam
  else if quiet = false ∧ cfg.mayEnter (s.domain h) target = false then .denied
  else if s.stopping target = true ∨ s.stopping (s.domain h) = true then .denied
  else if state = .running ∨ state = .calling then .alreadyAvailable
  else if state = .none ∧ cfg.entryOk target (cfg.domain target).nextAddr = false then
    .invalidAddress
  else .success

/-- `enter()`; whatever comes of it, the hart goes on at the end of the trap. -/
def enter (cfg : Config x) (s : Sys x) (h target : Nat) (arg : Word x) (quiet : Bool) :
    Sys x × SbiError :=
  match enterCheck cfg s h target quiet with
  | .success =>
    let caller := s.domain h
    let s := contextPark s h .calling quiet
    let s := s.setCtx target h { s.ctx target h with caller := some caller }
    (contextSwitch cfg s h target .success arg .trapExit, .success)
  | rc => (s.goto h .trapExit, rc)

def domainEnterable (cfg : Config x) (s : Sys x) (h target : Nat) : Bool :=
  let state := (s.ctx target h).state
  target != s.domain h && decide (h ∈ (cfg.domain target).possible) && !s.stopping target &&
    (state == .idle || (state == .none && (cfg.domain target).bootHart == some h))

/-- The domain `leave()` goes to without a caller that waits. -/
def leaveTarget (cfg : Config x) (s : Sys x) (h : Nat) (quiet : Bool) (first : Option Nat) :
    Option Nat :=
  if quiet then
    first.filter fun d =>
      d != s.domain h && (cfg.domain d).bootHart == some h &&
        decide (h ∈ (cfg.domain d).possible) && !s.stopping d && (s.ctx d h).state == .none &&
        cfg.entryOk d (cfg.domain d).nextAddr
  else
    (List.range cfg.domainCount).find? fun d =>
      d != 0 && d != s.domain h && decide (h ∈ (cfg.domain d).possible) &&
        cfg.mayEnter (s.domain h) d && !s.stopping d && (s.ctx d h).state == .none

/-- The move of `leave()`, once it is clear where to. -/
def leaveFor (cfg : Config x) (s : Sys x) (h d : Nat) (value : Word x) (quiet : Bool) : Sys x :=
  let s := s.setCtx (s.domain h) h { s.cur h with caller := none }
  contextSwitch cfg (contextPark s h .idle quiet) h d .success value .trapExit

/-- `leave()`: back to the caller if it waits, else on to a domain that is due;
    where that is refused the hart goes on at `refused`. -/
def leave (cfg : Config x) (s : Sys x) (h : Nat) (value : Word x) (quiet : Bool)
    (first : Option Nat) (refused : Pc x) : Sys x × SbiError :=
  let waits := s.callerWaits (s.domain h) h
  match if waits then (s.cur h).caller else leaveTarget cfg s h quiet first with
  | none => (s.goto h refused, .denied)
  | some d =>
    let s := if waits then s else s.setCtx d h { s.ctx d h with caller := none }
    if s.stopping (s.domain h) = true then (s.goto h refused, .denied)
    else (leaveFor cfg s h d value quiet, .success)

/-- The section of `domain_context_started()`. -/
def contextStarted (s : Sys x) (h : Nat) : Sys x :=
  (s.setCtx (s.domain h) h { s.cur h with state := .running }).goto h .started

def domainRunning (cfg : Config x) (s : Sys x) (d : Nat) : Bool :=
  (List.range cfg.harts).any fun i =>
    (s.assigned d i && cfg.present i && s.hsm i != .stopped) || s.parked d i

def domainStartCheck (cfg : Config x) (s : Sys x) (d : Nat) : SbiError :=
  if s.stopping d = true then .denied
  else if domainRunning cfg s d = true then .alreadyAvailable
  else if ((cfg.domain d).bootHart.elim false fun i => s.assigned d i) = false then .invalidState
  else if cfg.entryOk d (cfg.domain d).nextAddr = false then .invalidAddress
  else .success

/-- The section of `domain_start()`: what the domain's harts ran is history, and
    its boot hart is to be started. -/
def domainStart (cfg : Config x) (s : Sys x) (h d : Nat) (cont : Cont) : Sys x :=
  let dom := cfg.domain d
  match domainStartCheck cfg s d, dom.bootHart with
  | .success, some i =>
    { s with ctx := update s.ctx d fun i => { s.ctx d i with state := .none } }.goto h
      (.bootLock i dom.nextAddr (dom.nextArg1.getD cfg.fdt) dom.nextMode cont)
  | _, _ => s.goto h cont.pc

def dropWaiting (c : Ctx x) : Ctx x :=
  if c.state = .calling ∨ c.state = .idle then { c with state := .none, caller := none } else c

/-- The section of `domain_stop()`. -/
def stopSection (s : Sys x) (h d : Nat) : Sys x :=
  let waiting := fun i => (s.ctx d i).state = .calling ∨ (s.ctx d i).state = .idle
  { s with
    stopping := update s.stopping d true
    ctx := update s.ctx d fun i => dropWaiting (s.ctx d i)
    parked := update s.parked d fun i => if waiting i then false else s.parked d i
    visitor := fun i =>
      if s.domain i = d ∧ s.callerWaits d i = true then (s.ctx d i).caller else none
    back := fun _ => none }.goto h (.stopBarrier d)

/-- The section of `domain_stop_self()`: back to the caller, its call failed, or
    stopped. -/
def stopSelf (cfg : Config x) (s : Sys x) (h : Nat) (inCall : Bool) : Sys x :=
  let c := s.cur h
  let gone := s.setCtx (s.domain h) h { c with state := .none, caller := none }
  match c.caller, s.callerWaits (s.domain h) h with
  | some d, true =>
    let t := contextSwitch cfg gone h d .failed 0 (if inCall then .trapExit else .smode)
    -- a call that stopped its own domain returns into the context that got the hart
    let ret := if inCall then some (.success, 0) else (t.ctx d h).ret
    let back : Back x := ⟨d, (s.ctx d h).quiet, ret⟩
    { t with back := update s.back h (s.back h <|> some back) }
  | _, _ => gone.goto h .forceStop

/-! ### `hsm.c` -/

def transition (s : Sys x) (h : Nat) (source target : HsmState) : Option (Sys x) :=
  if s.hsm h = source then some (s.setHsm h target) else none

/-- The section of `hsm_hart_boot()` under the start lock. -/
def hartBoot (cfg : Config x) (s : Sys x) (h target : Nat) (addr arg : Word x) (mode : NextMode)
    (cont : Cont) : Sys x :=
  if cfg.present target = true ∧ cfg.ipiAvailable = true ∧
      s.stopping (s.domain target) = false ∧ s.hsm target = .stopped then
    ((s.setStart target addr arg mode).setHsm target .startPending).goto h (.bootPlat target cont)
  else s.goto h cont.pc

def hartBootPlatform (cfg : Config x) (s : Sys x) (h target : Nat) (cont : Cont) (ok : Bool) :
    Sys x :=
  if cfg.platformStart = true ∧ ok = false then
    ((transition s target .startPending .stopped).getD s).goto h cont.pc
  else s.goto h cont.pc

def hartStart (cfg : Config x) (s : Sys x) (h target : Nat) (addr arg : Word x) : Sys x :=
  if cfg.present target = true ∧ s.assigned (s.domain h) target = true ∧
      cfg.entryOk (s.domain h) addr = true then
    s.goto h (.bootLock target addr arg .supervisor .trapExit)
  else s.goto h .trapExit

/-- `hart_suspend()`, up to the platform's part. -/
def hartSuspend (cfg : Config x) (s : Sys x) (h : Nat) (retentive platform : Bool)
    (addr arg : Word x) : Sys x :=
  if (platform = true ∧ cfg.platformSuspend = false) ∨
      (retentive = false ∧ cfg.entryOk (s.domain h) addr = false) then s.goto h .trapExit
  else
    match transition s h .started .suspendPending with
    | none => s.goto h .trapExit
    | some s => s.goto h (.suspending retentive platform addr arg)

def hartSuspendPlatform (s : Sys x) (h : Nat) (retentive platform : Bool) (addr arg : Word x)
    (ok : Bool) : Sys x :=
  if ok = false ∧ platform = true then (s.setHsm h .started).goto h .trapExit
  else
    let s := if retentive then s else s.setStart h addr arg .supervisor
    (s.setHsm h .suspended).goto h (.asleep retentive)

/-! ### Calls from S-mode -/

inductive Call (x : Xlen) where
  | enter (target : Nat) (arg : Word x)
  | exit (value : Word x)
  | switchTo (target : Nat)
  | switchBack
  | yield (owners : List Nat)
  | hartStart (target : Nat) (addr arg : Word x)
  | hartStop
  | hartSuspend (retentive platform : Bool) (addr arg : Word x)
  | domainStart (d : Nat)
  | domainStop (d : Nat)

/-- Another domain is started and stopped by one that may reset the system. -/
def Config.mayControl (cfg : Config x) (source d : Nat) : Bool :=
  decide (d < cfg.domainCount) && (d == source || (cfg.domain source).resetAllowed)

def ecall (cfg : Config x) (s : Sys x) (h : Nat) : Call x → Sys x
  | .enter target arg =>
    if target < cfg.domainCount then (enter cfg s h target arg false).1 else s.goto h .trapExit
  | .exit value => (leave cfg s h value false none .trapExit).1
  | .switchTo target =>
    if cfg.bridge (s.domain h) target = true ∧ domainEnterable cfg s h target = true then
      s.goto h (.switchTo target)
    else s.goto h .trapExit
  | .switchBack => (leave cfg s h 0 true none .trapExit).1
  | .yield owners =>
    -- the owners are domains whose bridge ends in this one
    s.goto h (.yield (none :: (owners.filter (cfg.bridge · (s.domain h))).map some))
  | .hartStart target addr arg => hartStart cfg s h target addr arg
  | .hartStop =>
    match transition s h .started .stopPending with
    | none => s.goto h .trapExit
    | some s => s.goto h .arrive
  | .hartSuspend retentive platform addr arg => hartSuspend cfg s h retentive platform addr arg
  | .domainStart d =>
    if cfg.mayControl (s.domain h) d = true then domainStart cfg s h d .trapExit
    else s.goto h .trapExit
  | .domainStop d =>
    if cfg.mayControl (s.domain h) d = true ∧ s.stopLock = false then
      { s with stopLock := true }.goto h (.stopSection d)
    else s.goto h .trapExit

inductive Act (x : Xlen) where
  | call (c : Call x)
  | go
  | platform (ok : Bool)
  /-- The platform takes the hart down, or brings it back. -/
  | power

/-- One step of the scan of `domain_stop()`; the mask and the state of a hart are
    two reads. -/
def stopScan (cfg : Config x) (s : Sys x) (h d i : Nat) (busy : Bool) : Sys x :=
  if i < cfg.harts then
    if i ≠ h ∧ s.assigned d i = true then s.goto h (.stopCheck d i busy)
    else s.goto h (.stopScan d (i + 1) busy)
  else if busy then s.goto h (.stopScan d 0 false)
  else s.goto h (.stopDone d)

/-- One domain of `domains_start()`, then the boot hart's own. -/
def domainsStart (cfg : Config x) (s : Sys x) (h d : Nat) : Sys x :=
  let mine := cfg.domain (s.domain h)
  if d < cfg.domainCount then
    let dom := cfg.domain d
    if (d = s.domain h ∧ dom.bootHart = some h) ∨ dom.nextAddr = 0 ∨
        (dom.bootHart.elim false fun i => s.assigned d i) = false then
      s.goto h (.domainsStart (d + 1))
    else domainStart cfg s h d (.domainsStart (d + 1))
  else if mine.bootHart = some h ∧ cfg.entryOk (s.domain h) mine.nextAddr = true then
    -- `hsm_boot_hart_start()`
    ((s.setStart h mine.nextAddr (mine.nextArg1.getD cfg.fdt) mine.nextMode).setHsm h
      .startPending).goto h .enter
  else s.goto h .arrive

/-- One step of hart `h`; `none` where the hart does not have it. -/
def step (cfg : Config x) (s : Sys x) (h : Nat) (a : Act x) : Option (Sys x) :=
  if h < cfg.harts ∧ cfg.present h = true then
    match s.pc h, a with
    | .off, .power => some (s.goto h .arrive)
    | .arrive, .go => some (s.goto h (if s.hsm h = .suspended then .resumeReset else .park))
    | .park, .go => some ((s.setHsm h .stopped).goto h .wait)
    | .wait, .go => if s.hsm h = .startPending then some (s.goto h .enter) else none
    | .wait, .power => if cfg.platformStart then some (s.goto h .off) else none
    | .resumeReset, .go => some ((s.setHsm h .resumePending).goto h .enter)
    | .enter, .go => some (contextStarted s h)
    | .started, .go =>
      some (s.goto h (if s.stopping (s.domain h) then .stopSelf false else .begin))
    | .begin, .go => some ((s.setHsm h .started).goto h .smode)
    | .smode, .go => some (s.goto h .trapExit)
    | .smode, .call c => some (ecall cfg s h c)
    | .trapExit, .go =>
      some (s.goto h (if s.stopping (s.domain h) then .stopSelf false else .smode))
    | .stopSelf inCall, .go => some (stopSelf cfg s h inCall)
    | .forceStop, .go => some ((s.setHsm h .stopPending).goto h .arrive)
    | .suspending retentive platform addr arg, .platform ok =>
      some (hartSuspendPlatform s h retentive platform addr arg ok)
    | .asleep retentive, .go => some (s.goto h (.woken retentive))
    | .asleep false, .power => if cfg.platformSuspend then some (s.goto h .off) else none
    | .woken true, .go => some ((s.setHsm h .resumePending).goto h (.resuming true))
    | .woken false, .go =>
      some (s.goto h (if s.stopping (s.domain h) then .stopSelf false else .resuming false))
    | .resuming true, .go => some ((s.setHsm h .started).goto h .trapExit)
    | .resuming false, .go => some ((s.setHsm h .resumePending).goto h .enter)
    | .bootLock target addr arg mode cont, .go => some (hartBoot cfg s h target addr arg mode cont)
    | .bootPlat target cont, .platform ok => some (hartBootPlatform cfg s h target cont ok)
    | .switchTo target, .go => some (enter cfg s h target 0 true).1
    | .yield [], .go => some (s.goto h .trapExit)
    | .yield (first :: firsts), .go => some (leave cfg s h 0 true first (.yield firsts)).1
    | .stopSection d, .go => some (stopSection s h d)
    | .stopBarrier d, .go => some (s.goto h (.stopScan d 0 false))
    | .stopScan d i busy, .go => some (stopScan cfg s h d i busy)
    | .stopCheck d i busy, .go =>
      some (s.goto h (.stopScan d (i + 1)
        (busy || (cfg.present i && s.hsm i != .stopped))))
    | .stopDone d, .go =>
      some ({ s with stopping := update s.stopping d false }.goto h (.stopUnlock d))
    | .stopUnlock d, .go =>
      some ({ s with stopLock := false }.goto h
        (if d = s.domain h then .stopSelf true else .trapExit))
    | .domainsStart d, .go => some (domainsStart cfg s h d)
    | _, _ => none
  else none

/-- The system when `domains_start()` begins: the boot hart is at work and the others are on
    their way to their wait. -/
def init (home : Nat → Nat) (bootHart : Nat) : Sys x where
  hart := fun h =>
    ⟨home h, .stopped, if h = bootHart then .domainsStart 0 else .arrive, 0, 0, .supervisor⟩
  ctx := fun _ _ => ⟨.none, none, false, none⟩
  assigned := fun d h => home h == d
  parked := fun _ _ => false
  stopping := fun _ => false
  stopLock := false
  visitor := fun _ => none
  back := fun _ => none

abbrev run (cfg : Config x) : Sys x → List (Nat × Act x) → Option (Sys x) :=
  Runs.run fun s e => step cfg s e.1 e.2

end RiscvMonitor.Lifecycle
