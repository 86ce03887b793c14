import RiscvMonitor.Lifecycle

/-!
# How a hart is started

`hsm_hart_boot()` against the hart it starts, access by access: the three argument
words are written one by one under `hsm_start_lock` and read without it, the
platform may refuse, and the target comes and goes by its own paths.  A hart that
waits may look at its state at any time: that is the kick, and every spurious wakeup.
-/

namespace RiscvMonitor.HartStart

variable {x : Xlen}

structure Args (x : Xlen) where
  addr : Word x
  arg : Word x
  mode : NextMode
deriving DecidableEq

/-- Where a hart is, before the next access to what is shared. -/
inductive Pc (x : Xlen) where
  | smode
  /-- `hsm_hart_boot()`: the lock, and with it the state and the domain's flag. -/
  | bootLock (target : Nat) (args : Args x)
  | bootState (target : Nat) (args : Args x)
  | bootFlag (target : Nat) (args : Args x) (state : HsmState)
  | bootAddr (target : Nat) (args : Args x)
  | bootArg (target : Nat) (args : Args x)
  | bootMode (target : Nat) (args : Args x)
  | bootPending (target : Nat) (args : Args x)
  /-- The platform's `hart_start()`, and what follows when it failed and when not. -/
  | bootPlat (target : Nat)
  | bootUndo (target : Nat)
  | bootKick (target : Nat)
  /-- `image_secondary_main()`: `hart_init()`, in two stores, and `hsm_hart_wait()`. -/
  | reset
  | comeIn
  | arrive
  | park
  | resumeReset
  /-- `hsm_wait_loop()` -/
  | wait
  /-- `hsm_hart_enter()` -/
  | enter
  | started
  | readAddr
  | readArg (addr : Word x)
  | readMode (addr arg : Word x)
  /-- `hart_enter_smode()` -/
  | enters (args : Args x)
  /-- `hsm_hart_stop()` and `hsm_hart_force_stop()`, on the way to `hsm_hart_wait()`. -/
  | forceStop
  /-- `hart_suspend()`, not retentive -/
  | suspending (args : Args x)
  | suspendArgs (args : Args x)
  | suspended
  | asleep
  | woken
  | off
deriving DecidableEq

structure Sys (x : Xlen) where
  pc : Nat → Pc x
  hsm : Nat → HsmState
  present : Nat → Bool
  start : Nat → Args x
  stopping : Nat → Bool
  /-- The hart that holds `hsm_start_lock`. -/
  lock : Option Nat
  /-- The hart whose call set `START_PENDING` last; the monitor does not keep it. -/
  starter : Nat → Option Nat

namespace Sys

def goto (s : Sys x) (h : Nat) (pc : Pc x) : Sys x := { s with pc := Function.update s.pc h pc }

def setHsm (s : Sys x) (h : Nat) (state : HsmState) : Sys x :=
  { s with hsm := Function.update s.hsm h state }

def setStart (s : Sys x) (h : Nat) (args : Args x) : Sys x :=
  { s with start := Function.update s.start h args }

def setLock (s : Sys x) (lock : Option Nat) : Sys x := { s with lock := lock }

end Sys

inductive Act (x : Xlen) where
  /-- Calls of S-mode, or of `domain_start()`. -/
  | boot (target : Nat) (args : Args x)
  | stop
  | suspend (args : Args x)
  | go
  | wake
  | platform (ok : Bool)
  /-- The platform takes a hart down, or brings it back. -/
  | power
  | domain (stopping : Bool)
deriving DecidableEq

def bootFlag (s : Sys x) (h target : Nat) (args : Args x) (state : HsmState) : Sys x :=
  -- SBI_ERR_DENIED
  if s.stopping target then (s.setLock none).goto h .smode
  else if state = .stopped then s.goto h (.bootAddr target args)
  -- SBI_ERR_ALREADY_AVAILABLE, SBI_ERR_INVALID_STATE
  else (s.setLock none).goto h .smode

/-- `START_PENDING`, and the end of the section. -/
def bootPending (s : Sys x) (h target : Nat) : Sys x :=
  let s := (s.setHsm target .startPending).setLock none
  { s with starter := Function.update s.starter target (some h) }.goto h (.bootPlat target)

/-- `hsm_transition()` back, and `SBI_ERR_FAILED`. -/
def bootUndo (s : Sys x) (h target : Nat) : Sys x :=
  (if s.hsm target = .startPending then s.setHsm target .stopped else s).goto h .smode

def advance (n : Nat) (s : Sys x) (h : Nat) : Pc x → Act x → Option (Sys x)
  | .smode, .boot target args =>
    some (if target < n ∧ s.present target = true then s.goto h (.bootLock target args) else s)
  | .bootLock target args, .go =>
    if s.lock = none then some ((s.setLock (some h)).goto h (.bootState target args)) else none
  | .bootState target args, .go => some (s.goto h (.bootFlag target args (s.hsm target)))
  | .bootFlag target args state, .go => some (bootFlag s h target args state)
  | .bootAddr target args, .go =>
    some ((s.setStart target { s.start target with addr := args.addr }).goto h
      (.bootArg target args))
  | .bootArg target args, .go =>
    some ((s.setStart target { s.start target with arg := args.arg }).goto h
      (.bootMode target args))
  | .bootMode target args, .go =>
    some ((s.setStart target { s.start target with mode := args.mode }).goto h
      (.bootPending target args))
  | .bootPending target _, .go => some (bootPending s h target)
  | .bootPlat target, .platform ok =>
    some (s.goto h (if ok then .bootKick target else .bootUndo target))
  | .bootUndo target, .go => some (bootUndo s h target)
  -- SBI_SUCCESS
  | .bootKick _, .go => some (s.goto h .smode)
  | .smode, .stop =>
    some (if s.hsm h = .started then (s.setHsm h .stopPending).goto h .arrive else s)
  -- on the way out of a trap
  | .smode, .go => if s.stopping h then some (s.goto h .forceStop) else none
  | .forceStop, .go => some ((s.setHsm h .stopPending).goto h .arrive)
  | .off, .power => some (s.goto h .reset)
  | .reset, .go => some ((if s.present h then s else s.setHsm h .stopped).goto h .comeIn)
  | .comeIn, .go => some ({ s with present := Function.update s.present h true }.goto h .arrive)
  | .arrive, .go => some (s.goto h (if s.hsm h = .suspended then .resumeReset else .park))
  | .park, .go => some ((s.setHsm h .stopped).goto h .wait)
  | .resumeReset, .go => some ((s.setHsm h .resumePending).goto h .enter)
  | .wait, .go => some (if s.hsm h = .startPending then s.goto h .enter else s)
  | .wait, .power => some (s.goto h .off)
  | .enter, .go => some (s.goto h (if s.stopping h then .forceStop else .started))
  | .started, .go => some ((s.setHsm h .started).goto h .readAddr)
  | .readAddr, .go => some (s.goto h (.readArg (s.start h).addr))
  | .readArg addr, .go => some (s.goto h (.readMode addr (s.start h).arg))
  | .readMode addr arg, .go => some (s.goto h (.enters ⟨addr, arg, (s.start h).mode⟩))
  | .enters _, .go => some (s.goto h .smode)
  | .smode, .suspend args =>
    some (if s.hsm h = .started then (s.setHsm h .suspendPending).goto h (.suspending args) else s)
  | .suspending args, .platform true => some (s.goto h (.suspendArgs args))
  | .suspending _, .platform false => some ((s.setHsm h .started).goto h .smode)
  | .suspendArgs args, .go => some ((s.setStart h args).goto h .suspended)
  | .suspended, .go => some ((s.setHsm h .suspended).goto h .asleep)
  | .asleep, .wake => some (s.goto h (if s.stopping h then .forceStop else .woken))
  | .asleep, .power => some (s.goto h .off)
  | .woken, .go => some ((s.setHsm h .resumePending).goto h .enter)
  | _, .domain stopping => some { s with stopping := Function.update s.stopping h stopping }
  | _, _ => none

def step (n : Nat) (s : Sys x) (e : Nat × Act x) : Option (Sys x) :=
  if e.1 < n then advance n s e.1 (s.pc e.1) e.2 else none

/-- The harts in S-mode are `up`; the others have not come in, and their memory is
    zero, which is `SBI_HSM_STATE_STARTED`. -/
def init (up : Nat → Bool) : Sys x where
  pc h := if up h then .smode else .reset
  hsm _ := .started
  present := up
  start _ := ⟨0, 0, .user⟩
  stopping _ := false
  lock := none
  starter _ := none

abbrev run (n : Nat) : Sys x → List (Nat × Act x) → Option (Sys x) := Runs.run (step n)

end RiscvMonitor.HartStart
