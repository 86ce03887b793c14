import RiscvMonitor.Lifecycle

/-!
# Interrupts and fences between harts

What a hart asks of the others: `services/sbi/ipi.c`, the legacy calls,
`hartmask.c`, `drivers/ipi/ipi.c` and `rfence.c`, with the two things a target does
meanwhile: it moves to another domain (`context_park()` and `context_restore()`) or
sleeps in a retentive suspend.

A step is one access to what the harts share.  The masks are read bit by bit and
without a lock, so a switch of domains, which is one section of `domain_lock`, is
several steps here.  A hart goes to any other domain.
-/

namespace RiscvMonitor.Delivery

open Function (update)
open Lifecycle (CtxState)

variable {x : Xlen}

/-! ### The calls -/

inductive FenceType where
  | fenceI
  | sfenceVma
  | sfenceVmaAsid
  | hfenceGvma
  | hfenceGvmaVmid
  | hfenceVvma
  | hfenceVvmaAsid
deriving DecidableEq, Repr

/-- From `RFENCE_HFENCE_GVMA` on: these take the H extension. -/
def FenceType.guest : FenceType → Bool
  | .fenceI | .sfenceVma | .sfenceVmaAsid => false
  | .hfenceGvma | .hfenceGvmaVmid | .hfenceVvma | .hfenceVvmaAsid => true

structure FenceReq (x : Xlen) where
  type : FenceType
  start : Word x
  size : Word x
  asid : Word x
deriving DecidableEq

/-- `named` are the bits of the mask in order, `none` for a hart there is not; without a list it
    is all harts. -/
structure Request (x : Xlen) where
  legacy : Bool
  named : Option (List (Option Nat))
  fence : Option (FenceReq x)
deriving DecidableEq

def Request.names (rq : Request x) (i : Nat) : Bool :=
  rq.named.elim true fun l => l.contains (some i)

/-- An entry of a hart's queue of fences, with the hart whose count it is out of. -/
structure Entry (x : Xlen) where
  req : FenceReq x
  requester : Nat
deriving DecidableEq

def rfenceQueueLen : Nat := 8

inductive Ret (x : Xlen) where
  | smode
  | asleep
  | enqueue (rq : Request x) (targets rest : List Nat)
  | await (rq : Request x)
deriving DecidableEq

inductive Serve (x : Xlen) where
  /-- In `ipi_process()`, which has an S-mode event left to deal with or not. -/
  | ipi (smode : Bool) (ret : Ret x)
  | await (rq : Request x)
deriving DecidableEq

/-- Where a hart is, before the next access to what is shared. -/
inductive Pc (x : Xlen) where
  | stopped
  | smode
  /-- `hsm_interruptible_mask_of()`: of the harts before `i`, `running` are in. -/
  | readAssigned (rq : Request x) (i : Nat) (running : List Nat)
  | readState (rq : Request x) (i : Nat) (running : List Nat)
  /-- `sbi_hartmask()`, the harts that are named. -/
  | check (rq : Request x) (rest : List (Option Nat)) (running : List Nat)
  | checkParked (rq : Request x) (i : Nat) (rest : List (Option Nat)) (running : List Nat)
  /-- `ipi_send_mask()`, and in it `ipi_send()`. -/
  | post (rq : Request x) (targets rest : List Nat)
  | raise (rq : Request x) (targets : List Nat) (i : Nat) (rest : List Nat)
  /-- `ipi_parked_harts()`: is there any, and which. -/
  | parkedAny (rq : Request x) (targets : List Nat) (i : Nat)
  | parkedScan (rq : Request x) (targets : List Nat) (i : Nat)
  /-- `domain_ipi_parked()` -/
  | parkedLock (rq : Request x) (targets : List Nat) (i : Nat)
  | parkedRaise (rq : Request x) (targets : List Nat) (i : Nat)
  /-- `rfence_request()`; `full` is the IPI for a hart whose queue has no room. -/
  | enqueue (rq : Request x) (targets rest : List Nat)
  | fenceOr (rq : Request x) (targets : List Nat) (i : Nat) (rest : List Nat) (full : Bool)
  | fenceRaise (rq : Request x) (targets : List Nat) (i : Nat) (rest : List Nat) (full : Bool)
  | fenceSelf (rq : Request x)
  | await (rq : Request x)
  | ret (rc : SbiError) (rq : Request x)
  /-- `ipi_process()` -/
  | ipiClear (ret : Ret x)
  | ipiSwap (ret : Ret x)
  /-- `rfence_process()` -/
  | serve (site : Serve x)
  | fencing (e : Entry x) (site : Serve x)
  /-- `enter()` and `leave()`: the lock, and then the steps of the switch. -/
  | switchLock (target : Nat) (state : CtxState)
  | restore (target : Nat)
  | unpark (target : Nat)
  | assign (target : Nat)
  | arrive (target : Nat)
  /-- `hart_suspend()`, retentive -/
  | suspending
  | asleep
  | woken
  | resumed
deriving DecidableEq

def Ret.pc : Ret x → Pc x
  | .smode => .smode
  | .asleep => .asleep
  | .enqueue rq targets rest => .enqueue rq targets rest
  | .await rq => .await rq

structure Hart (x : Xlen) where
  domain : Nat
  hsm : HsmState
  pc : Pc x
  ssip : Bool
  line : Bool
  /-- `ipi_pending`, the events `IPI_EVENT_SMODE` and `IPI_EVENT_RFENCE`. -/
  smode : Bool
  rfence : Bool
  queue : List (Entry x)
  out : Nat

/-- `struct domain_context`, as far as interrupts go. -/
structure Ctx where
  state : CtxState
  sip : Bool
  ipi : Bool

structure Sys (x : Xlen) where
  hart : Nat → Hart x
  ctx : Nat → Nat → Ctx
  assigned : Nat → Nat → Bool
  parked : Nat → Nat → Bool
  /-- `domain_lock` is taken. -/
  lock : Bool

structure Config where
  harts : Nat
  present : Nat → Bool
  ipiAvailable : Bool
  /-- `HART_FEAT_H` and `HART_FEAT_PMP`, which all harts share. -/
  hyp : Bool
  pmp : Bool

namespace Sys

def pc (s : Sys x) (h : Nat) : Pc x := (s.hart h).pc
def domain (s : Sys x) (h : Nat) : Nat := (s.hart h).domain
def hsm (s : Sys x) (h : Nat) : HsmState := (s.hart h).hsm
def line (s : Sys x) (h : Nat) : Bool := (s.hart h).line

@[simps]
def setHart (s : Sys x) (h : Nat) (hart : Hart x) : Sys x :=
  { s with hart := update s.hart h hart }

def goto (s : Sys x) (h : Nat) (pc : Pc x) : Sys x := s.setHart h { s.hart h with pc := pc }

@[simps]
def setCtx (s : Sys x) (d h : Nat) (c : Ctx) : Sys x :=
  { s with ctx := update s.ctx d (update (s.ctx d) h c) }

@[simps]
def setParked (s : Sys x) (d h : Nat) (b : Bool) : Sys x :=
  { s with parked := update s.parked d (update (s.parked d) h b) }

@[simps]
def setAssigned (s : Sys x) (d h : Nat) (b : Bool) : Sys x :=
  { s with assigned := update s.assigned d (update (s.assigned d) h b) }

end Sys

open Sys

/-! ### The mask of a call -/

def send (cfg : Config) (rq : Request x) (running : List Nat) : Pc x :=
  let targets := running.filter rq.names
  match rq.fence with
  | none => .post rq targets targets
  | some req =>
    if req.type.guest ∧ cfg.hyp = false then .ret .notSupported rq else .enqueue rq targets targets

def readAssigned (cfg : Config) (s : Sys x) (h : Nat) (rq : Request x) (i : Nat)
    (running : List Nat) : Pc x :=
  if i < cfg.harts then
    if cfg.present i = true ∧ s.assigned (s.domain h) i = true then .readState rq i running
    else .readAssigned rq (i + 1) running
  else
    match rq.named with
    | none => send cfg rq running
    -- the legacy calls ignore what they do not know
    | some l => if rq.legacy then send cfg rq running else .check rq l running

def readState (s : Sys x) (rq : Request x) (i : Nat) (running : List Nat) : Pc x :=
  .readAssigned rq (i + 1)
    (if s.hsm i = .started ∨ s.hsm i = .suspended then running ++ [i] else running)

def check (cfg : Config) (s : Sys x) (h : Nat) (rq : Request x) (rest : List (Option Nat))
    (running : List Nat) : Pc x :=
  match rest with
  | [] => send cfg rq running
  | none :: _ => .ret .invalidParam rq
  | some i :: rest =>
    if ¬ (i < cfg.harts ∧ cfg.present i = true) then .ret .invalidParam rq
    else if s.assigned (s.domain h) i then .check rq rest running
    else .checkParked rq i rest running

/-! ### Parked harts -/

def parkedAny (cfg : Config) (s : Sys x) (h : Nat) (rq : Request x) (targets : List Nat) (i : Nat) :
    Pc x :=
  if i < cfg.harts then
    if s.parked (s.domain h) i then .parkedScan rq targets 0 else .parkedAny rq targets (i + 1)
  else .ret .success rq

def parkedScan (cfg : Config) (s : Sys x) (h : Nat) (rq : Request x) (targets : List Nat)
    (i : Nat) : Pc x :=
  if i < cfg.harts then
    if s.parked (s.domain h) i = true ∧ rq.names i = true then .parkedLock rq targets i
    else .parkedScan rq targets (i + 1)
  else .ret .success rq

/-- `domain_ipi_parked()`, up to the interrupt of a hart that is back. -/
def domainIpiParked (s : Sys x) (h : Nat) (rq : Request x) (targets : List Nat) (i : Nat) : Sys x :=
  let d := s.domain h
  if s.domain i = d then
    ({ s with lock := true }.setHart i { s.hart i with smode := true }).goto h
      (.parkedRaise rq targets i)
  else if (s.ctx d i).state ≠ .none then
    (s.setCtx d i { s.ctx d i with ipi := true }).goto h (.parkedScan rq targets (i + 1))
  else s.goto h (.parkedScan rq targets (i + 1))

/-! ### Fences -/

/-- One target of `rfence_request()`. -/
def enqueue (s : Sys x) (h : Nat) (rq : Request x) (req : FenceReq x) (targets : List Nat)
    (rest : List Nat) : Sys x :=
  match rest with
  | [] => s.goto h (if h ∈ targets then .fenceSelf rq else .await rq)
  | i :: rest =>
    if i = h then s.goto h (.enqueue rq targets rest)
    else if (s.hart i).queue.length < rfenceQueueLen then
      let s := s.setHart i { s.hart i with queue := (s.hart i).queue ++ [⟨req, h⟩] }
      s.setHart h { s.hart h with
        out := (s.hart h).out + 1, pc := .fenceOr rq targets i rest false }
    else s.goto h (.fenceOr rq targets i rest true)

/-- `rfence_process()`, the next entry or the end. -/
def serve (s : Sys x) (h : Nat) (site : Serve x) : Sys x :=
  match (s.hart h).queue, site with
  | e :: queue, _ => s.setHart h { s.hart h with queue := queue, pc := .fencing e site }
  | [], .ipi smode ret => s.setHart h { s.hart h with ssip := (s.hart h).ssip || smode, pc := ret.pc }
  | [], .await rq => s.goto h (.ipiClear (.await rq))

/-- `fence_local()`, and the requester is told. -/
def fencing (s : Sys x) (h : Nat) (e : Entry x) (site : Serve x) : Sys x :=
  let s := s.setHart e.requester { s.hart e.requester with out := (s.hart e.requester).out - 1 }
  s.goto h (.serve site)

/-- `ipi_process()`, with the events in hand. -/
def ipiSwap (s : Sys x) (h : Nat) (ret : Ret x) : Sys x :=
  let hart := { s.hart h with smode := false, rfence := false }
  if (s.hart h).rfence then s.setHart h { hart with pc := .serve (.ipi (s.hart h).smode ret) }
  else s.setHart h { hart with ssip := hart.ssip || (s.hart h).smode, pc := ret.pc }

/-! ### The switch -/

def contextPark (s : Sys x) (h target : Nat) (state : CtxState) : Sys x :=
  let d := s.domain h
  let s := { s with lock := true }.setCtx d h ⟨state, (s.hart h).ssip, (s.ctx d h).ipi⟩
  (s.setParked d h true).goto h (.restore target)

/-- `context_restore()`, the CSRs and the mask of the domain it leaves; a context
    that has not run has nothing pending. -/
def contextRestore (s : Sys x) (h target : Nat) : Sys x :=
  let c := s.ctx target h
  let pending := c.state != .none && (c.sip || c.ipi)
  let s := (s.setCtx target h { c with ipi := false }).setAssigned (s.domain h) h false
  s.setHart h { s.hart h with ssip := pending, pc := .unpark target }

def contextArrive (s : Sys x) (h target : Nat) : Sys x :=
  let s := { s with lock := false }.setCtx target h { s.ctx target h with state := .running }
  s.setHart h { s.hart h with domain := target, pc := .smode }

inductive Act (x : Xlen) where
  /-- S-mode runs, and has its software interrupt cleared or not. -/
  | run (clear : Bool)
  | call (rq : Request x)
  | switch (target : Nat) (state : CtxState)
  | suspend
  | go
  | wake
  | platform (ok : Bool)

def callCheck (cfg : Config) (rq : Request x) : SbiError :=
  if rq.legacy then .success
  else if cfg.ipiAvailable = false then .notSupported
  else
    match rq.fence with
    | none => .success
    | some req =>
      if req.type ≠ .fenceI ∧ req.size ≠ BitVec.allOnes x.bits ∧ req.start + req.size < req.start then
        .invalidAddress
      else .success

def ecall (cfg : Config) (rq : Request x) : Pc x :=
  match callCheck cfg rq with
  | .success => .readAssigned rq 0 []
  | rc => .ret rc rq

/-- What S-mode does.  The IPI comes first: with its interrupt pending S-mode does
    not get to the next instruction. -/
def smodeStep (cfg : Config) (s : Sys x) (h : Nat) : Act x → Option (Sys x)
  | .run clear => some (s.setHart h { s.hart h with ssip := (s.hart h).ssip && !clear })
  | .call rq => some (s.goto h (ecall cfg rq))
  | .switch target state =>
    if target ≠ s.domain h ∧ (state = .calling ∨ state = .idle) then
      some (s.goto h (.switchLock target state))
    else none
  | .suspend =>
    if s.hsm h = .started then
      some (s.setHart h { s.hart h with hsm := .suspendPending, pc := .suspending })
    else none
  | _ => none

def step (cfg : Config) (s : Sys x) (h : Nat) (a : Act x) : Option (Sys x) :=
  let d := s.domain h
  if h < cfg.harts ∧ cfg.present h = true then
    match s.pc h, a with
    | .smode, .go => if s.line h then some (s.goto h (.ipiClear .smode)) else none
    | .smode, a => if s.line h then none else smodeStep cfg s h a
    | .readAssigned rq i running, .go => some (s.goto h (readAssigned cfg s h rq i running))
    | .readState rq i running, .go => some (s.goto h (readState s rq i running))
    | .check rq rest running, .go => some (s.goto h (check cfg s h rq rest running))
    | .checkParked rq i rest running, .go =>
      some (s.goto h (if s.parked d i then .check rq rest running else .ret .invalidParam rq))
    | .post rq targets (i :: rest), .go =>
      if cfg.ipiAvailable then
        some ((s.setHart i { s.hart i with smode := true }).goto h (.raise rq targets i rest))
      else some (s.goto h (.post rq targets rest))
    | .post rq targets [], .go =>
      some (s.goto h (if rq.legacy then .ret .success rq else .parkedAny rq targets 0))
    | .raise rq targets i rest, .go =>
      some ((s.setHart i { s.hart i with line := true }).goto h (.post rq targets rest))
    | .parkedAny rq targets i, .go => some (s.goto h (parkedAny cfg s h rq targets i))
    | .parkedScan rq targets i, .go => some (s.goto h (parkedScan cfg s h rq targets i))
    | .parkedLock rq targets i, .go =>
      if s.lock then none else some (domainIpiParked s h rq targets i)
    | .parkedRaise rq targets i, .go =>
      some (({ s with lock := false }.setHart i { s.hart i with line := true }).goto h
        (.parkedScan rq targets (i + 1)))
    | .enqueue rq targets rest, .go => rq.fence.map fun req => enqueue s h rq req targets rest
    | .fenceOr rq targets i rest full, .go =>
      if cfg.ipiAvailable then
        some ((s.setHart i { s.hart i with rfence := true }).goto h
          (.fenceRaise rq targets i rest full))
      else
        some (s.goto h (if full then .ipiClear (.enqueue rq targets (i :: rest))
          else .enqueue rq targets rest))
    | .fenceRaise rq targets i rest full, .go =>
      some ((s.setHart i { s.hart i with line := true }).goto h
        (if full then .ipiClear (.enqueue rq targets (i :: rest)) else .enqueue rq targets rest))
    | .fenceSelf rq, .go => some (s.goto h (.await rq))
    | .await rq, .go =>
      some (s.goto h (if (s.hart h).out = 0 then .ret .success rq else .serve (.await rq)))
    | .ret _ _, .go => some (s.goto h .smode)
    | .ipiClear ret, .go =>
      if cfg.ipiAvailable then
        some (s.setHart h { s.hart h with line := false, pc := .ipiSwap ret })
      else some (s.goto h ret.pc)
    | .ipiSwap ret, .go => some (ipiSwap s h ret)
    | .serve site, .go => some (serve s h site)
    | .fencing e site, .go => some (fencing s h e site)
    | .switchLock target state, .go => if s.lock then none else some (contextPark s h target state)
    | .restore target, .go => some (contextRestore s h target)
    | .unpark target, .go => some ((s.setParked target h false).goto h (.assign target))
    | .assign target, .go => some ((s.setAssigned target h true).goto h (.arrive target))
    | .arrive target, .go => some (contextArrive s h target)
    | .suspending, .platform ok =>
      some (s.setHart h { s.hart h with
        hsm := if ok then .suspended else .started, pc := if ok then .asleep else .smode })
    | .asleep, .go => if s.line h then some (s.goto h (.ipiClear .asleep)) else none
    | .asleep, .wake => some (s.goto h .woken)
    | .woken, .go => some (s.setHart h { s.hart h with hsm := .resumePending, pc := .resumed })
    | .resumed, .go => some (s.setHart h { s.hart h with hsm := .started, pc := .smode })
    | _, _ => none
  else none

def init (home : Nat → Nat) (up : Nat → Bool) : Sys x where
  hart := fun h =>
    { domain := home h, hsm := if up h then .started else .stopped
      pc := if up h then .smode else .stopped
      ssip := false, line := false, smode := false, rfence := false, queue := [], out := 0 }
  ctx := fun d h => ⟨if up h ∧ home h = d then .running else .none, false, false⟩
  assigned := fun d h => home h == d
  parked := fun _ _ => false
  lock := false

abbrev run (cfg : Config) : Sys x → List (Nat × Act x) → Option (Sys x) :=
  Runs.run fun s e => step cfg s e.1 e.2

end RiscvMonitor.Delivery
