import RiscvMonitor.Delivery
import RiscvMonitor.RingBuffer

/-!
# Remote fences

The protocol of `arch/riscv/runtime/rfence.c` over the IPI multiplexer of
`drivers/ipi/ipi.c`, on harts that stop, start, suspend and resume as `hsm.c` has it.
The mask of a request is any, and a target may long have stopped when its request
arrives.  A step is one access to what the harts share, or a section of a queue's
lock.  There is an IPI device.
-/

namespace RiscvMonitor.RemoteFences

open Delivery (FenceReq Entry rfenceQueueLen)

variable {x : Xlen}

inductive Ret (x : Xlen) where
  | smode
  | wait
  | asleep (retentive : Bool)
  | enqueue (req : FenceReq x) (mask : List Nat) (i : Nat)
  | await (req : FenceReq x) (mask : List Nat)
deriving DecidableEq

inductive Serve (x : Xlen) where
  | ipi (ret : Ret x)
  | await (req : FenceReq x) (mask : List Nat)
  | wait
deriving DecidableEq

/-- Where a hart is, before the next access to what is shared. -/
inductive Pc (x : Xlen) where
  | smode
  /-- `rfence_request()`, the loop over the mask at hart `i`. -/
  | enqueue (req : FenceReq x) (mask : List Nat) (i : Nat)
  /-- `ipi_send()` to hart `i`, which has the request in its queue or has no room. -/
  | sendOr (req : FenceReq x) (mask : List Nat) (i : Nat) (full : Bool)
  | sendRaise (req : FenceReq x) (mask : List Nat) (i : Nat) (full : Bool)
  /-- `fence_local()` if the hart itself is in the mask. -/
  | fenceSelf (req : FenceReq x) (mask : List Nat)
  | await (req : FenceReq x) (mask : List Nat)
  /-- `SBI_SUCCESS` is returned. -/
  | ret (req : FenceReq x) (mask : List Nat)
  /-- `ipi_process()` -/
  | ipiClear (ret : Ret x)
  | ipiSwap (ret : Ret x)
  /-- `rfence_process()` -/
  | serve (site : Serve x)
  | fencing (e : Entry x) (site : Serve x)
  /-- `hsm_hart_boot()` of another hart, the platform's part and the kick. -/
  | bootPlat (target : Nat)
  | kick (target : Nat)
  /-- `hsm_hart_wait()` -/
  | arrive
  | park
  | resumeReset
  /-- `hsm_wait_loop()`, with the two stores of `ipi_hart_init()`. -/
  | waitClear
  | waitZero
  | wait
  /-- `hsm_hart_enter()`, with the two stores of `ipi_hart_init()` unless the hart
      is only resumed. -/
  | enterClear
  | enterZero
  | begin
  /-- `hart_suspend()` -/
  | suspending (retentive : Bool)
  | asleep (retentive : Bool)
  | woken (retentive : Bool)
  | resumed
  /-- The platform has taken the hart down. -/
  | off
deriving DecidableEq

def Ret.pc : Ret x → Pc x
  | .smode => .smode
  | .wait => .wait
  | .asleep retentive => .asleep retentive
  | .enqueue req mask i => .enqueue req mask i
  | .await req mask => .await req mask

def Serve.pc : Serve x → Pc x
  | .ipi ret => ret.pc
  | .await req mask => .ipiClear (.await req mask)
  | .wait => .wait

structure Sys (x : Xlen) where
  pc : Nat → Pc x
  hsm : Nat → HsmState
  line : Nat → Bool
  /-- `IPI_EVENT_RFENCE` in `ipi_pending`. -/
  rfence : Nat → Bool
  queue : Nat → Ring (Entry x) rfenceQueueLen
  /-- The count on the stack of a hart that is in `rfence_request()`. -/
  out : Nat → Nat

structure Config where
  harts : Nat
  present : Nat → Bool
  /-- `HART_FEAT_H` -/
  hyp : Bool

namespace Sys

def goto (s : Sys x) (h : Nat) (pc : Pc x) : Sys x := { s with pc := Function.update s.pc h pc }

def setHsm (s : Sys x) (h : Nat) (state : HsmState) : Sys x :=
  { s with hsm := Function.update s.hsm h state }

def setLine (s : Sys x) (h : Nat) (b : Bool) : Sys x :=
  { s with line := Function.update s.line h b }

def setRfence (s : Sys x) (h : Nat) (b : Bool) : Sys x :=
  { s with rfence := Function.update s.rfence h b }

def setQueue (s : Sys x) (h : Nat) (q : Ring (Entry x) rfenceQueueLen) : Sys x :=
  { s with queue := Function.update s.queue h q }

def setOut (s : Sys x) (h n : Nat) : Sys x := { s with out := Function.update s.out h n }

end Sys

/-! ### `rfence_request()` and `rfence_process()` -/

def rfenceRequest (cfg : Config) (s : Sys x) (h : Nat) (req : FenceReq x) (mask : List Nat) :
    Sys x :=
  -- SBI_ERR_NOT_SUPPORTED
  if req.type.guest ∧ cfg.hyp = false then s
  else (s.setOut h 0).goto h (.enqueue req mask 0)

/-- One hart of the mask, with `enqueue()` for it. -/
def enqueue (cfg : Config) (s : Sys x) (h : Nat) (req : FenceReq x) (mask : List Nat) (i : Nat) :
    Sys x :=
  if i < cfg.harts then
    if i ∈ mask ∧ i ≠ h then
      match (s.queue i).push ⟨req, h⟩ with
      | some q => ((s.setQueue i q).setOut h (s.out h + 1)).goto h (.sendOr req mask i false)
      | none => s.goto h (.sendOr req mask i true)
    else s.goto h (.enqueue req mask (i + 1))
  else s.goto h (.fenceSelf req mask)

def serve (s : Sys x) (h : Nat) (site : Serve x) : Sys x :=
  match (s.queue h).pop with
  | some (e, q) => (s.setQueue h q).goto h (.fencing e site)
  | none => s.goto h site.pc

/-- `fence_local()`, and the requester's count. -/
def fencing (s : Sys x) (h : Nat) (e : Entry x) (site : Serve x) : Sys x :=
  (s.setOut e.requester (s.out e.requester - 1)).goto h (.serve site)

inductive Act (x : Xlen) where
  | request (req : FenceReq x) (mask : List Nat)
  | start (target : Nat)
  | stop
  | suspend (retentive : Bool)
  | go
  /-- S-mode has work: a hart that sleeps is woken. -/
  | wake
  | platform (ok : Bool)
  /-- The platform takes a hart down, or brings it back. -/
  | power
deriving DecidableEq

/-- The section of `hsm_hart_boot()`. -/
def hartBoot (cfg : Config) (s : Sys x) (h target : Nat) : Sys x :=
  if target < cfg.harts ∧ cfg.present target = true ∧ s.hsm target = .stopped then
    (s.setHsm target .startPending).goto h (.bootPlat target)
  else s

def advance (cfg : Config) (s : Sys x) (h : Nat) : Pc x → Act x → Option (Sys x)
  | .smode, .request req mask => some (rfenceRequest cfg s h req mask)
  | .smode, .start target => some (hartBoot cfg s h target)
  | .smode, .stop => some (if s.hsm h = .started then (s.setHsm h .stopPending).goto h .arrive else s)
  | .smode, .suspend retentive =>
    some (if s.hsm h = .started then
      (s.setHsm h .suspendPending).goto h (.suspending retentive) else s)
  -- the interrupt is taken
  | .smode, .go => if s.line h then some (s.goto h (.ipiClear .smode)) else none
  | .enqueue req mask i, .go => some (enqueue cfg s h req mask i)
  | .sendOr req mask i full, .go =>
    some ((s.setRfence i true).goto h (.sendRaise req mask i full))
  | .sendRaise req mask i full, .go =>
    some ((s.setLine i true).goto h
      (if full then .ipiClear (.enqueue req mask i) else .enqueue req mask (i + 1)))
  | .fenceSelf req mask, .go => some (s.goto h (.await req mask))
  | .await req mask, .go =>
    some (s.goto h (if s.out h = 0 then .ret req mask else .serve (.await req mask)))
  | .ret _ _, .go => some (s.goto h .smode)
  | .ipiClear ret, .go => some ((s.setLine h false).goto h (.ipiSwap ret))
  | .ipiSwap ret, .go =>
    some ((s.setRfence h false).goto h (if s.rfence h then .serve (.ipi ret) else ret.pc))
  | .serve site, .go => some (serve s h site)
  | .fencing e site, .go => some (fencing s h e site)
  | .bootPlat target, .platform true => some (s.goto h (.kick target))
  | .bootPlat target, .platform false =>
    some ((if s.hsm target = .startPending then s.setHsm target .stopped else s).goto h .smode)
  | .kick target, .go => some ((s.setLine target true).goto h .smode)
  | .arrive, .go => some (s.goto h (if s.hsm h = .suspended then .resumeReset else .park))
  | .park, .go => some ((s.setHsm h .stopped).goto h .waitClear)
  | .resumeReset, .go => some ((s.setHsm h .resumePending).goto h .enterClear)
  | .waitClear, .go => some ((s.setLine h false).goto h .waitZero)
  | .waitZero, .go => some ((s.setRfence h false).goto h (.serve .wait))
  | .wait, .go => some (s.goto h (if s.hsm h = .startPending then .enterClear else .ipiClear .wait))
  | .wait, .power => some (s.goto h .off)
  | .enterClear, .go => some ((s.setLine h false).goto h .enterZero)
  | .enterZero, .go => some ((s.setRfence h false).goto h .begin)
  | .begin, .go => some ((s.setHsm h .started).goto h .smode)
  | .suspending retentive, .platform true =>
    some ((s.setHsm h .suspended).goto h (.asleep retentive))
  | .suspending _, .platform false => some ((s.setHsm h .started).goto h .smode)
  | .asleep retentive, .go =>
    if s.line h then some (s.goto h (.ipiClear (.asleep retentive))) else none
  | .asleep retentive, .wake => some (s.goto h (.woken retentive))
  -- only a suspend that keeps nothing ends in a reset
  | .asleep false, .power => some (s.goto h .off)
  | .woken retentive, .go =>
    some ((s.setHsm h .resumePending).goto h (if retentive then .resumed else .begin))
  | .resumed, .go => some ((s.setHsm h .started).goto h .smode)
  -- the monitor's entry, image_secondary_main()
  | .off, .power => some (s.goto h .arrive)
  | _, _ => none

def step (cfg : Config) (s : Sys x) (e : Nat × Act x) : Option (Sys x) :=
  if e.1 < cfg.harts ∧ cfg.present e.1 = true then advance cfg s e.1 (s.pc e.1) e.2 else none

/-- The harts in S-mode are `up`, the others come in. -/
def init (up : Nat → Bool) : Sys x where
  pc h := if up h then .smode else .arrive
  hsm h := if up h then .started else .stopped
  line _ := false
  rfence _ := false
  queue _ := ⟨⟨0, by decide⟩, 0, fun _ => ⟨⟨.fenceI, 0, 0, 0⟩, 0⟩, Nat.zero_le _⟩
  out _ := 0

abbrev run (cfg : Config) : Sys x → List (Nat × Act x) → Option (Sys x) := Runs.run (step cfg)

end RiscvMonitor.RemoteFences
