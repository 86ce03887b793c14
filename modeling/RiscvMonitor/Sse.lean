import RiscvMonitor.HartStart
import RiscvMonitor.RangeCheck
import RiscvMonitor.Delivery

/-!
# Supervisor software events, and the calls that reach other harts

`sse.c`, with the calls of the HSM, IPI and RFENCE extensions that name other harts.  A
call is one step; what it does to a hart it names is noted with that hart.  An event is
a domain's own: a local one of the domain and a hart, a global one of the domain.
-/

namespace RiscvMonitor.Sse

open Function (update)
open HartStart (Args)
open Delivery (FenceReq FenceType)

variable {x : Xlen}

/-! ### Events -/

inductive EventState where
  | unused
  | registered
  | enabled
  | running
deriving DecidableEq

inductive Attr where
  | status
  | priority
  | config
  | preferredHart
  | entryPc
  | entryArg
  | interruptedSepc
  | interruptedFlags
  | interruptedA6
  | interruptedA7
deriving DecidableEq

def Attr.all : List Attr :=
  [.status, .priority, .config, .preferredHart, .entryPc, .entryArg, .interruptedSepc,
   .interruptedFlags, .interruptedA6, .interruptedA7]

/-- `struct sse_event`; the state is the attribute `STATUS`. -/
structure Event (x : Xlen) where
  id : Nat
  pending : Bool
  hart : Nat
  state : EventState
  attr : Attr → Word x

def Event.zero : Event x := ⟨0, false, 0, .unused, fun _ => 0⟩

def localSoftware : Nat := 0xffff0000
def globalSoftware : Nat := 0xffff8000

/-- `local_ids`: RAS of high priority, double trap, counter overflow, RAS of low
    priority, software. -/
def localIds : List Nat := [0x00000000, 0x00000001, 0x00010000, 0x00100000, localSoftware]

def isGlobal (id : Nat) : Bool := id.testBit 15

def eventInjectable (id : Nat) : Bool := id == localSoftware || id == globalSoftware

inductive IpiEvent where
  | smode
  | rfence
  | halt
  | sse
deriving DecidableEq

/-- What one hart does to another: its flag in `kick`, an IPI with an event or
    without one, an entry in its queue of fences. -/
inductive Signal (x : Xlen) where
  | kick
  | ipi (event : IpiEvent)
  | wake
  | fence (req : FenceReq x)
deriving DecidableEq

structure Sys (x : Xlen) where
  domain : Nat → Nat
  hsm : Nat → HsmState
  args : Nat → Args x
  assigned : Nat → Nat → Bool
  parked : Nat → Nat → Bool
  /-- The context of a domain on a hart is not `CONTEXT_NONE`. -/
  ran : Nat → Nat → Bool
  /-- An IPI that a context finds when it is back. -/
  ctxIpi : Nat → Nat → Bool
  stopping : Nat → Bool
  globals : Nat → Nat → Event x
  globalsReady : Nat → Bool
  locals : Nat → Nat → Nat → Event x
  unmasked : Nat → Nat → Bool
  kick : Nat → Bool
  /-- What each hart was sent, the latest first.  Nothing reads it. -/
  sent : Nat → List (Signal x)

instance neZero_events : NeZero 65 := ⟨by decide⟩

structure Config (x : Xlen) where
  harts : Nat
  hartId : Nat → Word x
  valid : Nat → Bool
  monitor : List (MemRegion x)
  domain : Nat → Domain x
  ipiAvailable : Bool
  platformStart : Bool
  platformSuspend : Bool
  hypervisor : Nat → Bool
  /-- `event_available()` on a hart. -/
  eventAvailable : Nat → Nat → Bool
  /-- `SSE_MPXY_EVENTS`, at most 64 in the configuration. -/
  mpxyEvents : Fin 65

/-- `global_ids`, and the events of the message proxy's channels. -/
def Config.globalIds (cfg : Config x) : List Nat :=
  [0x00008000, 0x00108000, globalSoftware] ++ (List.range cfg.mpxyEvents.val).map (0x0010c000 + ·)

def Config.hartIndex (cfg : Config x) (hartid : Word x) : Option Nat :=
  (List.range cfg.harts).find? fun i => cfg.hartId i == hartid

def Config.indexValid (cfg : Config x) (i : Nat) : Bool := decide (i < cfg.harts) && cfg.valid i

def Config.hartValid (cfg : Config x) (hartid : Word x) : Bool :=
  (cfg.hartIndex hartid).any cfg.valid

def Config.entryOk (cfg : Config x) (d : Nat) (addr : Word x) : Bool :=
  domainRangeOk cfg.monitor (some (cfg.domain d)) addr 4 domainPermSuX

def Config.rangeOk (cfg : Config x) (d : Nat) (addr size : Word x) : Bool :=
  domainRangeOk cfg.monitor (some (cfg.domain d)) addr size (domainPermSuR ||| domainPermSuW)

namespace Sys

def member (s : Sys x) (d i : Nat) : Bool := s.assigned d i || s.parked d i

@[simps]
def send (s : Sys x) (i : Nat) (signal : Signal x) : Sys x :=
  { s with sent := update s.sent i (signal :: s.sent i) }

/-- `atomic_store_ulong(&kick[i], 1)` -/
@[simps!]
def setKick (s : Sys x) (i : Nat) : Sys x :=
  { s.send i .kick with kick := update s.kick i true }

@[simps]
def setHsm (s : Sys x) (i : Nat) (hsm : HsmState) : Sys x :=
  { s with hsm := update s.hsm i hsm }

@[simps]
def setArgs (s : Sys x) (i : Nat) (args : Args x) : Sys x :=
  { s with args := update s.args i args }

end Sys

/-! ### IPIs, and the masks -/

def ipiSend (cfg : Config x) (s : Sys x) (i : Nat) (event : IpiEvent) : Sys x :=
  if cfg.ipiAvailable = true ∧ i < cfg.harts then s.send i (.ipi event) else s

def ipiKick (cfg : Config x) (s : Sys x) (i : Nat) : Sys x :=
  if cfg.ipiAvailable = true ∧ i < cfg.harts then s.send i .wake else s

def forEachHart (cfg : Config x) (mask : Nat → Bool) (f : Sys x → Nat → Sys x) (s : Sys x) :
    Sys x :=
  (List.range cfg.harts).foldl (fun s i => if mask i then f s i else s) s

/-- `hsm_interruptible_mask_of()` -/
def interruptible (cfg : Config x) (s : Sys x) (d i : Nat) : Bool :=
  cfg.indexValid i && s.assigned d i && (s.hsm i == .started || s.hsm i == .suspended)

/-- `sbi_hartmask()`: the harts that the mask names, of those that take interrupts. -/
def sbiHartmask (cfg : Config x) (s : Sys x) (self : Nat) (hmask hbase : Word x) :
    Except SbiError (Nat → Bool) :=
  let running := interruptible cfg s (s.domain self)
  if hbase = BitVec.allOnes x.bits then .ok running
  else
    (List.range x.bits).foldlM (fun out n =>
      let hartid := hbase + BitVec.ofNat x.bits n
      if hmask.getLsbD n = false then .ok out
      else
        match cfg.hartIndex hartid with
        | none => .error .invalidParam
        | some i =>
          if hartid < hbase ∨ cfg.valid i = false ∨ s.member (s.domain self) i = false then
            .error .invalidParam
          else if running i then .ok (update out i true)
          else .ok out) fun _ => false

/-- The mask of a legacy call: all harts, or a word that was read, or the read
    faulted. -/
inductive LegacyMask (x : Xlen) where
  | all
  | word (hmask : Word x)
  | fault

def legacyHartmask (cfg : Config x) (s : Sys x) (self : Nat) :
    LegacyMask x → Option (Nat → Bool)
  | .all => some (interruptible cfg s (s.domain self))
  | .word hmask => some fun i =>
    interruptible cfg s (s.domain self) i && decide ((cfg.hartId i).toNat < x.bits) &&
      hmask.getLsbD (cfg.hartId i).toNat
  | .fault => none

def domainIpiParked (cfg : Config x) (s : Sys x) (self i : Nat) : Sys x :=
  let d := s.domain self
  if s.domain i = d then ipiSend cfg s i .smode
  else if s.ran d i then
    { s with ctxIpi := update s.ctxIpi d (update (s.ctxIpi d) i true) }
  else s

def ipiParkedHarts (cfg : Config x) (s : Sys x) (self : Nat) (hmask hbase : Word x) : Sys x :=
  forEachHart cfg (fun i =>
    let id := cfg.hartId i
    s.parked (s.domain self) i &&
      (hbase == BitVec.allOnes x.bits ||
        decide (hbase ≤ id ∧ (id - hbase).toNat < x.bits) && hmask.getLsbD (id - hbase).toNat))
    (fun s i => domainIpiParked cfg s self i) s

/-! ### The calls of the HSM, IPI and RFENCE extensions -/

/-- `hsm_hart_boot()`; `ok` is what the platform answers. -/
def hsmHartBoot (cfg : Config x) (s : Sys x) (i : Nat) (args : Args x) (ok : Bool) :
    Sys x × SbiError :=
  if cfg.indexValid i = false then (s, .invalidParam)
  else if cfg.ipiAvailable = false then (s, .failed)
  else if s.stopping (s.domain i) = true then (s, .denied)
  else
    match s.hsm i with
    | .started | .startPending => (s, .alreadyAvailable)
    | .stopped =>
      if cfg.platformStart = true ∧ ok = false then
        -- `START_PENDING`, and back
        (s.setArgs i args, .failed)
      else (ipiKick cfg ((s.setArgs i args).setHsm i .startPending) i, .success)
    | _ => (s, .invalidState)

def hsmHartStart (cfg : Config x) (s : Sys x) (self : Nat) (hartid entry arg : Word x) (ok : Bool) :
    Sys x × SbiError :=
  match cfg.hartIndex hartid with
  | none => (s, .invalidParam)
  | some i =>
    if cfg.valid i = false ∨ s.member (s.domain self) i = false then (s, .invalidParam)
    else if s.assigned (s.domain self) i = false then (s, .alreadyAvailable)
    else if cfg.entryOk (s.domain self) entry = false then (s, .invalidAddress)
    else hsmHartBoot cfg s i ⟨entry, arg, .supervisor⟩ ok

def hsmHartStop (s : Sys x) (self : Nat) : Sys x × SbiError :=
  if s.hsm self = .started then (s.setHsm self .stopPending, .success) else (s, .failed)

/-- `hsm_hart_state()`, with the state for the caller. -/
def hsmHartState (cfg : Config x) (s : Sys x) (self : Nat) (hartid : Word x) :
    Except SbiError HsmState :=
  match cfg.hartIndex hartid with
  | none => .error .invalidParam
  | some i =>
    if cfg.valid i = false ∨ s.member (s.domain self) i = false then .error .invalidParam
    else if s.assigned (s.domain self) i = false then .ok .started
    else .ok (s.hsm i)

/-- `hsm_suspend_type_check()`: retentive, and the platform's. -/
def suspendType (cfg : Config x) (type : Word x) : Except SbiError (Bool × Bool) :=
  let n := type.toNat
  if 0xffffffff < n ∨ (0 < n ∧ n < 0x10000000) ∨ (0x80000000 < n ∧ n < 0x90000000) then
    .error .invalidParam
  else if n ≠ 0 ∧ n ≠ 0x80000000 ∧ cfg.platformSuspend = false then .error .notSupported
  else .ok (decide (n < 0x80000000), decide (n ≠ 0 ∧ n ≠ 0x80000000))

/-- `hart_suspend()`, up to the wait; `ok` is what the platform answers. -/
def hartSuspend (cfg : Config x) (s : Sys x) (self : Nat) (type addr arg : Word x) (ok : Bool) :
    Sys x × SbiError :=
  match suspendType cfg type with
  | .error e => (s, e)
  | .ok (retentive, platform) =>
    if retentive = false ∧ cfg.entryOk (s.domain self) addr = false then (s, .invalidAddress)
    else if s.hsm self ≠ .started then (s, .failed)
    else if cfg.platformSuspend = true ∧ ok = false ∧ platform = true then (s, .failed)
    else if retentive then (s.setHsm self .suspended, .success)
    else ((s.setArgs self ⟨addr, arg, .supervisor⟩).setHsm self .suspended, .success)

/-- `sbi_ipi_ecall()` -/
def sendIpi (cfg : Config x) (s : Sys x) (self : Nat) (hmask hbase : Word x) : Sys x × SbiError :=
  if cfg.ipiAvailable = false then (s, .notSupported)
  else
    match sbiHartmask cfg s self hmask hbase with
    | .error e => (s, e)
    | .ok targets =>
      (ipiParkedHarts cfg (forEachHart cfg targets (fun s i => ipiSend cfg s i .smode) s) self
        hmask hbase, .success)

/-- `rfence_request()`: an entry in the queue of each target, and an IPI.  The hart
    then waits for them. -/
def rfenceRequest (cfg : Config x) (s : Sys x) (self : Nat) (targets : Nat → Bool)
    (req : FenceReq x) : Sys x × SbiError :=
  if req.type.guest = true ∧ cfg.hypervisor self = false then (s, .notSupported)
  else
    (forEachHart cfg (fun i => targets i && i != self)
      (fun s i => ipiSend cfg (s.send i (.fence req)) i .rfence) s, .success)

/-- `sbi_rfence_ecall()` -/
def remoteFence (cfg : Config x) (s : Sys x) (self : Nat) (req : FenceReq x)
    (hmask hbase : Word x) : Sys x × SbiError :=
  if cfg.ipiAvailable = false then (s, .notSupported)
  else if req.type ≠ .fenceI ∧ req.size ≠ BitVec.allOnes x.bits ∧
      req.start + req.size < req.start then
    (s, .invalidAddress)
  else
    match sbiHartmask cfg s self hmask hbase with
    | .error e => (s, e)
    | .ok targets => rfenceRequest cfg s self targets req

/-! ### `sse.c` -/

inductive Slot where
  | global (i : Nat)
  | onHart (h i : Nat)
deriving DecidableEq

def Sys.event (s : Sys x) (d : Nat) : Slot → Event x
  | .global i => s.globals d i
  | .onHart h i => s.locals d h i

def Sys.setEvent (s : Sys x) (d : Nat) (slot : Slot) (e : Event x) : Sys x :=
  match slot with
  | .global i =>
    { s with
      globals := update s.globals d (update (s.globals d) i e) }
  | .onHart h i =>
    { s with
      locals := update s.locals d
        (update (s.locals d) h (update (s.locals d h) i e)) }

/-- `event_find()`, for an event of hart `h` if it is local. -/
def eventFind (cfg : Config x) (self : Nat) (eventId : Word x) (h : Nat) : Except SbiError Slot :=
  let id := eventId.toNat
  if id ∈ localIds then
    if cfg.eventAvailable self id then .ok (.onHart h (localIds.idxOf id)) else .error .notSupported
  else if id ∈ cfg.globalIds then
    if cfg.eventAvailable self id then .ok (.global (cfg.globalIds.idxOf id))
    else .error .notSupported
  else if id ≤ 0xffffffff ∧ id.testBit 14 = true then .error .notSupported
  else .error .invalidParam

def eventReset (cfg : Config x) (id h : Nat) : Event x :=
  ⟨id, false, h, .unused, fun a =>
    if a = .preferredHart then (if h < cfg.harts then cfg.hartId h else BitVec.allOnes x.bits)
    else 0⟩

def sseHartInit (cfg : Config x) (s : Sys x) (self : Nat) : Sys x :=
  let d := s.domain self
  let s := { s with
    unmasked := update s.unmasked d (update (s.unmasked d) self false)
    locals := update s.locals d (update (s.locals d) self fun i =>
      if i < localIds.length then eventReset cfg (localIds.getD i 0) self else s.locals d self i) }
  if s.globalsReady d then s
  else
    { s with
      globals := update s.globals d fun i =>
        if i < cfg.globalIds.length then eventReset cfg (cfg.globalIds.getD i 0) self
        else s.globals d i
      globalsReady := update s.globalsReady d true }

def sseDomainReset (s : Sys x) (d : Nat) : Sys x :=
  { s with globalsReady := update s.globalsReady d false }

def outranks (a b : Event x) : Bool :=
  if a.attr .priority ≠ b.attr .priority then a.attr .priority < b.attr .priority
  else decide (a.id < b.id)

/-- The events that `top_event()` looks at. -/
def Config.slots (cfg : Config x) (self : Nat) : List Slot :=
  (List.range localIds.length).map (.onHart self) ++
    (List.range cfg.globalIds.length).map .global

def topEvent (cfg : Config x) (s : Sys x) (self : Nat) (state : EventState) : Option Slot :=
  let d := s.domain self
  (cfg.slots self).foldl (fun best slot =>
    let e := s.event d slot
    if e.state ≠ state ∨ e.hart ≠ self ∨ (state = .enabled ∧ e.pending = false) then best
    else
      match best with
      | none => some slot
      | some b => if outranks e (s.event d b) then some slot else best) none

def listens (cfg : Config x) (s : Sys x) (d i : Nat) : Bool :=
  s.unmasked d i && interruptible cfg s d i

def globalTarget (cfg : Config x) (s : Sys x) (self d : Nat) (e : Event x) : Nat :=
  let pref := cfg.hartIndex (e.attr .preferredHart)
  match pref.filter (listens cfg s d) with
  | some p => p
  | none =>
    if listens cfg s d self then self
    else
      match (List.range cfg.harts).find? (listens cfg s d) with
      | some h => h
      | none => pref.getD (if d = s.domain self then self else e.hart)

def aimedAt (cfg : Config x) (s : Sys x) (self d : Nat) (e : Event x) : Nat :=
  if isGlobal e.id = true ∧ e.state ≠ .running then globalTarget cfg s self d e else e.hart

/-- `make_pending()`, for an event of domain `d` -/
def makePending (cfg : Config x) (s : Sys x) (self d : Nat) (slot : Slot) : Sys x :=
  let e := s.event d slot
  let hart := aimedAt cfg s self d e
  let s := (s.setEvent d slot { e with pending := true, hart := hart }).setKick hart
  if hart ≠ self then ipiSend cfg s hart .sse else s

def sseRaiseGlobal (cfg : Config x) (s : Sys x) (self id d : Nat) : Sys x :=
  if s.globalsReady d = true then
    (List.range cfg.globalIds.length).foldl (fun s i =>
      if cfg.globalIds.getD i 0 = id ∧ (s.globals d i).state ≠ .unused then
        makePending cfg s self d (.global i)
      else s) s
  else s

def sseRaiseLocal (cfg : Config x) (s : Sys x) (self : Nat) (id : Word x) : Sys x × Bool :=
  let d := s.domain self
  match eventFind cfg self id self with
  | .error _ => (s, false)
  | .ok slot =>
    let e := s.event d slot
    let taken := s.unmasked d self && (e.state == .enabled || e.state == .running)
    (if e.state ≠ .unused then makePending cfg s self d slot else s, taken)

def injectSlot (cfg : Config x) (s : Sys x) (self : Nat) (eventId hartid : Word x) :
    Except SbiError Slot :=
  if 0xffffffff < eventId.toNat then .error .invalidParam
  else
    let hart :=
      if isGlobal eventId.toNat then some self
      else
        (cfg.hartIndex hartid).filter fun i => cfg.valid i && s.member (s.domain self) i
    match hart with
    | none => .error .invalidParam
    | some h =>
      match eventFind cfg self eventId h with
      | .error e => .error e
      | .ok slot =>
        if eventInjectable (s.event (s.domain self) slot).id then .ok slot
        else .error .invalidParam

def sseInject (cfg : Config x) (s : Sys x) (self : Nat) (eventId hartid : Word x) :
    Sys x × SbiError :=
  match injectSlot cfg s self eventId hartid with
  | .error e => (s, e)
  | .ok slot => (makePending cfg s self (s.domain self) slot, .success)

def transition (cfg : Config x) (s : Sys x) (self : Nat) (eventId : Word x)
    (source target : EventState) : Sys x × SbiError :=
  let d := s.domain self
  match eventFind cfg self eventId self with
  | .error e => (s, e)
  | .ok slot =>
    let e := s.event d slot
    if e.state ≠ source then (s, .invalidState)
    else
      let s := s.setEvent d slot { e with state := target }
      if target = .enabled ∧ e.pending = true then (makePending cfg s self d slot, .success)
      else if target = .unused then (s.setEvent d slot (eventReset cfg e.id e.hart), .success)
      else (s, .success)

def sseRegister (cfg : Config x) (s : Sys x) (self : Nat) (eventId entryPc entryArg : Word x) :
    Sys x × SbiError :=
  let d := s.domain self
  match eventFind cfg self eventId self with
  | .error e => (s, e)
  | .ok slot =>
    let e := s.event d slot
    if entryPc.getLsbD 0 = true ∨ cfg.entryOk d entryPc = false then (s, .invalidParam)
    else if e.state ≠ .unused then (s, .invalidState)
    else
      (s.setEvent d slot { e with
        state := .registered
        attr := update (update e.attr .entryPc entryPc) .entryArg entryArg },
        .success)

def sseHartUnmask (s : Sys x) (self : Nat) : Sys x × SbiError :=
  let d := s.domain self
  if s.unmasked d self then (s, .alreadyStarted)
  else
    ({ s with unmasked := update s.unmasked d (update (s.unmasked d) self true) }
      |>.setKick self, .success)

def sseHartMask (s : Sys x) (self : Nat) : Sys x × SbiError :=
  let d := s.domain self
  if s.unmasked d self = false then (s, .alreadyStopped)
  else
    ({ s with
        unmasked := update s.unmasked d (update (s.unmasked d) self false) },
      .success)

def attrsCheck (cfg : Config x) (s : Sys x) (self : Nat) (eventId base count addr : Word x) :
    Except SbiError Slot :=
  match eventFind cfg self eventId self with
  | .error e => .error e
  | .ok slot =>
    let word : Word x := BitVec.ofNat x.bits (x.bits / 8)
    if count = 0 then .error .invalidParam
    else if 10 ≤ base.toNat ∨ 10 - base.toNat < count.toNat then .error .badRange
    else if isAligned addr word = false ∨
        cfg.rangeOk (s.domain self) addr (count * word) = false then
      .error .invalidAddress
    else .ok slot

/-- `e->attr[a]` as it is read: the state comes with two flags. -/
def Event.read (e : Event x) : Attr → Word x
  | .status =>
    let n : Nat :=
      match e.state with
      | .unused => 0
      | .registered => 1
      | .enabled => 2
      | .running => 3
    BitVec.ofNat x.bits (n + (if e.pending then 4 else 0) +
      (if eventInjectable e.id then 8 else 0))
  | a => e.attr a

/-- `sse_read_attrs()`, with what it writes to the caller's memory. -/
def sseReadAttrs (cfg : Config x) (s : Sys x) (self : Nat) (eventId base count addr : Word x) :
    Except SbiError (List (Word x)) :=
  match attrsCheck cfg s self eventId base count addr with
  | .error e => .error e
  | .ok slot =>
    .ok (((Attr.all.drop base.toNat).take count.toNat).map (s.event (s.domain self) slot).read)

def intFlagsValid : Nat := 0x2f

def attrWriteCheck (cfg : Config x) (self : Nat) (e : Event x) (a : Attr) (val : Word x) :
    SbiError :=
  let idle : Bool := e.state == .unused || e.state == .registered
  let whenIdle : SbiError := if idle then .success else .invalidState
  let whenRunning : SbiError :=
    if e.state = .running ∧ e.hart = self then .success else .invalidState
  match a with
  | .priority => if 0xffffffff < val.toNat then .invalidParam else whenIdle
  | .config => if val &&& ~~~1 ≠ 0 then .invalidParam else whenIdle
  | .preferredHart =>
    if isGlobal e.id = false then .denied
    else if cfg.hartValid val = false then .invalidParam
    else whenIdle
  | .interruptedFlags =>
    if val &&& ~~~(BitVec.ofNat x.bits intFlagsValid) ≠ 0 then .invalidParam else whenRunning
  | .interruptedSepc | .interruptedA6 | .interruptedA7 => whenRunning
  | .status | .entryPc | .entryArg => .denied

/-- `sse_write_attrs()`; `vals` is what the caller's memory has. -/
def sseWriteAttrs (cfg : Config x) (s : Sys x) (self : Nat) (eventId base count addr : Word x)
    (vals : List (Word x)) : Sys x × SbiError :=
  let d := s.domain self
  match attrsCheck cfg s self eventId base count addr with
  | .error e => (s, e)
  | .ok slot =>
    let e := s.event d slot
    let writes := ((Attr.all.drop base.toNat).take count.toNat).zip vals
    match writes.find? fun w => attrWriteCheck cfg self e w.1 w.2 ≠ .success with
    | some w => (s, attrWriteCheck cfg self e w.1 w.2)
    | none =>
      (s.setEvent d slot { e with
        attr := writes.foldl (fun attr w => update attr w.1 w.2) e.attr }, .success)

structure Interrupted (x : Xlen) where
  flags : Word x
  sepc : Word x
  a6 : Word x
  a7 : Word x

/-- `inject()`, as far as the event goes. -/
def inject (e : Event x) (saved : Interrupted x) : Event x :=
  { e with
    pending := false
    state := .running
    attr := fun
      | .interruptedFlags => saved.flags
      | .interruptedSepc => saved.sepc
      | .interruptedA6 => saved.a6
      | .interruptedA7 => saved.a7
      | a => e.attr a }

def sseProcess (cfg : Config x) (s : Sys x) (self : Nat) (saved : Interrupted x) : Sys x :=
  let d := s.domain self
  if s.kick self = false then s
  else
    match topEvent cfg s self .enabled with
    | none => { s with kick := update s.kick self false }
    | some next =>
      let first := (topEvent cfg s self .running).all fun r =>
        outranks (s.event d next) (s.event d r)
      if s.unmasked d self = true ∧ first = true then
        s.setEvent d next (inject (s.event d next) saved)
      else s

/-- `sse_complete()`, as far as the event goes. -/
def sseComplete (cfg : Config x) (s : Sys x) (self : Nat) : Sys x × Bool :=
  let d := s.domain self
  match topEvent cfg s self .running with
  | none => (s, false)
  | some slot =>
    let e := s.event d slot
    let oneshot := (e.attr .config).getLsbD 0
    ((s.setEvent d slot { e with state := if oneshot then .registered else .enabled }).setKick
      self, true)

/-! ### Calls from S-mode -/

inductive Call (x : Xlen) where
  | hartStart (hartid entry arg : Word x) (ok : Bool)
  | hartStop
  | hartGetStatus (hartid : Word x)
  | hartSuspend (type addr arg : Word x) (ok : Bool)
  | sendIpi (hmask hbase : Word x)
  | legacySendIpi (mask : LegacyMask x)
  | remoteFence (req : FenceReq x) (hmask hbase : Word x)
  | legacyFence (req : FenceReq x) (mask : LegacyMask x)
  | sseReadAttrs (eventId base count addr : Word x)
  | sseWriteAttrs (eventId base count addr : Word x) (vals : List (Word x))
  | sseRegister (eventId entryPc entryArg : Word x)
  | sseUnregister (eventId : Word x)
  | sseEnable (eventId : Word x)
  | sseDisable (eventId : Word x)
  | sseComplete
  | sseInject (eventId hartid : Word x)
  | sseHartUnmask
  | sseHartMask

/-- What a call does, made on hart `self` by the domain that the hart is in. -/
def ecall (cfg : Config x) (s : Sys x) (self : Nat) : Call x → Sys x
  | .hartStart hartid entry arg ok => (hsmHartStart cfg s self hartid entry arg ok).1
  | .hartStop => (hsmHartStop s self).1
  | .hartGetStatus _ => s
  | .hartSuspend type addr arg ok => (hartSuspend cfg s self type addr arg ok).1
  | .sendIpi hmask hbase => (sendIpi cfg s self hmask hbase).1
  | .legacySendIpi mask =>
    match legacyHartmask cfg s self mask with
    | none => s
    | some targets => forEachHart cfg targets (fun s i => ipiSend cfg s i .smode) s
  | .remoteFence req hmask hbase => (remoteFence cfg s self req hmask hbase).1
  | .legacyFence req mask =>
    match legacyHartmask cfg s self mask with
    | none => s
    | some targets => (rfenceRequest cfg s self targets req).1
  | .sseReadAttrs _ _ _ _ => s
  | .sseWriteAttrs eventId base count addr vals =>
    (sseWriteAttrs cfg s self eventId base count addr vals).1
  | .sseRegister eventId entryPc entryArg => (sseRegister cfg s self eventId entryPc entryArg).1
  | .sseUnregister eventId => (transition cfg s self eventId .registered .unused).1
  | .sseEnable eventId => (transition cfg s self eventId .registered .enabled).1
  | .sseDisable eventId => (transition cfg s self eventId .enabled .registered).1
  | .sseComplete => (sseComplete cfg s self).1
  | .sseInject eventId hartid => (sseInject cfg s self eventId hartid).1
  | .sseHartUnmask => (sseHartUnmask s self).1
  | .sseHartMask => (sseHartMask s self).1

/-- What a hart does, and the beginning and the end of the stop of a domain. -/
inductive Act (x : Xlen) where
  | call (c : Call x)
  | trapEnd (saved : Interrupted x)
  | begins (d : Nat) (keeps : Bool)
  | goesBack (d : Nat) (keeps : Bool)
  | hsm (state : HsmState)
  | raiseLocal (id : Word x)
  | raiseGlobal (id d : Nat)
  | stopBegins (d : Nat)
  | stopEnds (d : Nat)

/-- The hart leaves its domain, for good or to come back, and is in domain `d`. -/
def Sys.moveTo (s : Sys x) (h d : Nat) (keeps : Bool) : Sys x :=
  let here := s.domain h
  { s with
    domain := update s.domain h d
    assigned := fun d' i => if i = h then d' == d else s.assigned d' i
    parked := fun d' i =>
      if i = h then d' != d && (if d' = here then keeps else s.parked d' i) else s.parked d' i
    ran := fun d' i =>
      if i = h then if d' = d then true else if d' = here then keeps else s.ran d' i
      else s.ran d' i }

def step (cfg : Config x) (s : Sys x) (h : Nat) (a : Act x) : Option (Sys x) :=
  if h < cfg.harts ∧ cfg.valid h = true then
    match a with
    | .call c => if s.ran (s.domain h) h then some (ecall cfg s h c) else none
    | .trapEnd saved => if s.ran (s.domain h) h then some (sseProcess cfg s h saved) else none
    | .begins d keeps =>
      if d = s.domain h then some (sseHartInit cfg (s.moveTo h d keeps) h)
      -- one that was switched looks at what is due for the domain
      else if s.ran (s.domain h) h then
        some ((sseHartInit cfg (s.moveTo h d keeps) h).setKick h)
      else none
    | .goesBack d keeps =>
      if s.ran (s.domain h) h = true ∧ s.ran d h = true then
        some ((s.moveTo h d keeps).setKick h)
      else none
    | .hsm state => some (s.setHsm h state)
    | .raiseLocal id => if s.ran (s.domain h) h then some (sseRaiseLocal cfg s h id).1 else none
    | .raiseGlobal id d => some (sseRaiseGlobal cfg s h id d)
    | .stopBegins d =>
      some { s with
        stopping := update s.stopping d true
        parked := update s.parked d fun _ => false
        ran := update s.ran d fun i => s.ran d i && decide (s.domain i = d) }
    | .stopEnds d =>
      some { sseDomainReset s d with stopping := update s.stopping d false }
  else none

def init (home : Nat → Nat) : Sys x where
  domain := home
  hsm := fun _ => .stopped
  args := fun _ => ⟨0, 0, .supervisor⟩
  assigned := fun d h => home h == d
  parked := fun _ _ => false
  ran := fun _ _ => false
  ctxIpi := fun _ _ => false
  stopping := fun _ => false
  globals := fun _ _ => .zero
  globalsReady := fun _ => false
  locals := fun _ _ _ => .zero
  unmasked := fun _ _ => false
  kick := fun _ => false
  sent := fun _ => []

abbrev run (cfg : Config x) : Sys x → List (Nat × Act x) → Option (Sys x) :=
  Runs.run fun s e => step cfg s e.1 e.2

end RiscvMonitor.Sse
