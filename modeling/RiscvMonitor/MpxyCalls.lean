import RiscvMonitor.Confined
import RiscvMonitor.Mpxy
import RiscvMonitor.Reqfwd
import RiscvMonitor.RpmiGroups

/-!
# The MPXY calls

The calls of `mpxy.c` that work on the shared memory, with both message protocols
behind them: `mpxy_rpmi.c`, where a PuC answers, and `mpxy_rpmi_fw.c`, where the
monitor or another domain does.  A call is a program over the monitor's state; what has
a model of its own is behind an interface.
-/

namespace RiscvMonitor.Mpxy

open Function (update)
open Rpmi (Rc Msg)
open Reqfwd (Byte)

variable {x : Xlen} {W : Type} {α : Type}

/-! ### Memory -/

def byteAt (m : Msg) (i : Nat) : Byte := (m (i / 4)).extractLsb' (8 * (i % 4)) 8

def ofBytes (f : Nat → Byte) : Msg := fun i =>
  f (4 * i + 3) ++ f (4 * i + 2) ++ f (4 * i + 1) ++ f (4 * i)

def readBytes (m : Msg) (off n : Nat) : List Byte := (List.range n).map fun k => byteAt m (off + k)

def writeBytes (m : Msg) (off : Nat) (bytes : List Byte) : Msg :=
  ofBytes fun k => if off ≤ k then bytes[k - off]?.getD (byteAt m k) else byteAt m k

def writeWords (m : Msg) (off : Nat) (words : List (BitVec 32)) : Msg := fun i =>
  if off ≤ i then words[i - off]?.getD (m i) else m i

/-! ### Channels and their message protocols -/

structure Event where
  hdr : BitVec 32
  data : List (BitVec 32)
  deriving DecidableEq, Repr

/-- `RPMI_EVENT_HDR_SIZE + RPMI_EVENT_DATALEN(hdr)` of a whole event -/
def Event.size (e : Event) : Nat := 4 + 4 * e.data.length

def Event.words (e : Event) : List (BitVec 32) := e.hdr :: e.data

structure Note where
  group : BitVec 16
  words : List (BitVec 32)

/-- The loop of `deliver_events()`: the whole events at the beginning, the first argument bounds
    their number. -/
def wholeEvents : Nat → List (BitVec 32) → List Event
  | 0, _ => []
  | _ + 1, [] => []
  | k + 1, hdr :: rest =>
    let len := hdr.toNat % 0x10000
    if len % 4 ≠ 0 ∨ rest.length < len / 4 then []
    else ⟨hdr, rest.take (len / 4)⟩ :: wholeEvents k (rest.drop (len / 4))

def Note.events (n : Note) : List Event := wholeEvents n.words.length n.words

structure RpmiBack (x : Xlen) where
  puc : Nat
  group : BitVec 16
  state : Rpmi.Channel x
  groupVersion : BitVec 32
  implId : BitVec 32
  implVersion : BitVec 32
  events : List Event
  lost : BitVec 32

structure FwBack where
  group : BitVec 16
  queue : Option Nat
  owner : Nat
  wakeupSsip : Bool
  notifyEnabled : BitVec 32
  newMessage : Bool
  bridge : Bool
  bridgeTarget : Option (BitVec 32)
  target : Nat
  shmemBase : BitVec 64
  shmemSize : BitVec 64
  token : BitVec 16

inductive Backend (x : Xlen)
  | rpmi (r : RpmiBack x)
  | fw (f : FwBack)

structure Chan (x : Xlen) where
  ch : Channel
  back : Backend x

instance : Inhabited (RpmiBack x) := ⟨⟨0, 0, ⟨false, 0, fun _ => 0⟩, 0, 0, 0, [], 0⟩⟩

instance : Inhabited FwBack := ⟨⟨0, none, 0, false, 0, false, false, none, 0, 0, 0, 0⟩⟩

instance : Inhabited (Chan x) :=
  ⟨⟨⟨0, 0, 0, 0, 0, 0, 0, 0, 0, 0, 0, 0, 0, 0, 0, false⟩, .fw default⟩⟩

def Chan.rpmi (c : Chan x) : RpmiBack x :=
  match c.back with
  | .rpmi r => r
  | .fw _ => default

def Chan.fw (c : Chan x) : FwBack :=
  match c.back with
  | .rpmi _ => default
  | .fw f => f

inductive Notice
  | msi (addr : BitVec 64) (data : BitVec 32)
  | sse (event : BitVec 32) (key : Nat)
  | ssip (domain : Nat)
  deriving DecidableEq, Repr

inductive SlotState
  | free | sent | retrieved | completed | failed
  deriving DecidableEq, Repr

structure Slot where
  state : SlotState
  error : Rc
  target : Option (BitVec 32)
  outSize : BitVec 32
  msgLen : Nat
  rspLen : Nat
  msg : Msg
  rsp : Msg

inductive Switching
  | over | back | yield
  deriving DecidableEq, Repr

/-- What a call works on beside the channels. -/
structure Rest (W : Type) where
  /-- The hart's shared memory and its message buffer. -/
  mem : Msg
  bounce : Msg
  slots : Nat → Slot
  switching : Option (Switching × BitVec 32)
  world : W

structure Mon (x : Xlen) (W : Type) where
  channels : List (Chan x)
  indicationsDue : Bool
  told : List Notice
  rest : Rest W

/-- The outcome of `rpmi_request()` or `rpmi_post()`, with the notifications found in the course
    of it. -/
structure Reply where
  rc : Rc
  buf : Msg
  got : Nat
  notes : List Note

structure Outside (W : Type) where
  request : Nat → Rpmi.Call → StateM W Reply
  /-- `rpmi_poll()`, up to the sinks -/
  poll : Nat → StateM W (List Note)
  /-- The sinks of a PuC, in order: the group and the channel. -/
  sinks : Nat → List (BitVec 16 × BitVec 32)
  /-- `reqfwd_retrieve()`, `reqfwd_complete()`, `reqfwd_count()` and `reqfwd_peek()` of a
      domain's queue -/
  retrieve : Nat → Nat → Nat → StateM W (Except Rc (List Byte × Nat))
  complete : Nat → List Byte → StateM W (Rc × Nat)
  count : Nat → W → Nat
  peek : Nat → Nat → W → List Byte
  /-- `reqfwd_queue_of()`: the channels that serve the queue -/
  servers : Nat → Option (List (BitVec 32))
  /-- `reqfwd_send()` up to the notification: whether the queue was empty -/
  enqueue : Nat → List (BitVec 32) → StateM W Bool
  /-- The message is not done at the first look. -/
  waits : Nat → W → Bool
  /-- The end of the wait: what the target answers, or the timeout. -/
  answer : Nat → BitVec 32 → List Notice → StateM W (Rc × List (BitVec 32))
  enterable : Nat → W → Bool
  callerKey : W → Option Nat

structure Setup (x : Xlen) (W : Type) extends Config x, Outside W where
  doorbell : Nat → BitVec 32
  maxSysmsi : Nat
  eventBufSize : Nat
  bounceSize : Nat
  domainKeys : Nat
  sbiImplId : BitVec 32
  sbiImplVersion : BitVec 32

def Setup.bounds (st : Setup x W) (puc : Nat) : Rpmi.Bounds x :=
  ⟨st.doorbell puc, st.maxSysmsi, st.monitor, st.domain⟩

/-- Who calls: the domain's key and where the hart's shared memory is, if it has any. -/
structure Caller where
  domain : Nat
  shmem : Option Nat

abbrev Op (x : Xlen) (W α : Type) := StateM (Mon x W) α

def onRest (m : StateM (Rest W) α) : Op x W α := fun s =>
  let r := m s.rest
  (r.1, { s with rest := r.2 })

def inWorld (m : StateM W α) : Op x W α :=
  onRest fun r =>
    let a := m r.world
    (a.1, { r with world := a.2 })

def askWorld (f : W → α) : Op x W α := onRest fun r => (f r.world, r)

def bounce : Op x W Msg := onRest fun r => (r.bounce, r)

def setBounce (m : Msg) : Op x W Unit := onRest fun r => ((), { r with bounce := m })

def mem : Op x W Msg := onRest fun r => (r.mem, r)

def setMem (m : Msg) : Op x W Unit := onRest fun r => ((), { r with mem := m })

def switchRequest (k : Switching) (p : BitVec 32) : Op x W Unit :=
  onRest fun r => ((), { r with switching := some (k, p) })

def setSlot (key : Nat) (s : Slot) : Op x W Unit :=
  onRest fun r => ((), { r with slots := update r.slots key s })

def Mon.chan (s : Mon x W) (p : BitVec 32) : Chan x :=
  (s.channels.find? fun c => c.ch.id = p).getD default

def deref (p : BitVec 32) : Op x W (Chan x) := do return (← get).chan p

def updateAt (p : BitVec 32) (f : Chan x → Chan x) (c : Chan x) : Chan x :=
  if c.ch.id = p then f c else c

def modifyAt (p : BitVec 32) (f : Chan x → Chan x) : Op x W Unit :=
  modify fun s => { s with channels := s.channels.map (updateAt p f) }

/-! ### Registration -/

/-- The list of `mpxy_channel_register()`: sorted by id -/
def insertById (c : Chan x) : List (Chan x) → Except SbiError (List (Chan x))
  | [] => .ok [c]
  | d :: ds =>
    if d.ch.id ≤ c.ch.id then
      if d.ch.id = c.ch.id then .error .alreadyAvailable else (insertById c ds).map (d :: ·)
    else .ok (c :: d :: ds)

/-- How events of the channel can be signalled: by an MSI always, by SSE while events last. -/
def Channel.signalled (sseEvents nrSse : Nat) (c : Channel) : Channel :=
  if c.has capGetNotifications then
    if nrSse < sseEvents then
      { c with
        capability := c.capability ||| capMsi ||| capSse
        sseEventId := BitVec.ofNat 32 (0x0010c000 + nrSse) }
    else { c with capability := c.capability ||| capMsi }
  else c

/-- `mpxy_channel_register()`, with `nr_sse_events` -/
def channelRegister (sseEvents msgMaxLen : Nat) (reg : List (Chan x) × Nat) (c : Chan x) :
    Except SbiError (List (Chan x) × Nat) :=
  let ch := c.ch.signalled sseEvents reg.2
  let ch := { ch with msgDataMaxLen := BitVec.ofNat 32 (min ch.msgDataMaxLen.toNat msgMaxLen) }
  let nrSse := if c.ch.has capGetNotifications ∧ reg.2 < sseEvents then reg.2 + 1 else reg.2
  (insertById { c with ch := ch } reg.1).map fun cs => (cs, nrSse)

/-! ### Telling S-mode -/

def Mon.touch (s : Mon x W) (f : Chan x → Chan x) (due : Chan x → Bool)
    (notices : Chan x → List Notice) : Mon x W :=
  { s with
    channels := s.channels.map f
    indicationsDue := s.indicationsDue || s.channels.any due
    told := s.told ++ s.channels.flatMap notices }

def Channel.indicates (c : Channel) : Bool := c.has (capMsi ||| capSse)

def Chan.eventsDue (c : Chan x) : Chan x :=
  if c.ch.indicates then { c with ch := { c.ch with eventsDue := true } } else c

def RpmiBack.take (size : Nat) (r : RpmiBack x) (e : Event) : RpmiBack x :=
  if (r.events.map Event.size).sum + e.size ≤ size then { r with events := r.events ++ [e] }
  else { r with lost := r.lost + 1 }

/-- `mpxy_rpmi_event_sink()` -/
def Chan.eventSink (size : Nat) (events : List Event) (c : Chan x) : Chan x :=
  match c.back with
  | .rpmi r => ({ c with back := .rpmi (events.foldl (RpmiBack.take size) r) } : Chan x).eventsDue
  | .fw _ => c

def sinkAt (st : Setup x W) (p : BitVec 32) (events : List Event) : Op x W Unit :=
  modify fun s =>
    s.touch (updateAt p (Chan.eventSink st.eventBufSize events))
      (fun c => decide (c.ch.id = p) && c.ch.indicates) fun _ => []

/-- `deliver_events()`, for every notification -/
def deliver (st : Setup x W) (puc : Nat) (notes : List Note) : Op x W PUnit :=
  notes.forM fun n =>
    if n.events = [] then pure ⟨⟩
    else
      ((st.sinks puc).filter fun sink => sink.1 = n.group).forM fun sink =>
        sinkAt st sink.2 n.events

def Chan.announced (c : Chan x) : Chan x :=
  match c.back with
  | .rpmi _ => c
  | .fw f =>
    if f.notifyEnabled ≠ 0 then
      ({ c with back := .fw { f with newMessage := true } } : Chan x).eventsDue
    else c

def notify (p : BitVec 32) : Op x W Unit :=
  modify fun s =>
    s.touch (updateAt p Chan.announced)
      (fun c => decide (c.ch.id = p ∧ c.fw.notifyEnabled ≠ 0) && c.ch.indicates)
      fun c => if c.ch.id = p ∧ c.fw.wakeupSsip then [.ssip c.fw.owner] else []

/-- What the domain of a channel is told: by the MSI if there is one, else by its event. -/
def Channel.notices (keys : Nat) (c : Channel) : List Notice :=
  if c.msiControl ≠ 0 then [.msi c.msiAddr c.msiData]
  else if c.has capSse then
    ((List.range keys).filter fun key => c.owner = ownerAny ∨ c.owner = key + 1).map
      (.sse c.sseEventId)
  else []

/-- The channel's MSI is aimed at the page. -/
def Channel.aimsAt (x : Xlen) (page : Option Nat) (c : Channel) : Prop :=
  c.msiControl ≠ 0 ∧
    ∃ a ∈ page, a ≤ c.msiAddr.toNat % 2 ^ x.bits ∧ c.msiAddr.toNat % 2 ^ x.bits < a + shmemSize

instance (page : Option Nat) (c : Channel) : Decidable (c.aimsAt x page) := by
  unfold Channel.aimsAt
  infer_instance

/-- `smode_poke32()`, as far as the page is concerned -/
def poke (x : Xlen) (page : Option Nat) (mem : Msg) (c : Channel) : Msg :=
  if c.aimsAt x page then
    update mem ((c.msiAddr.toNat % 2 ^ x.bits - page.getD 0) / 4) c.msiData
  else mem

def Chan.told (c : Chan x) : Chan x := { c with ch := { c.ch with eventsDue := false } }

def due (cs : List (Chan x)) : List Channel := (cs.map Chan.ch).filter Channel.eventsDue

def Mon.indicate (keys : Nat) (page : Option Nat) (s : Mon x W) : Mon x W :=
  if s.indicationsDue then
    { channels := s.channels.map Chan.told
      indicationsDue := false
      told := s.told ++ (due s.channels).flatMap (Channel.notices keys)
      rest := { s.rest with mem := (due s.channels).foldl (poke x page) s.rest.mem } }
  else s

/-! ### RPMI channels, with a PuC behind them -/

/-- What a STATUS word stands for; `rpmi_to_sbi()` makes nothing of the other values. -/
def statusRc (w : BitVec 32) : Rc :=
  (([.notSupported, .invalidParam, .denied, .invalidAddr, .already, .extension, .hwFault, .busy,
      .invalidState, .badRange, .timeout, .io, .noData] : List Rc).find? fun rc =>
    BitVec.ofInt 32 rc.code = w).getD .failed

def statusWord (rc : Rc) : BitVec 32 := BitVec.ofInt 32 rc.code

/-- `rpmi_request()` and `rpmi_post()` -/
def rpmiRequest (st : Setup x W) (puc : Nat) (c : Rpmi.Call) : Op x W Reply := do
  let r ← inWorld (st.request puc c)
  deliver st puc r.notes
  return r

def rpmiPoll (st : Setup x W) (puc : Nat) : Op x W PUnit := do
  let notes ← inWorld (st.poll puc)
  deliver st puc notes

def rpmiCall (st : Setup x W) (puc : Nat) (group : BitVec 16) (service : BitVec 8)
    (req : List (BitVec 32)) (respWords : Nat) : Op x W (Except Rc Msg) := do
  let r ← rpmiRequest st puc
    ⟨false, group, service, writeWords (fun _ => 0) 0 req, 4 * req.length, fun _ => 0,
      4 * respWords⟩
  return if r.rc ≠ .success then .error r.rc
    else if r.buf 0 ≠ 0 then .error (statusRc (r.buf 0))
    else if r.got < 4 * respWords then .error .io
    else .ok r.buf

def groupBase : BitVec 16 := 0x0001

/-- `rpmi_base_get()`, and with the group as its request `rpmi_probe_group()` -/
def rpmiBaseGet (st : Setup x W) (puc : Nat) (service : BitVec 8) (req : List (BitVec 32)) :
    Op x W (Except Rc (BitVec 32)) :=
  andThen (rpmiCall st puc groupBase service req 2) fun resp => pure (.ok (resp 1))

def Chan.setRpmi (f : RpmiBack x → RpmiBack x) (c : Chan x) : Chan x :=
  match c.back with
  | .rpmi r => { c with back := .rpmi (f r) }
  | .fw _ => c

def RpmiBack.deny (index : Nat) (r : RpmiBack x) : RpmiBack x :=
  { r with
    state :=
      { r.state with
        msiDenied :=
          update r.state.msiDenied (index / x.bits)
            (r.state.msiDenied (index / x.bits) ||| bit (index % x.bits)) } }

/-- A round of the loop of `sysmsi_setup()` -/
def sysmsiAsk (st : Setup x W) (p : BitVec 32) (puc : Nat) (index : Nat) :
    Op x W (Except Rc Unit) := do
  let c ← deref p
  -- The loop ends here; `num_msi` is the same in the rounds that are left.
  if c.rpmi.state.numMsi.toNat ≤ index then pure (.ok ())
  else
    andThen (rpmiCall st puc Rpmi.groupSystemMsi 0x03 [BitVec.ofNat 32 index] 7) fun resp => do
      if resp 1 &&& Rpmi.prefMmode ≠ 0 ∨ BitVec.ofNat 32 index = st.doorbell puc then
        modifyAt p (Chan.setRpmi (RpmiBack.deny index))
      pure (.ok ())

def sysmsiSetup (st : Setup x W) (p : BitVec 32) (puc : Nat) : Op x W (Except Rc Unit) :=
  andThen (rpmiCall st puc Rpmi.groupSystemMsi 0x02 [] 4) fun resp => do
    modifyAt p (Chan.setRpmi fun r => { r with state := { r.state with numMsi := resp 1 } })
    forEach (sysmsiAsk st p puc) (List.range st.maxSysmsi)

/-- What `mpxy_rpmi_ask_puc()` caches. -/
structure Versions where
  spec : BitVec 32
  version : BitVec 32
  implId : BitVec 32
  implVersion : BitVec 32

/-- The questions of `mpxy_rpmi_ask_puc()` -/
def questions (st : Setup x W) (p : BitVec 32) (puc : Nat) (group : BitVec 16) :
    Op x W (Except Rc Versions) :=
  andThen (rpmiBaseGet st puc 0x04 []) fun spec =>
    andThen (rpmiBaseGet st puc 0x06 [group.setWidth 32]) fun version =>
      if version = 0 then pure (.error .notSupported)
      else
        andThen (rpmiBaseGet st puc 0x03 []) fun implId =>
          andThen (rpmiBaseGet st puc 0x02 []) fun implVersion =>
            andThen
              (if (Rpmi.rpmiGroupRulesFind group).any Rpmi.GroupRules.filters then
                sysmsiSetup st p puc
              else pure (.ok ()))
              fun _ => pure (.ok ⟨spec, version, implId, implVersion⟩)

def Chan.probed (v : Versions) (c : Chan x) : Chan x :=
  Chan.setRpmi
    (fun r =>
      { r with
        groupVersion := v.version
        implId := v.implId
        implVersion := v.implVersion
        state := { r.state with probed := true } })
    { c with ch := { c.ch with msgProtVersion := v.spec } }

def mpxyRpmiAskPuc (st : Setup x W) (p : BitVec 32) : Op x W SbiError := do
  let c ← deref p
  if c.rpmi.state.probed then pure .success
  else
    match ← questions st p c.rpmi.puc c.rpmi.group with
    | .error rc => pure (Rpmi.rpmiToSbi rc)
    | .ok v => do
        modifyAt p (Chan.probed v)
        pure .success

def mpxyRpmiReadAttr (st : Setup x W) (p : BitVec 32) (id : Nat) :
    Op x W (Except SbiError (BitVec 32)) := do
  let c ← deref p
  if 0x80000003 < id then pure (.error .badRange)
  else if id = 0x80000000 then pure (.ok (c.rpmi.group.setWidth 32))
  else
    match ← mpxyRpmiAskPuc st p with
    | .success => do
        let r := (← deref p).rpmi
        pure (.ok (if id = 0x80000001 then r.groupVersion
          else if id = 0x80000002 then r.implId
          else r.implVersion))
    | e => pure (.error e)

/-- The rest of `mpxy_rpmi_send()`, for a request that the PuC is to have -/
def mpxyRpmiPass (st : Setup x W) (r : RpmiBack x) (service : BitVec 8) (len respMax : Nat)
    (wantsResp : Bool) : Op x W (SbiError × Nat) := do
  let buf ← bounce
  if wantsResp then
    let reply ← rpmiRequest st r.puc ⟨false, r.group, service, buf, len, buf, respMax⟩
    setBounce reply.buf
    pure (Rpmi.rpmiToSbi reply.rc, reply.got)
  else
    let reply ← rpmiRequest st r.puc ⟨true, r.group, service, buf, len, buf, 0⟩
    pure (Rpmi.rpmiToSbi reply.rc, 0)

def groupFilter (st : Setup x W) (dom : Nat) (r : RpmiBack x) (service : BitVec 8) (req : Msg) :
    Rc :=
  if (Rpmi.rpmiGroupRulesFind r.group).any Rpmi.GroupRules.filters then
    Rpmi.sysmsiFilter (st.bounds r.puc) dom r.state.numMsi r.state.msiDenied service req
  else .success

def mpxyRpmiSend (st : Setup x W) (dom : Nat) (p : BitVec 32) (msgId : BitVec 32)
    (len respMax : Nat) (wantsResp : Bool) : Op x W (SbiError × Nat) := do
  let c ← deref p
  match Rpmi.sendCheck (Rpmi.rpmiGroupRulesFind c.rpmi.group) msgId len with
  | .success => do
      match ← mpxyRpmiAskPuc st p with
      | .success => do
          let r := (← deref p).rpmi
          let buf ← bounce
          match groupFilter st dom r (msgId.setWidth 8) buf with
          | .success => mpxyRpmiPass st r (msgId.setWidth 8) len respMax wantsResp
          | rc =>
            if wantsResp = false ∨ respMax < 4 then pure (Rpmi.rpmiToSbi rc, 0)
            else do
              setBounce (update buf 0 (statusWord rc))
              pure (.success, 4)
      | e => pure (e, 0)
  | e => pure (e, 0)

structure Events where
  returned : Nat
  remaining : Nat
  lost : BitVec 32
  bytes : Nat

/-- The loop of `mpxy_rpmi_get_events()`: the events that fit. -/
def fitting : Nat → List Event → List Event
  | _, [] => []
  | max, e :: es => if max < e.size then [] else e :: fitting (max - e.size) es

/-- `mpxy_rpmi_get_events()`; the buffer is the shared memory after the events state -/
def mpxyRpmiGetEvents (st : Setup x W) (p : BitVec 32) (max : Nat) : Op x W Events := do
  let c ← deref p
  rpmiPoll st c.rpmi.puc
  let r := (← deref p).rpmi
  let out := fitting max r.events
  let m ← mem
  setMem (writeWords m 4 (out.flatMap Event.words))
  modifyAt p (Chan.setRpmi fun r => { r with events := r.events.drop out.length, lost := 0 })
  pure ⟨out.length, r.events.length - out.length, r.lost, (out.map Event.size).sum⟩

/-! ### The groups that the monitor serves itself -/

def fwReadAttr (st : Setup x W) (p : BitVec 32) (id : Nat) :
    Op x W (Except SbiError (BitVec 32)) := do
  let c ← deref p
  pure (match id with
    | 0x80000000 => .ok (c.fw.group.setWidth 32)
    | 0x80000001 => .ok 0x00010000
    | 0x80000002 => .ok st.sbiImplId
    | 0x80000003 => .ok st.sbiImplVersion
    | _ => .error .badRange)

def respond (words : List (BitVec 32)) : Op x W (SbiError × Nat) := do
  let buf ← bounce
  setBounce (writeWords buf 0 words)
  pure (.success, 4 * words.length)

def statusOnly (rc : Rc) : Op x W (SbiError × Nat) := respond [statusWord rc]

def Chan.setFw (f : FwBack → FwBack) (c : Chan x) : Chan x :=
  match c.back with
  | .rpmi _ => c
  | .fw b => { c with back := .fw (f b) }

def enableNotification (p : BitVec 32) (len : Nat) (event : BitVec 32) :
    Op x W (SbiError × Nat) := do
  let buf ← bounce
  if len ≠ 8 ∨ 2 < buf 1 then statusOnly .invalidParam
  else if buf 0 ≠ event ∨ event = 0 then statusOnly .notSupported
  else do
    if buf 1 < 2 then modifyAt p (Chan.setFw fun f => { f with notifyEnabled := buf 1 })
    let c ← deref p
    respond [statusWord .success, c.fw.notifyEnabled]

/-- `slot_for()`: the domain whose slot it is, with the slot -/
def slotFor (st : Setup x W) (p : BitVec 32) : Op x W (Option (Nat × Slot)) :=
  onRest fun r =>
    ((st.callerKey r.world).bind fun key =>
      let s := r.slots key
      if s.target = some p ∧ (s.state = .sent ∨ s.state = .retrieved) then some (key, s) else none,
     r)

/-- The message that is current: the one the hart has come with, or the queue's. -/
def retrieveCurrent (st : Setup x W) (p : BitVec 32) (queue start max : Nat) :
    Op x W (Except Rc (List Byte × Nat)) := do
  match ← slotFor st p with
  | none => inWorld (st.retrieve queue start max)
  | some (key, s) =>
    if s.msgLen ≤ start then pure (.error .invalidParam)
    else do
      let returned := min (s.msgLen - start) max
      setSlot key { s with state := .retrieved }
      pure (.ok (readBytes s.msg start returned, s.msgLen - start - returned))

def reqfwdRetrieve (st : Setup x W) (p : BitVec 32) (len respMax : Nat) :
    Op x W (SbiError × Nat) := do
  let c ← deref p
  let buf ← bounce
  if len ≠ 4 then statusOnly .invalidParam
  else
    let max := Reqfwd.Limits.pieceMax ⟨c.ch.msgDataMaxLen.toNat, respMax⟩
    match ← retrieveCurrent st p (c.fw.queue.getD 0) (buf 0).toNat max with
    | .error rc =>
      if rc = .noData ∧ c.fw.bridge then do
        switchRequest .yield p
        pure (.success, 4)
      else statusOnly rc
    | .ok (bytes, remaining) => do
        setBounce (writeWords (writeBytes buf 12 bytes) 0
          [statusWord .success, BitVec.ofNat 32 remaining, BitVec.ofNat 32 bytes.length])
        pure (.success, 12 + (bytes.length + 3) / 4 * 4)

def reqfwdComplete (st : Setup x W) (p : BitVec 32) (len : Nat) : Op x W (SbiError × Nat) := do
  let c ← deref p
  let buf ← bounce
  let queue := c.fw.queue.getD 0
  if len < 4 ∨ len % 4 ≠ 0 then statusOnly .invalidParam
  else
    match ← slotFor st p with
    | some (key, s) =>
      if s.state = .retrieved then do
        let fits := decide (len ≤ 8)
        setSlot key
          { s with
            rsp := if fits then writeBytes s.rsp 0 (readBytes buf 0 len) else s.rsp
            rspLen := len
            state := if fits then .completed else .failed
            error := .badRange }
        let left ← askWorld (st.count queue)
        switchRequest .back p
        respond [statusWord (if fits then .success else .badRange), BitVec.ofNat 32 left]
      else do
        let r ← inWorld (st.complete queue (readBytes buf 0 len))
        respond [statusWord r.1, BitVec.ofNat 32 r.2]
    | none => do
        let r ← inWorld (st.complete queue (readBytes buf 0 len))
        respond [statusWord r.1, BitVec.ofNat 32 r.2]

def reqfwdService (st : Setup x W) (p : BitVec 32) (service len respMax : Nat) :
    Op x W (SbiError × Nat) :=
  match service with
  | 0x01 => enableNotification p len 0x01
  | 0x02 => reqfwdRetrieve st p len respMax
  | 0x03 => reqfwdComplete st p len
  | _ => pure (.notSupported, 0)

def fwGetEvents (st : Setup x W) (p : BitVec 32) (max : Nat) : Op x W Events := do
  let c ← deref p
  match c.fw.queue with
  | none => pure ⟨0, 0, 0, 0⟩
  | some queue =>
    if max < 20 ∨ c.fw.newMessage = false then pure ⟨0, 0, 0, 0⟩
    else do
      modifyAt p (Chan.setFw fun f => { f with newMessage := false })
      let bytes ← askWorld (st.peek queue 16)
      let n := bytes.length / 4 * 4
      let m ← mem
      if n = 0 then do
        setMem (writeBytes m 20 bytes)
        pure ⟨0, 0, 0, 0⟩
      else do
        setMem (update (writeBytes m 20 bytes) 4 (0x10000 ||| BitVec.ofNat 32 n))
        pure ⟨1, 0, 0, 4 + n⟩

def mmRangeOk (f : FwBack) (off size : BitVec 32) : Bool :=
  decide (off.toNat ≤ f.shmemSize.toNat) && decide (size.toNat ≤ f.shmemSize.toNat - off.toNat)

/-- `reqfwd_send()`: the domain is told of a message in an empty queue, and others what there is
    to tell, in the wait. -/
def reqfwdSend (st : Setup x W) (caller : Caller) (queue : Nat) (servers : List (BitVec 32))
    (msg : List (BitVec 32)) (timeoutUs : BitVec 32) : Op x W (Rc × List (BitVec 32)) := do
  let first ← inWorld (st.enqueue queue msg)
  (if first then servers else []).forM notify
  let waits ← askWorld (st.waits queue)
  modify fun s => if waits then s.indicate st.domainKeys caller.shmem else s
  fun s => (inWorld (st.answer queue timeoutUs s.told)).run s

def mmOut (rc : Rc) : Op x W (SbiError × Nat) := respond [statusWord rc, 0]

def mmMessage (token : BitVec 16) (buf : Msg) : List (BitVec 32) :=
  let hdr : Rpmi.Hdr := ⟨0x000b, 0x03, Rpmi.MsgType.normalRequest.code, 16, token⟩
  [hdr.word0, hdr.word1, buf 0, buf 1, buf 2, buf 3]

def mmCommunicate (st : Setup x W) (caller : Caller) (p : BitVec 32) (len : Nat) :
    Op x W (SbiError × Nat) := do
  let c ← deref p
  let buf ← bounce
  if len ≠ 16 then statusOnly .invalidParam
  else if (mmRangeOk c.fw (buf 0) (buf 1) && mmRangeOk c.fw (buf 2) (buf 3)) = false then
    mmOut .invalidAddr
  else do
    modifyAt p (Chan.setFw fun f => { f with token := f.token + 1 })
    let msg := mmMessage (c.fw.token + 1) buf
    let enterable ← askWorld (st.enterable c.fw.target)
    if c.fw.bridgeTarget.isSome ∧ enterable then do
      setSlot caller.domain
        ⟨.sent, .success, c.fw.bridgeTarget, buf 3, 24, 0, writeWords (fun _ => 0) 0 msg,
          fun _ => 0⟩
      switchRequest .over p
      pure (.success, 8)
    else
      match st.servers c.fw.target with
      | none => mmOut .notSupported
      | some servers => do
          let r ← reqfwdSend st caller c.fw.target servers msg c.ch.completionTimeoutUs
          match r with
          | (.success, [status, written]) =>
            if buf 3 < written then mmOut .io else respond [status, written]
          | (.success, _) => mmOut .io
          | (rc, _) => mmOut rc

def mmService (st : Setup x W) (caller : Caller) (p : BitVec 32) (service len : Nat) :
    Op x W (SbiError × Nat) :=
  match service with
  | 0x01 => enableNotification p len 0
  | 0x02 => do
      let c ← deref p
      if len ≠ 0 then statusOnly .invalidParam
      else
        respond [statusWord .success, 0x00010000, c.fw.shmemBase.setWidth 32,
          (c.fw.shmemBase >>> 32).setWidth 32, c.fw.shmemSize.setWidth 32]
  | 0x03 => mmCommunicate st caller p len
  | _ => pure (.notSupported, 0)

def fwSend (st : Setup x W) (caller : Caller) (p : BitVec 32) (msgId : BitVec 32)
    (len respMax : Nat) (wantsResp : Bool) : Op x W (SbiError × Nat) := do
  let c ← deref p
  if len % 4 ≠ 0 ∨ 0xff < msgId.toNat then pure (.invalidParam, 0)
  else if wantsResp = false ∨ respMax < 20 then pure (.notSupported, 0)
  else if c.fw.group = 0x000d then reqfwdService st p msgId.toNat len respMax
  else mmService st caller p msgId.toNat len

/-! ### A channel's operations -/

def readAttr (st : Setup x W) (p : BitVec 32) (id : Nat) :
    Op x W (Except SbiError (BitVec 32)) := do
  match (← deref p).back with
  | .rpmi _ => mpxyRpmiReadAttr st p id
  | .fw _ => fwReadAttr st p id

def send (st : Setup x W) (caller : Caller) (p : BitVec 32) (msgId : BitVec 32) (len respMax : Nat)
    (wantsResp : Bool) : Op x W (SbiError × Nat) := do
  match (← deref p).back with
  | .rpmi _ => mpxyRpmiSend st caller.domain p msgId len respMax wantsResp
  | .fw _ => fwSend st caller p msgId len respMax wantsResp

def getEvents (st : Setup x W) (p : BitVec 32) (max : Nat) : Op x W Events := do
  match (← deref p).back with
  | .rpmi _ => mpxyRpmiGetEvents st p max
  | .fw _ => fwGetEvents st p max

/-- The second loop of `mpxy_get_channel_ids()`: the memory and `n` -/
def listIds (dom start max : Nat) : List Channel → Nat → Nat → Msg → Msg × Nat
  | [], _, n, mem => (mem, n)
  | c :: cs, i, n, mem =>
    if channelVisible dom c = false then listIds dom start max cs i n mem
    else if start ≤ i ∧ n < max then
      listIds dom start max cs (i + 1) (n + 1) (update mem (2 + n) c.id)
    else listIds dom start max cs (i + 1) n mem

/-- `mpxy_get_channel_ids()`: the memory, if it is written -/
def channelIds (dom start : Nat) (cs : List Channel) (mem : Msg) : Except SbiError Msg :=
  let visible := cs.countP (channelVisible dom)
  if visible < start ∨ (start ≠ 0 ∧ start = visible) then .error .invalidParam
  else
    let r := listIds dom start (shmemSize / 4 - 2) cs 0 0 mem
    .ok (writeWords r.1 0 [BitVec.ofNat 32 (visible - start - r.2), BitVec.ofNat 32 r.2])

def mpxyGetChannelIds (caller : Caller) (start : Word x) : Op x W (SbiError × Nat) := do
  let cs := (← get).channels.map Chan.ch
  let m ← mem
  match channelIds caller.domain start.toNat cs m with
  | .error e => pure (e, 0)
  | .ok m => do
      setMem m
      pure (.success, 0)

/-- `attr_range_check()`, with a pointer to the channel -/
def Mon.rangeCheck (s : Mon x W) (dom : Nat) (channelId base count : Word x) :
    Except SbiError (BitVec 32 × Bool) :=
  (attrRangeCheck dom (s.channels.map Chan.ch) channelId base count).map fun r =>
    (((s.channels.map Chan.ch)[r.1]?.map Channel.id).getD 0, r.2)

/-- `channel_find()`, with a pointer to the channel -/
def Mon.find (s : Mon x W) (dom : Nat) (channelId : Word x) : Option (BitVec 32) :=
  (if 0xffffffff < channelId.toNat then none
    else channelFind dom channelId.toNat (s.channels.map Chan.ch)).bind fun i =>
      (s.channels.map Chan.ch)[i]?.map Channel.id

def readAttrs (st : Setup x W) (p : BitVec 32) (prot : Bool) (base count : Nat) :
    Op x W (Except SbiError Unit) :=
  forEach
    (fun i =>
      andThen
        (if prot then readAttr st p (base + i)
        else do
          let c ← deref p
          pure (.ok (stdAttrRead c.ch (base + i))))
        fun val => do
          let m ← mem
          setMem (update m i val)
          pure (.ok ()))
    (List.range count)

/-- The stores at the end of `mpxy_write_attributes()` -/
def Channel.commit (dom : Nat) (staged c : Channel) : Channel :=
  { c with
    msiAddrLow := staged.msiAddrLow
    msiAddrHigh := staged.msiAddrHigh
    msiData := staged.msiData
    msiDomain := dom
    msiControl := staged.msiControl
    eventsStateControl := staged.eventsStateControl }

/-- `mpxy_write_attributes()`, for a channel that has been found: no protocol has attributes that
    can be written. -/
def writeAttrs (st : Setup x W) (caller : Caller) (p : BitVec 32) (prot : Bool) (base count : Nat) :
    Op x W SbiError := do
  if prot then pure .badRange
  else
    let c ← deref p
    let m ← mem
    match stdAttrWrites c.ch base count m with
    | .error e => pure e
    | .ok staged =>
      if msiTargetOk st.toConfig caller.domain staged then do
        modifyAt p fun c => { c with ch := Channel.commit caller.domain staged c.ch }
        pure .success
      else pure .invalidParam

/-- `mpxy_send_message()`, for a channel that has been found -/
def sendMessage (st : Setup x W) (caller : Caller) (p : BitVec 32) (msgId len : Word x)
    (wantsResp : Bool) : Op x W (SbiError × Nat) := do
  let c ← deref p
  if c.ch.has (if wantsResp then capSendWithResp else capSendWithoutResp) = false ∨
      0xffffffff < msgId.toNat then
    pure (.notSupported, 0)
  else if c.ch.msgDataMaxLen.toNat < len.toNat ∨ shmemSize < len.toNat then
    pure (.invalidParam, 0)
  else do
    let m ← mem
    let buf ← bounce
    setBounce (writeBytes buf 0 (readBytes m 0 len.toNat))
    let r ← send st caller p (msgId.setWidth 32) len.toNat st.bounceSize wantsResp
    if r.1 = .success ∧ wantsResp then
      if st.bounceSize < r.2 then pure (.failed, r.2)
      else do
        let m ← mem
        let buf ← bounce
        setMem (writeBytes m 0 (readBytes buf 0 r.2))
        pure r
    else pure r

/-- `mpxy_get_notifications()`, for a channel that has been found -/
def getNotifications (st : Setup x W) (p : BitVec 32) : Op x W (SbiError × Nat) := do
  let c ← deref p
  if c.ch.has capGetNotifications = false then pure (.notSupported, 0)
  else do
    let ev ← getEvents st p (shmemSize - 16)
    let c ← deref p
    let m ← mem
    if c.ch.eventsStateControl ≠ 0 then
      setMem (writeWords m 0
        [BitVec.ofNat 32 ev.remaining, BitVec.ofNat 32 ev.returned, ev.lost, 0])
    pure (.success, ev.bytes)

inductive Call (x : Xlen)
  | getChannelIds (start : Word x)
  | readAttributes (channelId base count : Word x)
  | writeAttributes (channelId base count : Word x)
  | sendMessage (channelId msgId len : Word x) (wantsResp : Bool)
  | getNotifications (channelId : Word x)

/-- `channel_find()`, and what is done with the channel. -/
def whenFound (dom : Nat) (channelId : Word x) (k : BitVec 32 → Op x W (SbiError × Nat)) :
    Op x W (SbiError × Nat) := do
  match (← get).find dom channelId with
  | none => pure (.notSupported, 0)
  | some p => k p

/-- `attr_range_check()`, and what is done with the channel. -/
def whenChecked (dom : Nat) (channelId base count : Word x)
    (k : BitVec 32 → Bool → Op x W (SbiError × Nat)) : Op x W (SbiError × Nat) := do
  match (← get).rangeCheck dom channelId base count with
  | .error e => pure (e, 0)
  | .ok (p, prot) => k p prot

/-- `sbi_mpxy_shmem_call()`: the error and the value -/
def Call.run (st : Setup x W) (caller : Caller) (call : Call x) : Op x W (SbiError × Nat) :=
  if caller.shmem = none then pure (.noShmem, 0)
  else
    match call with
    | .getChannelIds start => mpxyGetChannelIds caller start
    | .readAttributes channelId base count =>
      whenChecked caller.domain channelId base count fun p prot => do
        match ← readAttrs st p prot base.toNat count.toNat with
        | .error e => pure (e, 0)
        | .ok _ => pure (.success, 0)
    | .writeAttributes channelId base count =>
      whenChecked caller.domain channelId base count fun p prot => do
        let e ← writeAttrs st caller p prot base.toNat count.toNat
        pure (e, 0)
    | .sendMessage channelId msgId len wantsResp =>
      whenFound caller.domain channelId fun p => Mpxy.sendMessage st caller p msgId len wantsResp
    | .getNotifications channelId =>
      whenFound caller.domain channelId fun p => Mpxy.getNotifications st p

end RiscvMonitor.Mpxy
