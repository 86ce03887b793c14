import RiscvMonitor.HartContexts

/-!
# Messages that travel with a hart

A bridge (`mpxy_rpmi_fw.c`) lets a domain send a request to another one on the
same hart: the hart goes over with the message in a slot, kept for each source
domain and hart, and the answer brings it back.

By which call a context was left and which one filled a slot is noted; nothing
reads these notes.
-/

namespace RiscvMonitor.Bridge

open Lifecycle (Call Act)

variable {x : Xlen}

/-! ### The channels -/

structure MmChannel where
  owner : Nat
  target : Nat
  bridgeTarget : Option Nat
  shmemSize : Nat

structure FwdChannel where
  owner : Nat
  bridge : Bool
  sources : List Nat

inductive Channel where
  | mm (c : MmChannel)
  | fwd (c : FwdChannel)

structure Config (x : Xlen) where
  life : Lifecycle.Config x
  channel : Nat → Option Channel
  /-- What a hart may cross a bridge from and to is what the channels say. -/
  joined : ∀ id c, channel id = some (.mm c) → c.bridgeTarget ≠ none →
    life.bridge c.owner c.target = true

/-! ### The slots -/

inductive SlotState where
  | free
  | sent
  | retrieved
  | completed
  | failed
deriving DecidableEq, Repr

def errBusy : BitVec 32 := BitVec.ofInt 32 (-9)
def errBadRange : BitVec 32 := BitVec.ofInt 32 (-11)
def errIo : BitVec 32 := BitVec.ofInt 32 (-13)

/-- `struct bridge_slot` -/
structure Slot where
  state : SlotState
  error : BitVec 32
  dest : Nat
  outSize : BitVec 32
  msg : List (BitVec 8)
  rsp : List (BitVec 32)
  sender : Nat

def Slot.zero : Slot := ⟨.free, 0, 0, 0, [], [], 0⟩

def wordBytes (w : BitVec 32) : List (BitVec 8) :=
  [w.extractLsb' 0 8, w.extractLsb' 8 8, w.extractLsb' 16 8, w.extractLsb' 24 8]

/-- The MM_COMMUNICATE message a PuC would have been sent: group and service, length and token,
    and the data. -/
def forwarded (token : BitVec 16) (data : List (BitVec 32)) : List (BitVec 8) :=
  (0x0003000b#32 :: (token ++ 16#16) :: data).flatMap wordBytes

/-- The status and the size that `mpxy_context_resumed()` makes of a slot. -/
def Slot.answer (s : Slot) : BitVec 32 × BitVec 32 :=
  match s.state, s.rsp with
  | .failed, _ => (s.error, 0)
  | .completed, [status, written] => if s.outSize < written then (errIo, 0) else (status, written)
  | _, _ => (errIo, 0)

structure Answer where
  call : Nat
  sender : Nat
  status : BitVec 32
  written : BitVec 32
deriving DecidableEq

/-- A piece of a message, the call in which its source's context waited, if it did, and the call
    that sent it. -/
structure Delivery where
  waits : Option Nat
  sender : Nat
  piece : List (BitVec 8)
deriving DecidableEq

structure Sys (x : Xlen) where
  life : Lifecycle.Sys x
  slot : Nat → Nat → Slot
  /-- `token` of a channel. -/
  token : Nat → BitVec 16
  clock : Nat
  current : Nat → Nat
  /-- The call by which a context was left. -/
  leftBy : Nat → Nat → Nat
  answers : List Answer
  deliveries : List Delivery

namespace Sys

def setSlot (b : Sys x) (d h : Nat) (s : Slot) : Sys x :=
  { b with slot := Function.update b.slot d (Function.update (b.slot d) h s) }

def stamp (b : Sys x) (h : Nat) : Sys x :=
  { b with clock := b.clock + 1, current := Function.update b.current h b.clock }

/-- The call that the context of domain `d` on hart `h` waits in. -/
def waitsIn (b : Sys x) (d h : Nat) : Option Nat :=
  if (b.life.ctx d h).state = .calling then some (b.leftBy d h) else none

end Sys

/-- `mpxy_context_resumed()`, for the context of domain `d` that is about to return from `call`. -/
def contextResumed (b : Sys x) (d h call : Nat) : Sys x :=
  let s := b.slot d h
  if s.state = .free then b
  else
    { b.setSlot d h { s with state := .free } with
      answers := ⟨call, s.sender, s.answer.1, s.answer.2⟩ :: b.answers }

/-- `slot_for()`: the domain whose message the hart came to the channel with. -/
def slotFor (b : Sys x) (h channel : Nat) : Option Nat :=
  if b.life.callerWaits (b.life.domain h) h then
    (b.life.cur h).caller.filter fun d =>
      (b.slot d h).dest == channel &&
        ((b.slot d h).state == .sent || (b.slot d h).state == .retrieved)
  else none

/-- What has become of the calls and slots of hart `h` once the hart's step is done. -/
def settle (b : Sys x) (h : Nat) (t : Lifecycle.Sys x) : Sys x :=
  let s := b.life
  let cur := s.domain h
  if t.domain h = cur then
    let b := { b with life := t }
    match s.pc h with
    | .switchTo _ =>
      -- `mpxy_switch_pending()`: it could be entered a moment ago
      contextResumed
        (b.setSlot cur h { b.slot cur h with state := .failed, error := errBusy }) cur h
        (b.current h)
    | _ => b
  else
    let left := if (t.ctx cur h).state = .calling then b.current h else b.leftBy cur h
    let b' := { b with
      life := t
      leftBy := Function.update b.leftBy cur (Function.update (b.leftBy cur) h left) }
    -- a context that has not run before is not told
    if (s.ctx (t.domain h) h).state = .none then b'
    else contextResumed b' (t.domain h) h (b.leftBy (t.domain h) h)

def advance (cfg : Config x) (b : Sys x) (h : Nat) (a : Act x) : Option (Sys x) :=
  (Lifecycle.step cfg.life b.life h a).map (settle b h)

inductive Op (x : Xlen) where
  /-- Anything but the messages of a bridge. -/
  | life (a : Act x)
  | communicate (channel : Nat) (data : List (BitVec 32))
  /-- RETRIEVE_CURRENT_MESSAGE from `start` on, at most `max` bytes; the queue has a message. -/
  | retrieve (channel start max : Nat) (queued : Bool)
  | complete (channel : Nat) (rsp : List (BitVec 32))

def mmRangeOk (c : MmChannel) (off size : BitVec 32) : Bool :=
  decide (off.toNat ≤ c.shmemSize) && decide (size.toNat ≤ c.shmemSize - off.toNat)

def crosses (cfg : Config x) (b : Sys x) (h channel : Nat) (data : List (BitVec 32)) :
    Option (MmChannel × Nat × BitVec 32) :=
  match cfg.channel channel, data with
  | some (.mm c), [inOff, inSize, outOff, outSize] =>
    match c.bridgeTarget with
    | some bridge =>
      if c.owner = b.life.domain h ∧ mmRangeOk c inOff inSize = true ∧
          mmRangeOk c outOff outSize = true ∧
          Lifecycle.domainEnterable cfg.life b.life h c.target = true then
        some (c, bridge, outSize)
      else none
    | none => none
  | _, _ => none

/-- `mm_service()`; a message that does not cross is refused, or goes through the queue. -/
def communicate (cfg : Config x) (b : Sys x) (h channel : Nat) (data : List (BitVec 32)) :
    Option (Sys x) :=
  match crosses cfg b h channel data with
  | some (c, bridge, outSize) =>
    let sent : Slot :=
      ⟨.sent, 0, bridge, outSize, forwarded (b.token channel) data, [], b.current h⟩
    let b := { b with token := Function.update b.token channel (b.token channel + 1) }
    advance cfg (b.setSlot (b.life.domain h) h sent) h (.call (.switchTo c.target))
  | none => advance cfg b h .go

def fwdChannel (cfg : Config x) (b : Sys x) (h channel : Nat) : Option FwdChannel :=
  match cfg.channel channel with
  | some (.fwd c) => if c.owner = b.life.domain h then some c else none
  | _ => none

/-- RETRIEVE_CURRENT_MESSAGE of `reqfwd_service()` -/
def retrieve (cfg : Config x) (b : Sys x) (h channel start max : Nat) (queued : Bool) :
    Option (Sys x) :=
  match fwdChannel cfg b h channel with
  | none => advance cfg b h .go
  | some c =>
    match slotFor b h channel with
    | some d =>
      let s := b.slot d h
      if s.msg.length ≤ start then advance cfg b h .go
      else
        let piece := (s.msg.drop start).take max
        let b := b.setSlot d h { s with state := .retrieved }
        advance cfg { b with
          deliveries := ⟨b.waitsIn d h, s.sender, piece⟩ :: b.deliveries } h .go
    | none =>
      if queued = false ∧ c.bridge = true then advance cfg b h (.call (.yield c.sources))
      else advance cfg b h .go

/-- COMPLETE_CURRENT_MESSAGE of `reqfwd_service()` -/
def complete (cfg : Config x) (b : Sys x) (h channel : Nat) (rsp : List (BitVec 32)) :
    Option (Sys x) :=
  match fwdChannel cfg b h channel, rsp with
  | none, _ | _, [] => advance cfg b h .go
  | some _, _ :: _ =>
    match (slotFor b h channel).filter fun d => (b.slot d h).state == .retrieved with
    | some d =>
      let s := b.slot d h
      let answered :=
        if rsp.length ≤ 2 then { s with state := .completed, rsp := rsp, error := errBadRange }
        else { s with state := .failed, error := errBadRange }
      advance cfg (b.setSlot d h answered) h (.call .switchBack)
    | none => advance cfg b h .go

def overBridge : Act x → Bool
  | .call (.switchTo _) | .call .switchBack | .call (.yield _) => true
  | _ => false

def isCall : Act x → Bool
  | .call _ => true
  | _ => false

def step (cfg : Config x) (b : Sys x) (h : Nat) : Op x → Option (Sys x)
  | .life a =>
    if overBridge a then none else advance cfg (if isCall a then b.stamp h else b) h a
  | .communicate channel data =>
    if b.life.pc h = .smode then communicate cfg (b.stamp h) h channel data else none
  | .retrieve channel start max queued =>
    if b.life.pc h = .smode then retrieve cfg (b.stamp h) h channel start max queued else none
  | .complete channel rsp =>
    if b.life.pc h = .smode then complete cfg (b.stamp h) h channel rsp else none

def init (home : Nat → Nat) (bootHart : Nat) : Sys x where
  life := Lifecycle.init home bootHart
  slot := fun _ _ => Slot.zero
  token := fun _ => 0
  clock := 0
  current := fun _ => 0
  leftBy := fun _ _ => 0
  answers := []
  deliveries := []

abbrev run (cfg : Config x) : Sys x → List (Nat × Op x) → Option (Sys x) :=
  Runs.run fun b e => step cfg b e.1 e.2

end RiscvMonitor.Bridge
