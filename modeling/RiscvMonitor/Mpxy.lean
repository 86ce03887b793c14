import RiscvMonitor.PmpLayout
import RiscvMonitor.Sbi

/-!
# The MPXY core

`mpxy.c`: the channel list, which domain sees which channel, and the standard
attributes, with what an MSI may be aimed at.  What a channel does with a message
is its protocol's.
-/

namespace RiscvMonitor.Mpxy

variable {x : Xlen}

structure Channel where
  id : BitVec 32
  msgProtId : BitVec 32
  msgProtVersion : BitVec 32
  msgDataMaxLen : BitVec 32
  sendTimeoutUs : BitVec 32
  completionTimeoutUs : BitVec 32
  capability : BitVec 32
  eventsStateControl : BitVec 32
  msiControl : BitVec 32
  msiAddrLow : BitVec 32
  msiAddrHigh : BitVec 32
  msiData : BitVec 32
  sseEventId : BitVec 32
  msiDomain : Nat
  owner : Nat
  eventsDue : Bool
  deriving DecidableEq, Repr

def capMsi : BitVec 32 := 0x01
def capSse : BitVec 32 := 0x02
def capEventsState : BitVec 32 := 0x04
def capSendWithResp : BitVec 32 := 0x08
def capSendWithoutResp : BitVec 32 := 0x10
def capGetNotifications : BitVec 32 := 0x20

def Channel.has (c : Channel) (cap : BitVec 32) : Bool := c.capability &&& cap != 0

def ownerAny : Nat := 0

/-- `channel_visible()`, of the domain with the key `dom` -/
def channelVisible (dom : Nat) (c : Channel) : Bool :=
  decide (c.owner = ownerAny) || decide (c.owner = dom + 1)

/-- `channel_find()`: the place in the list.  The first channel with the id decides. -/
def channelFind (dom id : Nat) : List Channel → Option Nat
  | [] => none
  | c :: cs =>
    if c.id.toNat = id then if channelVisible dom c then some 0 else none
    else (channelFind dom id cs).map (· + 1)

/-! ### Standard attributes -/

def shmemSize : Nat := 4096

def attrStdCount : Nat := 0xc

def attrMsgProtStart : Nat := 0x80000000

def stdAttrRead (c : Channel) : Nat → BitVec 32
  | 0x0 => c.msgProtId
  | 0x1 => c.msgProtVersion
  | 0x2 => c.msgDataMaxLen
  | 0x3 => c.sendTimeoutUs
  | 0x4 => c.completionTimeoutUs
  | 0x5 => c.capability
  | 0xb => c.eventsStateControl
  | 0x6 => c.sseEventId
  | 0x7 => c.msiControl
  | 0x8 => c.msiAddrLow
  | 0x9 => c.msiAddrHigh
  | 0xa => c.msiData
  | _ => 0

/-- `std_attr_write()`, to a copy of the channel -/
def stdAttrWrite (c : Channel) (id : Nat) (val : BitVec 32) : Except SbiError Channel :=
  let msi := c.has capMsi
  match id with
  | 0x7 =>
    if 1 < val then .error .invalidParam
    else .ok { c with msiControl := if msi then val else 0 }
  | 0x8 => .ok { c with msiAddrLow := if msi then val else 0 }
  | 0x9 => .ok { c with msiAddrHigh := if msi then val else 0 }
  | 0xa => .ok { c with msiData := if msi then val else 0 }
  | 0xb =>
    if 1 < val then .error .invalidParam
    else if c.has capEventsState then .ok { c with eventsStateControl := val }
    else .ok c
  | _ => .error .badRange

def stdAttrWrites (c : Channel) (base count : Nat) (mem : Nat → BitVec 32) :
    Except SbiError Channel :=
  (List.range count).foldlM (fun c i => stdAttrWrite c (base + i) (mem i)) c

structure Config (x : Xlen) where
  monitor : List (MemRegion x)
  domain : Nat → Domain x

def Channel.msiAddr (c : Channel) : BitVec 64 := regPairTo64 c.msiAddrHigh c.msiAddrLow

def Config.msiOk (cfg : Config x) (dom : Nat) (addr : BitVec 64) : Bool :=
  isAligned addr 4 && smodeWordOk cfg.monitor (cfg.domain dom) addr

def msiTargetOk (cfg : Config x) (dom : Nat) (c : Channel) : Bool :=
  c.msiControl == 0 || cfg.msiOk dom c.msiAddr

def attrsBeyond (prot : Bool) (base count : Nat) : Bool :=
  if prot then decide (0x100000000 - base < count) else decide (attrStdCount < base + count)

/-- `attr_range_check()`: the channel's place, and whether the attributes are the message
    protocol's. -/
def attrRangeCheck (dom : Nat) (channels : List Channel) (channelId base count : Word x) :
    Except SbiError (Nat × Bool) :=
  match if 0xffffffff < channelId.toNat then none else channelFind dom channelId.toNat channels with
  | none => .error .notSupported
  | some i =>
    if count = 0 ∨ shmemSize / 4 < count.toNat ∨ 0xffffffff < base.toNat then
      .error .invalidParam
    else
      let prot := decide (attrMsgProtStart ≤ base.toNat)
      if attrsBeyond prot base.toNat count.toNat then .error .badRange else .ok (i, prot)

/-! ### What is found -/

theorem channelFind_some {dom id : Nat} {cs : List Channel} {i : Nat}
    (hfind : channelFind dom id cs = some i) :
    ∃ c, cs[i]? = some c ∧ c.id.toNat = id ∧ channelVisible dom c = true := by
  induction cs generalizing i with
  | nil => cases hfind
  | cons c cs ih =>
    simp only [channelFind] at hfind
    split at hfind
    · next hid =>
      split at hfind
      · next hvisible =>
        cases hfind
        exact ⟨c, rfl, hid, hvisible⟩
      · cases hfind
    · obtain ⟨j, hj, rfl⟩ := Option.map_eq_some_iff.mp hfind
      exact ih hj

end RiscvMonitor.Mpxy
