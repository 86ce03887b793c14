import RiscvMonitor.RangeCheck
import RiscvMonitor.Runs
import RiscvMonitor.Sbi

/-!
# Windows on S-mode memory

M-mode reaches memory that is S-mode's through a window: `smode_access_begin()` opens
it, after one more look at the monitor's regions that ends in a panic.  Some services
check a range and use it in the same call; others keep it and open it later, on another
hart or on the way out of a trap.  The fast channels' come from the platform's
microcontroller (PuC).

This is the part of the services that decides which windows are opened.  A step is one
call, one of the monitor's own moments (a trap exit, a pass of a wait loop), or a hart
that starts, stops or changes domain; `none` is the panic.
-/

namespace RiscvMonitor.Windows

open Function (update)

variable {x : Xlen}

/-- `windows[]`: what a hart has open; size zero is nothing. -/
structure Window (x : Xlen) where
  addr : Word x
  size : Word x

inductive HartMode where
  | stopped
  | smode
  /-- In the wait loop of `reqfwd_send()`, its shared memory open. -/
  | waiting
deriving DecidableEq

/-- Per domain and hart: whether the context has run, the shared memory it left, and the ranges
    of `dbtr_hart` and `pmu_hart`. -/
structure Slot (x : Xlen) where
  ran : Bool
  mpxyShmem : Word x
  dbtrShmem : Word x
  dbtrCount : Word x
  snapshot : Word x

structure Channel where
  id : Nat
  capability : BitVec 32
  eventsStateControl : BitVec 32
  msiControl : BitVec 32
  msiAddrLow : BitVec 32
  msiAddrHigh : BitVec 32
  msiData : BitVec 32
  msiDomain : Nat
  /-- The one domain that sees it, counted from one; zero is any. -/
  owner : Nat
  eventsDue : Bool

inductive FcState where
  | unknown
  | none
  | ready
deriving DecidableEq

/-- `fc`, with a mark that the region became the monitor's own. -/
structure FastChannels (x : Xlen) where
  state : FcState
  autonomous : Bool
  dbBytes : Word x
  base : Word x
  size : Word x
  dbAddr : Word x
  atBoot : Bool

structure FcHart (x : Xlen) where
  known : Bool
  usable : Bool
  request : Word x
  feedback : Word x

structure Machine (x : Xlen) where
  memregions : List (MemRegion x)
  domains : Nat → Option (Domain x)
  domain : Nat → Nat
  mode : Nat → HartMode
  windows : Nat → Window x
  /-- `shmem[]` of the message proxy. -/
  shmem : Nat → Word x
  slots : Nat × Nat → Slot x
  channels : List Channel
  indicationsDue : Bool
  feedbackAsDelivered : Bool
  fc : FastChannels x
  fcHarts : Nat → FcHart x

/-- `MPXY_SHMEM_NONE`, `SNAPSHOT_NONE`, and `SHMEM_NONE` of `dbtr.c` -/
def shmemNone : Word x := ~~~0

/-- `MPXY_SHMEM_SIZE` and `SNAPSHOT_SIZE` -/
def shmemSize : Word x := 4096

def sizeofLong : Word x := BitVec.ofNat _ (x.bits / 8)

namespace Machine

def setWindow (s : Machine x) (h : Nat) (w : Window x) : Machine x :=
  { s with windows := update s.windows h w }

def setShmem (s : Machine x) (h : Nat) (addr : Word x) : Machine x :=
  { s with shmem := update s.shmem h addr }

def setMode (s : Machine x) (h : Nat) (mode : HartMode) : Machine x :=
  { s with mode := update s.mode h mode }

def setSlot (s : Machine x) (k h : Nat) (slot : Slot x) : Machine x :=
  { s with slots := update s.slots (k, h) slot }

/-- `this_dbtr()`, `this_pmu()` and the context of `this_domain()`. -/
def slot (s : Machine x) (h : Nat) : Slot x := s.slots (s.domain h, h)

def setThisSlot (s : Machine x) (h : Nat) (slot : Slot x) : Machine x :=
  s.setSlot (s.domain h) h slot

end Machine

/-! ### `hart.c` -/

/-- `smode_access_begin()`; `none` is the panic. -/
def smodeAccessBegin (s : Machine x) (h : Nat) (addr size : Word x) : Option (Machine x) :=
  if size ≠ 0 ∧ monitorRangeClear s.memregions addr size = false then none
  else some (s.setWindow h ⟨addr, size⟩)

def smodeAccessEnd (s : Machine x) (h : Nat) : Machine x :=
  s.setWindow h { s.windows h with size := 0 }

/-- `smode_poke32()`: the window that was open is put back. -/
def smodePoke32 (s : Machine x) (h : Nat) (addr : Word x) : Option (Machine x) := do
  let outer := s.windows h
  let s ← smodeAccessBegin s h addr 4
  let s := smodeAccessEnd s h
  if outer.size ≠ 0 then smodeAccessBegin s h outer.addr outer.size else some s

def smodeRangeOk (s : Machine x) (h : Nat) (addr size : Word x) : Bool :=
  domainRangeOk s.memregions (s.domains (s.domain h)) addr size (domainPermSuR ||| domainPermSuW)

def smodeRangeReadable (s : Machine x) (h : Nat) (addr size : Word x) : Bool :=
  domainRangeOk s.memregions (s.domains (s.domain h)) addr size domainPermSuR

/-- A window that is closed before the call goes on. -/
def access (s : Machine x) (h : Nat) (addr size : Word x) : Option (Machine x) := do
  let s ← smodeAccessBegin s h addr size
  some (smodeAccessEnd s h)

/-! ### Console, counters, events and triggers

Each is the service's own function up to its window.  What it does with the
memory does not open another one; the result it comes to there is `rc`. -/

def consoleWrite (s : Machine x) (h : Nat) (len lo hi : Word x) :
    Option (Machine x × SbiError) :=
  if hi ≠ 0 ∨ smodeRangeReadable s h lo len = false then some (s, .invalidParam)
  else do some (← access s h lo len, .success)

def consoleRead (s : Machine x) (h : Nat) (len lo hi : Word x) :
    Option (Machine x × SbiError) :=
  if hi ≠ 0 ∨ smodeRangeOk s h lo len = false then some (s, .invalidParam)
  else do some (← access s h lo len, .success)

def pmuSnapshotSetShmem (s : Machine x) (h : Nat) (lo hi flags : Word x) :
    Machine x × SbiError :=
  if flags ≠ 0 then (s, .invalidParam)
  else if lo = ~~~0 ∧ hi = ~~~0 then
    (s.setThisSlot h { s.slot h with snapshot := shmemNone }, .success)
  else if isAligned lo shmemSize = false then (s, .invalidParam)
  else if hi ≠ 0 ∨ smodeRangeOk s h lo shmemSize = false then (s, .invalidAddress)
  else (s.setThisSlot h { s.slot h with snapshot := lo }, .success)

/-- The snapshot of `pmu_counter_start()` and `pmu_counter_stop()`. -/
def pmuSnapshot (s : Machine x) (h : Nat) (rc : SbiError) : Option (Machine x × SbiError) :=
  if (s.slot h).snapshot = shmemNone then some (s, .noShmem)
  else do some (← access s h (s.slot h).snapshot shmemSize, rc)

def pmuCounterStart (s : Machine x) (h : Nat) (counterSetOk : Bool) (flags : Word x)
    (rc : SbiError) : Option (Machine x × SbiError) :=
  if counterSetOk = false then some (s, .invalidParam)
  else if flags &&& bit 0 ≠ 0 ∧ flags &&& bit 1 ≠ 0 then some (s, .invalidParam)
  else if flags &&& bit 1 ≠ 0 then pmuSnapshot s h rc
  else some (s, rc)

def pmuCounterStop (s : Machine x) (h : Nat) (counterSetOk : Bool) (flags : Word x)
    (rc : SbiError) : Option (Machine x × SbiError) :=
  if counterSetOk = false then some (s, .invalidParam)
  else if flags &&& bit 1 ≠ 0 then pmuSnapshot s h rc
  else some (s, rc)

def pmuEventInfo (s : Machine x) (h : Nat) (addr count : Word x) :
    Option (Machine x × SbiError) :=
  if isAligned addr 16 = false then some (s, .invalidParam)
  else if count > ~~~0 / 16 ∨ smodeRangeOk s h addr (count * 16) = false then
    some (s, .invalidAddress)
  else do some (← access s h addr (count * 16), .success)

def sseAttrCount : Word x := 10

/-- `attrs_check()`, after what `event_find()` said. -/
def sseAttrsCheck (s : Machine x) (h : Nat) (find : SbiError) (base count addr : Word x) :
    SbiError :=
  if find ≠ .success then find
  else if count = 0 then .invalidParam
  else if base ≥ sseAttrCount ∨ count > sseAttrCount - base then .badRange
  else if isAligned addr sizeofLong = false ∨ smodeRangeOk s h addr (count * sizeofLong) = false
  then .invalidAddress
  else .success

/-- `sse_read_attrs()` and `sse_write_attrs()` -/
def sseAttrs (s : Machine x) (h : Nat) (find : SbiError) (base count addr : Word x)
    (rc : SbiError) : Option (Machine x × SbiError) :=
  if sseAttrsCheck s h find base count addr ≠ .success then
    some (s, sseAttrsCheck s h find base count addr)
  else do some (← access s h addr (count * sizeofLong), rc)

def dbtrEntrySize : Word x := 4 * sizeofLong

def dbtrSetShmem (s : Machine x) (h : Nat) (lo hi flags : Word x) : Machine x × SbiError :=
  let d := s.slot h
  if flags ≠ 0 then (s, .invalidParam)
  else if lo = ~~~0 ∧ hi = ~~~0 then
    (s.setThisSlot h { d with dbtrShmem := shmemNone }, .success)
  else if isAligned lo sizeofLong = false then (s, .invalidParam)
  else if hi ≠ 0 ∨ smodeRangeOk s h lo (d.dbtrCount * dbtrEntrySize) = false then
    (s, .invalidAddress)
  else (s.setThisSlot h { d with dbtrShmem := lo }, .success)

/-- `dbtr_read()`, `dbtr_install()` and `dbtr_update()`: `entries_get()`, then the
    work, then `entries_put()`. -/
def dbtrEntries (s : Machine x) (h : Nat) (count : Word x) (rc : SbiError) :
    Option (Machine x × SbiError) :=
  let d := s.slot h
  if d.dbtrShmem = shmemNone then some (s, .noShmem)
  else if count > d.dbtrCount then some (s, .badRange)
  else do some (← access s h d.dbtrShmem (d.dbtrCount * dbtrEntrySize), rc)

/-! ### The message proxy -/

def mpxyCapMsi : BitVec 32 := 1
def mpxyCapSse : BitVec 32 := 2
def mpxyCapEventsState : BitVec 32 := 4
def mpxyCapGetNotifications : BitVec 32 := 32

structure ChannelNode where
  id : Nat
  capability : BitVec 32
  owner : Nat

/-- `mpxy_channel_register()`: by id, each id once.  The second component counts the `sseEvents`
    given out. -/
def mpxyChannelRegister (sseEvents : Nat) (channels : List Channel × Nat) (node : ChannelNode) :
    List Channel × Nat :=
  if channels.1.any (·.id == node.id) then channels
  else
    let notifies := node.capability &&& mpxyCapGetNotifications ≠ 0
    let sse := notifies ∧ channels.2 < sseEvents
    let capability := node.capability ||| (if notifies then mpxyCapMsi else 0)
      ||| (if sse then mpxyCapSse else 0)
    (channels.1.takeWhile (fun c => decide (c.id ≤ node.id)) ++
        (⟨node.id, capability, 0, 0, 0, 0, 0, 0, node.owner, false⟩ : Channel) ::
          channels.1.dropWhile (fun c => decide (c.id ≤ node.id)),
      if sse then channels.2 + 1 else channels.2)

def Channel.msiAddr (ch : Channel) : BitVec 64 := ch.msiAddrHigh ++ ch.msiAddrLow

def mpxyChannelEventsDue (s : Machine x) (id : Nat) : Machine x :=
  match s.channels.find? (·.id == id) with
  | none => s
  | some ch =>
    if ch.capability &&& (mpxyCapMsi ||| mpxyCapSse) = 0 then s
    else
      { s with
        indicationsDue := true
        channels := s.channels.map fun c => if c.id = id then { c with eventsDue := true } else c }

/-- The loop of `mpxy_indicate()`.  An event of the channel's is raised without a
    window where there is no MSI. -/
def indicateChannels (h : Nat) : List Channel → Machine x → Option (Machine x)
  | [], s => some s
  | ch :: chs, s =>
    if ch.eventsDue = true ∧ ch.msiControl ≠ 0 then
      (smodePoke32 s h (ch.msiAddr.setWidth x.bits)).bind (indicateChannels h chs)
    else indicateChannels h chs s

def mpxyIndicate (s : Machine x) (h : Nat) : Option (Machine x) :=
  if s.indicationsDue = false then some s
  else
    indicateChannels h s.channels
      { s with
        indicationsDue := false
        channels := s.channels.map fun c => { c with eventsDue := false } }

/-- `mpxy_shmem_access(true)` -/
def mpxyShmemBegin (s : Machine x) (h : Nat) : Option (Machine x) :=
  if s.shmem h = shmemNone then some s else smodeAccessBegin s h (s.shmem h) shmemSize

/-- `mpxy_shmem_access(false)` -/
def mpxyShmemEnd (s : Machine x) (h : Nat) : Machine x :=
  if s.shmem h = shmemNone then s else smodeAccessEnd s h

def mpxySetShmem (s : Machine x) (h : Nat) (lo hi flags : Word x) :
    Option (Machine x × SbiError) :=
  if flags > 1 then some (s, .invalidParam)
  else if lo = ~~~0 ∧ hi = ~~~0 then some (s.setShmem h shmemNone, .success)
  else if isAligned lo shmemSize = false then some (s, .invalidParam)
  else if hi ≠ 0 ∨ smodeRangeOk s h lo shmemSize = false then some (s, .invalidAddress)
  else
    let s := s.setShmem h lo
    if flags &&& 1 ≠ 0 then do some (← access s h lo (2 * sizeofLong), .success)
    else some (s, .success)

def channelFind (s : Machine x) (h id : Nat) : Option Channel :=
  match s.channels.find? (·.id == id) with
  | none => none
  | some ch => if ch.owner = 0 ∨ ch.owner = s.domain h + 1 then some ch else none

def stdAttrWrite (ch : Channel) (id : Nat) (val : BitVec 32) : Except SbiError Channel :=
  let msi := ch.capability &&& mpxyCapMsi ≠ 0
  match id with
  | 7 => if val > 1 then .error .invalidParam
         else .ok { ch with msiControl := if msi then val else 0 }
  | 8 => .ok { ch with msiAddrLow := if msi then val else 0 }
  | 9 => .ok { ch with msiAddrHigh := if msi then val else 0 }
  | 10 => .ok { ch with msiData := if msi then val else 0 }
  | 11 => if val > 1 then .error .invalidParam
          else if ch.capability &&& mpxyCapEventsState ≠ 0 then
            .ok { ch with eventsStateControl := val }
          else .ok ch
  | _ => .error .badRange

def msiTargetOk (s : Machine x) (h : Nat) (ch : Channel) : Bool :=
  ch.msiControl == 0 ||
    (isAligned ch.msiAddr 4 && (ch.msiAddr.setWidth x.bits).setWidth 64 == ch.msiAddr &&
      smodeRangeOk s h (ch.msiAddr.setWidth x.bits) 4)

/-- `attr_range_check()`: the channel, and whether the range is the message
    protocol's. -/
def attrRangeCheck (s : Machine x) (h : Nat) (channelId base count : Word x) :
    Except SbiError (Channel × Bool) :=
  match if channelId.toNat > 0xffffffff then none else channelFind s h channelId.toNat with
  | none => .error .notSupported
  | some ch =>
    if count = 0 ∨ count > 1024 ∨ base.toNat > 0xffffffff then .error .invalidParam
    else if base.toNat ≥ 0x80000000 then
      if count.toNat > 0x100000000 - base.toNat then .error .badRange else .ok (ch, true)
    else if base.toNat + count.toNat > 12 then .error .badRange
    else .ok (ch, false)

/-- `mpxy_write_attributes()` of the words `mem`; `rc` is what the channel makes of its own
    attributes. -/
def mpxyWriteAttributes (s : Machine x) (h : Nat) (channelId base count : Word x)
    (mem : Nat → BitVec 32) (rc : SbiError) : Machine x × SbiError :=
  if s.shmem h = shmemNone then (s, .noShmem)
  else
    match attrRangeCheck s h channelId base count with
    | .error e => (s, e)
    | .ok (_, true) => (s, rc)
    | .ok (ch, false) =>
      let staged := (List.range count.toNat).foldlM
        (fun ch i => stdAttrWrite ch (base.toNat + i) (mem i)) ch
      match staged with
      | .error e => (s, e)
      | .ok staged =>
        if msiTargetOk s h staged = false then (s, .invalidParam)
        else
          let new :=
            { ch with
              msiControl := staged.msiControl
              msiAddrLow := staged.msiAddrLow
              msiAddrHigh := staged.msiAddrHigh
              msiData := staged.msiData
              msiDomain := s.domain h
              eventsStateControl := staged.eventsStateControl }
          ({ s with channels := s.channels.map fun c => if c.id = ch.id then new else c },
            .success)

/-- `mpxy_switch_pending()`, where it opens the shared memory again: a switch refused, or a
    yield with nowhere to go. -/
def mpxySwitchPending (s : Machine x) (h : Nat) (again : Bool) : Option (Machine x) :=
  if again = true then do some (mpxyShmemEnd (← mpxyShmemBegin s h) h) else some s

/-- `sbi_mpxy_ecall()` for a call that works on the shared memory. -/
def mpxyShmemCall (s : Machine x) (h : Nat) (work : Machine x → Machine x × SbiError)
    (again : Bool) : Option (Machine x × SbiError) := do
  let s ← mpxyShmemBegin s h
  let r := work s
  let s ← mpxySwitchPending (mpxyShmemEnd r.1 h) h again
  some (s, r.2)

/-! ### Fast channels

The PuC's answers are inputs: `silent` is a timeout, an I/O error or a busy PuC,
after which the question is asked again. -/

inductive Answer (α : Type) where
  | silent
  | refused
  | ok (resp : α)

/-- GET_FAST_CHANNEL_REGION, words 1 to 7 of the response. -/
structure RegionResp where
  flags : BitVec 32
  baseLo : BitVec 32
  baseHi : BitVec 32
  sizeLo : BitVec 32
  sizeHi : BitVec 32
  dbLo : BitVec 32
  dbHi : BitVec 32

/-- GET_FAST_CHANNEL_OFFSET, words 1 to 4 of the response. -/
structure OffsetResp where
  requestLo : BitVec 32
  requestHi : BitVec 32
  feedbackLo : BitVec 32
  feedbackHi : BitVec 32

def addrFrom (lo hi : BitVec 32) : Option (Word x) :=
  if x.bits = 64 ∨ hi = 0 then some ((hi ++ lo).setWidth x.bits) else none

/-- The doorbell's width, zero without one. -/
def RegionResp.dbBytes (r : RegionResp) : Word x :=
  if r.flags &&& 1 ≠ 0 then bit ((r.flags >>> 1) &&& 3).toNat else 0

def RegionResp.doorbell (r : RegionResp) : Option (Word x) :=
  if r.dbBytes = (0 : Word x) then some 0 else addrFrom r.dbLo r.dbHi

def RegionResp.mode (r : RegionResp) : Nat := ((r.flags >>> 3) &&& 3).toNat

/-- The checks of `fc_discover()`. -/
def fcUsable (memregions : List (MemRegion x)) (r : RegionResp) (base size db : Word x) : Bool :=
  isPowerOfTwo size && isAligned base 8 && !decide (base + size < base) && decide (r.mode ≤ 1) &&
    decide (r.dbBytes ≤ (4 : Word x)) &&
    (r.dbBytes == (0 : Word x) || isAligned db r.dbBytes) &&
    monitorRangeClear memregions base size &&
    (r.dbBytes == (0 : Word x) || monitorRangeClear memregions db r.dbBytes)

/-- What `fc_discover()` takes the response for. -/
def fcAccept (memregions : List (MemRegion x)) (boot : Bool) (r : RegionResp) :
    Option (FastChannels x) := do
  let base ← addrFrom r.baseLo r.baseHi
  let size ← addrFrom r.sizeLo r.sizeHi
  let db ← r.doorbell
  if fcUsable memregions r base size db then
    some ⟨.ready, r.mode == 1, r.dbBytes, base, size, db, boot⟩
  else none

def noFastChannels (state : FcState) : FastChannels x := ⟨state, false, 0, 0, 0, 0, false⟩

/-- `fc_discover(true)`: the region becomes one of the monitor's. -/
def fcDiscoverBoot (image : Image x) (memregions : List (MemRegion x))
    (answer : Answer RegionResp) : Option (List (MemRegion x) × FastChannels x) :=
  match answer with
  | .silent => some (memregions, noFastChannels .unknown)
  | .refused => some (memregions, noFastChannels .none)
  | .ok r =>
    match fcAccept memregions true r with
    | none => some (memregions, noFastChannels .none)
    | some fc => do some (← memregionAdd image memregions fc.base fc.size .mmodeRw, fc)

/-- `fc_discover(false)` -/
def fcDiscover (s : Machine x) (answer : Answer RegionResp) : Machine x :=
  if s.fc.state ≠ .unknown then s
  else
    match answer with
    | .silent => s
    | .refused => { s with fc := { s.fc with state := .none } }
    | .ok r =>
      match fcAccept s.memregions false r with
      | none => { s with fc := { s.fc with state := .none } }
      | some fc => { s with fc := fc }

/-- The hart's two channels, from their offsets in the region. -/
def fcOffsets (fc : FastChannels x) (r : OffsetResp) : FcHart x :=
  match addrFrom r.requestLo r.requestHi, addrFrom r.feedbackLo r.feedbackHi with
  | some off₀, some off₁ =>
    ⟨true,
      isAligned (off₀ ||| off₁) 8 && off₀ != off₁ && decide (off₀ ≤ fc.size - 8) &&
        decide (off₁ ≤ fc.size - 8),
      fc.base + off₀, fc.base + off₁⟩
  | _, _ => ⟨true, false, fc.base, fc.base⟩

/-- `fc_hart()`: the request and the feedback channel of the calling hart. -/
def fcHart (s : Machine x) (h : Nat) (region : Answer RegionResp) (offsets : Answer OffsetResp) :
    Machine x × Option (FcHart x) :=
  let s := fcDiscover s region
  if s.fc.state ≠ .ready then (s, none)
  else if (s.fcHarts h).known = true then
    (s, if (s.fcHarts h).usable then some (s.fcHarts h) else none)
  else
    match offsets with
    | .silent => (s, none)
    | .refused =>
      ({ s with fcHarts := update s.fcHarts h ⟨true, false, s.fc.base, s.fc.base⟩ },
        none)
    | .ok r =>
      let c := fcOffsets s.fc r
      ({ s with fcHarts := update s.fcHarts h c }, if c.usable then some c else none)

/-- Whether a write is one for the request fast channel. -/
def fcWrites (fc : FastChannels x) (reg : BitVec 32) (val : BitVec 64) : Bool :=
  (if fc.autonomous then reg == 6 || reg == 7 else reg == 5) && decide (val ≤ 0xffffffff)

def fcRing (s : Machine x) (h : Nat) : Option (Machine x) :=
  if s.fc.dbBytes = 0 then some s else access s h s.fc.dbAddr s.fc.dbBytes

/-- `rpmi_cppc_write()`; `reply` is what the PuC says to a write that goes by
    message. -/
def cppcWrite (s : Machine x) (h : Nat) (reg : BitVec 32) (val : BitVec 64)
    (region : Answer RegionResp) (offsets : Answer OffsetResp) (reply : SbiError) :
    Option (Machine x × SbiError) :=
  if fcWrites s.fc reg val = false then some (s, reply)
  else
    match fcHart s h region offsets with
    | (s, none) => some (s, reply)
    | (s, some c) => do
        let s ← access s h c.request 8
        some (← fcRing s h, .success)

def cppcRead (s : Machine x) (h : Nat) (reg : BitVec 32) (region : Answer RegionResp)
    (offsets : Answer OffsetResp) (reply : SbiError) : Option (Machine x × SbiError) :=
  if s.feedbackAsDelivered = false ∨ reg ≠ 12 then some (s, reply)
  else
    match fcHart s h region offsets with
    | (s, none) => some (s, reply)
    | (s, some c) => do some (← access s h c.feedback 8, .success)

/-! ### Harts and domains -/

/-- `dbtr_hart_init()` and `pmu_hart_init()`; `triggers` is what the hardware has. -/
def Slot.init (slot : Slot x) (triggers : Word x) : Slot x :=
  { slot with ran := true, dbtrShmem := shmemNone, dbtrCount := triggers, snapshot := shmemNone }

/-- A hart starts in its domain: `hart_runtime_init()`. -/
def hartStart (s : Machine x) (h : Nat) (triggers : Word x) : Machine x :=
  ((s.setThisSlot h ((s.slot h).init triggers)).setShmem h shmemNone).setMode h .smode

/-- `context_restore()` of domain `k`; in a fresh context the services start over, and only the
    boot hart goes on. -/
def contextRestore (s : Machine x) (h k : Nat) (triggers : Word x) : Machine x :=
  let slot := s.slots (k, h)
  if slot.ran = true then { (s.setShmem h slot.mpxyShmem) with domain := update s.domain h k }
  else
    let boots := (s.domains k).elim false fun dom => dom.bootHart == some h
    let s := (s.setShmem h shmemNone).setSlot k h ({ slot with mpxyShmem := shmemNone }.init triggers)
    { s.setMode h (if boots then .smode else .stopped) with domain := update s.domain h k }

/-- The context that leaves keeps its shared memory, the one that comes gets its own, and the
    answer `resumed` to a message it sent. -/
def domainSwitch (s : Machine x) (h k : Nat) (triggers : Word x) (resumed : Bool) :
    Option (Machine x) :=
  let fresh := (s.slots (k, h)).ran = false
  let s := (s.setThisSlot h { s.slot h with mpxyShmem := s.shmem h }).setShmem h shmemNone
  mpxySwitchPending (contextRestore s h k triggers) h (resumed && !fresh)

/-- `domain_stop_self()`: back to the context that waits, or stopped. -/
def domainStopSelf (s : Machine x) (h : Nat) (back : Option Nat) (resumed : Bool) :
    Option (Machine x) :=
  let gone := s.setThisSlot h { s.slot h with ran := false }
  match back with
  | none => some (gone.setMode h .stopped)
  | some k => mpxySwitchPending (contextRestore gone h k 0) h resumed

inductive Call (x : Xlen) where
  | consoleWrite (len lo hi : Word x)
  | consoleRead (len lo hi : Word x)
  | pmuSnapshotSetShmem (lo hi flags : Word x)
  | pmuCounterStart (counterSetOk : Bool) (flags : Word x) (rc : SbiError)
  | pmuCounterStop (counterSetOk : Bool) (flags : Word x) (rc : SbiError)
  | pmuEventInfo (addr count : Word x)
  | sseAttrs (find : SbiError) (base count addr : Word x) (rc : SbiError)
  | dbtrSetShmem (lo hi flags : Word x)
  | dbtrEntries (count : Word x) (rc : SbiError)
  | mpxySetShmem (lo hi flags : Word x)
  /-- The calls that only fill the shared memory. -/
  | mpxyRead (rc : SbiError) (again : Bool)
  | mpxyWriteAttributes (channelId base count : Word x) (mem : Nat → BitVec 32) (rc : SbiError)
      (again : Bool)
  | cppcRead (reg : BitVec 32) (region : Answer RegionResp) (offsets : Answer OffsetResp)
      (reply : SbiError)
  | cppcWrite (reg : BitVec 32) (val : BitVec 64) (region : Answer RegionResp)
      (offsets : Answer OffsetResp) (reply : SbiError)

def ecall (s : Machine x) (h : Nat) : Call x → Option (Machine x × SbiError)
  | .consoleWrite len lo hi => consoleWrite s h len lo hi
  | .consoleRead len lo hi => consoleRead s h len lo hi
  | .pmuSnapshotSetShmem lo hi flags => some (pmuSnapshotSetShmem s h lo hi flags)
  | .pmuCounterStart ok flags rc => pmuCounterStart s h ok flags rc
  | .pmuCounterStop ok flags rc => pmuCounterStop s h ok flags rc
  | .pmuEventInfo addr count => pmuEventInfo s h addr count
  | .sseAttrs find base count addr rc => sseAttrs s h find base count addr rc
  | .dbtrSetShmem lo hi flags => some (dbtrSetShmem s h lo hi flags)
  | .dbtrEntries count rc => dbtrEntries s h count rc
  | .mpxySetShmem lo hi flags => mpxySetShmem s h lo hi flags
  | .mpxyRead rc again => mpxyShmemCall s h (fun s => (s, rc)) again
  | .mpxyWriteAttributes id base count mem rc again =>
    mpxyShmemCall s h (fun s => mpxyWriteAttributes s h id base count mem rc) again
  | .cppcRead reg region offsets reply => cppcRead s h reg region offsets reply
  | .cppcWrite reg val region offsets reply => cppcWrite s h reg val region offsets reply

inductive Event (x : Xlen) where
  | call (h : Nat) (c : Call x)
  | sendMessage (h : Nat)
  | sendDone (h : Nat) (again : Bool)
  | indicate (h : Nat)
  | eventsDue (id : Nat)
  | hartStart (h : Nat) (triggers : Word x)
  | hartStop (h : Nat)
  | domainSwitch (h k : Nat) (triggers : Word x) (resumed : Bool)
  | domainStopSelf (h : Nat) (back : Option Nat) (resumed : Bool)
  /-- `domain_stop()` drops a context that is parked. -/
  | contextDropped (k h : Nat)

/-- An event that cannot happen where the hart is changes nothing. -/
def step (s : Machine x) : Event x → Option (Machine x)
  | .call h c => if s.mode h = .smode then (ecall s h c).map Prod.fst else some s
  | .sendMessage h =>
    -- a message needs the shared memory, which stays open until the answer is there
    if s.mode h = .smode ∧ s.shmem h ≠ shmemNone then
      (mpxyShmemBegin s h).map fun s => s.setMode h .waiting
    else some s
  | .sendDone h again =>
    if s.mode h = .waiting then mpxySwitchPending ((mpxyShmemEnd s h).setMode h .smode) h again
    else some s
  | .indicate h => mpxyIndicate s h
  | .eventsDue id => some (mpxyChannelEventsDue s id)
  | .hartStart h triggers => some (if s.mode h = .waiting then s else hartStart s h triggers)
  | .hartStop h => some (if s.mode h = .waiting then s else s.setMode h .stopped)
  | .domainSwitch h k triggers resumed =>
    if s.mode h = .smode ∧ k ≠ s.domain h then domainSwitch s h k triggers resumed else some s
  | .domainStopSelf h back resumed =>
    if s.mode h = .smode ∧ ∀ k ∈ back, k ≠ s.domain h ∧ (s.slots (k, h)).ran = true then
      domainStopSelf s h back resumed
    else some s
  | .contextDropped k h =>
    some (if k = s.domain h then s else s.setSlot k h { s.slots (k, h) with ran := false })

/-! ### The boot -/

/-- The regions that the drivers register before and after the PuC is asked, its answer, the
    domains and where the harts start out. -/
structure Boot (x : Xlen) where
  image : Image x
  before : List (MemRegion x)
  after : List (MemRegion x)
  answer : Answer RegionResp
  domains : Nat → Option (Domain x)
  home : Nat → Nat
  channels : List ChannelNode
  sseEvents : Nat
  feedbackAsDelivered : Bool

/-- The machine when the boot is over; `none` is a panic of `memregion_add()`. -/
def Boot.machine (b : Boot x) : Option (Machine x) := do
  let memregions ← memregionAdds b.image [] b.before
  let r ← fcDiscoverBoot b.image memregions b.answer
  let memregions ← memregionAdds b.image r.1 b.after
  some
    { memregions
      domains := b.domains
      domain := b.home
      mode := fun _ => .stopped
      windows := fun _ => ⟨0, 0⟩
      shmem := fun _ => 0
      slots := fun _ => ⟨false, 0, 0, 0, 0⟩
      channels := (b.channels.foldl (mpxyChannelRegister b.sseEvents) ([], 0)).1
      indicationsDue := false
      feedbackAsDelivered := b.feedbackAsDelivered
      fc := r.2
      fcHarts := fun _ => ⟨false, false, 0, 0⟩ }

end RiscvMonitor.Windows
