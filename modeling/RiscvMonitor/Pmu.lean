import RiscvMonitor.Masks
import RiscvMonitor.Sbi

/-!
# Performance counters

`pmu.c`: the hardware counters of the hart are handed out to S-mode, and counters of
the monitor's own for what it does on S-mode's behalf.  The record of who counts what
is kept for each domain and hart, and the hardware counters are there once: a hart
that changes domain stops them, and takes their values and selectors along.
-/

namespace RiscvMonitor.Pmu

open Function (update)
open Masks

variable {x : Xlen}

def hwCounterCount : Nat := 32
def fwCounterCount : Nat := 16
def fwFirst : Nat := hwCounterCount
def counterCount : Nat := hwCounterCount + fwCounterCount

/-! ### What the platform has -/

structure EventRange where
  first : BitVec 32
  last : BitVec 32
  counters : BitVec 32

structure EventSelect where
  eventIdx : BitVec 32
  select : BitVec 64

structure RawEvent where
  select : BitVec 64
  mask : BitVec 64
  counters : BitVec 32

structure Config (x : Xlen) where
  hwCounters : BitVec 32
  haveInhibit : Bool
  /-- Counters can only be handed out if they can be stopped. -/
  noInhibit : haveInhibit = false → hwCounters = 0
  /-- `cycle` and `instret` are always there, and `time` is no counter. -/
  fixed : haveInhibit = true →
    hwCounters.getLsbD 0 = true ∧ hwCounters.getLsbD 1 = false ∧ hwCounters.getLsbD 2 = true
  sscofpmf : Bool
  smcntrpmf : Bool
  /-- What a write leaves in an `mhpmevent`. -/
  legal : Nat → BitVec 64 → BitVec 64
  /-- A value that it had is taken again. -/
  taken : ∀ n v, legal n (legal n v) = legal n v
  ranges : List EventRange
  selects : List EventSelect
  rawEvents : List RawEvent
  smodeRangeOk : Word x → Nat → Bool

def Config.bare : Config x where
  hwCounters := 0
  haveInhibit := false
  noInhibit := fun _ => rfl
  fixed := nofun
  sscofpmf := false
  smcntrpmf := false
  legal := fun _ v => v
  taken := fun _ _ => rfl
  ranges := []
  selects := []
  rawEvents := []
  smodeRangeOk := fun _ _ => true

/-! ### The counters of the hart -/

structure Hardware where
  inhibit : BitVec 32
  /-- `mcycle`, `minstret`, `mhpmcounter` -/
  counter : Nat → BitVec 64
  /-- `mcyclecfg`, `minstretcfg`, `mhpmevent` -/
  select : Nat → BitVec 64
  /-- The counter overflow interrupt in `mie`, `mideleg` and `mip`. -/
  irqEnabled : Bool
  irqDelegated : Bool
  irqPending : Bool

def hpmeventOf : BitVec 64 := 1#64 <<< 63
def hpmeventMinh : BitVec 64 := 1#64 <<< 62
def hpmeventSinh : BitVec 64 := 1#64 <<< 61
def hpmeventUinh : BitVec 64 := 1#64 <<< 60
def hpmeventVsinh : BitVec 64 := 1#64 <<< 59
def hpmeventVuinh : BitVec 64 := 1#64 <<< 58

def filterBits : BitVec 64 := 0x1f#64 <<< 58

def counterWrite (hw : Hardware) (n : Nat) (v : BitVec 64) : Hardware :=
  { hw with counter := update hw.counter n v }

def eventRead (cfg : Config x) (hw : Hardware) (n : Nat) : BitVec 64 :=
  if n < 3 then if cfg.smcntrpmf = true ∧ n ≠ 1 then hw.select n else 0 else hw.select n

def eventWrite (cfg : Config x) (hw : Hardware) (n : Nat) (v : BitVec 64) : Hardware :=
  if n < 3 then
    if cfg.smcntrpmf = true ∧ n ≠ 1 then
      { hw with select := update hw.select n (v &&& filterBits) }
    else hw
  else { hw with select := update hw.select n (cfg.legal n v) }

def running (hw : Hardware) (n : Nat) : Bool := !hw.inhibit.getLsbD n

def setInhibit (hw : Hardware) (n : Nat) : Hardware :=
  { hw with inhibit := hw.inhibit ||| 1#32 <<< n }

def clearInhibit (hw : Hardware) (n : Nat) : Hardware :=
  { hw with inhibit := clear hw.inhibit (1#32 <<< n) }

/-- A counter that is not stopped counts `k` events.  One that overflows interrupts if it had
    not said so before. -/
def counts (cfg : Config x) (hw : Hardware) (n : Nat) (k : BitVec 64) : Hardware :=
  if cfg.hwCounters.getLsbD n = true ∧ running hw n = true then
    let counted := counterWrite hw n (hw.counter n + k)
    if cfg.sscofpmf = true ∧ 3 ≤ n ∧ 2 ^ 64 ≤ (hw.counter n).toNat + k.toNat then
      { counted with
        select := update hw.select n (hw.select n ||| hpmeventOf)
        irqPending := hw.irqPending || !(hw.select n).getLsbD 63 }
    else counted
  else hw

def eventNone : BitVec 32 := -1
def snapshotNone : Word x := -1
def snapshotSize : Nat := 4096

structure PmuHart (x : Xlen) where
  snapshot : Word x
  sseEnabled : Bool
  sseSavedIe : Bool
  event : Nat → BitVec 32
  fwStarted : BitVec 32
  fwValue : Fin fwCounterCount → BitVec 64
  /-- The hardware side, while the hart runs another domain. -/
  hw : Hardware

def fwSlot (c : Nat) : Fin fwCounterCount := Fin.ofNat 16 (c - fwFirst)

structure Hart (x : Xlen) where
  p : PmuHart x
  hw : Hardware

/-- `hw_counters & ~(BIT(0) | BIT(2))`: `cycle` and `instret` keep running. -/
def Config.stopped (cfg : Config x) : BitVec 32 := clear cfg.hwCounters 0b101#32

def Config.forEach (cfg : Config x) (f : Hardware → Nat → Hardware) (hw : Hardware) : Hardware :=
  (List.range hwCounterCount).foldl (fun hw n => if cfg.hwCounters.getLsbD n then f hw n else hw) hw

def hartInit (cfg : Config x) (b : Hart x) : Hart x :=
  let p := { b.p with
    event := fun _ => eventNone
    fwStarted := 0
    snapshot := snapshotNone
    sseEnabled := false }
  if cfg.haveInhibit = false then { b with p := p }
  else
    let hw := { b.hw with inhibit := cfg.stopped }
    let hw := cfg.forEach (fun hw n => if n < 3 then hw else eventWrite cfg hw n 0) hw
    let hw := eventWrite cfg hw 0 hpmeventMinh
    ⟨p, eventWrite cfg hw 2 hpmeventMinh⟩

def switchOut (cfg : Config x) (b : Hart x) : Hart x :=
  let b :=
    if cfg.sscofpmf then
      { p := { b.p with
          hw := { b.p.hw with
            irqEnabled := b.hw.irqEnabled
            irqDelegated := b.hw.irqDelegated
            irqPending := b.hw.irqPending } }
        hw := { b.hw with irqEnabled := false } }
    else b
  if cfg.haveInhibit = false then b
  else
    { p := { b.p with
        hw := { b.p.hw with
          inhibit := b.hw.inhibit
          counter := fun n =>
            if cfg.hwCounters.getLsbD n then b.hw.counter n else b.p.hw.counter n
          select := fun n =>
            if cfg.hwCounters.getLsbD n then eventRead cfg b.hw n else b.p.hw.select n } }
      hw := { b.hw with inhibit := cfg.hwCounters } }

/-- What `pmu_hart_switch_in()` puts in the record of a fresh context. -/
def freshHw (cfg : Config x) : Hardware where
  inhibit := cfg.stopped
  irqEnabled := false
  irqDelegated := true
  irqPending := false
  counter := fun _ => 0
  select := fun n => if n = 0 ∨ n = 2 then hpmeventMinh else 0

def switchIn (cfg : Config x) (fresh : Bool) (b : Hart x) : Hart x :=
  let b :=
    if fresh then hartInit cfg { b with p := { b.p with hw := freshHw cfg } } else b
  let saved := b.p.hw
  let b :=
    if cfg.haveInhibit then
      let hw := { b.hw with inhibit := cfg.hwCounters }
      let hw := cfg.forEach (fun hw n =>
        counterWrite (eventWrite cfg hw n (saved.select n)) n (saved.counter n)) hw
      { b with hw := { hw with inhibit := saved.inhibit } }
    else b
  if cfg.sscofpmf then
    { b with
      hw := { b.hw with
        irqDelegated := saved.irqDelegated
        irqPending := saved.irqPending
        irqEnabled := saved.irqEnabled } }
  else b

/-! ### Firmware counters -/

def eventType (idx : BitVec 32) : BitVec 32 := idx >>> 16 &&& 0xf
def eventCode (idx : BitVec 32) : BitVec 32 := idx &&& 0xffff

def eventTypeFw : BitVec 32 := 15
def eventTypeHwRaw : BitVec 32 := 2
def fwMax : BitVec 32 := 22

def fwEvent (b : Hart x) (event : BitVec 32) : Hart x :=
  let idx := eventTypeFw <<< 16 ||| event
  { b with
    p := { b.p with
      fwValue := fun i =>
        if b.p.fwStarted.getLsbD i = true ∧ b.p.event (fwFirst + i) = idx then b.p.fwValue i + 1
        else b.p.fwValue i } }

def counterExists (cfg : Config x) (idx : Nat) : Bool :=
  decide (idx < counterCount) && (decide (fwFirst ≤ idx) || cfg.hwCounters.getLsbD idx)

/-- The offsets and counters that `base` and `mask` name. -/
def selected (base mask : Word x) : List (Nat × Nat) :=
  ((List.range x.bits).filter mask.getLsbD).map fun i =>
    (i, (base + BitVec.ofNat x.bits i).toNat)

def counterSetOk (cfg : Config x) (base mask : Word x) : Bool :=
  mask != 0 && (selected base mask).all fun c =>
    decide (base.toNat ≤ c.2) && counterExists cfg c.2

def counterInfo (cfg : Config x) (idx : Word x) : SbiError × Word x :=
  if counterExists cfg idx.toNat = false then (.invalidParam, 0)
  else if fwFirst ≤ idx.toNat then (.success, bit (x.bits - 1))
  else (.success, (0xc00 + idx) ||| BitVec.ofNat x.bits 63 <<< 12)

/-- `hw_event_lookup()`: the counters that can count the event, and what selects it. -/
def hwEventLookup (cfg : Config x) (eventIdx : BitVec 32) (data : BitVec 64) :
    BitVec 32 × BitVec 64 :=
  if eventType eventIdx = eventTypeHwRaw then
    let data := data &&& 0xffffffffffff#64
    match cfg.rawEvents.find? fun r => data &&& r.mask == r.select with
    | some r => (r.counters, data)
    | none => (0, 0)
  else
    let select := cfg.selects.foldl (fun select s =>
      if s.eventIdx = eventIdx then s.select else select) (eventIdx.setWidth 64)
    match cfg.ranges.find? fun r => decide (r.first ≤ eventIdx) && decide (eventIdx ≤ r.last) with
    | some r => (r.counters, select)
    | none => (0, select)

def cfgSkipMatch (flags : Word x) : Bool := flags.getLsbD 0
def cfgClearValue (flags : Word x) : Bool := flags.getLsbD 1
def cfgAutoStart (flags : Word x) : Bool := flags.getLsbD 2

def inhibitBits (flags : Word x) : BitVec 64 :=
  let bits := setIf (flags.getLsbD 6) hpmeventMinh hpmeventSinh
  let bits := setIf (flags.getLsbD 5) bits hpmeventUinh
  let bits := setIf (flags.getLsbD 4) bits hpmeventVsinh
  setIf (flags.getLsbD 3) bits hpmeventVuinh

def counterStartOne (cfg : Config x) (b : Hart x) (idx : Nat) : Hart x :=
  if fwFirst ≤ idx then
    { b with p := { b.p with fwStarted := b.p.fwStarted ||| 1#32 <<< (idx - fwFirst) } }
  else
    let hw :=
      if cfg.sscofpmf = true ∧ 3 ≤ idx then
        eventWrite cfg b.hw idx (clear (eventRead cfg b.hw idx) hpmeventOf)
      else b.hw
    { b with hw := clearInhibit hw idx }

def configTarget (p : PmuHart x) (fw : Bool) (candidates : BitVec 32) (base mask flags : Word x) :
    Except SbiError Nat :=
  if cfgSkipMatch flags then
    match (selected base mask).head? with
    | some (_, c) =>
      if p.event c = eventNone ∨ fw ≠ decide (fwFirst ≤ c) then .error .invalidParam else .ok c
    | none => .error .invalidParam
  else
    match (selected base mask).find? fun c =>
        p.event c.2 == eventNone &&
          (if fw then decide (fwFirst ≤ c.2)
          else decide (c.2 < fwFirst) && candidates.getLsbD c.2) with
    | some (_, c) => .ok c
    | none => .error .notSupported

/-- The registers of counter `c`, once it is to count what `select` says. -/
def configHw (cfg : Config x) (hw : Hardware) (c : Nat) (flags : Word x) (select : BitVec 64) :
    Hardware :=
  -- reprogramming happens with the counter stopped
  let hw := setInhibit hw c
  let select :=
    if c < 3 then inhibitBits flags
    else if cfg.sscofpmf then select ||| inhibitBits flags ||| hpmeventOf
    else select
  let hw := eventWrite cfg hw c select
  if cfgClearValue flags then counterWrite hw c 0 else hw

def configOne (cfg : Config x) (b : Hart x) (c : Nat) (flags : Word x) (event : BitVec 32)
    (select : BitVec 64) : Hart x :=
  let p := { b.p with event := update b.p.event c event }
  let b : Hart x :=
    if eventType event = eventTypeFw then
      { b with
        p := if cfgClearValue flags then
            { p with fwValue := update p.fwValue (fwSlot c) 0 }
          else p }
    else ⟨p, configHw cfg b.hw c flags select⟩
  if cfgAutoStart flags then counterStartOne cfg b c else b

def counterConfig (cfg : Config x) (b : Hart x) (base mask flags eventIdx : Word x)
    (data : BitVec 64) : Hart x × SbiError × Word x :=
  let event := eventIdx.setWidth 32
  let fw := eventType event == eventTypeFw
  let candidates := (hwEventLookup cfg event data).1 &&& cfg.hwCounters
  if counterSetOk cfg base mask = false ∨ 0xfffff < eventIdx.toNat then (b, .invalidParam, 0)
  else if fw = true ∧ fwMax ≤ eventCode event then (b, .notSupported, 0)
  else if fw = false ∧ candidates = 0 then (b, .notSupported, 0)
  else
    match configTarget b.p fw candidates base mask flags with
    | .error rc => (b, rc, 0)
    | .ok c =>
      (configOne cfg b c flags event (hwEventLookup cfg event data).2, .success,
        BitVec.ofNat x.bits c)

structure Mem where
  overflow : BitVec 64
  values : Nat → BitVec 64
  /-- The event of an entry, its data, and whether it can be counted. -/
  info : Nat → BitVec 32 × BitVec 64 × BitVec 32

def startSetInitValue (flags : Word x) : Bool := flags.getLsbD 0
def startInitSnapshot (flags : Word x) : Bool := flags.getLsbD 1

def counterRunning (b : Hart x) (c : Nat) : Bool :=
  if fwFirst ≤ c then b.p.fwStarted.getLsbD (c - fwFirst) else running b.hw c

def setValue (b : Hart x) (c : Nat) (v : BitVec 64) : Hart x :=
  if fwFirst ≤ c then
    { b with p := { b.p with fwValue := update b.p.fwValue (fwSlot c) v } }
  else { b with hw := counterWrite b.hw c v }

def startOne (cfg : Config x) (flags : Word x) (value : BitVec 64) (mem : Mem)
    (r : Hart x × SbiError) (c : Nat × Nat) : Hart x × SbiError :=
  if r.1.p.event c.2 = eventNone then (r.1, .invalidParam)
  else if counterRunning r.1 c.2 then (r.1, .alreadyStarted)
  else
    let value := if startInitSnapshot flags then mem.values c.1 else value
    let b :=
      if startSetInitValue flags || startInitSnapshot flags then setValue r.1 c.2 value else r.1
    (counterStartOne cfg b c.2, r.2)

def counterStart (cfg : Config x) (b : Hart x) (base mask flags : Word x) (value : BitVec 64)
    (mem : Mem) : Hart x × SbiError :=
  if counterSetOk cfg base mask = false then (b, .invalidParam)
  else if startSetInitValue flags = true ∧ startInitSnapshot flags = true then (b, .invalidParam)
  else if startInitSnapshot flags = true ∧ b.p.snapshot = snapshotNone then (b, .noShmem)
  else (selected base mask).foldl (startOne cfg flags value mem) (b, .success)

def stopReset (flags : Word x) : Bool := flags.getLsbD 0
def stopTakeSnapshot (flags : Word x) : Bool := flags.getLsbD 1

/-- `snap->values[i]` and its bit of `overflow_bitmap`. -/
def snapshotOf (cfg : Config x) (b : Hart x) (c : Nat) : BitVec 64 × Bool :=
  if fwFirst ≤ c then (b.p.fwValue (fwSlot c), false)
  else
    (b.hw.counter c,
      decide (3 ≤ c) && cfg.sscofpmf && (eventRead cfg b.hw c).getLsbD 63)

def stopCounter (b : Hart x) (c : Nat) : Hart x :=
  if fwFirst ≤ c then
    { b with p := { b.p with fwStarted := clear b.p.fwStarted (1#32 <<< (c - fwFirst)) } }
  else { b with hw := setInhibit b.hw c }

def resetCounter (cfg : Config x) (b : Hart x) (c : Nat) : Hart x :=
  let p := { b.p with event := update b.p.event c eventNone }
  if fwFirst ≤ c then { b with p := p }
  else
    let hw := eventWrite cfg b.hw c 0
    -- `cycle` and `instret` run by default
    ⟨p, if c < 3 then clearInhibit hw c else hw⟩

def stopOne (cfg : Config x) (flags : Word x) (r : Hart x × SbiError × Mem) (c : Nat × Nat) :
    Hart x × SbiError × Mem :=
  let rc := if counterRunning r.1 c.2 then r.2.1 else .alreadyStopped
  let b := stopCounter r.1 c.2
  let mem :=
    if stopTakeSnapshot flags then
      { r.2.2 with
        values := update r.2.2.values c.1 (snapshotOf cfg b c.2).1
        overflow := setIf (snapshotOf cfg b c.2).2 r.2.2.overflow (1#64 <<< c.1) }
    else r.2.2
  (if stopReset flags then resetCounter cfg b c.2 else b, rc, mem)

def counterStop (cfg : Config x) (b : Hart x) (base mask flags : Word x) (mem : Mem) :
    Hart x × SbiError × Mem :=
  if counterSetOk cfg base mask = false then (b, .invalidParam, mem)
  else if stopTakeSnapshot flags = true ∧ b.p.snapshot = snapshotNone then (b, .noShmem, mem)
  else
    let start := if stopTakeSnapshot flags then { mem with overflow := 0 } else mem
    (selected base mask).foldl (stopOne cfg flags) (b, .success, start)

def counterFwRead (b : Hart x) (idx : Word x) : SbiError × BitVec 64 :=
  if idx.toNat < fwFirst ∨ counterCount ≤ idx.toNat ∨ b.p.event idx.toNat = eventNone then
    (.invalidParam, 0)
  else (.success, b.p.fwValue (fwSlot idx.toNat))

def counterValue (b : Hart x) (c : Nat) : BitVec 64 :=
  if fwFirst ≤ c then b.p.fwValue (fwSlot c) else b.hw.counter c

def snapshotSetShmem (cfg : Config x) (b : Hart x) (lo hi flags : Word x) : Hart x × SbiError :=
  if flags ≠ 0 then (b, .invalidParam)
  else if lo = -1 ∧ hi = -1 then ({ b with p := { b.p with snapshot := snapshotNone } }, .success)
  else if isAligned lo (BitVec.ofNat x.bits snapshotSize) = false then (b, .invalidParam)
  else if hi ≠ 0 ∨ cfg.smodeRangeOk lo snapshotSize = false then (b, .invalidAddress)
  else ({ b with p := { b.p with snapshot := lo } }, .success)

def eventInfo (cfg : Config x) (addr count : Word x) (mem : Mem) : SbiError × Mem :=
  if isAligned addr 16 = false then (.invalidParam, mem)
  else if (BitVec.allOnes x.bits).toNat / 16 < count.toNat ∨
      cfg.smodeRangeOk addr (count.toNat * 16) = false then
    (.invalidAddress, mem)
  else
    let ok := fun (event : BitVec 32) (data : BitVec 64) =>
      if eventType event = eventTypeFw then decide (eventCode event < fwMax)
      else decide (event ≤ 0xfffff#32) && has (hwEventLookup cfg event data).1 cfg.hwCounters
    (.success, { mem with
      info := fun i =>
        if i < count.toNat then
          ((mem.info i).1, (mem.info i).2.1, if ok (mem.info i).1 (mem.info i).2.1 then 1 else 0)
        else mem.info i })

def sseEnable (b : Hart x) (enable : Bool) : Hart x :=
  if enable = b.p.sseEnabled then b
  else if enable then
    { p := { b.p with sseEnabled := true, sseSavedIe := b.hw.irqEnabled }
      hw := { b.hw with irqDelegated := false, irqEnabled := true } }
  else
    { p := { b.p with sseEnabled := false }
      hw := { b.hw with irqDelegated := true, irqEnabled := b.p.sseSavedIe } }

inductive Call (x : Xlen) where
  | numCounters
  | counterGetInfo (idx : Word x)
  | configMatching (base mask flags eventIdx : Word x) (data : BitVec 64)
  | counterStart (base mask flags : Word x) (value : BitVec 64)
  | counterStop (base mask flags : Word x)
  | fwRead (idx : Word x)
  | fwReadHi (idx : Word x)
  | eventGetInfo (lo hi count flags : Word x)
  | snapshotSetShmem (lo hi flags : Word x)

structure Reply (x : Xlen) where
  error : SbiError
  value : Word x
  mem : Mem

/-- `sbi_pmu_ecall()`, with what is in the shared memory. -/
def ecall (cfg : Config x) (b : Hart x) (mem : Mem) : Call x → Hart x × Reply x
  | .numCounters => (b, ⟨.success, BitVec.ofNat x.bits counterCount, mem⟩)
  | .counterGetInfo idx => (b, ⟨(counterInfo cfg idx).1, (counterInfo cfg idx).2, mem⟩)
  | .configMatching base mask flags eventIdx data =>
    let r := counterConfig cfg b base mask flags eventIdx data
    (r.1, ⟨r.2.1, r.2.2, mem⟩)
  | .counterStart base mask flags value =>
    let r := counterStart cfg b base mask flags value mem
    (r.1, ⟨r.2, 0, mem⟩)
  | .counterStop base mask flags =>
    let r := counterStop cfg b base mask flags mem
    (r.1, ⟨r.2.1, 0, r.2.2⟩)
  | .fwRead idx => (b, ⟨(counterFwRead b idx).1, (counterFwRead b idx).2.setWidth x.bits, mem⟩)
  | .fwReadHi idx =>
    let high := (counterFwRead b idx).2 >>> 32 >>> (x.bits - 32)
    (b, ⟨(counterFwRead b idx).1, high.setWidth x.bits, mem⟩)
  | .eventGetInfo lo hi count flags =>
    if hi ≠ 0 then (b, ⟨.invalidAddress, 0, mem⟩)
    else if flags ≠ 0 then (b, ⟨.invalidParam, 0, mem⟩)
    else
      let r := eventInfo cfg lo count mem
      (b, ⟨r.1, 0, r.2⟩)
  | .snapshotSetShmem lo hi flags =>
    let r := snapshotSetShmem cfg b lo hi flags
    (r.1, ⟨r.2, 0, mem⟩)

end RiscvMonitor.Pmu
