import RiscvMonitor.Pmp
import RiscvMonitor.RangeCheck

/-!
# The PMP layout of `hart.c`

With Smepmp two entries for the window M-mode opens on S-mode memory, then the
monitor's regions, a NAPOT entry or an OFF and TOR pair each, then the regions of the
domain, smallest first.  Three functions walk the region list separately and have to
agree on where each region's entries are.
-/

namespace RiscvMonitor

open Pmp

/-- The hart's PMP, with `g` bits of its addresses missing, and `CONFIG_RISCV_PMP_COUNT`,
    without which it is not probed for. -/
structure PmpConfig (x : Xlen) where
  smepmp : Bool
  count : Nat
  g : Nat
  two_le_count : 2 ≤ count
  count_le : count ≤ 16
  g_lt : g < x.bits

variable {x : Xlen}

/-- `pmp_grain()`, as the boot has probed it. -/
def PmpConfig.grain (cfg : PmpConfig x) : Word x :=
  pmpGrainSet (BitVec.allOnes x.bits <<< cfg.g)

theorem PmpConfig.grain_eq (cfg : PmpConfig x) : cfg.grain = grainWord cfg.g :=
  pmpGrainSet_eq cfg.g_lt

def smepmpWindowEntries : Nat := 2

def regionIsNapot (r : MemRegion x) : Bool := isNapot r.base r.size

def regionEntries (r : MemRegion x) : Nat := if regionIsNapot r then 1 else 2

/-- Without Smepmp a shared device has no rule of its own. -/
def PmpConfig.skips (cfg : PmpConfig x) (r : MemRegion x) : Bool :=
  r.kind == .sharedRw && !cfg.smepmp

def PmpConfig.first (cfg : PmpConfig x) : Nat := if cfg.smepmp then smepmpWindowEntries else 0

def monitorEntriesLoop (cfg : PmpConfig x) : Nat → List (MemRegion x) → Nat
  | n, [] => n
  | n, r :: rs =>
    if cfg.skips r then monitorEntriesLoop cfg n rs
    else monitorEntriesLoop cfg (n + regionEntries r) rs

/-- `pmp_monitor_entries()`: the first entry past the monitor's own. -/
def pmpMonitorEntries (cfg : PmpConfig x) (regions : List (MemRegion x)) : Nat :=
  monitorEntriesLoop cfg cfg.first regions

def pmpDomainEntries (cfg : PmpConfig x) (regions : List (MemRegion x)) : Nat :=
  if pmpMonitorEntries cfg regions < cfg.count then cfg.count - pmpMonitorEntries cfg regions else 0

/-- What `domains_start()` checks of every domain, and panics without. -/
def Domain.FitsPmp (cfg : PmpConfig x) (regions : List (MemRegion x)) (dom : Domain x) : Prop :=
  dom.regions.list.length ≤ pmpDomainEntries cfg regions

instance (cfg : PmpConfig x) (regions : List (MemRegion x)) (dom : Domain x) :
    Decidable (dom.FitsPmp cfg regions) :=
  inferInstanceAs (Decidable (_ ≤ _))

/-- `region_cfg()`; under MML, W and X without the lock is "read-write for
    M-mode and S/U-mode". -/
def regionCfg (smepmp : Bool) (kind : MemregionKind) : Cfg :=
  if !smepmp then Cfg.zero
  else
    match kind with
    | .mmodeRx => { Cfg.zero with lock := true, read := true, exec := true }
    | .mmodeRw => { Cfg.zero with lock := true, read := true, write := true }
    | .sharedRw => { Cfg.zero with write := true, exec := true }

/-- The loop of `pmp_hart_init()` over the monitor's own; `none` is a panic,
    out of PMP entries. -/
def monitorRegionsSet (cfg : PmpConfig x) :
    Nat → List (MemRegion x) → State x.bits → Option (State x.bits)
  | _, [], u => some u
  | idx, r :: rs, u =>
    if cfg.skips r then monitorRegionsSet cfg idx rs u
    else if idx + 3 > cfg.count then none
    else
      monitorRegionsSet cfg (idx + regionEntries r) rs
        (if r.kind ≠ .sharedRw then
          (pmpRangeSet cfg.grain u idx r.base r.size (regionCfg cfg.smepmp r.kind)).1
        else u)

def smodeRangeOk (monitor : List (MemRegion x)) (dom : Domain x) (addr size : Word x) : Bool :=
  domainRangeOk monitor (some dom) addr size (domainPermSuR ||| domainPermSuW)

/-- `addr == (unsigned long)addr && smode_range_ok((unsigned long)addr, 4)`: a word of S-mode's. -/
def smodeWordOk (monitor : List (MemRegion x)) (dom : Domain x) (addr : BitVec 64) : Bool :=
  decide (addr.toNat < 2 ^ x.bits) && smodeRangeOk monitor dom (addr.setWidth x.bits) 4

/-- The rule of a shared device: S-mode's too only where the running domain's
    regions give it the device. -/
def sharedCfg (cfg : PmpConfig x) (monitor : List (MemRegion x)) (dom : Domain x)
    (r : MemRegion x) : Cfg :=
  if smodeRangeOk monitor dom r.base r.size then regionCfg cfg.smepmp .sharedRw
  else regionCfg cfg.smepmp .mmodeRw

def sharedRegionsLoop (cfg : PmpConfig x) (monitor : List (MemRegion x)) (dom : Domain x) :
    Nat → List (MemRegion x) → State x.bits → State x.bits
  | _, [], u => u
  | idx, r :: rs, u =>
    sharedRegionsLoop cfg monitor dom (idx + regionEntries r) rs
      (if r.kind = .sharedRw then
        (pmpRangeSet cfg.grain u idx r.base r.size (sharedCfg cfg monitor dom r)).1
      else u)

def sharedRegionsSet (cfg : PmpConfig x) (monitor : List (MemRegion x)) (dom : Domain x)
    (u : State x.bits) : State x.bits :=
  if cfg.smepmp then sharedRegionsLoop cfg monitor dom smepmpWindowEntries monitor u else u

/-- The S/U-mode bits of a region's permissions.  W without R is reserved, or
    another thing altogether (MML). -/
def domainCfg (perm : Perm) : Cfg :=
  let su := perm >>> domainPermSuShift
  let read := su &&& 1 != 0
  { Cfg.zero with read := read, write := su &&& 2 != 0 && read, exec := su &&& 4 != 0 }

/-- The loop of `pmp_domain_set()` over the domain's regions: the unit and the
    first entry past them. -/
def domainRegionsSet (cfg : PmpConfig x) :
    Nat → List (DomainRegion x) → State x.bits → State x.bits × Nat
  | idx, [], u => (u, idx)
  | idx, r :: rs, u =>
    if idx = cfg.count then (u, idx)
    else if r.order ≥ x.bits then
      domainRegionsSet cfg (idx + 1) rs (pmpAllSet u idx (domainCfg r.perm))
    else
      let set := pmpRangeSet cfg.grain u idx r.base (bit r.order) (domainCfg r.perm)
      domainRegionsSet cfg (idx + set.2) rs set.1

/-- What a domain with more regions left behind: `n` entries from `idx` on. -/
def entriesClear : Nat → Nat → State x.bits → State x.bits
  | 0, _, u => u
  | n + 1, idx, u => entriesClear n (idx + 1) (pmpEntrySet u idx 0 Cfg.zero)

def pmpDomainSet (cfg : PmpConfig x) (monitor : List (MemRegion x)) (dom : Domain x)
    (u : State x.bits) : State x.bits :=
  let set := domainRegionsSet cfg (pmpMonitorEntries cfg monitor) dom.regions.list
    (sharedRegionsSet cfg monitor dom u)
  entriesClear (cfg.count - set.2) set.2 set.1

/-- `pmp_hart_init()`; a hart that is started again under MML already lives by
    these rules. -/
def pmpHartInit (cfg : PmpConfig x) (monitor : List (MemRegion x)) (dom : Domain x)
    (u : State x.bits) : Option (State x.bits) :=
  if cfg.smepmp ∧ u.mml then some (pmpDomainSet cfg monitor dom u)
  else
    let u := if cfg.smepmp then
        pmpEntrySet (pmpEntrySet u.setRlb 0 0 Cfg.zero) 1 0 Cfg.zero
      else u
    (monitorRegionsSet cfg cfg.first monitor u).map fun u =>
      pmpDomainSet cfg monitor dom (if cfg.smepmp then u.setMmlMmwp else u)

/-- `smode_access_begin()` and `smode_access_end()`, as far as the PMP goes. -/
def windowOpenClose (cfg : PmpConfig x) (monitor : List (MemRegion x)) (addr size : Word x)
    (u : State x.bits) : Option (State x.bits) :=
  if size ≠ 0 ∧ monitorRangeClear monitor addr size = false then none
  else if cfg.smepmp then
    let u := if size ≠ 0 then
        pmpEntrySet (pmpEntrySet u 0 (addr >>> 2) Cfg.zero) 1 (torTop cfg.grain addr size)
          { Cfg.zero with mode := .tor, write := true, exec := true }
      else u
    some (pmpEntryCfg u 1 Cfg.zero)
  else some u

end RiscvMonitor
