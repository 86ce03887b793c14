import Mathlib.Data.List.DropRight
import RiscvMonitor.FirstMatch
import RiscvMonitor.Memregion

/-!
# Domains and their regions

The static half of `domain.c`: what `instance_parse()` makes of a domain's node
in the device tree, and `domain_range_ok()`, the check every address S-mode
hands over goes through.  A region is `2^order` bytes, and `order` the width of
the registers means everything.
-/

namespace RiscvMonitor

abbrev Hartmask := Finset Nat

/-- `DOMAIN_PERM_*`, as in the "regions" property. -/
abbrev Perm := BitVec 32

def domainPermSuShift : Nat := 3
def domainPermSuR : Perm := 1#32 <<< 3
def domainPermSuW : Perm := 1#32 <<< 4
def domainPermSuX : Perm := 1#32 <<< 5
def domainPermSuRwx : Perm := domainPermSuR ||| domainPermSuW ||| domainPermSuX

structure DomainRegion (x : Xlen) where
  base : Word x
  order : Nat
  perm : Perm
  mmio : Bool
  three_le_order : 3 ≤ order
  order_le_bits : order ≤ x.bits
  aligned : order < x.bits → base.toNat % 2 ^ order = 0

def DomainRegion.megabyte (perm : Perm) (base : Word .rv64) (hbase : base.toNat % 2 ^ 20 = 0) :
    DomainRegion .rv64 :=
  ⟨base, 20, perm, false, by decide, by decide, fun _ => hbase⟩

structure Regions (x : Xlen) where
  list : List (DomainRegion x)
  sorted : list.Pairwise fun r q => r.order ≤ q.order

inductive NextMode where
  | user
  | supervisor
deriving DecidableEq, Repr

structure Domain (x : Xlen) where
  phandle : Nat
  possible : Hartmask
  regions : Regions x
  bootHart : Option Nat
  nextAddr : Word x
  nextArg1 : Option (Word x)
  nextMode : NextMode
  resetAllowed : Bool
  suspendAllowed : Bool

variable {x : Xlen}

/-! ### `add_region()` -/

/-- By size: past the regions at the end that are larger. -/
def insertRegion (r : DomainRegion x) (l : List (DomainRegion x)) : List (DomainRegion x) :=
  l.rdropWhile (fun q => decide (q.order > r.order)) ++
    r :: l.rtakeWhile (fun q => decide (q.order > r.order))

theorem sorted_insertRegion (r : DomainRegion x) {l : List (DomainRegion x)}
    (hl : l.Pairwise fun r q => r.order ≤ q.order) :
    (insertRegion r l).Pairwise fun r q => r.order ≤ q.order := by
  have hsplit : l.rdropWhile (fun q => decide (q.order > r.order)) ++
      l.rtakeWhile (fun q => decide (q.order > r.order)) = l :=
    List.rdropWhile_append_rtakeWhile
  rw [← hsplit] at hl
  obtain ⟨hfront, hback, hcross⟩ := List.pairwise_append.mp hl
  -- the last region that stays in front is no larger, so none of them is
  have hsmall : ∀ q ∈ l.rdropWhile (fun q => decide (q.order > r.order)), q.order ≤ r.order := by
    intro q hq
    have hne := List.ne_nil_of_mem hq
    have hlast := List.rdropWhile_last_not _ l hne
    rw [← List.dropLast_append_getLast hne] at hq hfront
    simp only [decide_eq_true_eq, Nat.not_lt] at hlast
    rcases List.mem_append.mp hq with hq | hq
    · have hle := (List.pairwise_append.mp hfront).2.2 q hq _ (List.mem_singleton_self _)
      exact Nat.le_trans hle hlast
    · rw [List.mem_singleton.mp hq]
      exact hlast
  have hlarge : ∀ q ∈ l.rtakeWhile (fun q => decide (q.order > r.order)), r.order ≤ q.order := by
    intro q hq
    have hgt := List.mem_rtakeWhile_imp hq
    simp only [decide_eq_true_eq] at hgt
    exact Nat.le_of_lt hgt
  refine List.pairwise_append.mpr ⟨hfront, List.pairwise_cons.mpr ⟨hlarge, hback⟩, ?_⟩
  intro q hq p hp
  rcases List.mem_cons.mp hp with rfl | hp
  · exact hsmall q hq
  · exact hcross q hq p hp

def Regions.empty : Regions x := ⟨[], List.Pairwise.nil⟩

/-- `add_region()`, with room for `max` regions. -/
def addRegion (max : Nat) (regions : Regions x) (r : DomainRegion x) : Option (Regions x) :=
  if regions.list.length = max then none
  else some ⟨insertRegion r regions.list, sorted_insertRegion r regions.sorted⟩

/-! ### `instance_parse()` -/

/-- A "riscv,domain,memregion" node: `base` if it has one, and `order`, zero without. -/
structure MemregionNode where
  base : Option (BitVec 64)
  order : Nat
  mmio : Bool

/-- A "riscv,domain,instance" node, its phandles followed: `none` is no region, or a cpu the
    monitor does not have. -/
structure InstanceNode where
  phandle : Nat
  possibleHarts : List (Option Nat)
  inheritAll : Bool
  regions : List (Option MemregionNode × Perm)
  bootHart : Option (Option Nat)
  nextAddr : Option (BitVec 64)
  nextArg1 : Option (BitVec 64)
  nextMode : Nat
  systemResetAllowed : Bool
  systemSuspendAllowed : Bool

def wholeRegion (perm : Perm) (mmio : Bool) : DomainRegion x where
  base := 0
  order := x.bits
  perm := perm
  mmio := mmio
  three_le_order := Nat.le_of_lt x.three_lt_bits
  order_le_bits := Nat.le_refl _
  aligned := fun h => absurd h (Nat.lt_irrefl _)

private theorem aligned_setWidth {base : BitVec 64} {order : Nat} (hlt : order < x.bits)
    (hfit : base >>> 1 >>> (x.bits - 1) = 0)
    (halign : isAligned base (1#64 <<< order) = true) :
    (base.setWidth x.bits).toNat % 2 ^ order = 0 := by
  have h64 : order < 64 := by rcases x.bits_cases with h | h <;> omega
  have hpow : (1#64 <<< order).toNat = 2 ^ order := by
    rw [BitVec.toNat_shiftLeft, BitVec.toNat_ofNat, Nat.shiftLeft_eq, Nat.one_mod_two_pow,
      Nat.one_mul, Nat.mod_eq_of_lt (Nat.pow_lt_pow_right (by omega) h64)]
    exact Nat.succ_pos _
  have hbase : base.toNat < 2 ^ x.bits := by
    have hzero := congrArg BitVec.toNat hfit
    rw [← BitVec.shiftRight_add, BitVec.toNat_ushiftRight, Nat.shiftRight_eq_div_pow] at hzero
    have hbits : 1 + (x.bits - 1) = x.bits := by have := x.three_lt_bits; omega
    rw [hbits] at hzero
    exact Nat.lt_of_div_eq_zero (Nat.two_pow_pos _) (by simpa using hzero)
  rw [BitVec.toNat_setWidth, Nat.mod_eq_of_lt hbase]
  exact (isAligned_iff hpow).mp halign

/-- The checks of one "regions" pair.  The base of a region that is everything
    is not looked at. -/
def parseRegion (node : MemregionNode) (perm : Perm) : Option (DomainRegion x) :=
  match node.base with
  | none => none
  | some base =>
    if hlow : node.order < 3 then none
    else if hhigh : node.order > x.bits then none
    else if hlt : node.order < x.bits then
      if h : base >>> 1 >>> (x.bits - 1) = 0 ∧ isAligned base (1#64 <<< node.order) = true then
        some ⟨base.setWidth x.bits, node.order, perm, node.mmio, Nat.not_lt.mp hlow,
          Nat.not_lt.mp hhigh, fun _ => aligned_setWidth hlt h.1 h.2⟩
      else none
    else
      some ⟨base.setWidth x.bits, node.order, perm, node.mmio, Nat.not_lt.mp hlow,
        Nat.not_lt.mp hhigh, fun h => absurd h hlt⟩

def parseRegions (max : Nat) :
    Regions x → List (Option MemregionNode × Perm) → Option (Regions x)
  | regions, [] => some regions
  | _, (none, _) :: _ => none
  | regions, (some node, perm) :: pairs => do
      let r ← parseRegion node perm
      let regions ← addRegion max regions r
      parseRegions max regions pairs

/-- `instance_parse()`; `rootBootHart` is what a node without one inherits. -/
def instanceParse (rootBootHart : Option Nat) (node : InstanceNode) : Option (Domain x) := do
  let max := 1 + node.regions.length
  let inherited :=
    if node.inheritAll then addRegion max Regions.empty (wholeRegion domainPermSuRwx false)
    else some Regions.empty
  let regions ← parseRegions max (inherited.getD Regions.empty) node.regions
  return {
    phandle := node.phandle
    possible := (node.possibleHarts.filterMap id).toFinset
    regions := regions
    bootHart := node.bootHart.getD rootBootHart
    nextAddr := (node.nextAddr.getD 0).setWidth x.bits
    nextArg1 := node.nextArg1.map (·.setWidth x.bits)
    nextMode := if node.nextMode ≠ 0 then .supervisor else .user
    resetAllowed := node.systemResetAllowed
    suspendAllowed := node.systemSuspendAllowed }

/-- `root_domain_init()`: everything; what is the monitor's is taken out before
    it gets here. -/
def rootDomain (harts : Hartmask) (bootHart : Nat) (nextAddr : Word x) (nextMode : NextMode) :
    Domain x where
  phandle := 0
  possible := harts
  regions := ⟨[wholeRegion domainPermSuRwx false], List.pairwise_singleton _ _⟩
  bootHart := some bootHart
  nextAddr := nextAddr
  nextArg1 := none
  nextMode := nextMode
  resetAllowed := true
  suspendAllowed := true

def Domain.Accepted (dom : Domain x) : Prop :=
  ∃ rootBootHart node, instanceParse rootBootHart node = some dom

end RiscvMonitor
