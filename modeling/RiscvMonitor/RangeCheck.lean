import RiscvMonitor.DomainRegions

/-!
# `domain_range_ok()` over the integers

The check compares inclusive ends of the range and the domain's regions, and
`monitor_range_clear()` exclusive, wrapping ends.  Below the top of the address
space the two say the same.
-/

namespace RiscvMonitor

open FirstMatch

variable {x : Xlen}

/-- `region_last()`: inclusive, so that the top of the address space fits. -/
def regionLast (r : DomainRegion x) : Word x :=
  if r.order ≥ x.bits then ~~~0 else r.base + bit r.order - 1

/-- The loop of `domain_range_ok()`: the first region that has anything of the range has to have
    all of it. -/
def regionsRangeOk (addr last : Word x) (perm : Perm) : List (DomainRegion x) → Bool
  | [] => false
  | r :: rs =>
    if addr > regionLast r ∨ last < r.base then regionsRangeOk addr last perm rs
    else decide (addr ≥ r.base) && decide (last ≤ regionLast r) && (r.perm &&& perm) == perm

/-- `domain_range_ok()`; `none` is early in the boot, with no domains yet. -/
def domainRangeOk (monitor : List (MemRegion x)) (dom : Option (Domain x)) (addr size : Word x)
    (perm : Perm) : Bool :=
  let last := addr + size - 1
  if size = 0 then true
  else if last < addr ∨ monitorRangeClear monitor addr size = false then false
  else
    match dom with
    | none => true
    | some dom => regionsRangeOk addr last perm dom.regions.list

/-! ### A domain as a rule list -/

/-- A region as a rule: it is for `[base, last]`, and asked for the bits of `perm`. -/
def DomainRegion.rule (r : DomainRegion x) : Rule Nat Perm where
  covers := fun a => r.base.toNat ≤ a ∧ a ≤ (regionLast r).toNat
  grants := fun perm => r.perm &&& perm = perm

def Domain.rules (dom : Domain x) : List (Rule Nat Perm) := dom.regions.list.map (·.rule)

theorem toNat_regionLast_of_lt {r : DomainRegion x} (h : r.order < x.bits) :
    (regionLast r).toNat = r.base.toNat + 2 ^ r.order - 1 ∧
      r.base.toNat + 2 ^ r.order ≤ 2 ^ x.bits := by
  have hpos : 0 < 2 ^ r.order := Nat.two_pow_pos _
  have hbit : (bit r.order : Word x).toNat = 2 ^ r.order := toNat_bit h
  have hroom : r.base.toNat + 2 ^ r.order ≤ 2 ^ x.bits :=
    PowerTwo.add_two_pow_le r.base.isLt (Nat.le_of_lt h) (r.aligned h)
  refine ⟨?_, hroom⟩
  rw [regionLast, if_neg (Nat.not_le.mpr h)]
  rw [toNat_add_sub_one (by rw [hbit]; exact hpos) (by rw [hbit]; exact hroom), hbit]

theorem toNat_regionLast_of_whole {r : DomainRegion x} (h : r.order = x.bits) :
    (regionLast r).toNat = 2 ^ x.bits - 1 := by
  rw [regionLast, if_pos (by omega), BitVec.toNat_not]
  simp

theorem base_le_regionLast (r : DomainRegion x) : r.base ≤ regionLast r := by
  rw [BitVec.le_def]
  have := r.base.isLt
  rcases Nat.lt_or_eq_of_le r.order_le_bits with h | h
  · have hpos : 0 < 2 ^ r.order := Nat.two_pow_pos _
    have := (toNat_regionLast_of_lt h).1
    omega
  · rw [toNat_regionLast_of_whole h]
    omega

variable {addr : Word x} {perm : Perm}

theorem regionsRangeOk_iff {last : Word x} (hle : addr ≤ last) (l : List (DomainRegion x)) :
    regionsRangeOk addr last perm l = true ↔
      Granted (l.map (·.rule)) (fun a => addr.toNat ≤ a ∧ a ≤ last.toNat) perm := by
  rw [BitVec.le_def] at hle
  induction l with
  | nil => simp [regionsRangeOk]
  | cons r rs ih =>
    have hr := base_le_regionLast r
    rw [BitVec.le_def] at hr
    have htouch : r.rule.Touches (fun a => addr.toNat ≤ a ∧ a ≤ last.toNat) ↔
        ¬ (addr > regionLast r ∨ last < r.base) := by
      simp only [Rule.Touches, DomainRegion.rule, gt_iff_lt, BitVec.lt_def]
      constructor
      · rintro ⟨a, ⟨h₁, h₂⟩, h₃, h₄⟩
        omega
      · intro h
        exact ⟨max addr.toNat r.base.toNat, by omega, by omega⟩
    have hcontains : r.rule.Contains (fun a => addr.toNat ≤ a ∧ a ≤ last.toNat) ↔
        addr ≥ r.base ∧ last ≤ regionLast r := by
      simp only [Rule.Contains, DomainRegion.rule, ge_iff_le, BitVec.le_def]
      constructor
      · intro h
        have hlow := h addr.toNat ⟨Nat.le_refl _, hle⟩
        have hhigh := h last.toNat ⟨hle, Nat.le_refl _⟩
        exact ⟨hlow.1, hhigh.2⟩
      · rintro ⟨h₁, h₂⟩ a ⟨h₃, h₄⟩
        omega
    simp only [List.map_cons, Granted, htouch, hcontains, ← ih, regionsRangeOk]
    by_cases hskip : addr > regionLast r ∨ last < r.base
    · simp [hskip]
    · simp [hskip, DomainRegion.rule, and_assoc]

variable {size : Word x}

theorem last_lt_iff (hsize : 0 < size.toNat) :
    addr + size - 1 < addr ↔ 2 ^ x.bits < addr.toNat + size.toNat := by
  have := addr.isLt
  have := size.isLt
  rcases Nat.lt_or_ge (2 ^ x.bits) (addr.toNat + size.toNat) with hover | hfit
  · have hsum := toNat_add_of_ge (Nat.le_of_lt hover)
    have hne : addr + size ≠ 0 := fun h0 => by rw [h0] at hsum; simp at hsum; omega
    rw [BitVec.lt_def, toNat_sub_one hne, hsum]
    omega
  · rw [BitVec.lt_def, toNat_add_sub_one hsize hfit]
    omega

variable {monitor : List (MemRegion x)}

theorem domainRangeOk_iff {dom : Domain x} (hsize : size ≠ 0) :
    domainRangeOk monitor (some dom) addr size perm = true ↔
      addr.toNat + size.toNat ≤ 2 ^ x.bits ∧ monitorRangeClear monitor addr size = true ∧
        Granted dom.rules (InRange addr size) perm := by
  have hpos := toNat_pos hsize
  simp only [domainRangeOk, hsize, if_false]
  by_cases hfit : addr.toNat + size.toNat ≤ 2 ^ x.bits
  · have hlast : ¬ addr + size - 1 < addr := by rw [last_lt_iff hpos]; omega
    have hrange : (fun a => addr.toNat ≤ a ∧ a ≤ (addr + size - 1).toNat) =
        InRange addr size := by
      funext a
      rw [toNat_add_sub_one hpos hfit, InRange]
      exact propext (by omega)
    cases hclear : monitorRangeClear monitor addr size with
    | false => simp
    | true =>
      simp only [hlast, hfit, true_and, false_or, Bool.true_eq_false, if_false]
      rw [regionsRangeOk_iff (BitVec.not_lt.mp hlast), hrange]
      rfl
  · have hlast : addr + size - 1 < addr := by rw [last_lt_iff hpos]; omega
    rw [if_pos (.inl hlast)]
    simp [hfit]

theorem granted_rootDomain {harts : Hartmask} {bootHart : Nat} {nextAddr : Word x}
    {nextMode : NextMode} (hsize : size ≠ 0) (hfit : addr.toNat + size.toNat ≤ 2 ^ x.bits)
    (hperm : domainPermSuRwx &&& perm = perm) :
    Granted (rootDomain harts bootHart nextAddr nextMode).rules (InRange addr size) perm := by
  have hcovers : (wholeRegion domainPermSuRwx false : DomainRegion x).rule.Contains
      (InRange addr size) := by
    rintro a ⟨-, hhigh⟩
    refine ⟨by simp [wholeRegion], ?_⟩
    rw [toNat_regionLast_of_whole rfl]
    omega
  have hfirst : InRange addr size addr.toNat := ⟨Nat.le_refl _, by have := toNat_pos hsize; omega⟩
  exact .inl ⟨⟨addr.toNat, hfirst, hcovers _ hfirst⟩, hcovers, hperm⟩

/-! ### What the check is for, and where it is not that -/

/-- No byte of the monitor's own, and one region of the domain that has it all. -/
def RangeAllowed (monitor : List (MemRegion x)) (dom : Domain x) (addr size : Word x)
    (perm : Perm) : Prop :=
  size = 0 ∨
    (addr.toNat + size.toNat ≤ 2 ^ x.bits ∧
      (∀ r ∈ monitor, r.kind ≠ .sharedRw → ∀ a, InRange addr size a → ¬ r.Has a) ∧
      Granted dom.rules (InRange addr size) perm)

/-- An empty region strictly inside the range. -/
def MemRegion.EmptyInside (r : MemRegion x) (addr size : Word x) : Prop :=
  r.size.toNat = 0 ∧ addr.toNat < r.base.toNat ∧ r.base.toNat < addr.toNat + size.toNat

/-- Some region of the monitor's own is in the given position. -/
def MonitorHas (monitor : List (MemRegion x)) (P : MemRegion x → Prop) : Prop :=
  ∃ r ∈ monitor, r.kind ≠ .sharedRw ∧ P r

/-- The wrapping ends of `monitor_range_clear()` do no harm: the range is settled without it, or
    its verdict is right all the same. -/
def RangeCheckExact (monitor : List (MemRegion x)) (dom : Domain x) (addr size : Word x)
    (perm : Perm) : Prop :=
  size = 0 ∨ 2 ^ x.bits < addr.toNat + size.toNat ∨
    ¬ Granted dom.rules (InRange addr size) perm ∨
    (addr.toNat + size.toNat = 2 ^ x.bits ∧ MonitorHas monitor (·.Meets addr size)) ∨
    (addr.toNat + size.toNat < 2 ^ x.bits ∧
      (MonitorHas monitor (fun r => ¬ r.EndsAtTop ∧ r.Meets addr size) ∨
        (MonitorHas monitor (·.EmptyInside addr size) ↔
          MonitorHas monitor (fun r => r.EndsAtTop ∧ r.Meets addr size))))

theorem not_monitorHas_meets_iff :
    (∀ r ∈ monitor, r.kind ≠ .sharedRw → ∀ a, InRange addr size a → ¬ r.Has a) ↔
      ¬ MonitorHas monitor (·.Meets addr size) := by
  simp only [MonitorHas, MemRegion.meets_iff_exists]
  push Not
  rfl

/-- A range up to the top has the end zero, below every address. -/
theorem monitorRangeClear_of_top (hsize : size ≠ 0) (htop : addr.toNat + size.toNat = 2 ^ x.bits) :
    monitorRangeClear monitor addr size = false := by
  cases hclear : monitorRangeClear monitor addr size with
  | false => rfl
  | true =>
    have := lt_of_monitorRangeClear hsize hclear
    omega

/-- Below the top, a region that ends there is not seen, and one without bytes is. -/
theorem monitorRangeClear_eq_false_iff
    (hfit : ∀ r ∈ monitor, r.base.toNat + r.size.toNat ≤ 2 ^ x.bits) (hsize : size ≠ 0)
    (hlt : addr.toNat + size.toNat < 2 ^ x.bits) :
    monitorRangeClear monitor addr size = false ↔
      MonitorHas monitor (fun r => ¬ r.EndsAtTop ∧ r.Meets addr size) ∨
        MonitorHas monitor (·.EmptyInside addr size) := by
  have hpos := toNat_pos hsize
  have hend := toNat_add_of_lt hlt
  have hseen : ∀ r ∈ monitor, (r.base < addr + size ∧ addr < r.base + r.size) ↔
      (¬ r.EndsAtTop ∧ r.Meets addr size) ∨ r.EmptyInside addr size := by
    intro r hr
    simp only [BitVec.lt_def, hend, MemRegion.EndsAtTop, MemRegion.Meets, MemRegion.EmptyInside]
    have hbase := r.base.isLt
    rcases Nat.lt_or_eq_of_le (hfit r hr) with hbelow | htop
    · rw [toNat_add_of_lt hbelow]
      omega
    · rw [toNat_add_of_ge (by omega)]
      omega
  have hle : addr ≤ addr + size := by rw [BitVec.le_def, hend]; omega
  rw [← Bool.not_eq_true, monitorRangeClear_iff]
  simp only [hle, true_and, MonitorHas]
  push Not
  constructor
  · rintro ⟨r, hr, hkind, hover⟩
    rcases (hseen r hr).mp hover with h | h
    · exact .inl ⟨r, hr, hkind, h⟩
    · exact .inr ⟨r, hr, hkind, h⟩
  · rintro (⟨r, hr, hkind, h⟩ | ⟨r, hr, hkind, h⟩)
    · exact ⟨r, hr, hkind, (hseen r hr).mpr (.inl h)⟩
    · exact ⟨r, hr, hkind, (hseen r hr).mpr (.inr h)⟩

theorem monitorHas_meets_iff :
    MonitorHas monitor (·.Meets addr size) ↔
      MonitorHas monitor (fun r => ¬ r.EndsAtTop ∧ r.Meets addr size) ∨
        MonitorHas monitor (fun r => r.EndsAtTop ∧ r.Meets addr size) := by
  constructor
  · rintro ⟨r, hr, hkind, hmeets⟩
    by_cases htop : r.EndsAtTop
    · exact .inr ⟨r, hr, hkind, htop, hmeets⟩
    · exact .inl ⟨r, hr, hkind, htop, hmeets⟩
  · rintro (⟨r, hr, hkind, -, hmeets⟩ | ⟨r, hr, hkind, -, hmeets⟩) <;>
      exact ⟨r, hr, hkind, hmeets⟩

theorem domainRangeOk_iff_rangeAllowed {monitor : List (MemRegion x)} {dom : Domain x}
    {addr size : Word x} {perm : Perm}
    (hfit : ∀ r ∈ monitor, r.base.toNat + r.size.toNat ≤ 2 ^ x.bits) :
    (domainRangeOk monitor (some dom) addr size perm = true ↔
        RangeAllowed monitor dom addr size perm) ↔
      RangeCheckExact monitor dom addr size perm := by
  by_cases hsize : size = 0
  · simp [RangeCheckExact, RangeAllowed, domainRangeOk, hsize]
  rw [domainRangeOk_iff hsize, RangeAllowed, not_monitorHas_meets_iff]
  simp only [RangeCheckExact, hsize, false_or]
  by_cases hgranted : Granted dom.rules (InRange addr size) perm
  swap
  · simp [hgranted]
  simp only [hgranted, not_true_eq_false, false_or, and_true]
  rcases Nat.lt_trichotomy (addr.toNat + size.toNat) (2 ^ x.bits) with hlt | htop | hover
  · have hclear := monitorRangeClear_eq_false_iff hfit hsize hlt
    have hcode : monitorRangeClear monitor addr size = true ↔
        ¬ (MonitorHas monitor (fun r => ¬ r.EndsAtTop ∧ r.Meets addr size) ∨
          MonitorHas monitor (·.EmptyInside addr size)) := by
      rw [← hclear, Bool.not_eq_false]
    rw [hcode, monitorHas_meets_iff]
    simp only [hlt, Nat.le_of_lt hlt, Nat.lt_asymm hlt, Nat.ne_of_lt hlt, true_and, false_and,
      false_or]
    tauto
  · rw [monitorRangeClear_of_top hsize htop]
    simp [htop]
  · have hover' : ¬ addr.toNat + size.toNat ≤ 2 ^ x.bits := Nat.not_le.mpr hover
    simp [hover, hover']

/-- The image alone, as `hart_runtime_init()` adds it on a machine without devices. -/
def imageOnly : List (MemRegion .rv64) := [⟨0x80000000, 0x40000, .mmodeRw⟩]

theorem domainRangeOk_iff_rangeAllowed_imageOnly :
    domainRangeOk imageOnly (some (rootDomain {0} 0 0x80200000 .supervisor)) 0x80200000 0x1000
        domainPermSuR = true ↔
      RangeAllowed imageOnly (rootDomain {0} 0 0x80200000 .supervisor) 0x80200000 0x1000
        domainPermSuR := by
  refine (domainRangeOk_iff_rangeAllowed (by decide)).mpr ?_
  refine .inr (.inr (.inr (.inr ⟨by decide, .inr ?_⟩)))
  simp [MonitorHas, imageOnly, MemRegion.EmptyInside, MemRegion.EndsAtTop, Xlen.bits]

/-- The last page of the address space is nobody's but the root domain's, and refused. -/
theorem domainRangeOk_inexact_at_top :
    ¬ ∀ (monitor : List (MemRegion .rv64)) (dom : Domain .rv64) (addr size : Word .rv64)
        (perm : Perm), (∀ r ∈ monitor, r.base.toNat + r.size.toNat ≤ 2 ^ Xlen.rv64.bits) →
        (domainRangeOk monitor (some dom) addr size perm = true ↔
          RangeAllowed monitor dom addr size perm) := by
  intro hexact
  have hiff := hexact imageOnly (rootDomain {0} 0 0x80200000 .supervisor) 0xfffffffffffff000
    0x1000 domainPermSuR (by decide)
  have hcode : domainRangeOk imageOnly (some (rootDomain {0} 0 0x80200000 .supervisor))
      0xfffffffffffff000 0x1000 domainPermSuR = false := by decide
  have hallowed : RangeAllowed imageOnly (rootDomain {0} 0 0x80200000 .supervisor)
      0xfffffffffffff000 0x1000 domainPermSuR := by
    refine .inr ⟨by decide, ?_, granted_rootDomain (by decide) (by decide) (by decide)⟩
    rw [not_monitorHas_meets_iff]
    simp [MonitorHas, imageOnly, MemRegion.Meets, Xlen.bits]
  rw [hiff.mpr hallowed] at hcode
  exact Bool.noConfusion hcode

end RiscvMonitor
