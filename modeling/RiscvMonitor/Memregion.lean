import RiscvMonitor.Word

/-!
# The monitor's memory regions

`memregions[]` of `hart.c` is the address map as far as protection goes: the
monitor's image and the devices its drivers register, each M-mode's alone or shared
with S-mode.  The list only grows, at boot, and neighbours of a kind share an entry.
-/

namespace RiscvMonitor

inductive MemregionKind where
  | mmodeRx
  | mmodeRw
  | sharedRw
deriving DecidableEq, Repr

structure MemRegion (x : Xlen) where
  base : Word x
  size : Word x
  kind : MemregionKind
deriving DecidableEq

def maxMemregions : Nat := 12

/-- The monitor's image: `monitor_base()` and `CONFIG_MONITOR_SIZE`. -/
structure Image (x : Xlen) where
  base : Word x
  size : Word x

variable {x : Xlen}

def MemRegion.merge (r : MemRegion x) (base size : Word x) : MemRegion x :=
  let r := if base + size > r.base + r.size then { r with size := base + size - r.base } else r
  if base < r.base then { r with size := r.size + (r.base - base), base := base } else r

/-- The first region of the kind that the range overlaps or borders on. -/
def mergeInto (base size : Word x) (kind : MemregionKind) :
    List (MemRegion x) → Option (List (MemRegion x))
  | [] => none
  | r :: rs =>
    if r.kind ≠ kind ∨ base > r.base + r.size ∨ r.base > base + size then
      (mergeInto base size kind rs).map (r :: ·)
    else some (r.merge base size :: rs)

/-- A shared device where the monitor is: the tree is wrong, and the boot ends. -/
def reachesImage (image : Image x) (base size : Word x) : Bool :=
  decide (base + size < base) ||
    (decide (base < image.base + image.size) && decide (base + size > image.base))

/-- `memregion_add()`; `none` is a panic. -/
def memregionAdd (image : Image x) (regions : List (MemRegion x)) (base size : Word x)
    (kind : MemregionKind) : Option (List (MemRegion x)) :=
  if kind = .sharedRw ∧ reachesImage image base size = true then none
  else
    match mergeInto base size kind regions with
    | some merged => some merged
    | none =>
      if regions.length = maxMemregions then none
      else some (regions ++ [⟨base, size, kind⟩])

def memregionAdds (image : Image x) :
    List (MemRegion x) → List (MemRegion x) → Option (List (MemRegion x))
  | regions, [] => some regions
  | regions, r :: rs =>
    (memregionAdd image regions r.base r.size r.kind).bind (memregionAdds image · rs)

def monitorRangeClear (regions : List (MemRegion x)) (addr size : Word x) : Bool :=
  if addr + size < addr then false
  else regions.all fun r =>
    !(r.kind != .sharedRw && decide (addr + size > r.base) && decide (addr < r.base + r.size))

/-- The bytes of `[addr, addr + size)`, as integers. -/
def InRange (addr size : Word x) (a : Nat) : Prop :=
  addr.toNat ≤ a ∧ a < addr.toNat + size.toNat

instance (addr size : Word x) (a : Nat) : Decidable (InRange addr size a) :=
  inferInstanceAs (Decidable (_ ∧ _))

def MemRegion.Has (r : MemRegion x) (a : Nat) : Prop := InRange r.base r.size a

instance (r : MemRegion x) (a : Nat) : Decidable (r.Has a) :=
  inferInstanceAs (Decidable (InRange _ _ _))

def MemRegion.Meets (r : MemRegion x) (addr size : Word x) : Prop :=
  r.base.toNat < addr.toNat + size.toNat ∧ addr.toNat < r.base.toNat + r.size.toNat ∧
    0 < r.size.toNat ∧ 0 < size.toNat

instance (r : MemRegion x) (addr size : Word x) : Decidable (r.Meets addr size) :=
  inferInstanceAs (Decidable (_ ∧ _ ∧ _ ∧ _))

def MemRegion.EndsAtTop (r : MemRegion x) : Prop :=
  r.base.toNat + r.size.toNat = 2 ^ x.bits

instance (r : MemRegion x) : Decidable r.EndsAtTop := inferInstanceAs (Decidable (_ = _))

variable {r : MemRegion x} {addr size : Word x}

theorem MemRegion.meets_iff_exists :
    r.Meets addr size ↔ ∃ a, InRange addr size a ∧ r.Has a := by
  constructor
  · rintro ⟨h₁, h₂, h₃, h₄⟩
    refine ⟨max addr.toNat r.base.toNat, ?_, ?_⟩ <;> constructor <;> omega
  · rintro ⟨a, ⟨h₁, h₂⟩, h₃, h₄⟩
    exact ⟨by omega, by omega, by omega, by omega⟩

variable {regions : List (MemRegion x)}

theorem monitorRangeClear_iff :
    monitorRangeClear regions addr size = true ↔
      addr ≤ addr + size ∧ ∀ r ∈ regions, r.kind ≠ .sharedRw →
        ¬ (r.base < addr + size ∧ addr < r.base + r.size) := by
  by_cases hwrap : addr + size < addr
  · have hle : ¬ addr ≤ addr + size := BitVec.not_le.mpr hwrap
    simp [monitorRangeClear, hwrap, hle]
  · have hle : addr ≤ addr + size := BitVec.not_lt.mp hwrap
    simp only [monitorRangeClear, hwrap, if_false, List.all_eq_true, Bool.not_eq_true',
      Bool.and_eq_false_iff, bne_eq_false_iff_eq, decide_eq_false_iff_not, hle, true_and]
    constructor
    · intro h r hr hkind ⟨hbase, haddr⟩
      rcases h r hr with (hk | hb) | ha
      · exact hkind hk
      · exact hb hbase
      · exact ha haddr
    · intro h r hr
      by_cases hkind : r.kind = .sharedRw
      · exact .inl (.inl hkind)
      · by_cases hbase : r.base < addr + size
        · exact .inr fun haddr => h r hr hkind ⟨hbase, haddr⟩
        · exact .inl (.inr hbase)

theorem monitorRangeClear_mono {addr' size' : Word x}
    (hclear : monitorRangeClear regions addr size = true) (hlow : addr.toNat ≤ addr'.toNat)
    (hhigh : addr'.toNat + size'.toNat ≤ addr.toNat + size.toNat)
    (hfit : addr.toNat + size.toNat < 2 ^ x.bits) :
    monitorRangeClear regions addr' size' = true := by
  obtain ⟨-, hregions⟩ := monitorRangeClear_iff.mp hclear
  have hsum := toNat_add_of_lt hfit
  have hsum' := toNat_add_of_lt (Nat.lt_of_le_of_lt hhigh hfit)
  refine monitorRangeClear_iff.mpr ⟨by rw [BitVec.le_def, hsum']; omega, ?_⟩
  intro r hr hkind ⟨hbase, haddr⟩
  refine hregions r hr hkind ⟨?_, ?_⟩
  · rw [BitVec.lt_def, hsum'] at hbase
    rw [BitVec.lt_def, hsum]
    omega
  · rw [BitVec.lt_def] at haddr ⊢
    omega

theorem lt_of_monitorRangeClear (hsize : size ≠ 0)
    (hclear : monitorRangeClear regions addr size = true) :
    addr.toNat + size.toNat < 2 ^ x.bits := by
  obtain ⟨hle, -⟩ := monitorRangeClear_iff.mp hclear
  have hpos := toNat_pos hsize
  rcases Nat.lt_or_ge (addr.toNat + size.toNat) (2 ^ x.bits) with hlt | hge
  · exact hlt
  · have := size.isLt
    rw [BitVec.le_def, toNat_add_of_ge hge] at hle
    omega

/-! ### What `memregion_add()` keeps

Merging is exact below the top of the address space.  Where one of the two ranges
ends at the top its end compares as zero, and the other one is taken for its
neighbour exactly when it starts at zero and reaches it: what is left then is the
lower of the two. -/

/-- The range and the region wrap around into each other. -/
def MemRegion.WrapsInto (r : MemRegion x) (base size : Word x) : Prop :=
  (base.toNat + size.toNat = 2 ^ x.bits ∧ r.base.toNat = 0 ∧
      base.toNat ≤ r.base.toNat + r.size.toNat) ∨
    (r.EndsAtTop ∧ base.toNat = 0 ∧ r.base.toNat ≤ base.toNat + size.toNat)

def MemRegion.FitsSpace (r : MemRegion x) : Prop := r.base.toNat + r.size.toNat ≤ 2 ^ x.bits

instance (r : MemRegion x) : Decidable r.FitsSpace := inferInstanceAs (Decidable (_ ≤ _))

variable {base : Word x}

theorem MemRegion.merge_spec (hr : r.FitsSpace) (hfit : base.toNat + size.toNat ≤ 2 ^ x.bits)
    (hwraps : ¬ r.WrapsInto base size) (hnear : ¬ (base > r.base + r.size ∨ r.base > base + size)) :
    (r.merge base size).FitsSpace ∧
      ∀ a, (r.merge base size).Has a ↔ r.Has a ∨ InRange base size a := by
  simp only [MemRegion.FitsSpace, MemRegion.WrapsInto, MemRegion.EndsAtTop, MemRegion.Has,
    InRange] at *
  have hrsize := r.size.isLt
  have hsize := size.isLt
  rw [not_or, gt_iff_lt, gt_iff_lt, BitVec.lt_def, BitVec.lt_def] at hnear
  -- both end below the top, or they would not have been taken for neighbours
  have hbelow : r.base.toNat + r.size.toNat < 2 ^ x.bits := by
    rcases Nat.lt_or_eq_of_le hr with hlt | htop
    · exact hlt
    · rw [toNat_add_of_ge (by omega)] at hnear
      rcases Nat.lt_or_eq_of_le hfit with hlt | hboth
      · rw [toNat_add_of_lt hlt] at hnear
        omega
      · rw [toNat_add_of_ge (by omega)] at hnear
        omega
  have hbelow' : base.toNat + size.toNat < 2 ^ x.bits := by
    rcases Nat.lt_or_eq_of_le hfit with hlt | htop
    · exact hlt
    · rw [toNat_add_of_lt hbelow, toNat_add_of_ge (by omega)] at hnear
      omega
  rw [toNat_add_of_lt hbelow, toNat_add_of_lt hbelow'] at hnear
  have hend : base + size > r.base + r.size ↔
      base.toNat + size.toNat > r.base.toNat + r.size.toNat := by
    rw [gt_iff_lt, BitVec.lt_def, toNat_add_of_lt hbelow, toNat_add_of_lt hbelow']
  have hgrow : (base + size - r.base).toNat = base.toNat + size.toNat - r.base.toNat := by
    rw [BitVec.toNat_sub_of_le, toNat_add_of_lt hbelow']
    rw [BitVec.le_def, toNat_add_of_lt hbelow']
    omega
  have hdown (h : base < r.base) : (r.base - base).toNat = r.base.toNat - base.toNat := by
    rw [BitVec.toNat_sub_of_le]
    rw [BitVec.lt_def] at h
    rw [BitVec.le_def]
    omega
  by_cases hlonger : base + size > r.base + r.size
  · have hlonger' := hend.mp hlonger
    by_cases hlower : base < r.base
    · simp only [MemRegion.merge, hlonger, if_true, hlower]
      have hsum : (base + size - r.base + (r.base - base)).toNat = size.toNat := by
        have hlower' := BitVec.lt_def.mp hlower
        rw [toNat_add_of_lt (by rw [hgrow, hdown hlower]; omega), hgrow, hdown hlower]
        omega
      rw [BitVec.lt_def] at hlower
      rw [hsum]
      exact ⟨hfit, fun a => by omega⟩
    · simp only [MemRegion.merge, hlonger, if_true, hlower, if_false]
      rw [BitVec.lt_def] at hlower
      rw [hgrow]
      exact ⟨by omega, fun a => by omega⟩
  · have hlonger' := mt hend.mpr hlonger
    by_cases hlower : base < r.base
    · simp only [MemRegion.merge, hlonger, if_false, hlower, if_true]
      have hsum : (r.size + (r.base - base)).toNat = r.size.toNat + (r.base.toNat - base.toNat) := by
        have hlower' := BitVec.lt_def.mp hlower
        rw [toNat_add_of_lt (by rw [hdown hlower]; omega), hdown hlower]
      rw [BitVec.lt_def] at hlower
      rw [hsum]
      exact ⟨by omega, fun a => by omega⟩
    · simp only [MemRegion.merge, hlonger, if_false, hlower]
      rw [BitVec.lt_def] at hlower
      exact ⟨hr, fun a => by omega⟩

def HasByte (regions : List (MemRegion x)) (kind : MemregionKind) (a : Nat) : Prop :=
  ∃ r ∈ regions, r.kind = kind ∧ r.Has a

theorem MemRegion.merge_kind (r : MemRegion x) (base size : Word x) :
    (r.merge base size).kind = r.kind := by
  simp only [MemRegion.merge]
  split <;> split <;> rfl

variable {kind : MemregionKind} {regions' : List (MemRegion x)}

theorem mergeInto_mem (h : mergeInto base size kind regions = some regions') (hr : r.kind ≠ kind) :
    r ∈ regions' ↔ r ∈ regions := by
  induction regions generalizing regions' with
  | nil => cases h
  | cons q qs ih =>
    simp only [mergeInto] at h
    split at h
    · obtain ⟨qs', hqs', rfl⟩ := Option.map_eq_some_iff.mp h
      simp only [List.mem_cons, ih hqs']
    · next hmerge =>
      cases h
      simp only [not_or, not_not] at hmerge
      have hne : r ≠ q.merge base size := by
        rintro rfl
        exact hr ((q.merge_kind base size).trans hmerge.1)
      have hne' : r ≠ q := by
        rintro rfl
        exact hr hmerge.1
      simp only [List.mem_cons, hne, hne', false_or]

variable {image : Image x}

theorem memregionAdd_mem (h : memregionAdd image regions base size kind = some regions')
    (hr : r.kind ≠ kind) : r ∈ regions' ↔ r ∈ regions := by
  simp only [memregionAdd] at h
  split at h
  · cases h
  · split at h
    · next hmerged =>
      cases h
      exact mergeInto_mem hmerged hr
    · split at h
      · cases h
      · cases h
        have hne : r ≠ ⟨base, size, kind⟩ := by
          rintro rfl
          exact hr rfl
        simp [hne]

theorem hasByte_cons {a : Nat} :
    HasByte (r :: regions) kind a ↔ (r.kind = kind ∧ r.Has a) ∨ HasByte regions kind a := by
  simp [HasByte]

theorem mergeInto_spec (h : mergeInto base size kind regions = some regions')
    (hfit : base.toNat + size.toNat ≤ 2 ^ x.bits)
    (hregions : ∀ r ∈ regions, r.kind = kind → r.FitsSpace ∧ ¬ r.WrapsInto base size) :
    (∀ r ∈ regions', r.kind = kind → r.FitsSpace) ∧
      ∀ a, HasByte regions' kind a ↔ HasByte regions kind a ∨ InRange base size a := by
  induction regions generalizing regions' with
  | nil => cases h
  | cons q qs ih =>
    rw [List.forall_mem_cons] at hregions
    simp only [mergeInto] at h
    split at h
    · obtain ⟨qs', hqs', rfl⟩ := Option.map_eq_some_iff.mp h
      obtain ⟨hfits, hbytes⟩ := ih hqs' hregions.2
      refine ⟨List.forall_mem_cons.mpr ⟨fun hkind => (hregions.1 hkind).1, hfits⟩, fun a => ?_⟩
      rw [hasByte_cons, hbytes, hasByte_cons, or_assoc]
    · next hmerge =>
      cases h
      simp only [not_or, not_not] at hmerge
      obtain ⟨hq, hwraps⟩ := hregions.1 hmerge.1
      obtain ⟨hfits, hbytes⟩ := q.merge_spec hq hfit hwraps (not_or.mpr hmerge.2)
      refine ⟨List.forall_mem_cons.mpr ⟨fun _ => hfits, fun r hr hkind => ?_⟩, fun a => ?_⟩
      · exact (hregions.2 r hr hkind).1
      · rw [hasByte_cons, hasByte_cons, q.merge_kind, hbytes]
        simp only [hmerge.1, true_and]
        exact or_right_comm

theorem memregionAdd_spec (h : memregionAdd image regions base size kind = some regions')
    (hfit : base.toNat + size.toNat ≤ 2 ^ x.bits)
    (hregions : ∀ r ∈ regions, r.kind = kind → r.FitsSpace ∧ ¬ r.WrapsInto base size) :
    (∀ r ∈ regions', r.kind = kind → r.FitsSpace) ∧
      ∀ a, HasByte regions' kind a ↔ HasByte regions kind a ∨ InRange base size a := by
  simp only [memregionAdd] at h
  split at h
  · cases h
  · split at h
    · next hmerged =>
      cases h
      exact mergeInto_spec hmerged hfit hregions
    · split at h
      · cases h
      · cases h
        refine ⟨?_, ?_⟩
        · intro r hr hkind
          rcases List.mem_append.mp hr with hr | hr
          · exact (hregions r hr hkind).1
          · rw [List.mem_singleton.mp hr]
            exact hfit
        · intro a
          simp [HasByte, MemRegion.Has, or_and_right, exists_or]

/-- No range of the monitor's own wraps into a region of its kind. -/
def AddsApart (image : Image x) : List (MemRegion x) → List (MemRegion x) → Prop
  | _, [] => True
  | regions, r :: rs =>
    (r.kind ≠ .sharedRw → ∀ q ∈ regions, q.kind = r.kind → ¬ q.WrapsInto r.base r.size) ∧
      ∀ regions', memregionAdd image regions r.base r.size r.kind = some regions' →
        AddsApart image regions' rs

theorem memregionAdd_hasByte
    (h : memregionAdd image regions r.base r.size r.kind = some regions') (hfit : r.FitsSpace)
    (hregions : ∀ q ∈ regions, q.kind = r.kind → q.FitsSpace ∧ ¬ q.WrapsInto r.base r.size) :
    (∀ q ∈ regions', (q.kind ≠ r.kind → q ∈ regions) ∧ (q.kind = r.kind → q.FitsSpace)) ∧
      ∀ kind a, HasByte regions' kind a ↔ HasByte regions kind a ∨ (r.kind = kind ∧ r.Has a) := by
  obtain ⟨hfits, hbytes⟩ := memregionAdd_spec h hfit hregions
  refine ⟨fun q hq => ⟨fun hne => (memregionAdd_mem h hne).mp hq, hfits q hq⟩, ?_⟩
  intro kind a
  by_cases hkind : r.kind = kind
  · subst hkind
    simp only [hbytes, MemRegion.Has, true_and]
  · simp only [hkind, false_and, or_false]
    refine exists_congr fun q => and_congr_left fun hq => memregionAdd_mem h ?_
    rw [hq.1]
    exact Ne.symm hkind

theorem memregionAdds_hasByte {adds : List (MemRegion x)}
    (h : memregionAdds image regions adds = some regions') (hapart : AddsApart image regions adds)
    (hadds : ∀ r ∈ adds, r.FitsSpace) (hregions : ∀ r ∈ regions, r.kind ≠ .sharedRw → r.FitsSpace)
    (hkind : kind ≠ .sharedRw) {a : Nat} (ha : HasByte regions kind a ∨ HasByte adds kind a) :
    HasByte regions' kind a := by
  induction adds generalizing regions with
  | nil =>
    cases h
    rcases ha with ha | ⟨r, hr, -⟩
    · exact ha
    · cases hr
  | cons r rs ih =>
    obtain ⟨mid, hmid, hrest⟩ := Option.bind_eq_some_iff.mp h
    rw [List.forall_mem_cons] at hadds
    -- the step keeps every byte of the monitor's own and takes in the new ones
    have hstep : (∀ q ∈ mid, q.kind ≠ .sharedRw → q.FitsSpace) ∧
        (HasByte regions kind a ∨ (r.kind = kind ∧ r.Has a) → HasByte mid kind a) := by
      by_cases hr : r.kind = .sharedRw
      · have hothers := fun q => memregionAdd_mem (r := q) hmid
        refine ⟨fun q hq hqk => ?_, ?_⟩
        · exact hregions q ((hothers q (by rw [hr]; exact hqk)).mp hq) hqk
        · rintro (⟨q, hq, hqk, hqa⟩ | ⟨hrk, -⟩)
          · exact ⟨q, (hothers q (by rw [hqk, hr]; exact hkind)).mpr hq, hqk, hqa⟩
          · exact absurd (hrk.symm.trans hr) hkind
      · obtain ⟨hfits, hbytes⟩ := memregionAdd_hasByte hmid hadds.1
          fun q hq hqk => ⟨hregions q hq (by rw [hqk]; exact hr), hapart.1 hr q hq hqk⟩
        refine ⟨fun q hq hqk => ?_, (hbytes kind a).mpr⟩
        by_cases hsame : q.kind = r.kind
        · exact (hfits q hq).2 hsame
        · exact hregions q ((hfits q hq).1 hsame) hqk
    refine ih hrest (hapart.2 mid hmid) hadds.2 hstep.1 ?_
    rw [hasByte_cons, ← or_assoc] at ha
    exact ha.imp_left hstep.2

/-- From ranges that end below the top of the address space, in any order: the bytes of each
    kind are those that were asked for. -/
theorem memregionAdds_hasByte_iff (image : Image x) {adds regions : List (MemRegion x)}
    (hadds : ∀ r ∈ adds, r.base.toNat + r.size.toNat < 2 ^ x.bits)
    (h : memregionAdds image [] adds = some regions) (kind : MemregionKind) (a : Nat) :
    HasByte regions kind a ↔ HasByte adds kind a := by
  -- what is in the list so far ends below the top as well
  suffices hrun : ∀ before : List (MemRegion x), (∀ q ∈ before, q.FitsSpace) →
      (∀ kind a, HasByte before kind a → a + 1 < 2 ^ x.bits) →
      memregionAdds image before adds = some regions →
      (HasByte regions kind a ↔ HasByte before kind a ∨ HasByte adds kind a) by
    simpa [HasByte] using hrun [] nofun (fun _ _ ⟨_, hr, _⟩ => nomatch hr) h
  clear h
  induction adds with
  | nil =>
    rintro before - - ⟨⟩
    simp [HasByte]
  | cons r rs ih =>
    intro before hfits hlow h
    obtain ⟨mid, hmid, hrest⟩ := Option.bind_eq_some_iff.mp h
    rw [List.forall_mem_cons] at hadds
    have hapart : ∀ q ∈ before, ¬ q.WrapsInto r.base r.size := by
      rintro q hq (⟨htop, -⟩ | ⟨htop, -⟩)
      · omega
      · -- its last byte would be the last one
        have hbase := q.base.isLt
        have htop : q.base.toNat + q.size.toNat = 2 ^ x.bits := htop
        have hlast := hlow q.kind (2 ^ x.bits - 1) ⟨q, hq, rfl, by omega, by omega⟩
        omega
    obtain ⟨hmidFits, hbytes⟩ := memregionAdd_hasByte hmid hadds.1.le
      fun q hq _ => ⟨hfits q hq, hapart q hq⟩
    rw [ih hadds.2 mid (fun q hq => ?_) (fun kind a ha => ?_) hrest, hbytes, hasByte_cons,
      or_assoc]
    · by_cases hsame : q.kind = r.kind
      · exact (hmidFits q hq).2 hsame
      · exact hfits q ((hmidFits q hq).1 hsame)
    · rcases (hbytes kind a).mp ha with ha | ⟨-, -, ha⟩
      · exact hlow kind a ha
      · omega

/-- The third range borders on the first and overlaps the second. -/
def threeRanges : List (MemRegion .rv64) :=
  [⟨0x2000000, 0x4000, .mmodeRw⟩, ⟨0x2008000, 0x4000, .mmodeRw⟩, ⟨0x2004000, 0x5000, .mmodeRw⟩]

theorem memregionAdds_hasByte_iff_threeRanges :
    ∃ regions, memregionAdds ⟨0x80000000, 0x40000⟩ [] threeRanges = some regions ∧
      ∀ kind a, HasByte regions kind a ↔ HasByte threeRanges kind a :=
  ⟨_, rfl, memregionAdds_hasByte_iff ⟨0x80000000, 0x40000⟩ (by decide) rfl⟩

end RiscvMonitor
