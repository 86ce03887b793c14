import RiscvMonitor.PmpRules

/-!
# What the monitor accepts and what the PMP grants

`domain_range_ok()` and the PMP encode one policy twice.  With 4-byte grain and
without Smepmp they agree but for two corners: a region of the monitor that ends at
the top of the address space, and an entry that is everything, where the check goes
by the region's base.
-/

namespace RiscvMonitor

open Pmp FirstMatch

variable {x : Xlen}

def AccessIn (perm : Perm) (acc : Access) : Prop := accessPerm acc &&& perm = accessPerm acc

instance (perm : Perm) (acc : Access) : Decidable (AccessIn perm acc) :=
  inferInstanceAs (Decidable (_ = _))

/-- The permissions the monitor's checks ask for: read, read and write, execute. -/
def CheckedPerm (perm : Perm) : Prop :=
  perm = domainPermSuR ∨ perm = domainPermSuR ||| domainPermSuW ∨ perm = domainPermSuX

theorem CheckedPerm.exists_access {perm : Perm} (h : CheckedPerm perm) :
    ∃ acc, AccessIn perm acc := by
  rcases h with rfl | rfl | rfl
  · exact ⟨.read, by decide⟩
  · exact ⟨.read, by decide⟩
  · exact ⟨.exec, by decide⟩

theorem CheckedPerm.read_of_write {perm : Perm} (h : CheckedPerm perm)
    (hwrite : AccessIn perm .write) : AccessIn perm .read := by
  rcases h with rfl | rfl | rfl
  · decide
  · decide
  · exact absurd hwrite (by decide)

variable {acc : Access}

theorem AccessIn.and_eq {p perm : Perm} (hacc : AccessIn perm acc) (hp : p &&& perm = perm) :
    p &&& accessPerm acc = accessPerm acc := by
  calc p &&& accessPerm acc = p &&& (accessPerm acc &&& perm) := by rw [hacc]
    _ = accessPerm acc &&& (p &&& perm) := by ac_rfl
    _ = accessPerm acc := by rw [hp, hacc]

theorem CheckedPerm.and_eq_iff {perm : Perm} (h : CheckedPerm perm) (p : Perm) :
    p &&& perm = perm ↔ ∀ acc, AccessIn perm acc → (domainCfg p).suGrants false acc = true := by
  constructor
  · intro hp acc hacc
    refine domainCfg_suGrants.mpr ⟨hacc.and_eq hp, ?_⟩
    rintro rfl
    exact (h.read_of_write hacc).and_eq hp
  · intro hall
    have hbits : ∀ acc, AccessIn perm acc → p &&& accessPerm acc = accessPerm acc :=
      fun acc hacc => (domainCfg_suGrants.mp (hall acc hacc)).1
    rcases h with rfl | rfl | rfl
    · exact hbits .read (by decide)
    · rw [BitVec.and_or_distrib_left]
      exact congrArg₂ (· ||| ·) (hbits .read (by decide)) (hbits .write (by decide))
    · exact hbits .exec (by decide)

/-! ### The domain's half -/

/-- The region is everything, or has something of the range. -/
def DomainRegion.Decides (addr size : Word x) (r : DomainRegion x) : Bool :=
  decide (r.order ≥ x.bits) ||
    decide (r.base.toNat < addr.toNat + size.toNat ∧ addr.toNat ≤ (regionLast r).toNat)

variable {r : DomainRegion x} {a : Nat}

/-- The entry of a region at 4-byte grain: what the region is for, or everything. -/
theorem pmpRule_covers_iff {cfg : PmpConfig x} (hg : cfg.g = 0) (ha : a < 2 ^ x.bits) :
    (r.pmpRule cfg).covers a ↔ r.order ≥ x.bits ∨ r.rule.covers a := by
  simp only [DomainRegion.pmpRule, domainEntry, hg]
  rcases Nat.lt_or_eq_of_le r.order_le_bits with hlt | hwhole
  · have horder := r.three_le_order
    simp only [Nat.not_le.mpr hlt, if_false, false_or]
    rw [matchNapot_iff horder hlt (by omega) (toNat_bit hlt) (r.aligned hlt)]
    simp only [DomainRegion.rule, (toNat_regionLast_of_lt hlt).1]
    have := Nat.two_pow_pos r.order
    omega
  · simp only [hwhole, Nat.le_refl, if_true, true_or, iff_true]
    exact matchNapot_all (Nat.zero_le _) ha

variable {cfg : PmpConfig x} {addr size : Word x} {perm : Perm}

theorem decides_iff_touches (hsize : size ≠ 0) :
    r.Decides addr size = true ↔ r.order ≥ x.bits ∨ r.rule.Touches (InRange addr size) := by
  have hpos := toNat_pos hsize
  have hle := base_le_regionLast r
  rw [BitVec.le_def] at hle
  simp only [DomainRegion.Decides, Bool.or_eq_true, decide_eq_true_eq, Rule.Touches, InRange,
    DomainRegion.rule]
  refine or_congr Iff.rfl ⟨?_, ?_⟩
  · rintro ⟨h₁, h₂⟩
    exact ⟨max addr.toNat r.base.toNat, by omega, by omega⟩
  · rintro ⟨a, ⟨h₁, h₂⟩, h₃, h₄⟩
    omega

section

variable (hg : cfg.g = 0) (hsize : size ≠ 0) (hfit : addr.toNat + size.toNat ≤ 2 ^ x.bits)
include hg hsize hfit

/-- From the check to the entries: as long as the region that decides for the PMP
    has the bits, every access inside the range goes through. -/
theorem granted_of_rangeOk (hperm : CheckedPerm perm) {l : List (DomainRegion x)}
    (hok : Granted (l.map (·.rule)) (InRange addr size) perm)
    (hdecides : ∀ r, l.find? (·.Decides addr size) = some r → r.perm &&& perm = perm)
    {S : Nat → Prop} (hne : ∃ a, S a) (hsub : ∀ a, S a → InRange addr size a)
    (hacc : AccessIn perm acc) : Granted (l.map (·.pmpRule cfg)) S acc := by
  have hspace : ∀ a, S a → a < 2 ^ x.bits := fun a ha => by have := (hsub a ha).2; omega
  induction l with
  | nil => exact hok
  | cons r rs ih =>
    simp only [List.map_cons, Granted] at hok ⊢
    cases hdec : r.Decides addr size with
    | true =>
      have hbits := hdecides r (by simp [hdec])
      have hgrants := (hperm.and_eq_iff r.perm).mp hbits acc hacc
      have hcontains : (r.pmpRule cfg).Contains S := by
        intro a ha
        rw [pmpRule_covers_iff hg (hspace a ha)]
        rcases (decides_iff_touches hsize).mp hdec with hwhole | htouches
        · exact .inl hwhole
        · rcases hok with ⟨-, hall, -⟩ | ⟨hnot, -⟩
          · exact .inr (hall a (hsub a ha))
          · exact absurd htouches hnot
      obtain ⟨a, ha⟩ := hne
      exact .inl ⟨⟨a, ha, hcontains a ha⟩, hcontains, hgrants⟩
    | false =>
      have hnot : ¬ (r.order ≥ x.bits ∨ r.rule.Touches (InRange addr size)) := by
        rw [← decides_iff_touches hsize, hdec]
        simp
      rw [not_or] at hnot
      rcases hok with ⟨htouches, -⟩ | ⟨-, hrest⟩
      · exact absurd htouches hnot.2
      · refine .inr ⟨?_, ih hrest fun q hq => hdecides q (by simp [hdec, hq])⟩
        rintro ⟨a, ha, hcov⟩
        rcases (pmpRule_covers_iff hg (hspace a ha)).mp hcov with hwhole | hcov
        · exact hnot.1 hwhole
        · exact hnot.2 ⟨a, hsub a ha, hcov⟩

/-- And back: the region that decides has to grant what the PMP does. -/
theorem grants_of_granted {l : List (DomainRegion x)}
    (hgranted : Granted (l.map (·.pmpRule cfg)) (InRange addr size) acc)
    (hfind : l.find? (·.Decides addr size) = some r) :
    (domainCfg r.perm).suGrants false acc = true := by
  have hpos := toNat_pos hsize
  have hspace : ∀ a, InRange addr size a → a < 2 ^ x.bits := fun a ha => by have := ha.2; omega
  induction l with
  | nil => simp at hfind
  | cons q qs ih =>
    simp only [List.map_cons, Granted] at hgranted
    have htouches : (q.pmpRule cfg).Touches (InRange addr size) ↔
        q.Decides addr size = true := by
      rw [decides_iff_touches hsize]
      constructor
      · rintro ⟨a, ha, hcov⟩
        exact ((pmpRule_covers_iff hg (hspace a ha)).mp hcov).imp id fun h => ⟨a, ha, h⟩
      · rintro (hwhole | ⟨a, ha, hcov⟩)
        · have hfirst : InRange addr size addr.toNat := ⟨Nat.le_refl _, by omega⟩
          exact ⟨_, hfirst, (pmpRule_covers_iff hg (hspace _ hfirst)).mpr (.inl hwhole)⟩
        · exact ⟨a, ha, (pmpRule_covers_iff hg (hspace a ha)).mpr (.inr hcov)⟩
    cases hdec : q.Decides addr size with
    | true =>
      simp only [List.find?_cons, hdec, Option.some.injEq] at hfind
      rcases hgranted with ⟨-, -, hgrants⟩ | ⟨hnot, -⟩
      · rw [← hfind]
        exact hgrants
      · exact absurd (htouches.mpr hdec) hnot
    | false =>
      simp only [List.find?_cons, hdec] at hfind
      rcases hgranted with ⟨ht, -⟩ | ⟨-, hrest⟩
      · rw [htouches, hdec] at ht
        cases ht
      · exact ih hrest hfind

end

/-! ### The monitor's half -/

/-- A region the check does not see, with an entry of its own all the same. -/
def MemRegion.HiddenAtTop (addr size : Word x) (r : MemRegion x) : Prop :=
  regionIsNapot r = true ∧ r.EndsAtTop ∧ r.Meets addr size

theorem covers_napot_iff (hg : cfg.g = 0) {r : MemRegion x} (hnapot : regionIsNapot r = true) :
    r.Covers cfg a ↔ r.Has a := by
  obtain ⟨k, hk, hkx, hsize, halign⟩ := isNapot_iff.mp hnapot
  unfold MemRegion.Covers
  rw [if_pos hnapot, matchNapot_iff hk hkx (by omega) hsize halign, MemRegion.Has, InRange, hsize]

/-- A range that passes the check meets no entry but a hidden one. -/
theorem hiddenAtTop_of_covers {monitor : List (MemRegion x)} (hg : cfg.g = 0) (hsize : size ≠ 0)
    (hclear : monitorRangeClear monitor addr size = true) {r : MemRegion x} (hr : r ∈ monitor)
    (hkind : r.kind ≠ .sharedRw) (haligned : r.base.toNat % 4 = 0 ∧ r.size.toNat % 4 = 0)
    (ha : InRange addr size a) (hcov : r.Covers cfg a) : r.HiddenAtTop addr size := by
  have hlt := lt_of_monitorRangeClear hsize hclear
  have hapart := (monitorRangeClear_iff.mp hclear).2 r hr hkind
  rw [BitVec.lt_def, BitVec.lt_def, toNat_add_of_lt hlt] at hapart
  have hlow := ha.1
  have hhigh := ha.2
  cases hnapot : regionIsNapot r with
  | true =>
    have hhas := (covers_napot_iff hg hnapot).mp hcov
    have hmeets : r.Meets addr size := MemRegion.meets_iff_exists.mpr ⟨a, ha, hhas⟩
    refine ⟨hnapot, ?_, hmeets⟩
    obtain ⟨k, -, hkx, hsz, halign⟩ := isNapot_iff.mp hnapot
    have hend : r.base.toNat + r.size.toNat ≤ 2 ^ x.bits := by
      rw [hsz]
      exact PowerTwo.add_two_pow_le r.base.isLt (Nat.le_of_lt hkx) halign
    rcases Nat.lt_or_eq_of_le hend with hbelow | htop
    · rw [toNat_add_of_lt hbelow] at hapart
      exact absurd ⟨by have := hhas.1; omega, by have := hhas.2; omega⟩ hapart
    · exact htop
  | false =>
    unfold MemRegion.Covers at hcov
    rw [hnapot] at hcov
    simp only [Bool.false_eq_true, if_false, cfg.grain_eq, hg] at hcov
    obtain ⟨hbase, hend⟩ := (matchTor_iff haligned.1 haligned.2).mp hcov
    exact absurd ⟨by omega, by omega⟩ hapart

/-- Exactly when the PMP grants all that the check accepts. -/
theorem domainRangeOk_granted_iff {monitor : List (MemRegion x)} {dom : Domain x}
    {u : State x.bits} (hsmepmp : cfg.smepmp = false) (hg : cfg.g = 0)
    (haligned : ∀ r ∈ monitor, r.base.toNat % 4 = 0 ∧ r.size.toNat % 4 = 0)
    (hrun : PmpRun cfg monitor (fun d => d.FitsPmp cfg monitor) dom u) (hsize : size ≠ 0)
    (hperm : CheckedPerm perm)
    (hok : domainRangeOk monitor (some dom) addr size perm = true) :
    (∀ (S : Nat → Prop) (acc : Access), (∃ a, S a) → (∀ a, S a → InRange addr size a) →
        AccessIn perm acc → Granted (u.rules cfg.g) S acc) ↔
      ¬ MonitorHas monitor (·.HiddenAtTop addr size) ∧
        ∀ r, dom.regions.list.find? (·.Decides addr size) = some r → r.perm &&& perm = perm := by
  obtain ⟨hprogrammed, hfits⟩ := hrun.programmed
  obtain ⟨hfit, hclear, hdomain⟩ := (domainRangeOk_iff hsize).mp hok
  have htake : dom.regions.list.take (cfg.count - pmpMonitorEntries cfg monitor) =
      dom.regions.list := by
    refine List.take_of_length_le (Nat.le_trans hfits ?_)
    unfold pmpDomainEntries
    split <;> omega
  constructor
  · intro hall
    obtain ⟨acc₀, hacc₀⟩ := hperm.exists_access
    refine ⟨?_, ?_⟩
    · rintro ⟨r, hr, hkind, hnapot, -, hmeets⟩
      obtain ⟨a, ha, hhas⟩ := MemRegion.meets_iff_exists.mp hmeets
      have hgranted := hall (· = a) acc₀ ⟨a, rfl⟩ (by rintro b rfl; exact ha) hacc₀
      refine ((hprogrammed.granted_iff hsmepmp).mp hgranted).1 ⟨r, hr, hkind, a, rfl, ?_⟩
      exact (covers_napot_iff hg hnapot).mpr hhas
    · intro r hfind
      have hfirst : InRange addr size addr.toNat :=
        ⟨Nat.le_refl _, by have := toNat_pos hsize; omega⟩
      refine (hperm.and_eq_iff r.perm).mpr fun acc hacc => ?_
      have hgranted := hall (InRange addr size) acc ⟨_, hfirst⟩ (fun a ha => ha) hacc
      have hrules := ((hprogrammed.granted_iff hsmepmp).mp hgranted).2
      rw [htake] at hrules
      exact grants_of_granted hg hsize hfit hrules hfind
  · rintro ⟨hvisible, hdecides⟩ S acc hne hsub hacc
    refine (hprogrammed.granted_iff hsmepmp).mpr ⟨?_, ?_⟩
    · rintro ⟨r, hr, hkind, a, ha, hcov⟩
      exact hvisible ⟨r, hr, hkind,
        hiddenAtTop_of_covers hg hsize hclear hr hkind (haligned r hr) (hsub a ha) hcov⟩
    · rw [htake]
      exact granted_of_rangeOk hg hsize hfit hperm hdomain hdecides hne hsub hacc

def finestGrain (x : Xlen) : PmpConfig x :=
  ⟨false, 16, 0, by decide, by decide, Nat.lt_trans (by decide) x.three_lt_bits⟩

theorem domainRangeOk_granted_nextStage :
    ∃ u, PmpRun (finestGrain .rv64) imageOnly (fun d => d.FitsPmp (finestGrain .rv64) imageOnly)
        (rootDomain {0} 0 0x80200000 .supervisor) u ∧
      ∀ (S : Nat → Prop) (acc : Access), (∃ a, S a) →
        (∀ a, S a → InRange (0x80200000 : Word .rv64) 0x1000 a) → AccessIn domainPermSuR acc →
        Granted (u.rules (finestGrain .rv64).g) S acc := by
  obtain ⟨u, hrun⟩ := @exists_pmpRun _ (finestGrain .rv64) imageOnly
    (fun d => d.FitsPmp (finestGrain .rv64) imageOnly) (rootDomain {0} 0 0x80200000 .supervisor)
    (by decide) (by decide)
  refine ⟨u, hrun, (domainRangeOk_granted_iff rfl rfl (by decide) hrun (by decide) (.inl rfl)
    (by decide)).mpr ⟨?_, ?_⟩⟩
  · rintro ⟨r, hr, -, -, htop, -⟩
    obtain rfl : r = ⟨0x80000000, 0x40000, .mmodeRw⟩ := List.mem_singleton.mp hr
    revert htop
    decide
  · intro r hr
    obtain rfl := Option.some.inj hr
    decide

def deviceAtTop : List (MemRegion .rv32) :=
  [⟨0x80000000, 0x40000, .mmodeRw⟩, ⟨0xfffff000, 0x1000, .mmodeRw⟩]

/-- The check lets S-mode hand over that page, and the PMP keeps S-mode out of it. -/
theorem domainRangeOk_not_granted_at_top :
    ¬ ∀ (cfg : PmpConfig .rv32) (monitor : List (MemRegion .rv32)) (dom : Domain .rv32)
        (u : State 32) (addr size : Word .rv32) (perm : Perm), cfg.smepmp = false → cfg.g = 0 →
        (∀ r ∈ monitor, r.base.toNat % 4 = 0 ∧ r.size.toNat % 4 = 0) →
        PmpRun cfg monitor (fun d => d.FitsPmp cfg monitor) dom u → size ≠ 0 →
        CheckedPerm perm → domainRangeOk monitor (some dom) addr size perm = true →
        ∀ (S : Nat → Prop) (acc : Access), (∃ a, S a) → (∀ a, S a → InRange addr size a) →
          AccessIn perm acc → Granted (u.rules cfg.g) S acc := by
  intro hrefines
  obtain ⟨u, hrun⟩ := @exists_pmpRun _ (finestGrain .rv32) deviceAtTop
    (fun d => d.FitsPmp (finestGrain .rv32) deviceAtTop)
    (rootDomain {0} 0 0x80200000 .supervisor) (by decide) (by decide)
  have hgranted := hrefines (finestGrain .rv32) deviceAtTop
    (rootDomain {0} 0 0x80200000 .supervisor) u 0xfffff000 4 domainPermSuR rfl rfl (by decide)
    hrun (by decide) (.inl rfl) (by decide) (· = 0xfffff000) .read ⟨_, rfl⟩
    (by rintro a rfl; decide) (by decide)
  refine ((hrun.programmed.1.granted_iff rfl).mp hgranted).1
    ⟨⟨0xfffff000, 0x1000, .mmodeRw⟩, by decide, by decide, _, rfl, ?_⟩
  exact (covers_napot_iff rfl (by decide)).mpr (by decide)

end RiscvMonitor
