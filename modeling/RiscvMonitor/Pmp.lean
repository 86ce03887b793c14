import RiscvMonitor.PmpUnit
import RiscvMonitor.Word

/-!
# `pmp.c`: writing PMP entries

One entry, a range as a NAPOT entry or an OFF and TOR pair, and the grain as the boot
probes it.  A NAPOT entry below the grain is widened, the top of a TOR range is
rounded up before the unit can round it down.
-/

namespace RiscvMonitor

open Pmp

variable {x : Xlen}

/-- `pmpcfg_update()`: `csr_clear()`, then `csr_set()`. -/
def pmpcfgUpdate (u : State x.bits) (idx : Nat) (cfg : Cfg) : State x.bits :=
  (u.writeCfg idx Cfg.zero).writeCfg idx cfg

def pmpEntryCfg (u : State x.bits) (idx : Nat) (cfg : Cfg) : State x.bits :=
  if idx < 16 then pmpcfgUpdate u idx cfg else u

/-- `pmp_entry_set()`: off while the address changes. -/
def pmpEntrySet (u : State x.bits) (idx : Nat) (pmpaddr : Word x) (cfg : Cfg) : State x.bits :=
  if idx ≥ 16 then u
  else pmpcfgUpdate ((pmpcfgUpdate u idx Cfg.zero).writeAddr idx pmpaddr) idx cfg

/-- The loop of `pmp_grain_set()`; a word has no more bits to shift out. -/
def pmpGrainLoop : Nat → Word x → Word x → Word x
  | 0, _, grain => grain
  | n + 1, ones, grain =>
    if ones ≠ 0 ∧ ones &&& 1 = 0 then pmpGrainLoop n (ones >>> 1) (grain <<< 1) else grain

/-- `pmp_grain_set()`, of what `pmpaddr0` reads after all ones were written. -/
def pmpGrainSet (pmpaddrOnes : Word x) : Word x := pmpGrainLoop x.bits pmpaddrOnes 4

/-- NAPOT: power of two, at least 8 bytes, base aligned to the size. -/
def isNapot (base size : Word x) : Bool :=
  decide (size ≥ 8) && isPowerOfTwo size && isAligned base size

def napotWord (base size : Word x) : Word x := (base >>> 2) ||| ((size >>> 3) - 1)

def torTop (grain base size : Word x) : Word x := roundUp2 (base + size) grain >>> 2

def rangeEntries (base size : Word x) : Nat := if isNapot base size then 1 else 2

/-- `pmp_range_set()`: the unit, and how many entries it took. -/
def pmpRangeSet (grain : Word x) (u : State x.bits) (idx : Nat) (base size : Word x)
    (perm : Cfg) : State x.bits × Nat :=
  if isNapot base size then
    (pmpEntrySet u idx (napotWord base size) { perm with mode := .napot }, 1)
  else
    (pmpEntrySet (pmpEntrySet u idx (base >>> 2) Cfg.zero) (idx + 1) (torTop grain base size)
      { perm with mode := .tor }, 2)

def pmpAllSet (u : State x.bits) (idx : Nat) (perm : Cfg) : State x.bits :=
  pmpEntrySet u idx (~~~0) { perm with mode := .napot }

/-! ### Writes that go through -/

variable {u : State x.bits}

theorem pmpcfgUpdate_eq (idx : Nat) (cfg : Cfg) (hu : u.Writable)
    (hcfg : u.rlb = true ∨ cfg.lock = false) :
    pmpcfgUpdate u idx cfg = u.set idx { u.entry idx with cfg := cfg } := by
  have hzero : u.writeCfg idx Cfg.zero = u.set idx { u.entry idx with cfg := Cfg.zero } := by
    rcases hu with hrlb | hlock
    · simp [State.writeCfg, hrlb]
    · simp [State.writeCfg, hlock idx, Cfg.zero]
  rw [pmpcfgUpdate, hzero]
  rcases hcfg with hrlb | hlock
  · simp [State.writeCfg, hrlb]
  · simp [State.writeCfg, hlock, Cfg.zero]

variable {idx : Nat}

theorem pmpEntrySet_eq (addr : Word x) (cfg : Cfg) (hu : u.Writable)
    (hcfg : u.rlb = true ∨ cfg.lock = false) (hidx : idx < 16) :
    pmpEntrySet u idx addr cfg = u.set idx ⟨addr, cfg⟩ := by
  have hoff := pmpcfgUpdate_eq idx Cfg.zero hu (.inr rfl)
  have haddr : (pmpcfgUpdate u idx Cfg.zero).writeAddr idx addr =
      u.set idx ⟨addr, Cfg.zero⟩ := by
    have hwritable : (pmpcfgUpdate u idx Cfg.zero).Writable := by
      rw [hoff]
      exact hu.set (.inr rfl)
    rcases hwritable with hrlb | hlock
    · simp only [State.writeAddr, hrlb, Bool.true_eq_false, and_false, if_false]
      simp [hoff]
    · simp only [State.writeAddr, hlock, Bool.false_eq_true, false_and, if_false]
      simp [hoff]
  rw [pmpEntrySet, if_neg (Nat.not_le.mpr hidx), haddr,
    pmpcfgUpdate_eq idx cfg (hu.set (.inr rfl)) hcfg]
  simp

def RangeAt (grain : Word x) (u : State x.bits) (idx : Nat) (base size : Word x) (perm : Cfg) :
    Prop :=
  if isNapot base size then
    u.entry idx = ⟨napotWord base size, { perm with mode := .napot }⟩
  else
    u.entry idx = ⟨base >>> 2, Cfg.zero⟩ ∧
      u.entry (idx + 1) = ⟨torTop grain base size, { perm with mode := .tor }⟩

variable {base size : Word x}

theorem RangeAt.congr {grain : Word x} {u' : State x.bits} {perm : Cfg}
    (h : RangeAt grain u idx base size perm)
    (hsame : ∀ j, idx ≤ j → j < idx + rangeEntries base size → u'.entry j = u.entry j) :
    RangeAt grain u' idx base size perm := by
  unfold RangeAt rangeEntries at *
  cases hnapot : isNapot base size with
  | true =>
    simp only [hnapot, if_true] at h hsame ⊢
    rw [hsame idx (Nat.le_refl _) (Nat.lt_succ_self _)]
    exact h
  | false =>
    simp only [hnapot, Bool.false_eq_true, if_false] at h hsame ⊢
    rw [hsame idx (Nat.le_refl _) (by omega), hsame (idx + 1) (by omega) (by omega)]
    exact h

theorem pmpRangeSet_spec (grain : Word x) {perm : Cfg} (hu : u.Writable)
    (hperm : u.rlb = true ∨ perm.lock = false) (hidx : idx + rangeEntries base size ≤ 16) :
    (pmpRangeSet grain u idx base size perm).1.Writable ∧
      WritesOnly idx (idx + rangeEntries base size) u (pmpRangeSet grain u idx base size perm).1 ∧
      RangeAt grain (pmpRangeSet grain u idx base size perm).1 idx base size perm := by
  unfold pmpRangeSet RangeAt
  unfold rangeEntries at *
  cases hnapot : isNapot base size with
  | true =>
    simp only [hnapot, if_true] at hidx ⊢
    rw [pmpEntrySet_eq _ { perm with mode := .napot } hu hperm (by omega)]
    exact ⟨hu.set hperm, WritesOnly.set u idx _, u.set_entry_same _ _⟩
  | false =>
    simp only [hnapot, Bool.false_eq_true, if_false] at hidx ⊢
    have hbase : (u.set idx ⟨base >>> 2, Cfg.zero⟩).Writable := hu.set (.inr rfl)
    rw [pmpEntrySet_eq (base >>> 2) Cfg.zero hu (.inr rfl) (by omega),
      pmpEntrySet_eq _ { perm with mode := .tor } hbase hperm (by omega)]
    refine ⟨hbase.set hperm, ?_, ?_, State.set_entry_same _ _ _⟩
    · exact ((WritesOnly.set u idx _).mono (Nat.le_refl _) (by omega)).trans
        ((WritesOnly.set _ (idx + 1) _).mono (by omega) (by omega))
    · rw [State.set_entry_of_ne _ _ (by omega), State.set_entry_same]

/-! ### The grain -/

variable {k : Nat}

theorem pmpGrainLoop_eq {n m : Nat} {ones grain : Word x} (hk : k ≤ n)
    (hones : ones.toNat = 2 ^ k * (2 * m + 1)) :
    pmpGrainLoop n ones grain = grain <<< k := by
  have hand (v : Word x) : v &&& 1 = 0 ↔ v.toNat % 2 = 0 := by
    rw [← BitVec.toNat_inj, BitVec.toNat_and, toNat_one, Nat.and_one_is_mod]
    simp
  have hne (v : Word x) : v ≠ 0 ↔ v.toNat ≠ 0 := by
    rw [ne_eq, ← BitVec.toNat_inj]
    simp
  induction k generalizing n ones grain with
  | zero =>
    cases n with
    | zero => simp [pmpGrainLoop]
    | succ n =>
      have hodd : ¬ (ones ≠ 0 ∧ ones &&& 1 = 0) := by
        rw [hand, hones]
        omega
      rw [pmpGrainLoop, if_neg hodd, BitVec.shiftLeft_zero]
  | succ k ih =>
    cases n with
    | zero => omega
    | succ n =>
      have hhalf : ones.toNat = 2 * (2 ^ k * (2 * m + 1)) := by
        rw [hones, Nat.pow_succ]
        ring
      have hpos : 0 < 2 ^ k * (2 * m + 1) := Nat.mul_pos (Nat.two_pow_pos k) (by omega)
      have heven : ones ≠ 0 ∧ ones &&& 1 = 0 := by
        rw [hand, hne]
        omega
      have hshift : (ones >>> 1).toNat = 2 ^ k * (2 * m + 1) := by
        rw [BitVec.toNat_ushiftRight, Nat.shiftRight_eq_div_pow, hhalf]
        omega
      rw [pmpGrainLoop, if_pos heven, ih (by omega) hshift]
      rw [← BitVec.shiftLeft_add, Nat.add_comm]

/-- The grain as a word: `2^(g+2)` bytes, where that is one. -/
def grainWord (g : Nat) : Word x := (4 : Word x) <<< g

variable {g : Nat}

theorem pmpGrainSet_eq (hg : g < x.bits) :
    pmpGrainSet (BitVec.allOnes x.bits <<< g) = (grainWord g : Word x) := by
  have hpow : 2 ^ x.bits = 2 ^ g * 2 ^ (x.bits - g) := by
    rw [← Nat.pow_add]
    congr 1
    omega
  obtain ⟨d, hd⟩ : ∃ d, 2 ^ (x.bits - g) = 2 * (d + 1) := by
    obtain ⟨e, he⟩ : ∃ e, x.bits - g = e + 1 := ⟨x.bits - g - 1, by omega⟩
    have := Nat.two_pow_pos e
    exact ⟨2 ^ e - 1, by rw [he, Nat.pow_succ]; omega⟩
  have hones : (BitVec.allOnes x.bits <<< g).toNat = 2 ^ g * (2 * d + 1) := by
    have hg0 := Nat.two_pow_pos g
    have hmul : (2 ^ x.bits - 1) * 2 ^ g = 2 ^ x.bits * (2 ^ g - 1) + 2 ^ g * (2 * d + 1) := by
      rw [hpow, hd]
      zify [show 1 ≤ 2 ^ g from hg0,
        show 1 ≤ 2 ^ g * (2 * (d + 1)) from Nat.mul_pos hg0 (by omega)]
      ring
    rw [BitVec.toNat_shiftLeft, BitVec.toNat_allOnes, Nat.shiftLeft_eq, hmul,
      Nat.mul_add_mod, Nat.mod_eq_of_lt]
    rw [hpow, hd]
    exact Nat.mul_lt_mul_of_pos_left (by omega) hg0
  exact pmpGrainLoop_eq (Nat.le_of_lt hg) hones

theorem toNat_grain : (grainWord g : Word x).toNat = 2 ^ (g + 2) % 2 ^ x.bits := by
  have h4 : (4 : Word x).toNat = 4 := by cases x <;> rfl
  rw [grainWord, BitVec.toNat_shiftLeft, h4, Nat.shiftLeft_eq, Nat.pow_add, Nat.mul_comm]

/-! ### The bytes a NAPOT entry matches -/

theorem isNapot_iff :
    isNapot base size = true ↔
      ∃ k, 3 ≤ k ∧ k < x.bits ∧ size.toNat = 2 ^ k ∧ base.toNat % 2 ^ k = 0 := by
  have h8 : (8 : Word x).toNat = 2 ^ 3 := by cases x <;> rfl
  simp only [isNapot, Bool.and_eq_true, decide_eq_true_eq, isPowerOfTwo_iff, ge_iff_le,
    BitVec.le_def, h8]
  constructor
  · rintro ⟨⟨hge, k, hk, hsize⟩, halign⟩
    rw [hsize] at hge
    exact ⟨k, (Nat.pow_le_pow_iff_right (by omega)).mp hge, hk, hsize,
      (isAligned_iff hsize).mp halign⟩
  · rintro ⟨k, h3, hk, hsize, halign⟩
    rw [hsize]
    exact ⟨⟨Nat.pow_le_pow_right (by omega) h3, k, hk, rfl⟩, (isAligned_iff hsize).mpr halign⟩

theorem toNat_div_four {j : Nat} (halign : base.toNat % 2 ^ (j + 3) = 0) :
    base.toNat / 4 = 2 ^ (j + 1) * (base.toNat / 2 ^ (j + 3)) := by
  obtain ⟨m, hm⟩ := Nat.dvd_of_mod_eq_zero halign
  have hquarter : base.toNat = 4 * (2 ^ (j + 1) * m) := by
    rw [hm, Nat.pow_add, Nat.pow_add]
    ring
  rw [hm, Nat.mul_div_cancel_left _ (Nat.two_pow_pos _), ← hm, hquarter,
    Nat.mul_div_cancel_left _ (by omega)]

theorem toNat_napotWord (hk : 3 ≤ k) (hsize : size.toNat = 2 ^ k)
    (halign : base.toNat % 2 ^ k = 0) :
    (napotWord base size).toNat = base.toNat / 4 + (2 ^ (k - 3) - 1) := by
  obtain ⟨j, rfl⟩ : ∃ j, k = j + 3 := ⟨k - 3, by omega⟩
  have hj := Nat.two_pow_pos j
  have hsz : (size >>> 3).toNat = 2 ^ j := by
    rw [BitVec.toNat_ushiftRight, hsize, Nat.shiftRight_eq_div_pow, Nat.pow_add,
      Nat.mul_div_cancel _ (by omega)]
  have hne : size >>> 3 ≠ 0 := fun h0 => by rw [h0] at hsz; simp at hsz; omega
  have hbase : base.toNat / 4 % 2 ^ j = 0 := by
    rw [toNat_div_four halign, Nat.pow_succ, Nat.mul_assoc, Nat.mul_mod_right]
  rw [napotWord, BitVec.toNat_or, toNat_sub_one hne, hsz, BitVec.toNat_ushiftRight,
    Nat.shiftRight_eq_div_pow]
  exact PowerTwo.or_eq_add_of_dvd hbase (by omega)

theorem napotWord_div {t : Nat} (hk : 3 ≤ k) (hsize : size.toNat = 2 ^ k)
    (halign : base.toNat % 2 ^ k = 0) (ht : k ≤ t + 3) :
    (napotWord base size).toNat / 2 ^ (t + 1) = base.toNat / 2 ^ (t + 3) := by
  obtain ⟨j, rfl⟩ : ∃ j, k = j + 3 := ⟨k - 3, by omega⟩
  obtain ⟨d, rfl⟩ : ∃ d, t = j + d := ⟨t - j, by omega⟩
  have hj := Nat.two_pow_pos j
  -- what the size adds stays below the block
  have hblock : (napotWord base size).toNat / 2 ^ (j + 1) = base.toNat / 2 ^ (j + 3) := by
    rw [toNat_napotWord hk hsize halign, toNat_div_four halign, Nat.add_comm,
      Nat.add_mul_div_left _ _ (Nat.two_pow_pos _), Nat.div_eq_of_lt, Nat.zero_add]
    rw [Nat.add_sub_cancel, Nat.pow_succ]
    omega
  calc (napotWord base size).toNat / 2 ^ (j + d + 1)
      = (napotWord base size).toNat / 2 ^ (j + 1) / 2 ^ d := by
        rw [PowerTwo.div_div_two_pow]
        congr 2
        omega
    _ = base.toNat / 2 ^ (j + 3) / 2 ^ d := by rw [hblock]
    _ = base.toNat / 2 ^ (j + d + 3) := by
        rw [PowerTwo.div_div_two_pow]
        congr 2
        omega

theorem napotWord_mod (hk : 3 ≤ k) (hsize : size.toNat = 2 ^ k) (halign : base.toNat % 2 ^ k = 0) :
    (napotWord base size).toNat % 2 ^ (k - 3 + 1) = 2 ^ (k - 3) - 1 := by
  obtain ⟨j, rfl⟩ : ∃ j, k = j + 3 := ⟨k - 3, by omega⟩
  have hj := Nat.two_pow_pos j
  rw [toNat_napotWord hk hsize halign, toNat_div_four halign, Nat.add_sub_cancel, Nat.add_comm,
    Nat.add_mul_mod_self_left, Nat.mod_eq_of_lt]
  rw [Nat.pow_succ]
  omega

variable {a : Nat}

theorem matchNapot_of_inRange (hg : g ≤ x.bits) (hk : 3 ≤ k) (hkx : k < x.bits)
    (hsize : size.toNat = 2 ^ k) (halign : base.toNat % 2 ^ k = 0)
    (ha : base.toNat ≤ a ∧ a < base.toNat + 2 ^ k) :
    matchNapot x.bits g (napotWord base size).toNat a := by
  have hmod := napotWord_mod hk hsize halign
  set p := (napotWord base size).toNat with hp
  set t := PowerTwo.trailingOnes x.bits (napotAddr g p) with ht
  -- the unit sees at least the ones of the entry, and those below the grain
  have hgrain : g - 1 ≤ t :=
    PowerTwo.le_trailingOnes (by omega) (PowerTwo.or_lowOnes_mod p (g - 1))
  have hones : k - 3 ≤ t := by
    rcases Nat.le_total (g - 1) (k - 3) with hle | hle
    · have hlow : p % 2 ^ (k - 3) = 2 ^ (k - 3) - 1 := by
        rw [← Nat.mod_mod_of_dvd p (Nat.pow_dvd_pow 2 (Nat.le_succ (k - 3))), hmod]
        exact Nat.mod_eq_of_lt (by have := Nat.two_pow_pos (k - 3); omega)
      refine PowerTwo.le_trailingOnes (by omega) ?_
      rw [napotAddr, PowerTwo.or_lowOnes_eq_self hlow hle]
      exact hlow
    · exact Nat.le_trans hle hgrain
  have haddr : napotAddr g p / 2 ^ (t + 1) = p / 2 ^ (t + 1) := by
    have hdiv := PowerTwo.or_lowOnes_div p (g - 1)
    have hsplit : t + 1 = (g - 1) + (t + 1 - (g - 1)) := by omega
    rw [napotAddr, hsplit, ← PowerTwo.div_div_two_pow, hdiv, PowerTwo.div_div_two_pow]
  have hsame : a / 2 ^ k = base.toNat / 2 ^ k := (PowerTwo.div_eq_iff_block halign).mpr ha
  have hwide : t + 3 = k + (t + 3 - k) := by omega
  rw [matchNapot, ← ht, haddr, hp, napotWord_div hk hsize halign (by omega), hwide,
    ← PowerTwo.div_div_two_pow, hsame, PowerTwo.div_div_two_pow]

theorem matchNapot_iff (hk : 3 ≤ k) (hkx : k < x.bits) (hgk : g + 2 ≤ k)
    (hsize : size.toNat = 2 ^ k) (halign : base.toNat % 2 ^ k = 0) :
    matchNapot x.bits g (napotWord base size).toNat a ↔
      base.toNat ≤ a ∧ a < base.toNat + 2 ^ k := by
  have hmod := napotWord_mod hk hsize halign
  have hlow : (napotWord base size).toNat % 2 ^ (k - 3) = 2 ^ (k - 3) - 1 := by
    rw [← Nat.mod_mod_of_dvd _ (Nat.pow_dvd_pow 2 (Nat.le_succ (k - 3))), hmod]
    exact Nat.mod_eq_of_lt (by have := Nat.two_pow_pos (k - 3); omega)
  have haddr : napotAddr g (napotWord base size).toNat = (napotWord base size).toNat :=
    PowerTwo.or_lowOnes_eq_self hlow (by omega)
  have hones : PowerTwo.trailingOnes x.bits (napotWord base size).toNat = k - 3 :=
    PowerTwo.trailingOnes_eq (by omega) hmod
  rw [matchNapot, haddr, hones, napotWord_div hk hsize halign (by omega), Nat.sub_add_cancel hk]
  exact PowerTwo.div_eq_iff_block halign

theorem matchNapot_all (hg : g ≤ x.bits) (ha : a < 2 ^ x.bits) :
    matchNapot x.bits g (~~~(0 : Word x)).toNat a := by
  have hones : (~~~(0 : Word x)).toNat = 2 ^ x.bits - 1 := by
    rw [BitVec.toNat_not]
    simp
  have hpos := x.two_pow_bits_pos
  have hmod : (2 ^ x.bits - 1) % 2 ^ x.bits = 2 ^ x.bits - 1 := Nat.mod_eq_of_lt (by omega)
  rw [hones, matchNapot, napotAddr, PowerTwo.or_lowOnes_eq_self hmod (by omega)]
  have ht := PowerTwo.le_trailingOnes (Nat.le_refl x.bits) hmod
  have hsmall (j : Nat) (hj : x.bits ≤ j) : 2 ^ x.bits ≤ 2 ^ j := Nat.pow_le_pow_right (by omega) hj
  have h1 := hsmall (PowerTwo.trailingOnes x.bits (2 ^ x.bits - 1) + 3) (by omega)
  have h2 := hsmall (PowerTwo.trailingOnes x.bits (2 ^ x.bits - 1) + 1) (by omega)
  rw [Nat.div_eq_of_lt (by omega), Nat.div_eq_of_lt (by omega)]

/-! ### The bytes a TOR pair matches -/

/-- The end of a range, rounded up to the grain, as an integer. -/
def roundedEnd (g : Nat) (base size : Word x) : Nat :=
  (base.toNat + size.toNat + 2 ^ (g + 2) - 1) / 2 ^ (g + 2) * 2 ^ (g + 2)

theorem le_roundedEnd (g : Nat) (base size : Word x) :
    base.toNat + size.toNat ≤ roundedEnd g base size := by
  have hpos := Nat.two_pow_pos (g + 2)
  have hdiv := Nat.div_add_mod (base.toNat + size.toNat + 2 ^ (g + 2) - 1) (2 ^ (g + 2))
  have hmod := Nat.mod_lt (base.toNat + size.toNat + 2 ^ (g + 2) - 1) hpos
  rw [roundedEnd, Nat.mul_comm]
  omega

theorem toNat_torTop (hfit : roundedEnd g base size < 2 ^ x.bits)
    (hpos : 0 < base.toNat + size.toNat) :
    (torTop (grainWord g) base size).toNat * 4 = roundedEnd g base size := by
  have hle := le_roundedEnd g base size
  have hg : g + 2 < x.bits := by
    -- a rounded end is a grain at least
    have hgrain : 2 ^ (g + 2) ≤ roundedEnd g base size := by
      have hone : 1 ≤ (base.toNat + size.toNat + 2 ^ (g + 2) - 1) / 2 ^ (g + 2) :=
        (Nat.one_le_div_iff (Nat.two_pow_pos _)).mpr (by omega)
      calc 2 ^ (g + 2) = 1 * 2 ^ (g + 2) := (Nat.one_mul _).symm
        _ ≤ roundedEnd g base size := Nat.mul_le_mul_right _ hone
    exact (Nat.pow_lt_pow_iff_right (by omega)).mp (Nat.lt_of_le_of_lt hgrain hfit)
  have hgrain : (grainWord g : Word x).toNat = 2 ^ (g + 2) := by
    rw [toNat_grain, Nat.mod_eq_of_lt (Nat.pow_lt_pow_right (by omega) hg)]
  have hsum : (base + size).toNat = base.toNat + size.toNat := toNat_add_of_lt (by omega)
  -- below the top there is room for one grain more
  have hroom : base.toNat + size.toNat + 2 ^ (g + 2) - 1 < 2 ^ x.bits := by
    have hdvd : 2 ^ (g + 2) ∣ 2 ^ x.bits := Nat.pow_dvd_pow 2 (by omega)
    obtain ⟨m, hm⟩ := hdvd
    have hlt : (base.toNat + size.toNat + 2 ^ (g + 2) - 1) / 2 ^ (g + 2) < m := by
      rw [roundedEnd, Nat.mul_comm, hm] at hfit
      exact Nat.lt_of_mul_lt_mul_left hfit
    rw [hm, Nat.mul_comm]
    exact (Nat.div_lt_iff_lt_mul (Nat.two_pow_pos _)).mp hlt
  have hround := toNat_roundUp2 hg hgrain (n := base + size)
  rw [hsum, ← Nat.add_sub_assoc (Nat.two_pow_pos _), Nat.mod_eq_of_lt hroom] at hround
  rw [torTop, BitVec.toNat_ushiftRight, hround, Nat.shiftRight_eq_div_pow, ← roundedEnd]
  refine Nat.div_mul_cancel ?_
  exact Dvd.dvd.mul_left (Nat.pow_dvd_pow 2 (by omega : 2 ≤ g + 2)) _

theorem toNat_shiftRight_two (base : Word x) : (base >>> 2).toNat = base.toNat / 4 := by
  rw [BitVec.toNat_ushiftRight, Nat.shiftRight_eq_div_pow]

/-- Below the top of the address space, a TOR pair has all of its range. -/
theorem matchTor_of_inRange (hfit : roundedEnd g base size < 2 ^ x.bits)
    (ha : base.toNat ≤ a ∧ a < base.toNat + size.toNat) :
    matchTor g (base >>> 2).toNat (torTop (grainWord g) base size).toNat a := by
  have htop := toNat_torTop hfit (by omega)
  have hend := le_roundedEnd g base size
  have hexact : (torTop (grainWord g) base size).toNat / 2 ^ g * 2 ^ g =
      (torTop (grainWord g) base size).toNat := by
    refine Nat.div_mul_cancel ?_
    have hdvd : 2 ^ g * 4 ∣ (torTop (grainWord g) base size).toNat * 4 := by
      rw [htop, show 2 ^ g * 4 = 2 ^ (g + 2) by rw [Nat.pow_add]]
      exact Nat.dvd_mul_left _ _
    exact Nat.dvd_of_mul_dvd_mul_right (by omega) hdvd
  have hlow := Nat.div_mul_le_self (base >>> 2).toNat (2 ^ g)
  rw [toNat_shiftRight_two] at hlow
  rw [matchTor, hexact, toNat_shiftRight_two]
  omega

/-- With 4-byte grain and an aligned range, a TOR pair has what the wrapping end
    leaves of it, and no more. -/
theorem matchTor_iff (hbase : base.toNat % 4 = 0) (hsize : size.toNat % 4 = 0) :
    matchTor 0 (base >>> 2).toNat (torTop (grainWord 0) base size).toNat a ↔
      base.toNat ≤ a ∧ a < (base + size).toNat := by
  have hgrain : (grainWord 0 : Word x).toNat = 2 ^ 2 := by cases x <;> rfl
  have hbits : 2 ^ x.bits % 4 = 0 := by cases x <;> rfl
  have hmod : (base + size).toNat % 4 = 0 := by
    rw [BitVec.toNat_add, Nat.mod_mod_of_dvd _ (Nat.dvd_of_mod_eq_zero hbits)]
    omega
  have hlt := (base + size).isLt
  have hround := toNat_roundUp2 (Nat.lt_of_succ_lt x.three_lt_bits) hgrain
    (n := base + size)
  rw [Nat.mod_eq_of_lt (by omega)] at hround
  rw [matchTor, torTop, toNat_shiftRight_two, toNat_shiftRight_two, hround]
  omega

end RiscvMonitor
