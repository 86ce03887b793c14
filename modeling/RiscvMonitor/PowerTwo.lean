import Mathlib.Tactic

/-!
# Powers of two as masks

Low-level code tests alignment, powers of two and bit fields with masks, and hardware
encodes naturally aligned blocks by a run of low ones.  The lemmas turn these masks into
division and remainder on `Nat`.
-/

namespace RiscvMonitor.PowerTwo

/-! ### Masks of low ones -/

theorem or_lowOnes_div (p j : Nat) : (p ||| (2 ^ j - 1)) / 2 ^ j = p / 2 ^ j := by
  have hpos : 0 < 2 ^ j := Nat.two_pow_pos j
  have hzero : (2 ^ j - 1) >>> j = 0 := by
    rw [Nat.shiftRight_eq_div_pow]
    exact Nat.div_eq_of_lt (by omega)
  rw [← Nat.shiftRight_eq_div_pow, Nat.shiftRight_or_distrib, hzero, Nat.or_zero,
    Nat.shiftRight_eq_div_pow]

theorem or_lowOnes_mod (p j : Nat) : (p ||| (2 ^ j - 1)) % 2 ^ j = 2 ^ j - 1 := by
  have hpos : 0 < 2 ^ j := Nat.two_pow_pos j
  rw [Nat.or_mod_two_pow, Nat.mod_eq_of_lt (show 2 ^ j - 1 < 2 ^ j by omega)]
  apply Nat.eq_of_testBit_eq
  intro i
  rw [Nat.testBit_or, Nat.testBit_mod_two_pow, Nat.testBit_two_pow_sub_one]
  by_cases hi : i < j <;> simp [hi]

theorem or_lowOnes_eq_self {p j k : Nat} (hp : p % 2 ^ k = 2 ^ k - 1) (hjk : j ≤ k) :
    p ||| (2 ^ j - 1) = p := by
  have hmod : p % 2 ^ j = 2 ^ j - 1 := by
    obtain ⟨d, rfl⟩ := Nat.exists_eq_add_of_le hjk
    have hdvd : 2 ^ j ∣ 2 ^ (j + d) := Nat.pow_dvd_pow 2 (by omega)
    rw [← Nat.mod_mod_of_dvd p hdvd, hp, Nat.pow_add]
    have hj : 0 < 2 ^ j := Nat.two_pow_pos j
    have hd : 0 < 2 ^ d := Nat.two_pow_pos d
    obtain ⟨m, hm⟩ := Nat.exists_eq_succ_of_ne_zero (Nat.pos_iff_ne_zero.mp hd)
    rw [hm, Nat.mul_succ, show 2 ^ j * m + 2 ^ j - 1 = 2 ^ j - 1 + 2 ^ j * m by omega,
      Nat.add_mul_mod_self_left]
    exact Nat.mod_eq_of_lt (by omega)
  have hdiv := or_lowOnes_div p j
  have hlow := or_lowOnes_mod p j
  calc
    p ||| (2 ^ j - 1)
        = 2 ^ j * ((p ||| (2 ^ j - 1)) / 2 ^ j) + (p ||| (2 ^ j - 1)) % 2 ^ j :=
      (Nat.div_add_mod _ _).symm
    _ = 2 ^ j * (p / 2 ^ j) + p % 2 ^ j := by rw [hdiv, hlow, hmod]
    _ = p := Nat.div_add_mod _ _

theorem or_eq_add_of_dvd {a b k : Nat} (ha : a % 2 ^ k = 0) (hb : b < 2 ^ k) :
    a ||| b = a + b := by
  obtain ⟨m, rfl⟩ := Nat.dvd_of_mod_eq_zero ha
  exact (Nat.two_pow_add_eq_or_of_lt hb m).symm

/-- Masking with `~(2 ^ g - 1)` in a word of `w` bits rounds down. -/
theorem and_highOnes {a w g : Nat} (ha : a < 2 ^ w) (hg : g ≤ w) :
    a &&& (2 ^ w - 2 ^ g) = a / 2 ^ g * 2 ^ g := by
  apply Nat.eq_of_testBit_eq
  intro i
  have hsplit : 2 ^ w - 2 ^ g = (2 ^ (w - g) - 1) * 2 ^ g := by
    rw [Nat.sub_mul, ← Nat.pow_add, Nat.sub_add_cancel hg, Nat.one_mul]
  rw [hsplit, Nat.testBit_and, Nat.testBit_mul_two_pow, Nat.testBit_mul_two_pow,
    Nat.testBit_two_pow_sub_one, Nat.testBit_div_two_pow]
  by_cases hi : g ≤ i
  · have hback : i - g + g = i := by omega
    by_cases hw : i < w
    · simp [hi, hback, show i - g < w - g by omega]
    · have hhigh : a.testBit i = false :=
        Nat.testBit_lt_two_pow (Nat.lt_of_lt_of_le ha (Nat.pow_le_pow_right (by omega) (by omega)))
      simp [hi, hback, hhigh]
  · simp [hi]

/-! ### The lowest set bit -/

theorem exists_lowestBit {n : Nat} (hn : 0 < n) : ∃ t m, n = 2 ^ t * (2 * m + 1) := by
  induction n using Nat.strongRecOn with
  | _ n ih =>
    rcases Nat.mod_two_eq_zero_or_one n with heven | hodd
    · obtain ⟨t, m, h⟩ := ih (n / 2) (by omega) (by omega)
      refine ⟨t + 1, m, ?_⟩
      rw [Nat.pow_succ, Nat.mul_comm (2 ^ t) 2, Nat.mul_assoc, ← h]
      omega
    · exact ⟨0, n / 2, by omega⟩

theorem odd_and_neg {m n : Nat} (h : 2 * m + 1 < 2 ^ n) :
    (2 * m + 1) &&& (2 ^ n - (2 * m + 1)) = 1 := by
  apply Nat.eq_of_testBit_eq
  intro i
  rw [Nat.testBit_and, Nat.testBit_two_pow_sub_succ (show 2 * m < 2 ^ n by omega)]
  cases i with
  | zero =>
    have hn : 0 < n := by
      rcases Nat.eq_zero_or_pos n with rfl | hn
      · simp at h
      · exact hn
    simp [hn]
  | succ i =>
    rw [Nat.testBit_succ, Nat.testBit_succ, Nat.testBit_succ,
      show (2 * m + 1) / 2 = m by omega, show 2 * m / 2 = m by omega]
    cases m.testBit i <;> simp

/-- `n & -n` is the lowest set bit of `n`, so it is `n` exactly for a power of
    two. -/
theorem and_neg_eq_self_iff {n w : Nat} (hpos : 0 < n) (hlt : n < 2 ^ w) :
    n &&& (2 ^ w - n) = n ↔ ∃ k, k < w ∧ n = 2 ^ k := by
  obtain ⟨t, m, rfl⟩ := exists_lowestBit hpos
  have ht : t < w := by
    have hle : 2 ^ t ≤ 2 ^ t * (2 * m + 1) := Nat.le_mul_of_pos_right _ (by omega)
    exact (Nat.pow_lt_pow_iff_right (by omega)).mp (Nat.lt_of_le_of_lt hle hlt)
  have hw : 2 ^ w = 2 ^ t * 2 ^ (w - t) := by rw [← Nat.pow_add]; congr 1; omega
  have hodd : 2 * m + 1 < 2 ^ (w - t) := by
    rw [hw] at hlt
    exact Nat.lt_of_mul_lt_mul_left hlt
  have hand : 2 ^ t * (2 * m + 1) &&& (2 ^ w - 2 ^ t * (2 * m + 1)) = 2 ^ t := by
    rw [hw, ← Nat.mul_sub, Nat.mul_comm (2 ^ t), Nat.mul_comm (2 ^ t), ← Nat.shiftLeft_eq,
      ← Nat.shiftLeft_eq, ← Nat.shiftLeft_and_distrib, odd_and_neg hodd, Nat.one_shiftLeft]
  rw [hand]
  constructor
  · intro h
    exact ⟨t, ht, h.symm⟩
  · rintro ⟨k, -, hk⟩
    -- an odd factor of a power of two is one
    have hone : 2 * m + 1 = 1 := by
      have hdvd : 2 * m + 1 ∣ 2 ^ k := ⟨2 ^ t, by rw [← hk, Nat.mul_comm]⟩
      obtain ⟨j, -, hj⟩ := (Nat.dvd_prime_pow Nat.prime_two).mp hdvd
      cases j with
      | zero => simpa using hj
      | succ j => rw [Nat.pow_succ] at hj; omega
    rw [hone, Nat.mul_one]

/-! ### Runs of low ones -/

/-- The number of ones below the lowest zero bit, at most `fuel`. -/
def trailingOnes : Nat → Nat → Nat
  | 0, _ => 0
  | fuel + 1, n => if n % 2 = 1 then trailingOnes fuel (n / 2) + 1 else 0

theorem le_trailingOnes {fuel n k : Nat} (hk : k ≤ fuel) (h : n % 2 ^ k = 2 ^ k - 1) :
    k ≤ trailingOnes fuel n := by
  induction fuel generalizing n k with
  | zero => omega
  | succ fuel ih =>
    cases k with
    | zero => omega
    | succ k =>
      have hpos : 0 < 2 ^ k := Nat.two_pow_pos k
      rw [Nat.pow_succ, Nat.mul_comm, Nat.mod_mul] at h
      have hodd : n % 2 = 1 := by omega
      have := ih (n := n / 2) (k := k) (by omega) (by omega)
      simp only [trailingOnes, hodd, if_true]
      omega

theorem trailingOnes_eq {fuel n k : Nat} (hk : k ≤ fuel) (h : n % 2 ^ (k + 1) = 2 ^ k - 1) :
    trailingOnes fuel n = k := by
  induction fuel generalizing n k with
  | zero => simp [trailingOnes]; omega
  | succ fuel ih =>
    have hpos : 0 < 2 ^ k := Nat.two_pow_pos k
    rw [Nat.pow_succ, Nat.mul_comm, Nat.mod_mul] at h
    cases k with
    | zero => simp [trailingOnes]; omega
    | succ k =>
      have hpos' : 0 < 2 ^ k := Nat.two_pow_pos k
      rw [Nat.pow_succ 2 k] at h
      have hodd : n % 2 = 1 := by omega
      have := ih (n := n / 2) (k := k) (by omega) (by rw [Nat.pow_succ]; omega)
      simp only [trailingOnes, hodd, if_true, this]

/-! ### Aligned blocks -/

/-- Two numbers are in the same block of `2 ^ k` exactly when one lies between
    the ends of the other's block. -/
theorem div_eq_iff_block {a b k : Nat} (hb : b % 2 ^ k = 0) :
    a / 2 ^ k = b / 2 ^ k ↔ b ≤ a ∧ a < b + 2 ^ k := by
  have hpos : 0 < 2 ^ k := Nat.two_pow_pos k
  obtain ⟨m, rfl⟩ := Nat.dvd_of_mod_eq_zero hb
  rw [Nat.mul_div_cancel_left _ hpos, Nat.div_eq_iff hpos, Nat.mul_comm m]
  constructor <;> intro h <;> omega

theorem add_two_pow_le {b k n : Nat} (hb : b < 2 ^ n) (hk : k ≤ n) (halign : b % 2 ^ k = 0) :
    b + 2 ^ k ≤ 2 ^ n := by
  obtain ⟨m, rfl⟩ := Nat.dvd_of_mod_eq_zero halign
  have hpow : 2 ^ n = 2 ^ k * 2 ^ (n - k) := by
    rw [← Nat.pow_add]
    congr 1
    omega
  rw [hpow] at hb ⊢
  have hm : m + 1 ≤ 2 ^ (n - k) := Nat.lt_of_mul_lt_mul_left hb
  calc 2 ^ k * m + 2 ^ k = 2 ^ k * (m + 1) := (Nat.mul_succ _ _).symm
    _ ≤ 2 ^ k * 2 ^ (n - k) := Nat.mul_le_mul_left _ hm

theorem div_div_two_pow (a j k : Nat) : a / 2 ^ j / 2 ^ k = a / 2 ^ (j + k) := by
  rw [Nat.div_div_eq_div_mul, ← Nat.pow_add]

end RiscvMonitor.PowerTwo
