import RiscvMonitor.PowerTwo

/-!
# Registers and `util.h`

The monitor is built for RV32 and RV64 from one source: an address, a size and a CSR
value are an `unsigned long`.  Arithmetic on it wraps, so a word is a `BitVec` and the
macros of `util.h` are written on it as they are in C.  The lemmas read them over the
integers.
-/

namespace RiscvMonitor

inductive Xlen where
  | rv32
  | rv64
deriving DecidableEq, Repr

def Xlen.bits : Xlen → Nat
  | .rv32 => 32
  | .rv64 => 64

instance neZero_two : NeZero 2 := ⟨by decide⟩
instance neZero_registers : NeZero 32 := ⟨by decide⟩

/-- `unsigned long`: addresses, sizes, CSR values. -/
abbrev Word (x : Xlen) := BitVec x.bits

/-- `BIT(nr)` -/
def bit {x : Xlen} (nr : Nat) : Word x := 1#x.bits <<< nr

/-- `IS_POWER_OF_TWO(n)`: zero is none. -/
def isPowerOfTwo {x : Xlen} (n : Word x) : Bool :=
  n != 0 && n &&& (~~~n + 1) == n

/-- `IS_ALIGNED(n, a)`, to a power of two `a`. -/
def isAligned {w : Nat} (n a : BitVec w) : Bool := n &&& (a - 1) == 0

/-- `ROUNDUP2(n, y)`, to a power of two `y`; the sum wraps. -/
def roundUp2 {x : Xlen} (n y : Word x) : Word x := (n + y - 1) &&& ~~~(y - 1)

def regPairTo64 (high low : BitVec 32) : BitVec 64 := high ++ low

theorem Xlen.bits_cases (x : Xlen) : x.bits = 32 ∨ x.bits = 64 := by
  cases x <;> simp [Xlen.bits]

theorem Xlen.three_lt_bits (x : Xlen) : 3 < x.bits := by
  cases x <;> simp [Xlen.bits]

theorem Xlen.two_pow_bits_pos (x : Xlen) : 0 < 2 ^ x.bits := Nat.two_pow_pos _

variable {x : Xlen}

theorem toNat_bit {nr : Nat} (h : nr < x.bits) : (bit nr : Word x).toNat = 2 ^ nr := by
  have hlt : 2 ^ nr < 2 ^ x.bits := Nat.pow_lt_pow_right (by omega) h
  rw [bit, BitVec.toNat_shiftLeft, BitVec.toNat_ofNat, Nat.shiftLeft_eq,
    Nat.mod_eq_of_lt (Nat.one_lt_two_pow (by have := x.three_lt_bits; omega)),
    Nat.one_mul, Nat.mod_eq_of_lt hlt]

theorem toNat_one : (1 : Word x).toNat = 1 := by
  cases x <;> rfl

/-! ### Sums that wrap -/

theorem toNat_add_of_lt {w : Nat} {a b : BitVec w} (h : a.toNat + b.toNat < 2 ^ w) :
    (a + b).toNat = a.toNat + b.toNat := by
  rw [BitVec.toNat_add, Nat.mod_eq_of_lt h]

theorem toNat_add_of_ge {w : Nat} {a b : BitVec w} (h : 2 ^ w ≤ a.toNat + b.toNat) :
    (a + b).toNat = a.toNat + b.toNat - 2 ^ w := by
  have ha := a.isLt
  have hb := b.isLt
  rw [BitVec.toNat_add, Nat.mod_eq_sub_mod h, Nat.mod_eq_of_lt (by omega)]

theorem toNat_pos {a : Word x} (h : a ≠ 0) : 0 < a.toNat := by
  rcases Nat.eq_zero_or_pos a.toNat with h0 | hpos
  · exact absurd (BitVec.eq_of_toNat_eq (by simpa using h0)) h
  · exact hpos

theorem toNat_sub_one {a : Word x} (h : a ≠ 0) : (a - 1).toNat = a.toNat - 1 := by
  have hpos := toNat_pos h
  rw [BitVec.toNat_sub_of_le (by rw [BitVec.le_def, toNat_one]; exact hpos), toNat_one]

theorem toNat_add_sub_one {a b : Word x} (hb : 0 < b.toNat)
    (hfit : a.toNat + b.toNat ≤ 2 ^ x.bits) :
    (a + b - 1).toNat = a.toNat + b.toNat - 1 := by
  rcases Nat.lt_or_eq_of_le hfit with hlt | htop
  · have hsum := toNat_add_of_lt hlt
    have hne : a + b ≠ 0 := by
      intro h0
      rw [h0] at hsum
      simp at hsum
      omega
    rw [toNat_sub_one hne, hsum]
  · -- the exclusive end is zero, one below it is the last address
    have hzero : (a + b).toNat = 0 := by rw [toNat_add_of_ge (by omega), htop, Nat.sub_self]
    rw [BitVec.toNat_sub, hzero, toNat_one, Nat.add_zero, Nat.mod_eq_of_lt (by omega), htop]

/-! ### The macros over the integers -/

theorem isPowerOfTwo_iff {n : Word x} :
    isPowerOfTwo n = true ↔ ∃ k, k < x.bits ∧ n.toNat = 2 ^ k := by
  have hneg (hn : n.toNat ≠ 0) : (~~~n + 1).toNat = 2 ^ x.bits - n.toNat := by
    have := n.isLt
    have hnot : (~~~n).toNat = 2 ^ x.bits - 1 - n.toNat := BitVec.toNat_not
    rw [toNat_add_of_lt (by rw [hnot, toNat_one]; omega), hnot, toNat_one]
    omega
  simp only [isPowerOfTwo, Bool.and_eq_true, bne_iff_ne, ne_eq, beq_iff_eq]
  constructor
  · rintro ⟨hne, hand⟩
    have hn : n.toNat ≠ 0 := fun h => hne (BitVec.eq_of_toNat_eq (by simpa using h))
    have htoNat := congrArg BitVec.toNat hand
    rw [BitVec.toNat_and, hneg hn] at htoNat
    exact (PowerTwo.and_neg_eq_self_iff (Nat.pos_of_ne_zero hn) n.isLt).mp htoNat
  · rintro ⟨k, hk, hn⟩
    have hpos : 0 < 2 ^ k := Nat.two_pow_pos k
    have hne : n.toNat ≠ 0 := by omega
    refine ⟨fun h => hne (by simp [h]), ?_⟩
    apply BitVec.eq_of_toNat_eq
    rw [BitVec.toNat_and, hneg hne]
    exact (PowerTwo.and_neg_eq_self_iff (by omega) n.isLt).mpr ⟨k, hk, hn⟩

theorem isAligned_iff {w k : Nat} {n a : BitVec w} (ha : a.toNat = 2 ^ k) :
    isAligned n a = true ↔ n.toNat % 2 ^ k = 0 := by
  have hpos : 0 < 2 ^ k := Nat.two_pow_pos k
  have hw : 0 < w := by
    rcases Nat.eq_zero_or_pos w with rfl | hw
    · have := a.isLt; simp at this; omega
    · exact hw
  have hone : (1 : BitVec w).toNat = 1 := by
    show (BitVec.ofNat w 1).toNat = 1
    rw [BitVec.toNat_ofNat, Nat.mod_eq_of_lt (Nat.one_lt_two_pow (by omega))]
  have hsub : (a - 1).toNat = 2 ^ k - 1 := by
    rw [BitVec.toNat_sub_of_le (by rw [BitVec.le_def, hone]; omega), hone, ha]
  simp only [isAligned, beq_iff_eq]
  rw [← BitVec.toNat_inj, BitVec.toNat_and, hsub, Nat.and_two_pow_sub_one_eq_mod]
  simp

theorem toNat_roundUp2 {n y : Word x} {g : Nat} (hg : g < x.bits) (hy : y.toNat = 2 ^ g) :
    (roundUp2 n y).toNat = (n.toNat + (2 ^ g - 1)) % 2 ^ x.bits / 2 ^ g * 2 ^ g := by
  have hlt : 2 ^ g < 2 ^ x.bits := Nat.pow_lt_pow_right (by omega) hg
  have hpos : 0 < 2 ^ g := Nat.two_pow_pos g
  have hyne : y ≠ 0 := fun h => by simp [h] at hy; omega
  have hsum : n + y - 1 = n + (y - 1) := by
    rw [BitVec.sub_eq_add_neg, BitVec.sub_eq_add_neg, BitVec.add_assoc]
  have hmask : (~~~(y - 1)).toNat = 2 ^ x.bits - 2 ^ g := by
    rw [BitVec.toNat_not, toNat_sub_one hyne, hy]
    omega
  rw [roundUp2, hsum, BitVec.toNat_and, BitVec.toNat_add, toNat_sub_one hyne, hy, hmask]
  exact PowerTwo.and_highOnes (Nat.mod_lt _ x.two_pow_bits_pos) (by omega)

end RiscvMonitor
