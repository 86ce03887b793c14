import Mathlib.Data.Nat.Bitwise

/-!
# 64-bit division

`divdi3.c` divides by shifting and subtracting, for toolchains that come without it.
The remainder is doubled in 64 bits; it stays below the bits of the dividend that
were taken so far, so nothing is shifted out, whatever the divisor.
-/

namespace RiscvMonitor.Division

/-- The loop of `__udivmoddi4()`, with `i` bits to go: the quotient and the remainder -/
def udivmodLoop (n d : BitVec 64) : Nat → BitVec 64 → BitVec 64 → BitVec 64 × BitVec 64
  | 0, q, r => (q, r)
  | i + 1, q, r =>
    let r := r <<< 1 ||| (n >>> i &&& 1#64)
    if d ≤ r then udivmodLoop n d i (q ||| 1#64 <<< i) (r - d) else udivmodLoop n d i q r

def udivmoddi4 (n d : BitVec 64) : BitVec 64 × BitVec 64 :=
  if d = 0 then (~~~0, n) else udivmodLoop n d 64 0 0

/-- `n < 0 ? -(uint64_t)n : (uint64_t)n` -/
def magnitude (n : BitVec 64) : BitVec 64 := if n.slt 0#64 then -n else n

def divdi3 (n d : BitVec 64) : BitVec 64 :=
  let q := (udivmoddi4 (magnitude n) (magnitude d)).1
  if n.slt 0#64 != d.slt 0#64 then -q else q

def moddi3 (n d : BitVec 64) : BitVec 64 :=
  let r := (udivmoddi4 (magnitude n) (magnitude d)).2
  if n.slt 0#64 then -r else r

variable {n d q r : BitVec 64} {i : Nat}

/-- What was taken of the dividend is the quotient so far times the divisor, and the
    remainder. -/
def Divided (n d : BitVec 64) (i : Nat) (q r : BitVec 64) : Prop :=
  ∃ k, q.toNat = 2 ^ i * k ∧ n.toNat / 2 ^ i = k * d.toNat + r.toNat ∧ r.toNat < d.toNat

theorem toNat_shifted (hr : r.toNat ≤ n.toNat / 2 ^ (i + 1)) :
    (r <<< 1 ||| (n >>> i &&& 1#64)).toNat = 2 * r.toNat + n.toNat / 2 ^ i % 2 := by
  have hn := n.isLt
  have hhalf : n.toNat / 2 ^ (i + 1) ≤ n.toNat / 2 :=
    Nat.div_le_div_left (Nat.le_self_pow (by omega) 2) (by omega)
  have hor := Nat.two_pow_add_eq_or_of_lt (i := 1) (Nat.mod_lt (n.toNat / 2 ^ i) (by omega)) r.toNat
  have hbit : (n >>> i &&& 1#64).toNat = n.toNat / 2 ^ i % 2 := by
    rw [BitVec.toNat_and, BitVec.toNat_ushiftRight, Nat.shiftRight_eq_div_pow]
    exact Nat.and_one_is_mod _
  have hdouble : (r <<< 1).toNat = 2 ^ 1 * r.toNat := by
    rw [BitVec.toNat_shiftLeft, Nat.shiftLeft_eq, Nat.mul_comm, Nat.mod_eq_of_lt (by omega)]
  rw [BitVec.toNat_or, hdouble, hbit, ← hor, pow_one]

theorem toNat_setBit {k : Nat} (hq : q.toNat = 2 ^ (i + 1) * k) (hi : i < 64) :
    (q ||| 1#64 <<< i).toNat = 2 ^ i * (2 * k + 1) := by
  have hlt : 2 ^ i < 2 ^ 64 := Nat.pow_lt_pow_right (by omega) hi
  have hbit : (1#64 <<< i).toNat = 2 ^ i := by
    rw [BitVec.toNat_shiftLeft, Nat.shiftLeft_eq]
    exact (congrArg (· % 2 ^ 64) (Nat.one_mul _)).trans (Nat.mod_eq_of_lt hlt)
  have hor := Nat.two_pow_add_eq_or_of_lt (Nat.pow_lt_pow_right (by omega) i.lt_succ_self) k
  rw [BitVec.toNat_or, hbit, hq, ← hor, pow_succ, Nat.mul_add, Nat.mul_one, Nat.mul_assoc]

theorem Divided.next (h : Divided n d (i + 1) q r) (hi : i < 64) :
    let r' := r <<< 1 ||| (n >>> i &&& 1#64)
    if d ≤ r' then Divided n d i (q ||| 1#64 <<< i) (r' - d) else Divided n d i q r' := by
  obtain ⟨k, hq, htaken, hlt⟩ := h
  have hr : (r <<< 1 ||| (n >>> i &&& 1#64)).toNat = 2 * r.toNat + n.toNat / 2 ^ i % 2 :=
    toNat_shifted (htaken ▸ Nat.le_add_left ..)
  have hbits : n.toNat / 2 ^ i = 2 * k * d.toNat + (2 * r.toNat + n.toNat / 2 ^ i % 2) := by
    have hdiv : n.toNat / 2 ^ i / 2 = k * d.toNat + r.toNat := by
      rw [Nat.div_div_eq_div_mul, ← pow_succ, htaken]
    have := Nat.div_add_mod (n.toNat / 2 ^ i) 2
    rw [hdiv] at this
    rw [Nat.mul_assoc]
    omega
  intro r'
  split
  · next hle =>
    have hle' : d.toNat ≤ r'.toNat := hle
    refine ⟨2 * k + 1, toNat_setBit hq hi, ?_, ?_⟩
    · rw [BitVec.toNat_sub_of_le hle, Nat.add_mul, Nat.one_mul, Nat.add_assoc,
        Nat.add_sub_cancel' hle', hr]
      exact hbits
    · rw [BitVec.toNat_sub_of_le hle, hr]
      omega
  · next hgt =>
    refine ⟨2 * k, ?_, ?_, BitVec.not_le.mp hgt⟩
    · rw [hq, pow_succ, Nat.mul_assoc]
    · rw [hr]
      exact hbits

theorem Divided.loop (h : Divided n d i q r) (hi : i ≤ 64) :
    Divided n d 0 (udivmodLoop n d i q r).1 (udivmodLoop n d i q r).2 := by
  induction i generalizing q r with
  | zero => exact h
  | succ i ih =>
    have hnext := h.next hi
    rw [udivmodLoop]
    dsimp only at hnext ⊢
    split
    · next hle =>
      rw [if_pos hle] at hnext
      exact ih hnext (by omega)
    · next hlt =>
      rw [if_neg hlt] at hnext
      exact ih hnext (by omega)

theorem udivmoddi4_eq (n : BitVec 64) (hd : d ≠ 0) : udivmoddi4 n d = (n / d, n % d) := by
  have hpos : 0#64 < d := (BitVec.pos_iff_ne_zero d).mpr hd
  have hstart : Divided n d 64 0 0 :=
    ⟨0, rfl, (Nat.div_eq_of_lt n.isLt).trans (by simp), hpos⟩
  obtain ⟨k, hq, htaken, hlt⟩ := hstart.loop (Nat.le_refl 64)
  rw [pow_zero, Nat.one_mul] at hq
  rw [pow_zero, Nat.div_one, ← hq, Nat.mul_comm] at htaken
  rw [udivmoddi4, if_neg hd]
  exact Prod.ext (BitVec.udiv_eq_of_mul_add_toNat hpos hlt htaken.symm).symm
    (BitVec.umod_eq_of_mul_add_toNat hlt htaken.symm).symm

/-- The quotient and the remainder of any division but one by zero, as integers. -/
theorem division (n d : BitVec 64) (hd : d ≠ 0) :
    (n.toNat = (udivmoddi4 n d).1.toNat * d.toNat + (udivmoddi4 n d).2.toNat ∧
      (udivmoddi4 n d).2.toNat < d.toNat) ∧
      (divdi3 n d).toInt = (n.toInt.tdiv d.toInt).bmod (2 ^ 64) ∧
      (n ≠ BitVec.intMin 64 ∨ d ≠ -1 → (divdi3 n d).toInt = n.toInt.tdiv d.toInt) ∧
      (moddi3 n d).toInt = n.toInt.tmod d.toInt := by
  have hmagnitude : magnitude d ≠ 0 := by
    unfold magnitude
    split
    · exact fun h => hd (BitVec.neg_eq_zero_iff.mp h)
    · exact hd
  have hdiv : divdi3 n d = n.sdiv d := by
    rw [divdi3, udivmoddi4_eq _ hmagnitude, BitVec.sdiv_eq]
    simp only [magnitude, BitVec.slt_zero_eq_msb]
    cases n.msb <;> cases d.msb <;> simp
  have hmod : moddi3 n d = n.srem d := by
    rw [moddi3, udivmoddi4_eq _ hmagnitude, BitVec.srem_eq]
    simp only [magnitude, BitVec.slt_zero_eq_msb]
    cases n.msb <;> cases d.msb <;> simp
  rw [udivmoddi4_eq n hd, hdiv, hmod]
  refine ⟨⟨?_, ?_⟩, BitVec.toInt_sdiv n d, fun h => BitVec.toInt_sdiv_of_ne_or_ne n d h,
    BitVec.toInt_srem n d⟩
  · rw [BitVec.toNat_udiv, BitVec.toNat_umod, Nat.mul_comm, Nat.div_add_mod]
  · exact BitVec.umod_lt n ((BitVec.pos_iff_ne_zero d).mpr hd)

/-- A divisor above 2^63. -/
theorem division_large :
    (udivmoddi4 (-1) (-2)).1.toNat = 1 ∧
      (-1 : BitVec 64).toNat = (udivmoddi4 (-1) (-2)).1.toNat * (-2 : BitVec 64).toNat +
        (udivmoddi4 (-1) (-2)).2.toNat :=
  ⟨by decide +kernel, (division (-1) (-2) (by decide)).1.1⟩

end RiscvMonitor.Division
