import Mathlib.Data.BitVec

/-!
# Reading and writing registers through masks

C code tests a field of a register with `reg & mask`, clears it with `reg &= ~mask`
and sets it with `reg |= mask`.  One lemma each says what the three do to a single
bit, so that a sequence of them is read off bit by bit.
-/

namespace RiscvMonitor.Masks

variable {w : Nat}

/-- `reg & mask`, as a condition. -/
def has (reg mask : BitVec w) : Bool := reg &&& mask != 0

/-- `reg &= ~mask` -/
def clear (reg mask : BitVec w) : BitVec w := reg &&& ~~~mask

/-- `if (c) reg |= mask` -/
def setIf (c : Bool) (reg mask : BitVec w) : BitVec w := if c then reg ||| mask else reg

@[simp]
theorem getLsbD_clear (reg mask : BitVec w) (i : Nat) :
    (clear reg mask).getLsbD i = (reg.getLsbD i && !mask.getLsbD i) := by
  rw [clear, BitVec.getLsbD_and, BitVec.getLsbD_not]
  by_cases hi : i < w
  · simp [hi]
  · rw [BitVec.getLsbD_of_ge reg i (by omega)]
    simp

@[simp]
theorem getLsbD_setIf (c : Bool) (reg mask : BitVec w) (i : Nat) :
    (setIf c reg mask).getLsbD i = (reg.getLsbD i || (c && mask.getLsbD i)) := by
  cases c <;> simp [setIf]

theorem clear_or_of_subset {m v mask : BitVec w} (hv : clear v mask = 0#w) :
    clear (m ||| v) mask = clear m mask := by
  apply BitVec.eq_of_getLsbD_eq
  intro i _
  have hbit := congrArg (BitVec.getLsbD · i) hv
  simp only [getLsbD_clear, BitVec.getLsbD_zero] at hbit
  simp only [getLsbD_clear, BitVec.getLsbD_or, Bool.and_or_distrib_right, hbit, Bool.or_false]

theorem clear_clear_of_subset {m field mask : BitVec w} (hfield : clear field mask = 0#w) :
    clear (clear m field) mask = clear m mask := by
  apply BitVec.eq_of_getLsbD_eq
  intro i _
  have hbit := congrArg (BitVec.getLsbD · i) hfield
  simp only [getLsbD_clear, BitVec.getLsbD_zero] at hbit ⊢
  cases hm : mask.getLsbD i with
  | true => simp
  | false =>
    rw [hm, Bool.not_false, Bool.and_true] at hbit
    simp [hbit]

@[simp]
theorem clear_self (mask : BitVec w) : clear mask mask = 0#w := BitVec.and_not_self mask

theorem clear_or_and (v mask : BitVec w) : clear v mask ||| v &&& mask = v := by
  apply BitVec.eq_of_getLsbD_eq
  intro i _
  simp only [BitVec.getLsbD_or, getLsbD_clear, BitVec.getLsbD_and]
  cases mask.getLsbD i <;> simp

@[simp]
theorem clear_and (v mask : BitVec w) : clear v mask &&& mask = 0#w := by
  simp [clear, BitVec.and_assoc]

theorem or_and_self (v mask : BitVec w) : (v ||| mask) &&& mask = mask := by
  apply BitVec.eq_of_getLsbD_eq
  intro i _
  simp only [BitVec.getLsbD_and, BitVec.getLsbD_or]
  cases mask.getLsbD i <;> simp

@[simp]
theorem has_twoPow (reg : BitVec w) (n : Nat) :
    has reg (BitVec.twoPow w n) = reg.getLsbD n := by
  rw [has, Bool.eq_iff_iff, bne_iff_ne, ne_eq]
  constructor
  · intro hne
    by_contra hclear
    apply hne
    apply BitVec.eq_of_getLsbD_eq
    intro i hi
    rw [BitVec.getLsbD_and, BitVec.getLsbD_twoPow]
    by_cases hin : n = i
    · subst hin
      simp [hclear]
    · simp [hin]
  · intro hset hzero
    have hn : n < w := BitVec.lt_of_getLsbD hset
    have hbit : (reg &&& BitVec.twoPow w n).getLsbD n = false := by
      rw [hzero]
      exact BitVec.getLsbD_zero
    rw [BitVec.getLsbD_and, hset, BitVec.getLsbD_twoPow] at hbit
    simp [hn] at hbit

end RiscvMonitor.Masks
