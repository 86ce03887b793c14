import RiscvMonitor.Fwft

/-!
# Setting a feature

Each feature's field of `menvcfg` takes the values that the hart implements, and a
write of another one leaves any of them.  `feature_exists()` tries the field with all
its bits, so that a hart with some of the values only has the feature where all the
bits are one of them.
-/

namespace RiscvMonitor.Fwft

open Masks

variable {x : Xlen} {hw : Hardware} {b : Hart x}

structure Values (hw : Hardware) where
  legal : Feature → BitVec 64 → Prop
  inside : ∀ {f v}, legal f v → v &&& featureField f = v
  zero : ∀ f, legal f 0
  /-- A legal value is taken, whatever the other fields are. -/
  takes : ∀ o {v f}, legal f (v &&& featureField f) →
    hw.legal o v &&& featureField f = v &&& featureField f
  leaves : ∀ o v f, legal f (hw.legal o v &&& featureField f)
  /-- Without the register there is nothing to set. -/
  absent : hw.menvcfg = false → ∀ {f v}, legal f v → v = 0

theorem featureField_ne_zero {f : Feature} (hf : f ≠ .misalignedExcDeleg) :
    featureField f ≠ 0 := by
  revert hf
  cases f <;> decide

theorem set_failed (hb : hw.Takes b.menvcfg) {feature : Nat} {value flags : Word x}
    (hfailed : (set hw b feature value flags).2 ≠ .success) :
    (set hw b feature value flags).1 = b := by
  rcases set_cases hb feature value flags with ⟨hsame, -⟩ | ⟨f, bits, -, -, -, -, heq⟩
  · exact hsame
  · rw [heq] at hfailed
    exact absurd rfl hfailed

/-! ### The values that are taken -/

section Values

variable (w : Values hw) {f : Feature} {v : BitVec 64}
include w

theorem envcfgWrite_field (hv : w.legal f v) :
    (envcfgWrite hw b (clear b.menvcfg (featureField f) ||| v)).menvcfg &&& featureField f = v := by
  have hfield : (clear b.menvcfg (featureField f) ||| v) &&& featureField f = v := by
    rw [BitVec.and_or_distrib_right, clear_and, BitVec.zero_or, w.inside hv]
  exact (w.takes b.menvcfg (hfield.symm ▸ hv)).trans hfield

theorem envcfgUpdate_iff (hon : hw.menvcfg = true) :
    (envcfgUpdate hw b (featureField f) v).2 = true ↔ w.legal f v := by
  simp only [envcfgUpdate, hon, Bool.true_eq_false, if_false]
  split
  · next hread =>
    refine ⟨fun _ => ?_, fun _ => rfl⟩
    exact hread ▸ w.leaves b.menvcfg _ f
  · next hread =>
    refine ⟨Bool.false_ne_true.elim, fun hv => ?_⟩
    exact absurd (envcfgWrite_field w hv) hread

theorem envcfgUpdate_field (hon : hw.menvcfg = true) (hv : w.legal f v) :
    (envcfgUpdate hw b (featureField f) v).1.menvcfg &&& featureField f = v := by
  have hread := envcfgWrite_field (b := b) w hv
  simp only [envcfgUpdate, hon, Bool.true_eq_false, if_false, if_pos hread]
  exact hread

theorem featureExists_iff (hf : f ≠ .misalignedExcDeleg) :
    (featureExists hw b f).2 = true ↔ w.legal f (featureField f) := by
  have hne := featureField_ne_zero hf
  unfold featureExists
  rw [if_neg hf]
  split
  · next hoff =>
    refine ⟨Bool.false_ne_true.elim, fun hall => ?_⟩
    exact absurd (w.absent hoff hall) hne
  · next hon => exact envcfgUpdate_iff w (Bool.not_eq_false _ ▸ hon)

end Values

/-! ### Set, and get -/

theorem featureCheck_number (hb : hw.Takes b.menvcfg) (f : Feature) :
    featureCheck hw b f.number =
      (b, if (featureExists hw b f).2 then .ok f else .error .notSupported) := by
  have hfind : (Feature.all.find? fun g => g.number == f.number) = some f := by
    cases f <;> rfl
  rw [featureCheck, hfind]
  simp only [featureExists_fst hb f]

def fieldValue (f : Feature) (field : BitVec 64) : Word x :=
  if f = .pointerMaskingPmlen then
    if field >>> 32 = 2 then 7 else if field >>> 32 = 3 then 16 else 0
  else if field ≠ 0 then 1
  else 0

theorem fieldValue_featureBits {f : Feature} (hf : f ≠ .misalignedExcDeleg) {value : Word x}
    {bits : BitVec 64} (hbits : featureBits f value = some bits) : fieldValue f bits = value := by
  unfold featureBits at hbits
  split at hbits
  · next hpmlen =>
    subst hpmlen
    split at hbits
    · next hzero => cases hbits; subst hzero; rfl
    split at hbits
    · next hseven => cases hbits; subst hseven; rfl
    split_ifs at hbits with hsixteen
    cases hbits; subst hsixteen; rfl
  · next hpmlen =>
    have hne := featureField_ne_zero hf
    split at hbits
    · next hzero => cases hbits; simp [fieldValue, hpmlen, hzero]
    split_ifs at hbits with hone
    cases hbits; rw [fieldValue, if_neg hpmlen, if_pos hne, hone]

theorem get_number (hb : hw.Takes b.menvcfg) {f : Feature} (hf : f ≠ .misalignedExcDeleg)
    (hexists : (featureExists hw b f).2 = true) :
    get hw b f.number = (b, .success, fieldValue f (b.menvcfg &&& featureField f)) := by
  rw [get, featureCheck_number hb f, if_pos hexists]
  cases f <;> first | exact absurd rfl hf | rfl

/-- A call to set a feature of `menvcfg` that nothing forbids. -/
structure Request (b : Hart x) where
  feature : Feature
  value : Word x
  flags : Word x
  bits : BitVec 64
  envcfg : feature ≠ .misalignedExcDeleg
  defined : featureBits feature value = some bits
  valid : clear flags 1 = 0
  unlocked : b.f.locked.getLsbD feature.number = false

def Request.set (hw : Hardware) (r : Request b) : Hart x × SbiError :=
  Fwft.set hw b r.feature.number r.value r.flags

theorem Request.set_eq (hb : hw.Takes b.menvcfg) (r : Request b) :
    r.set hw =
      if (featureExists hw b r.feature).2 = false then (b, .notSupported)
      else
        let u := envcfgUpdate hw b (featureField r.feature) r.bits
        if u.2 = false then (u.1, .invalidParam)
        else
          ({ u.1 with
            f := { u.1.f with
              locked := setIf (r.flags.getLsbD 0) u.1.f.locked (1#64 <<< r.feature.number) } },
            .success) := by
  rw [Request.set, Fwft.set, featureCheck_number hb]
  cases hexists : (featureExists hw b r.feature).2 with
  | false => rfl
  | true =>
    have hvalid : ¬ clear r.flags 1 ≠ 0 := not_not_intro r.valid
    simp only [if_true, if_neg hvalid, r.unlocked, Bool.false_eq_true, if_false, r.defined,
      featureWrite, if_neg r.envcfg, Bool.true_eq_false]

section Request

variable (w : Values hw) (hb : hw.Takes b.menvcfg) (r : Request b)
include w hb

theorem Request.set_eq_success_iff :
    (r.set hw).2 = .success ↔
      w.legal r.feature (featureField r.feature) ∧ w.legal r.feature r.bits := by
  rw [r.set_eq hb]
  have hexists := featureExists_iff (b := b) w r.envcfg
  by_cases hall : w.legal r.feature (featureField r.feature)
  · have hon : hw.menvcfg = true := by
      by_contra hoff
      exact featureField_ne_zero r.envcfg (w.absent (Bool.not_eq_true _ ▸ hoff) hall)
    have hupdate := envcfgUpdate_iff (b := b) (f := r.feature) (v := r.bits) w hon
    rw [hexists.2 hall, if_neg Bool.false_ne_true.symm]
    dsimp only
    split
    · next hstuck => simp [← hupdate, hstuck]
    · next hstuck => simp [← hupdate, hall, hstuck]
  · have hno : (featureExists hw b r.feature).2 = false :=
      Bool.not_eq_true _ ▸ mt hexists.1 hall
    simp [hno, hall]

theorem Request.get_set (hsuccess : (r.set hw).2 = .success) :
    (get hw (r.set hw).1 r.feature.number).2 = (.success, r.value) := by
  obtain ⟨hall, hlegal⟩ := (r.set_eq_success_iff w hb).1 hsuccess
  have hon : hw.menvcfg = true := by
    by_contra hoff
    exact featureField_ne_zero r.envcfg (w.absent (Bool.not_eq_true _ ▸ hoff) hall)
  have hexists := (featureExists_iff (b := b) w r.envcfg).2 hall
  have hstuck := (envcfgUpdate_iff (b := b) w hon).2 hlegal
  have hmenvcfg : (r.set hw).1.menvcfg =
      (envcfgUpdate hw b (featureField r.feature) r.bits).1.menvcfg := by
    simp only [r.set_eq hb, hexists, hstuck, Bool.true_eq_false, if_false]
  have htakes : hw.Takes (r.set hw).1.menvcfg := hmenvcfg ▸ envcfgUpdate_takes hb _ _
  rw [get_number htakes r.envcfg ((featureExists_iff w r.envcfg).2 hall), hmenvcfg,
    envcfgUpdate_field w hon hlegal, fieldValue_featureBits r.envcfg r.defined]

end Request

/-- The hart takes exactly the values that it implements, unless the field does not take all its
    bits at once and the value asked for is one of them; a set that fails changes nothing. -/
theorem set_exact_iff (w : Values hw) (hb : hw.Takes b.menvcfg) :
    (∀ r : Request b, (∃ v, v ≠ 0 ∧ w.legal r.feature v) →
      ((((r.set hw).2 = .success ↔ w.legal r.feature r.bits) ∧
          ((r.set hw).2 = .success →
            (get hw (r.set hw).1 r.feature.number).2 = (.success, r.value))) ↔
        (w.legal r.feature r.bits → w.legal r.feature (featureField r.feature)))) ∧
      ∀ (feature : Nat) (value flags : Word x), (set hw b feature value flags).2 ≠ .success →
        (set hw b feature value flags).1 = b := by
  refine ⟨fun r _ => ?_, fun _ _ _ hfailed => set_failed hb hfailed⟩
  rw [and_iff_left (r.get_set w hb), r.set_eq_success_iff w hb, and_iff_right_iff_imp]

/-! ### A pointer masking of one length -/

/-- A write of another value than 0 and 2 clears `PMM`. -/
def sevenWrite (v : BitVec 64) : BitVec 64 :=
  if v.getLsbD 32 then clear v (featureField .pointerMaskingPmlen) else v

theorem pmlen_bit : (featureField .pointerMaskingPmlen).getLsbD 32 = true := by decide

theorem sevenWrite_bit (v : BitVec 64) : (sevenWrite v).getLsbD 32 = false := by
  unfold sevenWrite
  split
  · rw [getLsbD_clear, pmlen_bit, Bool.not_true, Bool.and_false]
  · next hv => exact Bool.not_eq_true _ ▸ hv

theorem sevenWrite_of_bit {v : BitVec 64} (hv : v.getLsbD 32 = false) : sevenWrite v = v := by
  rw [sevenWrite, hv, if_neg Bool.false_ne_true]

theorem sevenWrite_rest (v : BitVec 64) :
    clear (sevenWrite v) featureFields = clear v featureFields := by
  have hfields : clear (featureField .pointerMaskingPmlen) featureFields = 0#64 := by decide
  unfold sevenWrite
  split
  · exact clear_clear_of_subset hfields
  · rfl

theorem sevenWrite_field {f : Feature} (hf : f ≠ .pointerMaskingPmlen) (v : BitVec 64) :
    sevenWrite v &&& featureField f = v &&& featureField f := by
  have hapart : ~~~featureField .pointerMaskingPmlen &&& featureField f = featureField f := by
    revert hf
    cases f <;> decide
  unfold sevenWrite
  split
  · rw [clear, BitVec.and_assoc, hapart]
  · rfl

/-- `PMM` has the values 0 and 2, for a `PMLEN` of 7. -/
def sevenOnly : Hardware where
  menvcfg := true
  legal _ v := sevenWrite v
  taken _ _ v := sevenWrite_of_bit (sevenWrite_bit v)
  apart _ _ v w _ h := (sevenWrite_rest v).trans (h.trans (sevenWrite_rest w).symm)
  off _ _ v := by
    have hfields : (~~~featureFields).getLsbD 32 = false := by decide
    apply sevenWrite_of_bit
    rw [BitVec.getLsbD_and, hfields, Bool.and_false]

def sevenOnlyValues : Values sevenOnly where
  legal f v := v &&& featureField f = v ∧ (f = .pointerMaskingPmlen → v.getLsbD 32 = false)
  inside h := h.1
  zero _ := ⟨BitVec.zero_and, fun _ => rfl⟩
  takes o {v f} h := by
    by_cases hf : f = .pointerMaskingPmlen
    · have hbit := h.2 hf
      rw [hf, BitVec.getLsbD_and, pmlen_bit, Bool.and_true] at hbit
      exact congrArg (· &&& featureField f) (sevenWrite_of_bit hbit)
    · exact sevenWrite_field hf v
  leaves o v f := by
    refine ⟨by rw [BitVec.and_assoc, BitVec.and_self], fun _ => ?_⟩
    rw [BitVec.getLsbD_and, sevenOnly, sevenWrite_bit, Bool.false_and]
  absent h := by cases h

def quiet : Hart .rv64 := ⟨⟨0, 0, false⟩, 0, 0⟩

def seven : Request quiet where
  feature := .pointerMaskingPmlen
  value := 7
  flags := 0
  bits := 2#64 <<< 32
  envcfg := by decide
  defined := rfl
  valid := rfl
  unlocked := rfl

theorem seven_some : ∃ v, v ≠ 0 ∧ sevenOnlyValues.legal seven.feature v :=
  ⟨2#64 <<< 32, by decide, by decide, fun _ => by decide⟩

theorem set_exact_iff_sevenOnly :
    sevenOnly.Takes quiet.menvcfg ∧
      ((((seven.set sevenOnly).2 = .success ↔ sevenOnlyValues.legal seven.feature seven.bits) ∧
          ((seven.set sevenOnly).2 = .success →
            (get sevenOnly (seven.set sevenOnly).1 seven.feature.number).2 =
              (.success, seven.value))) ↔
        (sevenOnlyValues.legal seven.feature seven.bits →
          sevenOnlyValues.legal seven.feature (featureField seven.feature))) :=
  ⟨fun _ => rfl, (set_exact_iff sevenOnlyValues fun _ => rfl).1 seven seven_some⟩

/-- `PMLEN` 7 is there, and it cannot be set. -/
theorem pmlen_seven_refused :
    sevenOnly.Takes quiet.menvcfg ∧
      (∃ v, v ≠ 0 ∧ sevenOnlyValues.legal seven.feature v) ∧
      sevenOnlyValues.legal seven.feature seven.bits ∧
      (seven.set sevenOnly).2 = .notSupported :=
  ⟨fun _ => rfl, seven_some, ⟨by decide, fun _ => by decide⟩, by decide⟩

end RiscvMonitor.Fwft
