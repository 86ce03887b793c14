import RiscvMonitor.Masks
import RiscvMonitor.Sbi

/-!
# Firmware features

`fwft.c`: the features that S-mode switches are fields of `menvcfg`, and the
delegation of misaligned accesses in `medeleg`.  The locks are kept for each domain
and hart, the registers are there once: a hart that changes domain takes the fields
along.
-/

namespace RiscvMonitor.Fwft

open Masks

variable {x : Xlen}

/-- `SBI_FWFT_*`, the features below `SBI_FWFT_LOCAL_RESERVED_START`. -/
inductive Feature where
  | misalignedExcDeleg
  | landingPad
  | shadowStack
  | doubleTrap
  | pteAdHwUpdating
  | pointerMaskingPmlen
deriving DecidableEq

def Feature.all : List Feature :=
  [.misalignedExcDeleg, .landingPad, .shadowStack, .doubleTrap, .pteAdHwUpdating,
   .pointerMaskingPmlen]

def Feature.number : Feature → Nat
  | .misalignedExcDeleg => 0
  | .landingPad => 1
  | .shadowStack => 2
  | .doubleTrap => 3
  | .pteAdHwUpdating => 4
  | .pointerMaskingPmlen => 5

def featureField : Feature → BitVec 64
  | .misalignedExcDeleg => 0
  | .landingPad => 1#64 <<< 2
  | .shadowStack => 1#64 <<< 3
  | .doubleTrap => 1#64 <<< 59
  | .pteAdHwUpdating => 1#64 <<< 61
  | .pointerMaskingPmlen => 3#64 <<< 32

def featureFields : BitVec 64 := Feature.all.foldl (fun fields f => fields ||| featureField f) 0

def misalignedDeleg : Word x := bit 4 ||| bit 6

theorem misalignedDeleg_ne_zero : (misalignedDeleg : Word x) ≠ 0#x.bits := by
  cases x <;> decide

structure Hardware where
  menvcfg : Bool
  /-- What a write leaves in it, which may depend on what was there. -/
  legal : (old v : BitVec 64) → BitVec 64
  /-- A value that it had is taken again. -/
  taken : ∀ o o' v, legal o (legal o' v) = legal o' v
  /-- What the other fields become does not depend on the features. -/
  apart : ∀ o o' v w, o &&& ~~~featureFields = o' &&& ~~~featureFields →
    v &&& ~~~featureFields = w &&& ~~~featureFields →
    legal o v &&& ~~~featureFields = legal o' w &&& ~~~featureFields
  /-- Every feature can be off, as it is out of reset. -/
  off : ∀ o o' v, legal o (legal o' v &&& ~~~featureFields) = legal o' v &&& ~~~featureFields

/-- Every field can be written. -/
def Hardware.full (menvcfg : Bool) : Hardware :=
  ⟨menvcfg, fun _ v => v, fun _ _ _ => rfl, fun _ _ _ _ _ h => h, fun _ _ _ => rfl⟩

/-- A value that the register takes as it is, whatever it held. -/
def Hardware.Takes (hw : Hardware) (v : BitVec 64) : Prop := ∀ o, hw.legal o v = v

theorem Hardware.takes_legal (hw : Hardware) (o v : BitVec 64) : hw.Takes (hw.legal o v) :=
  fun o' => hw.taken o' o v

structure FwftHart where
  /-- A bit for each feature. -/
  locked : BitVec 64
  envcfg : BitVec 64
  misalignedDeleg : Bool

structure Hart (x : Xlen) where
  f : FwftHart
  menvcfg : BitVec 64
  medeleg : Word x

def envcfgWrite (hw : Hardware) (b : Hart x) (v : BitVec 64) : Hart x :=
  { b with menvcfg := hw.legal b.menvcfg v }

/-- `envcfg_update()`; false: it did not stick. -/
def envcfgUpdate (hw : Hardware) (b : Hart x) (mask v : BitVec 64) : Hart x × Bool :=
  if hw.menvcfg = false then (b, false)
  else
    let new := envcfgWrite hw b (clear b.menvcfg mask ||| v)
    if new.menvcfg &&& mask = v then (new, true) else (envcfgWrite hw new b.menvcfg, false)

def featureExists (hw : Hardware) (b : Hart x) (feature : Feature) : Hart x × Bool :=
  if feature = .misalignedExcDeleg then (b, true)
  else if hw.menvcfg = false then (b, false)
  else
    let r := envcfgUpdate hw b (featureField feature) (featureField feature)
    (envcfgWrite hw r.1 b.menvcfg, r.2)

def localPlatformStart : Nat := 0x40000000
def globalReservedStart : Nat := 0x80000000
def globalPlatformStart : Nat := 0xc0000000

/-- `feature_check()`: the feature that there is, or why there is none. -/
def featureCheck (hw : Hardware) (b : Hart x) (feature : Nat) :
    Hart x × Except SbiError Feature :=
  match Feature.all.find? fun f => f.number == feature with
  | some f =>
    let r := featureExists hw b f
    (r.1, if r.2 then .ok f else .error .notSupported)
  | none =>
    if feature < localPlatformStart ∨
        (globalReservedStart ≤ feature ∧ feature < globalPlatformStart) then
      (b, .error .denied)
    else (b, .error .notSupported)

def switchOut (hw : Hardware) (b : Hart x) : Hart x :=
  let f := { b.f with misalignedDeleg := has b.medeleg misalignedDeleg }
  { b with f := if hw.menvcfg then { f with envcfg := b.menvcfg &&& featureFields } else f }

def switchIn (hw : Hardware) (fresh : Bool) (b : Hart x) : Hart x :=
  let b := if fresh then { b with f := ⟨0, 0, false⟩ } else b
  let b := { b with
    medeleg :=
      if b.f.misalignedDeleg then b.medeleg ||| misalignedDeleg
      else clear b.medeleg misalignedDeleg }
  if hw.menvcfg then envcfgWrite hw b (clear b.menvcfg featureFields ||| b.f.envcfg) else b

theorem switchIn_menvcfg {hw : Hardware} (hon : hw.menvcfg = true) (fresh : Bool) (b : Hart x) :
    (switchIn hw fresh b).menvcfg =
      hw.legal b.menvcfg (clear b.menvcfg featureFields ||| if fresh then 0 else b.f.envcfg) := by
  cases fresh <;> simp [switchIn, envcfgWrite, hon]

theorem switchIn_medeleg (hw : Hardware) (fresh : Bool) (b : Hart x) :
    (switchIn hw fresh b).medeleg =
      if !fresh && b.f.misalignedDeleg then b.medeleg ||| misalignedDeleg
      else clear b.medeleg misalignedDeleg := by
  cases hon : hw.menvcfg <;> cases fresh <;> simp [switchIn, envcfgWrite, hon]

def get (hw : Hardware) (b : Hart x) (feature : Nat) : Hart x × SbiError × Word x :=
  match featureCheck hw b feature with
  | (b, .error rc) => (b, rc, 0)
  | (b, .ok .misalignedExcDeleg) =>
    (b, .success, if b.medeleg &&& misalignedDeleg = misalignedDeleg then 1 else 0)
  | (b, .ok f) =>
    let field := b.menvcfg &&& featureField f
    let value : Word x :=
      if f = .pointerMaskingPmlen then
        if field >>> 32 = 2 then 7 else if field >>> 32 = 3 then 16 else 0
      else if field ≠ 0 then 1
      else 0
    (b, .success, value)

def featureBits (f : Feature) (value : Word x) : Option (BitVec 64) :=
  if f = .pointerMaskingPmlen then
    if value = 0 then some 0
    else if value = 7 then some (2#64 <<< 32)
    else if value = 16 then some (3#64 <<< 32)
    else none
  else if value = 0 then some 0
  else if value = 1 then some (featureField f)
  else none

/-- The bits of the feature are written; false: they did not stick. -/
def featureWrite (hw : Hardware) (b : Hart x) (f : Feature) (value : Word x) (bits : BitVec 64) :
    Hart x × Bool :=
  if f = .misalignedExcDeleg then
    ({ b with
      medeleg :=
        if value = 1 then b.medeleg ||| misalignedDeleg
        else clear b.medeleg misalignedDeleg }, true)
  else envcfgUpdate hw b (featureField f) bits

def set (hw : Hardware) (b : Hart x) (feature : Nat) (value flags : Word x) :
    Hart x × SbiError :=
  match featureCheck hw b feature with
  | (b, .error rc) => (b, rc)
  | (b, .ok f) =>
    if clear flags 1 ≠ 0 then (b, .invalidParam)
    else if b.f.locked.getLsbD f.number then (b, .deniedLocked)
    else
      match featureBits f value with
      | none => (b, .invalidParam)
      | some bits =>
        let r := featureWrite hw b f value bits
        if r.2 = false then (r.1, .invalidParam)
        else
          ({ r.1 with
            f := { r.1.f with
              locked := setIf (flags.getLsbD 0) r.1.f.locked (1#64 <<< f.number) } },
            .success)

inductive Call (x : Xlen) where
  | set (feature value flags : Word x)
  | get (feature : Word x)

/-- `sbi_fwft_ecall()`: a feature has 32 bits on every hart. -/
def ecall (hw : Hardware) (b : Hart x) : Call x → Hart x × SbiError × Word x
  | .set feature value flags =>
    if 0xffffffff < feature.toNat then (b, .denied, 0)
    else
      let r := set hw b feature.toNat value flags
      (r.1, r.2, 0)
  | .get feature => if 0xffffffff < feature.toNat then (b, .denied, 0) else get hw b feature.toNat

section Probing

variable {hw : Hardware} {b : Hart x}

theorem featureCheck_spec (hw : Hardware) (b : Hart x) (feature : Nat) :
    match (featureCheck hw b feature).2 with
    | .ok f => f.number = feature
    | .error rc => rc ≠ .success := by
  unfold featureCheck
  cases hfind : Feature.all.find? fun f => f.number == feature with
  | some f =>
    have hf : f.number = feature := by simpa using List.find?_some hfind
    cases hexists : (featureExists hw b f).2 <;> simp [hexists, hf]
  | none =>
    dsimp only
    split_ifs <;> nofun

theorem envcfgWrite_restores (hb : hw.Takes b.menvcfg) (o : BitVec 64) :
    envcfgWrite hw { b with menvcfg := o } b.menvcfg = b := by
  rw [envcfgWrite, hb]

variable (hw b) in
theorem envcfgUpdate_fst (mask v : BitVec 64) :
    ∃ o, (envcfgUpdate hw b mask v).1 = { b with menvcfg := o } := by
  unfold envcfgUpdate
  split
  · exact ⟨b.menvcfg, rfl⟩
  · dsimp only
    split <;> exact ⟨_, rfl⟩

section

variable (hb : hw.Takes b.menvcfg)
include hb

theorem envcfgUpdate_takes (mask v : BitVec 64) :
    hw.Takes (envcfgUpdate hw b mask v).1.menvcfg := by
  unfold envcfgUpdate
  split
  · exact hb
  · dsimp only
    split <;> exact hw.takes_legal _ _

theorem envcfgUpdate_failed {mask v : BitVec 64} (hfailed : (envcfgUpdate hw b mask v).2 = false) :
    (envcfgUpdate hw b mask v).1 = b := by
  unfold envcfgUpdate at hfailed ⊢
  split
  · rfl
  · next hon =>
    rw [if_neg hon] at hfailed
    dsimp only at hfailed ⊢
    split
    · next hread => rw [if_pos hread] at hfailed; cases hfailed
    · exact envcfgWrite_restores hb _

theorem featureExists_fst (f : Feature) : (featureExists hw b f).1 = b := by
  unfold featureExists
  split
  · rfl
  split
  · rfl
  · obtain ⟨o, ho⟩ := envcfgUpdate_fst hw b (featureField f) (featureField f)
    dsimp only
    rw [ho]
    exact envcfgWrite_restores hb o

theorem featureCheck_fst (feature : Nat) : (featureCheck hw b feature).1 = b := by
  unfold featureCheck
  split
  · exact featureExists_fst hb _
  · split <;> rfl

theorem featureWrite_failed {f : Feature} {value : Word x} {bits : BitVec 64}
    (hfailed : (featureWrite hw b f value bits).2 = false) :
    (featureWrite hw b f value bits).1 = b := by
  unfold featureWrite at hfailed ⊢
  split
  · next hf => rw [if_pos hf] at hfailed; cases hfailed
  · next hf => rw [if_neg hf] at hfailed; exact envcfgUpdate_failed hb hfailed

theorem set_cases (feature : Nat) (value flags : Word x) :
    ((set hw b feature value flags).1 = b ∧ (set hw b feature value flags).2 ≠ .success) ∨
      ∃ f bits, f.number = feature ∧ b.f.locked.getLsbD f.number = false ∧
        featureBits f value = some bits ∧ (featureWrite hw b f value bits).2 = true ∧
        set hw b feature value flags =
          ({ (featureWrite hw b f value bits).1 with
            f := { (featureWrite hw b f value bits).1.f with
              locked := setIf (flags.getLsbD 0) (featureWrite hw b f value bits).1.f.locked
                (1#64 <<< f.number) } }, .success) := by
  have hfst := featureCheck_fst hb feature
  have hspec := featureCheck_spec hw b feature
  unfold set
  split
  · next heq => exact .inl ⟨by simpa [heq] using hfst, by simpa [heq] using hspec⟩
  · next c f heq =>
    obtain rfl : c = b := by simpa [heq] using hfst
    rw [heq] at hspec
    split
    · exact .inl ⟨rfl, nofun⟩
    split
    · exact .inl ⟨rfl, nofun⟩
    · next hopen =>
      split
      · exact .inl ⟨rfl, nofun⟩
      · next bits hbits =>
        dsimp only
        split
        · next hstuck => exact .inl ⟨featureWrite_failed hb hstuck, nofun⟩
        · next hstuck =>
          refine .inr ⟨f, bits, hspec, ?_, hbits, ?_, rfl⟩
          · simpa using hopen
          · simpa using hstuck

theorem get_fst (feature : Nat) : (get hw b feature).1 = b := by
  have hfst := featureCheck_fst hb feature
  unfold get
  split <;> simp_all

end

end Probing

/-! ### What the calls leave alone -/

structure Kept (hw : Hardware) (b b' : Hart x) : Prop where
  fields : clear b'.menvcfg featureFields = clear b.menvcfg featureFields
  deleg : clear b'.medeleg misalignedDeleg = clear b.medeleg misalignedDeleg
  taken : hw.Takes b'.menvcfg
  absent : hw.menvcfg = false → b'.menvcfg = b.menvcfg

theorem featureField_clear (f : Feature) : clear (featureField f) featureFields = 0#64 := by
  cases f <;> decide

theorem featureBits_clear {f : Feature} {value : Word x} {bits : BitVec 64}
    (hbits : featureBits f value = some bits) : clear bits featureFields = 0#64 := by
  unfold featureBits at hbits
  split at hbits
  · split at hbits
    · cases hbits; decide
    split at hbits
    · cases hbits; decide
    split_ifs at hbits
    cases hbits; decide
  · split at hbits
    · cases hbits; decide
    split_ifs at hbits
    cases hbits
    exact featureField_clear f

section Kept

variable {hw : Hardware} {b b' : Hart x}

theorem Kept.refl (hb : hw.Takes b.menvcfg) : Kept hw b b :=
  ⟨rfl, rfl, hb, fun _ => rfl⟩

section

variable (hkept : Kept hw b b') (hb : hw.Takes b.menvcfg)
include hkept hb

theorem Kept.envcfgWrite (hmenvcfg : hw.menvcfg = true) {v : BitVec 64}
    (hv : clear v featureFields = clear b.menvcfg featureFields) :
    Kept hw b (envcfgWrite hw b' v) where
  fields := (hw.apart _ _ v b.menvcfg hkept.fields hv).trans
    (congrArg (clear · featureFields) (hb b.menvcfg))
  deleg := hkept.deleg
  taken := hw.takes_legal _ v
  absent := by
    intro hno
    rw [hmenvcfg] at hno
    cases hno

theorem Kept.envcfgUpdate {mask v : BitVec 64} (hmask : clear mask featureFields = 0#64)
    (hv : clear v featureFields = 0#64) : Kept hw b (envcfgUpdate hw b' mask v).1 := by
  unfold Fwft.envcfgUpdate
  split
  · exact hkept
  · next hmenvcfg =>
    have hon := Bool.not_eq_false _ ▸ hmenvcfg
    have hrest : clear (clear b'.menvcfg mask ||| v) featureFields =
        clear b.menvcfg featureFields :=
      ((clear_or_of_subset hv).trans (clear_clear_of_subset hmask)).trans hkept.fields
    have hnew := hkept.envcfgWrite hb hon hrest
    dsimp only
    split
    · exact hnew
    · exact hnew.envcfgWrite hb hon hkept.fields

theorem Kept.featureWrite {f : Feature} (value : Word x) {bits : BitVec 64}
    (hbits : featureBits f value = some bits) : Kept hw b (featureWrite hw b' f value bits).1 := by
  unfold Fwft.featureWrite
  split
  · refine { hkept with deleg := ?_ }
    rw [← hkept.deleg]
    dsimp only
    split
    · exact clear_or_of_subset (clear_self _)
    · exact clear_clear_of_subset (clear_self _)
  · exact hkept.envcfgUpdate hb (featureField_clear f) (featureBits_clear hbits)

theorem Kept.ecall (c : Call x) : Kept hw b (ecall hw b' c).1 := by
  cases c with
  | set feature value flags =>
    unfold Fwft.ecall
    dsimp only
    split
    · exact hkept
    · rcases set_cases hkept.taken feature.toNat value flags with
        ⟨hsame, -⟩ | ⟨f, bits, -, -, hbits, -, heq⟩
      · rw [hsame]
        exact hkept
      · rw [heq]
        exact { hkept.featureWrite hb value hbits with }
  | get feature =>
    unfold Fwft.ecall
    dsimp only
    split
    · exact hkept
    · rw [get_fst hkept.taken]
      exact hkept

end

end Kept

def leftBy (hw : Hardware) (b : Hart x) (features : BitVec 64) (misaligned : Bool) : Hart x where
  f := b.f
  menvcfg :=
    if hw.menvcfg then clear b.menvcfg featureFields ||| features &&& featureFields
    else b.menvcfg
  medeleg :=
    if misaligned then b.medeleg ||| misalignedDeleg else clear b.medeleg misalignedDeleg

theorem switchIn_fresh {hw : Hardware} {b b' : Hart x} (hb : hw.Takes b.menvcfg)
    (hkept : Kept hw b b')
    (features : BitVec 64) (misaligned : Bool) :
    switchIn hw true (leftBy hw b' features misaligned) = switchIn hw true b := by
  have hdeleg : clear (leftBy hw b' features misaligned).medeleg misalignedDeleg =
      clear b.medeleg misalignedDeleg := by
    rw [← hkept.deleg]
    unfold leftBy
    dsimp only
    split
    · exact clear_or_of_subset (clear_self _)
    · exact clear_clear_of_subset (clear_self _)
  unfold switchIn
  simp only [if_true, Bool.false_eq_true, if_false, hdeleg]
  split
  · next hmenvcfg =>
    have hfields : clear (leftBy hw b' features misaligned).menvcfg featureFields =
        clear b.menvcfg featureFields := by
      have hinside : clear (features &&& featureFields) featureFields = 0#64 := by
        rw [clear, BitVec.and_assoc, ← clear, clear_self, BitVec.and_zero]
      rw [← hkept.fields, leftBy, if_pos hmenvcfg, clear_or_of_subset hinside]
      exact clear_clear_of_subset (clear_self _)
    have hoff : hw.Takes (clear b.menvcfg featureFields) := by
      intro o
      have hclear := hw.off o b.menvcfg b.menvcfg
      rwa [hb b.menvcfg] at hclear
    have hnone : clear b.menvcfg featureFields ||| 0 = clear b.menvcfg featureFields :=
      BitVec.or_zero
    simp only [envcfgWrite, hfields, hnone, hoff _]
  · next hmenvcfg =>
    have hno := Bool.not_eq_true _ ▸ hmenvcfg
    have hsame : (leftBy hw b' features misaligned).menvcfg = b.menvcfg := by
      rw [← hkept.absent hno, leftBy, if_neg hmenvcfg]
    rw [hsame]

end RiscvMonitor.Fwft
