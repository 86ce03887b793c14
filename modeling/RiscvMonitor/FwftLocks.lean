import RiscvMonitor.FwftSet
import RiscvMonitor.Runs

/-!
# Locked features

The domains that share a hart, with their records in `fwft_harts`.  What each of them has
set and locked is noted beside the run.  The registers of the hart show it for the domain
that the hart is in and the records for the others.
-/

namespace RiscvMonitor.Fwft

open Masks
open Function (update update_of_ne update_self)

variable {x : Xlen}

/-- A hart, and the records of the domains; the one of its own domain is in `hart`. -/
structure Shared (x : Xlen) where
  domain : Nat
  hart : Hart x
  records : Nat → FwftHart
  ran : Nat → Bool

inductive Act (x : Xlen) where
  | call (c : Call x)
  | switch (d : Nat) (fresh : Bool)
  | start

structure Extensions where
  sstc : Bool
  smcdeleg : Bool
  hypervisor : Bool

/-- What `envcfg_init()` sets, one after the other. -/
def envcfgSets (exts : Extensions) : List (BitVec 64) :=
  [0xf0#64, 1#64 <<< 62] ++ (if exts.sstc then [1#64 <<< 63] else []) ++
    if exts.smcdeleg then [1#64 <<< 60] else []

def envcfgInit (hw : Hardware) (exts : Extensions) (b : Hart x) : Hart x :=
  if hw.menvcfg = false then b
  else
    (envcfgSets exts).foldl (fun b v => envcfgWrite hw b (b.menvcfg ||| v)) (envcfgWrite hw b 0)

def smodeExceptions (hypervisor : Bool) : Word x :=
  bit 0 ||| bit 3 ||| bit 8 ||| bit 12 ||| bit 13 ||| bit 15 |||
    if hypervisor then bit 10 ||| bit 20 ||| bit 21 ||| bit 22 ||| bit 23 else 0

/-- `hart_runtime_init()`, with `fwft_hart_init()` -/
def hartInit (hw : Hardware) (exts : Extensions) (b : Hart x) : Hart x :=
  let b := envcfgInit hw exts { b with medeleg := smodeExceptions exts.hypervisor }
  { b with f := { b.f with locked := 0 } }

def step (hw : Hardware) (exts : Extensions) (s : Shared x) : Act x → Option (Shared x)
  | .call c => some { s with hart := (ecall hw s.hart c).1 }
  | .switch d fresh =>
    if fresh = true ∨ s.ran d = true then
      let left := switchOut hw s.hart
      let records := update s.records s.domain left.f
      some ⟨d, switchIn hw fresh { left with f := records d }, records, update s.ran d true⟩
    else none
  | .start => some { s with hart := hartInit hw exts s.hart }

def init (hw : Hardware) (exts : Extensions) (d : Nat) (b : Hart x) (records : Nat → FwftHart) :
    Shared x :=
  ⟨d, hartInit hw exts b, records, fun e => e == d⟩

/-! ### What is noted -/

structure Setting (x : Xlen) where
  value : Word x
  lock : Option (Word x)

abbrev Log (x : Xlen) := Nat → Feature → Setting x

def Log.note (hw : Hardware) (l : Log x) (s : Shared x) : Act x → Log x
  | .call (.set feature value flags) =>
    if (ecall hw s.hart (.set feature value flags)).2.1 = .success then
      update l s.domain fun f =>
        if f.number = feature.toNat then
          ⟨value, if flags.getLsbD 0 then some value else (l s.domain f).lock⟩
        else l s.domain f
    else l
  | .switch d true => update l d fun _ => ⟨0, none⟩
  | .start => update l s.domain fun _ => ⟨0, none⟩
  | _ => l

def settings (hw : Hardware) (exts : Extensions) (s : Shared x) (es : List (Act x)) : Log x :=
  Runs.watch (step hw exts) (Log.note hw) (fun _ _ => ⟨0, none⟩) s es

/-! ### The value of a feature -/

def Hart.value (hw : Hardware) (b : Hart x) (f : Feature) : Word x :=
  if f = .misalignedExcDeleg then if b.medeleg &&& misalignedDeleg = misalignedDeleg then 1 else 0
  else if hw.menvcfg then fieldValue f (b.menvcfg &&& featureField f)
  else 0

def FwftHart.value (hw : Hardware) (r : FwftHart) (f : Feature) : Word x :=
  if f = .misalignedExcDeleg then if r.misalignedDeleg then 1 else 0
  else if hw.menvcfg then fieldValue f (r.envcfg &&& featureField f)
  else 0

theorem featureField_disjoint {f g : Feature} (hne : f ≠ g) :
    featureField f &&& featureField g = 0#64 := by
  revert hne
  cases f <;> cases g <;> decide

theorem featureFields_and (f : Feature) : featureFields &&& featureField f = featureField f := by
  cases f <;> decide

theorem clear_featureFields_and (v : BitVec 64) (f : Feature) :
    clear v featureFields &&& featureField f = 0#64 := by
  rw [← featureFields_and f, ← BitVec.and_assoc, clear_and, BitVec.zero_and]

@[simp] theorem fieldValue_zero (f : Feature) : (fieldValue f 0#64 : Word x) = 0 := by
  cases f <;> rfl

theorem zero_ne_one : (0 : Word x) ≠ 1 := by cases x <;> decide

variable {hw : Hardware} {b : Hart x} {f g : Feature} {value flags : Word x} {bits : BitVec 64}

theorem get_value (hb : hw.Takes b.menvcfg) (hexists : (featureExists hw b f).2 = true) :
    get hw b f.number = (b, .success, b.value hw f) := by
  by_cases hf : f = .misalignedExcDeleg
  · subst hf
    rw [get, featureCheck_number hb, if_pos hexists]
    rfl
  · have hon : hw.menvcfg = true := by
      cases hmenvcfg : hw.menvcfg with
      | true => rfl
      | false => simp [featureExists, hf, hmenvcfg] at hexists
    rw [get_number hb hf hexists, Hart.value, if_neg hf, if_pos hon]

theorem featureWrite_value (w : Values hw) (hb : hw.Takes b.menvcfg)
    (hbits : featureBits f value = some bits) (hok : (featureWrite hw b f value bits).2 = true)
    (g : Feature) :
    (featureWrite hw b f value bits).1.value hw g = if g = f then value else b.value hw g := by
  by_cases hf : f = .misalignedExcDeleg
  · subst hf
    have hvalue : value = 0 ∨ value = 1 := by
      simp only [featureBits, reduceCtorEq, if_false] at hbits
      split_ifs at hbits with hzero hone
      · exact .inl hzero
      · exact .inr hone
    by_cases hg : g = .misalignedExcDeleg
    · rcases hvalue with rfl | rfl
      · simp only [featureWrite, Hart.value, hg, if_true, if_neg zero_ne_one, clear_and]
        exact if_neg misalignedDeleg_ne_zero.symm
      · simp only [featureWrite, Hart.value, hg, if_true, or_and_self]
    · simp [featureWrite, Hart.value, hg]
  · rw [featureWrite, if_neg hf] at hok ⊢
    have hon : hw.menvcfg = true := by
      cases hmenvcfg : hw.menvcfg with
      | true => rfl
      | false => simp [envcfgUpdate, hmenvcfg] at hok
    have hlegal := (envcfgUpdate_iff w hon).1 hok
    by_cases hg : g = f
    · rw [if_pos hg, hg, Hart.value, if_neg hf, if_pos hon, envcfgUpdate_field w hon hlegal,
        fieldValue_featureBits hf hbits]
    · -- the other fields are taken again as they are
      have hother : (clear b.menvcfg (featureField f) ||| bits) &&& featureField g =
          b.menvcfg &&& featureField g := by
        have hdisjoint := featureField_disjoint (Ne.symm hg)
        rw [← w.inside hlegal, BitVec.and_or_distrib_right, BitVec.and_assoc, hdisjoint,
          BitVec.and_zero, BitVec.or_zero]
        conv_rhs => rw [← clear_or_and b.menvcfg (featureField f)]
        rw [BitVec.and_or_distrib_right, BitVec.and_assoc b.menvcfg, hdisjoint, BitVec.and_zero,
          BitVec.or_zero]
      have hold : w.legal g (b.menvcfg &&& featureField g) := hb b.menvcfg ▸ w.leaves _ _ g
      have hfield : (envcfgUpdate hw b (featureField f) bits).1.menvcfg &&& featureField g =
          b.menvcfg &&& featureField g := by
        have hread := envcfgWrite_field (b := b) w hlegal
        simp only [envcfgUpdate, hon, Bool.true_eq_false, if_false, if_pos hread]
        exact (w.takes _ (hother.symm ▸ hold)).trans hother
      obtain ⟨o, ho⟩ := envcfgUpdate_fst hw b (featureField f) bits
      rw [ho] at hfield ⊢
      simp only [Hart.value, hfield, if_neg hg]

/-! ### Records and registers show the settings -/

structure Shows (value : Feature → Word x) (locked : BitVec 64) (l : Feature → Setting x) :
    Prop where
  value : ∀ f, value f = (l f).value
  locked : ∀ f, locked.getLsbD f.number = (l f).lock.isSome
  lock : ∀ f v, (l f).lock = some v → (l f).value = v

structure Hart.Holds (hw : Hardware) (b : Hart x) (l : Feature → Setting x) : Prop where
  takes : hw.Takes b.menvcfg
  both : b.medeleg &&& misalignedDeleg = misalignedDeleg ∨ b.medeleg &&& misalignedDeleg = 0
  shows : Shows (b.value hw) b.f.locked l

structure FwftHart.Holds (w : Values hw) (r : FwftHart) (l : Feature → Setting x) : Prop where
  legal : hw.menvcfg = true → ∀ f, w.legal f (r.envcfg &&& featureField f)
  shows : Shows (r.value hw) r.locked l

variable {w : Values hw} {l : Feature → Setting x}

theorem Feature.number_inj : f.number = g.number ↔ f = g := by
  cases f <;> cases g <;> decide

theorem getLsbD_number (f g : Feature) : (1#64 <<< f.number).getLsbD g.number = decide (g = f) := by
  cases f <;> cases g <;> decide

theorem Shows.update (h : Shows (b.value hw) b.f.locked l) {c : Hart x} {v : Word x} {flag : Bool}
    (hopen : b.f.locked.getLsbD f.number = false)
    (hvalue : ∀ g, c.value hw g = if g = f then v else b.value hw g)
    (hlocked : ∀ g : Feature,
      c.f.locked.getLsbD g.number = (b.f.locked.getLsbD g.number || flag && decide (g = f))) :
    Shows (c.value hw) c.f.locked fun g =>
      if g = f then ⟨v, if flag then some v else (l g).lock⟩ else l g := by
  have hnone : (l f).lock = none := by
    rw [← Option.not_isSome_iff_eq_none, ← h.locked, hopen]
    exact Bool.false_ne_true
  refine ⟨fun g => ?_, fun g => ?_, fun g u hu => ?_⟩ <;> by_cases hg : g = f
  · rw [hvalue, if_pos hg, if_pos hg]
  · simp [hvalue, hg, h.value]
  · subst hg
    cases flag <;> simp [hlocked, hopen, hnone]
  · simp [hlocked, hg, h.locked]
  · subst hg
    cases flag <;> simp_all
  · simp only [if_neg hg] at hu ⊢
    exact h.lock g u hu

theorem Hart.Holds.write (w : Values hw) (h : b.Holds hw l)
    (hopen : b.f.locked.getLsbD f.number = false) (hbits : featureBits f value = some bits)
    (hwritten : (featureWrite hw b f value bits).2 = true) (flag : Bool) :
    { (featureWrite hw b f value bits).1 with
      f := { (featureWrite hw b f value bits).1.f with
        locked := setIf flag (featureWrite hw b f value bits).1.f.locked
          (1#64 <<< f.number) } }.Holds hw fun g =>
      if g = f then ⟨value, if flag then some value else (l g).lock⟩ else l g := by
  have hvalue := featureWrite_value w h.takes hbits hwritten
  have htakes := ((Kept.refl h.takes).featureWrite h.takes value hbits).taken
  obtain ⟨hf, hboth⟩ : (featureWrite hw b f value bits).1.f = b.f ∧
      ((featureWrite hw b f value bits).1.medeleg &&& misalignedDeleg = misalignedDeleg ∨
        (featureWrite hw b f value bits).1.medeleg &&& misalignedDeleg = 0) := by
    rw [featureWrite]
    split
    · refine ⟨rfl, ?_⟩
      dsimp only
      split
      · exact .inl (or_and_self _ _)
      · exact .inr (clear_and _ _)
    · obtain ⟨o, ho⟩ := envcfgUpdate_fst hw b (featureField f) bits
      rw [ho]
      exact ⟨rfl, h.both⟩
  refine ⟨htakes, hboth, h.shows.update hopen hvalue fun g => ?_⟩
  simp only [hf, getLsbD_setIf, getLsbD_number]

theorem switchOut_holds (w : Values hw) (h : b.Holds hw l) : (switchOut hw b).f.Holds w l := by
  have hand (v : BitVec 64) (f : Feature) :
      v &&& featureFields &&& featureField f = v &&& featureField f := by
    rw [BitVec.and_assoc, featureFields_and]
  have hboth : has b.medeleg misalignedDeleg = true ↔
      b.medeleg &&& misalignedDeleg = misalignedDeleg := by
    rcases h.both with hall | hnone
    · simp [has, hall, misalignedDeleg_ne_zero]
    · simp [has, hnone, misalignedDeleg_ne_zero.symm]
  have hvalue : ((switchOut hw b).f.value hw : Feature → Word x) = b.value hw := by
    funext f
    cases hon : hw.menvcfg <;> simp [switchOut, FwftHart.value, Hart.value, hon, hand, hboth]
  have hlocked : (switchOut hw b).f.locked = b.f.locked := by
    cases hon : hw.menvcfg <;> simp [switchOut, hon]
  refine ⟨fun hon f => ?_, hvalue ▸ hlocked ▸ h.shows⟩
  simp only [switchOut, hon, if_true, hand]
  exact h.takes b.menvcfg ▸ w.leaves _ _ f

theorem switchIn_holds (htakes : hw.Takes b.menvcfg) (hr : b.f.Holds w l) :
    (switchIn hw false b).Holds hw l := by
  have hboth : (switchIn hw false b).medeleg &&& misalignedDeleg =
      if b.f.misalignedDeleg then misalignedDeleg else 0 := by
    rw [switchIn_medeleg, Bool.not_false, Bool.true_and]
    split
    · exact or_and_self _ _
    · exact clear_and _ _
  have hlocked : (switchIn hw false b).f.locked = b.f.locked := by
    cases hon : hw.menvcfg <;> simp [switchIn, hon, envcfgWrite]
  have hfield (hon : hw.menvcfg = true) (f : Feature) :
      (switchIn hw false b).menvcfg &&& featureField f = b.f.envcfg &&& featureField f := by
    have hwritten : (clear b.menvcfg featureFields ||| b.f.envcfg) &&& featureField f =
        b.f.envcfg &&& featureField f := by
      rw [BitVec.and_or_distrib_right, clear_featureFields_and, BitVec.zero_or]
    rw [switchIn_menvcfg hon]
    exact (w.takes _ (hwritten.symm ▸ hr.legal hon f)).trans hwritten
  have hvalue : (switchIn hw false b).value hw = b.f.value hw := by
    funext f
    rw [Hart.value, FwftHart.value, hboth]
    cases hon : hw.menvcfg <;> cases b.f.misalignedDeleg <;>
      simp [misalignedDeleg_ne_zero.symm, hfield, hon]
  refine ⟨?_, ?_, hvalue ▸ hlocked ▸ hr.shows⟩
  · cases hon : hw.menvcfg with
    | false => simpa [switchIn, hon] using htakes
    | true => exact switchIn_menvcfg hon false b ▸ hw.takes_legal _ _
  · rw [hboth]
    cases b.f.misalignedDeleg <;> simp

/-! ### Starting -/

structure Off (hw : Hardware) (b c : Hart x) : Prop where
  takes : hw.Takes c.menvcfg
  fields : hw.menvcfg = true → ∀ f, c.menvcfg &&& featureField f = 0#64
  rest : c = { b with menvcfg := c.menvcfg }

theorem Off.write (w : Values hw) {b c : Hart x} (hrest : c = { b with menvcfg := c.menvcfg })
    {v : BitVec 64} (hv : ∀ f, v &&& featureField f = 0#64) : Off hw b (envcfgWrite hw c v) where
  takes := hw.takes_legal _ _
  fields _ f := (w.takes _ ((hv f).symm ▸ w.zero f)).trans (hv f)
  rest := by
    rw [envcfgWrite, hrest]

theorem envcfgInit_off (w : Values hw) (hb : hw.Takes b.menvcfg) (exts : Extensions) :
    Off hw b (envcfgInit hw exts b) := by
  have hsets (f : Feature) : ∀ v ∈ envcfgSets exts, v &&& featureField f = 0#64 := by
    simp only [envcfgSets]
    cases exts.sstc <;> cases exts.smcdeleg <;> cases f <;> simp [featureField]
  rw [envcfgInit]
  split_ifs with hoff
  · exact ⟨hb, by simp [hoff], rfl⟩
  · have hon := Bool.not_eq_false _ ▸ hoff
    apply List.foldlRecOn (motive := Off hw b)
    · exact Off.write w rfl fun f => BitVec.zero_and
    · intro c hc v hv
      refine Off.write w hc.rest fun f => ?_
      rw [BitVec.and_or_distrib_right, hc.fields hon f, hsets f v hv, BitVec.or_zero]

theorem hartInit_holds (w : Values hw) (hb : hw.Takes b.menvcfg) (exts : Extensions) :
    (hartInit hw exts b).Holds hw fun _ => ⟨0, none⟩ := by
  have hdeleg : (smodeExceptions exts.hypervisor : Word x) &&& misalignedDeleg = 0#x.bits := by
    cases x <;> cases exts.hypervisor <;> decide
  let c : Hart x := { b with medeleg := smodeExceptions exts.hypervisor }
  have hoff := envcfgInit_off w (b := c) hb exts
  have hmedeleg : (hartInit hw exts b).medeleg = smodeExceptions exts.hypervisor := by
    rw [hartInit, hoff.rest]
  refine ⟨hoff.takes, .inr (hmedeleg ▸ hdeleg), fun f => ?_, fun f => BitVec.getLsbD_zero, nofun⟩
  rw [Hart.value, hmedeleg, hdeleg, if_neg misalignedDeleg_ne_zero.symm]
  cases hon : hw.menvcfg with
  | false => simp
  | true =>
    have hfield : (hartInit hw exts b).menvcfg &&& featureField f = 0#64 := hoff.fields hon f
    simp [hfield]

variable {exts : Extensions} {s t : Shared x} {log : Log x}

structure Inv (w : Values hw) (s : Shared x) (log : Log x) : Prop where
  here : s.hart.Holds hw (log s.domain)
  there : ∀ d, d ≠ s.domain → s.ran d = true → (s.records d).Holds w (log d)

theorem Inv.call (h : Inv w s log) (c : Call x) :
    Inv w { s with hart := (ecall hw s.hart c).1 } (log.note hw s (.call c)) := by
  cases c with
  | get feature =>
    have hsame : (ecall hw s.hart (.get feature)).1 = s.hart := by
      rw [ecall]
      split_ifs
      · rfl
      · exact get_fst h.here.takes _
    rw [hsame]
    exact h
  | set feature value flags =>
    simp only [Log.note, ecall]
    by_cases hbig : 0xffffffff < feature.toNat
    · simp only [if_pos hbig, reduceCtorEq, if_false]
      exact h
    · simp only [if_neg hbig]
      rcases set_cases h.here.takes feature.toNat value flags with
        ⟨hsame, hfailed⟩ | ⟨f, bits, hf, hopen, hbits, hwritten, heq⟩
      · simp only [if_neg hfailed, hsame]
        exact h
      · simp only [heq, if_true]
        refine ⟨?_, fun d hd hran => ?_⟩
        · simp only [update_self, ← hf, Feature.number_inj]
          exact h.here.write w hopen hbits hwritten _
        · rw [update_of_ne hd]
          exact h.there d hd hran

theorem Inv.switch (h : Inv w s log) {d : Nat} {fresh : Bool}
    (hstep : step hw exts s (.switch d fresh) = some t) :
    Inv w t (log.note hw s (.switch d fresh)) := by
  rw [step] at hstep
  split_ifs at hstep with hmay
  cases hstep
  -- every domain that has run has its record, the one that is left included
  have hrecords (e : Nat) (hran : s.ran e = true) :
      (update s.records s.domain (switchOut hw s.hart).f e).Holds w (log e) := by
    by_cases he : e = s.domain
    · rw [he, update_self]
      exact switchOut_holds w h.here
    · rw [update_of_ne he]
      exact h.there e he hran
  have hothers (e : Nat) (he : e ≠ d) (hran : update s.ran d true e = true) : s.ran e = true := by
    rwa [update_of_ne he] at hran
  have htakes : hw.Takes (switchOut hw s.hart).menvcfg := h.here.takes
  cases fresh with
  | false =>
    have hran := hmay.resolve_left Bool.false_ne_true
    exact ⟨switchIn_holds htakes (hrecords d hran), fun e he hran => hrecords e (hothers e he hran)⟩
  | true =>
    have hoff : (⟨0, 0, false⟩ : FwftHart).Holds w fun _ => (⟨0, none⟩ : Setting x) := by
      refine ⟨fun _ f => ?_, fun f => ?_, fun f => BitVec.getLsbD_zero, nofun⟩
      · simpa using w.zero f
      · simp [FwftHart.value]
    constructor
    · simp only [Log.note, update_self]
      exact switchIn_holds (b := { switchOut hw s.hart with f := ⟨0, 0, false⟩ }) htakes hoff
    · intro e he hran
      rw [Log.note, update_of_ne he]
      exact hrecords e (hothers e he hran)

theorem Inv.step (h : Inv w s log) {a : Act x} (hstep : step hw exts s a = some t) :
    Inv w t (log.note hw s a) := by
  cases a with
  | call c =>
    cases hstep
    exact h.call c
  | switch d fresh => exact h.switch hstep
  | start =>
    cases hstep
    constructor
    · simp only [Log.note, update_self]
      exact hartInit_holds w h.here.takes exts
    · intro d hd hran
      rw [Log.note, update_of_ne hd]
      exact h.there d hd hran

theorem init_inv (w : Values hw) (hb : hw.Takes b.menvcfg) (exts : Extensions) (d : Nat)
    (records : Nat → FwftHart) : Inv w (init hw exts d b records) fun _ _ => ⟨0, none⟩ where
  here := hartInit_holds w hb exts
  there e he hran := absurd (by simpa [init] using hran) he

/-- A feature that the hart has reads back what the running domain has set last.  Where the
    domain has locked it, that is what it was locked with, and it cannot be set. -/
theorem locks_hold (w : Values hw) (exts : Extensions) (d : Nat) (hb : hw.Takes b.menvcfg)
    (records : Nat → FwftHart) {es : List (Act x)}
    (hrun : Runs.run (step hw exts) (init hw exts d b records) es = some s) {feature : Word x}
    (hf : feature.toNat = f.number) (hexists : (featureExists hw s.hart f).2 = true) :
    let setting := settings hw exts (init hw exts d b records) es s.domain f
    ecall hw s.hart (.get feature) = (s.hart, .success, setting.value) ∧
      ∀ v, setting.lock = some v → setting.value = v ∧ ∀ value flags : Word x,
        (ecall hw s.hart (.set feature value flags)).1 = s.hart ∧
          (ecall hw s.hart (.set feature value flags)).2.1 ≠ .success := by
  have hinv : Inv w s (settings hw exts (init hw exts d b records) es) :=
    (Runs.along_true (step hw exts) _ es).watch_invariant (fun _ _ _ _ h _ hstep => h.step hstep)
      (init_inv w hb exts d records) hrun
  have hsmall : ¬ 0xffffffff < feature.toNat := by
    rw [hf]
    cases f <;> decide
  refine ⟨?_, fun v hv => ⟨hinv.here.shows.lock f v hv, fun value flags => ?_⟩⟩
  · rw [ecall, if_neg hsmall, hf, get_value hinv.here.takes hexists, hinv.here.shows.value]
  · simp only [ecall, if_neg hsmall]
    rcases set_cases hinv.here.takes feature.toNat value flags with hfails | ⟨g, _, hg, hopen, -⟩
    · exact hfails
    · rw [Feature.number_inj.1 (hg.trans hf), hinv.here.shows.locked f, hv] at hopen
      cases hopen

/-- Domain 0 locks the landing pads; domain 1 has its own, and domain 0 comes back. -/
def lockedRun : List (Act .rv64) :=
  [.call (.set 1 1 1), .switch 1 true, .call (.set 1 0 1), .switch 0 false]

def plain : Extensions := ⟨false, false, false⟩

theorem locks_hold_lockedRun :
    ∃ s, Runs.run (step sevenOnly plain) (init sevenOnly plain 0 quiet fun _ => ⟨0, 0, false⟩)
        lockedRun = some s ∧
      ecall sevenOnly s.hart (.get 1) = (s.hart, .success, 1) ∧
      (ecall sevenOnly s.hart (.set 1 0 0)).2.1 ≠ .success := by
  refine ⟨_, rfl, ?_⟩
  have hfeature : (1#64).toNat = Feature.landingPad.number := rfl
  have hheld := locks_hold sevenOnlyValues plain 0 (b := quiet) (fun _ => rfl)
    (fun _ => ⟨0, 0, false⟩) (rfl : Runs.run _ _ lockedRun = _) hfeature (by decide)
  exact ⟨hheld.1, ((hheld.2 1 (by decide)).2 0 0).2⟩

end RiscvMonitor.Fwft
