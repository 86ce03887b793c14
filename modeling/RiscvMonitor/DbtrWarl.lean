import RiscvMonitor.DbtrEdits

/-!
# The modes of a trigger

Which modes a trigger matches in is a few bits of `tdata1`, in places that depend
on its type; the state word records them.  The hardware may make anything of a value
that is not legal: but the type alone is legal where a value of that type is, and so
is a value with the modes of another one of its type.
-/

namespace RiscvMonitor.Dbtr

open Masks

variable {x : Xlen}

/-! ### Bits of `tdata1` -/

section Masks

variable {w : Nat} {v v' modes m g h : BitVec w}

theorem replace_and_of_disjoint (hg : modes &&& g = 0#w) (hm : m &&& modes = m) :
    (clear v modes ||| m) &&& g = v &&& g := by
  apply BitVec.eq_of_getLsbD_eq
  intro i _
  have hgi := congrArg (BitVec.getLsbD · i) hg
  have hmi := congrArg (BitVec.getLsbD · i) hm
  simp only [BitVec.getLsbD_and, BitVec.getLsbD_zero] at hgi hmi
  simp only [BitVec.getLsbD_and, BitVec.getLsbD_or, getLsbD_clear]
  cases hbit : modes.getLsbD i <;> simp_all

theorem replace_and_self (hm : m &&& modes = m) : (clear v modes ||| m) &&& modes = m := by
  apply BitVec.eq_of_getLsbD_eq
  intro i _
  have hmi := congrArg (BitVec.getLsbD · i) hm
  simp only [BitVec.getLsbD_and] at hmi
  simp only [BitVec.getLsbD_and, BitVec.getLsbD_or, getLsbD_clear]
  cases hbit : modes.getLsbD i <;> simp_all

theorem and_of_xor (hxor : (v ^^^ v') &&& ~~~h = 0#w) (hg : h &&& g = 0#w) :
    v &&& g = v' &&& g := by
  apply BitVec.eq_of_getLsbD_eq
  intro i hi
  have hxi := congrArg (BitVec.getLsbD · i) hxor
  have hgi := congrArg (BitVec.getLsbD · i) hg
  simp only [BitVec.getLsbD_and, BitVec.getLsbD_xor, BitVec.getLsbD_not, hi, decide_true,
    Bool.true_and, BitVec.getLsbD_zero] at hxi hgi
  simp only [BitVec.getLsbD_and]
  cases hbit : h.getLsbD i <;> simp_all

theorem and_of_subset (hag : v &&& g = v' &&& g) (hm : m &&& g = m) : v &&& m = v' &&& m := by
  have hcomm : m = g &&& m := hm.symm.trans (BitVec.and_comm m g)
  rw [hcomm, ← BitVec.and_assoc, ← BitVec.and_assoc, hag]

theorem and_or_self (m g : BitVec w) : m &&& (m ||| g) = m := by
  apply BitVec.eq_of_getLsbD_eq
  intro i _
  simp only [BitVec.getLsbD_and, BitVec.getLsbD_or]
  cases m.getLsbD i <;> simp

end Masks

def typeMask : Word x := 0xf#x.bits <<< (x.bits - 4)

def TriggerType.modes (t : TriggerType x) : Word x := t.u ||| t.s ||| t.vu ||| t.vs

structure TriggerType.Apart (t : TriggerType x) : Prop where
  type : (t.modes ||| t.m ||| tdata1Dmode) &&& typeMask = 0#x.bits
  modes : t.modes &&& (typeMask ||| tdata1Dmode ||| t.m) = 0#x.bits
  hit : t.hit &&& (typeMask ||| tdata1Dmode ||| t.m ||| t.modes) = 0#x.bits

theorem triggerTypes_apart (k : Nat) : (triggerTypes k : TriggerType x).Apart := by
  unfold triggerTypes
  split <;> cases x <;> exact ⟨by decide, by decide, by decide⟩

theorem tdata1Type_typeMask (v : Word x) : tdata1Type (v &&& typeMask) = tdata1Type v := by
  unfold tdata1Type typeMask
  congr 1
  apply BitVec.eq_of_getLsbD_eq
  intro i hi
  simp only [BitVec.getLsbD_ushiftRight, BitVec.getLsbD_and]
  by_cases hlt : x.bits - 4 + i < x.bits
  · have hmask : (0xf#x.bits <<< (x.bits - 4)).getLsbD (x.bits - 4 + i) = true := by
      have hi4 : i < 4 := by omega
      rw [BitVec.getLsbD_shiftLeft, Nat.add_sub_cancel_left]
      cases x <;> (interval_cases i <;> decide)
    rw [hmask, Bool.and_true]
  · rw [BitVec.getLsbD_of_ge v _ (by omega), Bool.false_and]

variable {v' : Word x}

theorem typeOf_congr {v : Word x} (htype : tdata1Type v = tdata1Type v') :
    typeOf v = typeOf v' := congrArg triggerTypes htype

theorem tdata1Type_congr {v : Word x} (hmask : v &&& typeMask = v' &&& typeMask) :
    tdata1Type v = tdata1Type v' := by
  rw [← tdata1Type_typeMask v, hmask, tdata1Type_typeMask]

theorem modeBits_eq (v : Word x) : modeBits v = (typeOf v).modes := rfl

/-- What decides in which modes a value matches, and whose it is. -/
def guard (v : Word x) : Word x := typeMask ||| tdata1Dmode ||| (typeOf v).m ||| modeBits v

structure Plain (v : Word x) : Prop where
  dmode : has v tdata1Dmode = false
  m : has v (typeOf v).m = false

structure Off (v : Word x) : Prop extends Plain v where
  modes : v &&& modeBits v = 0

structure Alike (v v' : Word x) : Prop where
  type : tdata1Type v' = tdata1Type v
  dmode : v' &&& tdata1Dmode = v &&& tdata1Dmode
  m : v' &&& (typeOf v).m = v &&& (typeOf v).m

theorem Alike.typeOf {v : Word x} (h : Alike v v') : typeOf v' = typeOf v :=
  typeOf_congr h.type

theorem Alike.modeBits {v : Word x} (h : Alike v v') : modeBits v' = modeBits v := by
  rw [modeBits_eq, modeBits_eq, h.typeOf]

theorem Alike.plain {v : Word x} (h : Alike v v') (hv : Plain v) : Plain v' where
  dmode := by
    rw [has, h.dmode]
    exact hv.dmode
  m := by
    rw [has, h.typeOf, h.m]
    exact hv.m

theorem alike_of_and {v : Word x} {g : Word x} (hand : v' &&& g = v &&& g)
    (htype : typeMask &&& g = typeMask) (hdmode : tdata1Dmode &&& g = tdata1Dmode)
    (hm : (typeOf v).m &&& g = (typeOf v).m) : Alike v v' where
  type := tdata1Type_congr (and_of_subset hand htype)
  dmode := and_of_subset hand hdmode
  m := and_of_subset hand hm

section Guard

variable (v : Word x)

theorem typeMask_and_guard : typeMask &&& guard v = typeMask := by
  rw [guard, BitVec.or_assoc, BitVec.or_assoc, and_or_self]

theorem dmode_and_guard : tdata1Dmode &&& guard v = tdata1Dmode := by
  rw [guard, BitVec.or_comm typeMask, BitVec.or_assoc, BitVec.or_assoc, and_or_self]

theorem m_and_guard : (typeOf v).m &&& guard v = (typeOf v).m := by
  rw [guard, BitVec.or_comm (typeMask ||| tdata1Dmode), BitVec.or_assoc, and_or_self]

theorem modeBits_and_guard : modeBits v &&& guard v = modeBits v := by
  rw [guard, BitVec.or_comm, and_or_self]

end Guard

theorem guard_of_hit {v : Word x} (h : has (v' ^^^ v) (~~~(typeOf v).hit) = false) :
    v' &&& guard v = v &&& guard v := by
  have hxor : (v' ^^^ v) &&& ~~~(typeOf v).hit = 0#x.bits := by
    simpa [has] using h
  exact and_of_xor hxor (triggerTypes_apart (tdata1Type v)).hit

theorem alike_of_guard {v : Word x} (h : v' &&& guard v = v &&& guard v) : Alike v v' :=
  alike_of_and h (typeMask_and_guard v) (dmode_and_guard v) (m_and_guard v)

variable {m : Word x}

theorem alike_replace {v : Word x} (hm : m &&& modeBits v = m) :
    Alike v (clear v (modeBits v) ||| m) := by
  have hand := replace_and_of_disjoint (v := v) (triggerTypes_apart (tdata1Type v)).modes hm
  refine alike_of_and hand ?_ ?_ ?_
  · rw [BitVec.or_assoc, and_or_self]
  · rw [BitVec.or_comm typeMask, BitVec.or_assoc, and_or_self]
  · rw [BitVec.or_comm (typeMask ||| tdata1Dmode)]
    exact and_or_self _ _

theorem off_typeMask (v : Word x) : Off (v &&& typeMask) := by
  have htype : typeOf (v &&& typeMask) = typeOf v := typeOf_congr (tdata1Type_typeMask v)
  have hzero : ∀ g : Word x,
      g &&& ((typeOf v).modes ||| (typeOf v).m ||| tdata1Dmode) = g →
        v &&& typeMask &&& g = 0#x.bits := by
    intro g hg
    have hapart : ((typeOf v).modes ||| (typeOf v).m ||| tdata1Dmode) &&& typeMask = 0#x.bits :=
      (triggerTypes_apart (tdata1Type v)).type
    rw [BitVec.and_assoc, BitVec.and_comm typeMask, ← hg, BitVec.and_assoc g, hapart,
      BitVec.and_zero, BitVec.and_zero]
  refine ⟨⟨?_, ?_⟩, ?_⟩
  · have hdmode := hzero tdata1Dmode (by rw [BitVec.or_comm, and_or_self])
    simp [has, hdmode]
  · have hm := hzero (typeOf v).m (by
      rw [BitVec.or_comm (typeOf v).modes, BitVec.or_assoc, and_or_self])
    simp [has, htype, hm]
  · have hmodes := hzero (typeOf v).modes (by rw [BitVec.or_assoc, and_or_self])
    rw [modeBits_eq, htype]
    exact hmodes

theorem off_zero : Off (0 : Word x) := by
  have hzero := off_typeMask (0 : Word x)
  have heq : (0 : Word x) &&& typeMask = 0 := BitVec.zero_and
  rwa [heq] at hzero

/-! ### The modes of the state word -/

theorem setIf_and_of_subset {w : Nat} {c : Bool} {v m g : BitVec w} (hv : v &&& g = v)
    (hm : m &&& g = m) : setIf c v m &&& g = setIf c v m := by
  cases c with
  | false => exact hv
  | true => rw [setIf, if_pos rfl, BitVec.and_or_distrib_right, hv, hm]

theorem recorded_and_modes (t : TriggerType x) (state : Word x) :
    recorded t state &&& t.modes = recorded t state := by
  unfold recorded TriggerType.modes
  refine setIf_and_of_subset (setIf_and_of_subset (setIf_and_of_subset (setIf_and_of_subset
    BitVec.zero_and ?_) ?_) ?_) ?_
  · rw [BitVec.or_assoc, BitVec.or_assoc, and_or_self]
  · rw [BitVec.or_comm t.u, BitVec.or_assoc, BitVec.or_assoc, and_or_self]
  · rw [BitVec.or_comm (t.u ||| t.s), BitVec.or_assoc, and_or_self]
  · rw [BitVec.or_comm, and_or_self]

def IsBit (m : Word x) : Prop := m = 0#x.bits ∨ ∃ n, m = bit n

theorem IsBit.and_eq (hm : IsBit m) (v : Word x) :
    v &&& m = setIf (has v m) 0#x.bits m := by
  rcases hm with rfl | ⟨n, rfl⟩
  · simp [has, setIf]
  · have hbit : (bit n : Word x) = BitVec.twoPow x.bits n := rfl
    rw [hbit, has_twoPow, BitVec.and_twoPow, setIf, BitVec.zero_or]

theorem typeOf_bits (v : Word x) :
    IsBit (typeOf v).u ∧ IsBit (typeOf v).s ∧ IsBit (typeOf v).vu ∧ IsBit (typeOf v).vs := by
  unfold typeOf triggerTypes
  split <;> refine ⟨?_, ?_, ?_, ?_⟩ <;> first | exact .inr ⟨_, rfl⟩ | exact .inl rfl

theorem getLsbD_stateOf (i : Nat) (v : Word x) {n : Nat} (hn : 1 ≤ n ∧ n ≤ 4) :
    (stateOf i v).getLsbD n =
      ((has v (typeOf v).u && decide (n = 1)) || (has v (typeOf v).s && decide (n = 2)) ||
        (has v (typeOf v).vu && decide (n = 3)) || (has v (typeOf v).vs && decide (n = 4))) := by
  have hshift : (BitVec.ofNat x.bits i <<< 8).getLsbD n = false := by
    rw [BitVec.getLsbD_shiftLeft]
    simp [show n < 8 by omega]
  have hbits : ∀ k ≤ 5, (bit k : Word x).getLsbD n = decide (n = k) := by
    intro k hk
    have htwo : (bit k : Word x) = BitVec.twoPow x.bits k := rfl
    have hlt : k < x.bits := by cases x <;> simp only [Xlen.bits] <;> omega
    rw [htwo, BitVec.getLsbD_twoPow, decide_eq_true hlt, Bool.true_and]
    exact decide_eq_decide.2 eq_comm
  simp only [stateOf, getLsbD_setIf, BitVec.getLsbD_or, hshift, stateMapped, stateHaveHw, stateU,
    stateS, stateVu, stateVs, hbits _ (Nat.zero_le 5), hbits 1 (by omega), hbits 2 (by omega),
    hbits 3 (by omega), hbits 4 (by omega), hbits 5 (by omega),
    decide_eq_false (show n ≠ 0 by omega), decide_eq_false (show n ≠ 5 by omega), Bool.or_false,
    Bool.false_or]

theorem recorded_stateOf (i : Nat) (v : Word x) :
    recorded (typeOf v) (stateOf i v) = v &&& modeBits v := by
  have hhas : ∀ n, 1 ≤ n ∧ n ≤ 4 → has (stateOf i v) (bit n) = (stateOf i v).getLsbD n :=
    fun n _ => has_twoPow _ n
  obtain ⟨hu, hs, hvu, hvs⟩ := typeOf_bits v
  have hmodes : v &&& modeBits v = setIf (has v (typeOf v).u) 0#x.bits (typeOf v).u |||
      setIf (has v (typeOf v).s) 0#x.bits (typeOf v).s |||
      setIf (has v (typeOf v).vu) 0#x.bits (typeOf v).vu |||
      setIf (has v (typeOf v).vs) 0#x.bits (typeOf v).vs := by
    rw [← hu.and_eq, ← hs.and_eq, ← hvu.and_eq, ← hvs.and_eq, modeBits]
    simp only [BitVec.and_or_distrib_left]
  unfold recorded
  rw [stateU, stateS, stateVu, stateVs, hhas 1 (by omega), hhas 2 (by omega), hhas 3 (by omega),
    hhas 4 (by omega), getLsbD_stateOf i v (by omega), getLsbD_stateOf i v (by omega),
    getLsbD_stateOf i v (by omega), getLsbD_stateOf i v (by omega), hmodes]
  cases has v (typeOf v).u <;> cases has v (typeOf v).s <;> cases has v (typeOf v).vu <;>
    cases has v (typeOf v).vs <;> simp [setIf]

/-! ### What the hardware takes -/

structure Warl (hw : Hardware x) where
  legal : Nat → Word x → Prop
  takes : ∀ {i t v}, legal i v → (hw.write1 i t v).tdata1 = v
  leaves : ∀ i t v, legal i (hw.write1 i t v).tdata1
  write2 : ∀ i t v, (hw.write2 i t v).tdata1 = t.tdata1
  write3 : ∀ i t v, (hw.write3 i t v).tdata1 = t.tdata1
  /-- The type alone is sure to stick. -/
  off : ∀ {i v}, legal i v → legal i (v &&& typeMask)
  /-- Other modes that the type has had change nothing else. -/
  modes : ∀ {i v u}, legal i v → legal i u → tdata1Type u = tdata1Type v →
    legal i (clear v (modeBits v) ||| u &&& modeBits v)

structure Armed {hw : Hardware x} (w : Warl hw) (i : Nat) (state v : Word x) : Prop
    extends Plain v where
  legal : w.legal i v
  /-- It matches in modes that are recorded. -/
  within : clear (v &&& modeBits v) (recorded (typeOf v) state) = 0#x.bits
  /-- The hardware has had all of them. -/
  source : ∃ u, w.legal i u ∧ tdata1Type u = tdata1Type v ∧
    u &&& modeBits v = recorded (typeOf v) state

variable {cfg : Entry x}

theorem plain_of_configCheck (hcheck : configCheck cfg = .success) :
    Plain cfg.tdata1 := by
  unfold configCheck at hcheck
  split at hcheck
  · cases hcheck
  · split at hcheck
    · cases hcheck
    · next hplain =>
      rw [Bool.not_eq_true, Bool.or_eq_false_iff] at hplain
      exact ⟨hplain.1, hplain.2⟩

def readied (hw : Hardware x) (hasTdata3 : Bool) (i : Nat) (cfg : Entry x) (t : Trigger x) :
    Trigger x :=
  let t := hw.write2 i (hwClear hw i t) cfg.tdata2
  if hasTdata3 then hw.write3 i t cfg.tdata3 else t

theorem hwProgram_cases (hw : Hardware x) (hasTdata3 : Bool) (i : Nat) (cfg : Entry x)
    (t : Trigger x) :
    let written := hw.write1 i (readied hw hasTdata3 i cfg t) cfg.tdata1
    hwProgram hw hasTdata3 i cfg t = (hw.write2 i (hwClear hw i t) cfg.tdata2, false) ∨
      hwProgram hw hasTdata3 i cfg t = (hwClear hw i written, false) ∨
      has (written.tdata1 ^^^ cfg.tdata1) (~~~(typeOf cfg.tdata1).hit) = false ∧
        hwProgram hw hasTdata3 i cfg t = (written, true) := by
  intro written
  by_cases h3 : hasTdata3 = false ∧ cfg.tdata3 ≠ 0
  · exact .inl (if_pos h3)
  · have hprogram : hwProgram hw hasTdata3 i cfg t =
        if has (written.tdata1 ^^^ cfg.tdata1) (~~~(typeOf cfg.tdata1).hit) = true then
          (hwClear hw i written, false)
        else (written, true) := if_neg h3
    rw [hprogram]
    split
    · exact .inr (.inl rfl)
    · next hsame => exact .inr (.inr ⟨Bool.not_eq_true _ ▸ hsame, rfl⟩)

variable {i : Nat} {state : Word x}

section Warl

variable {hw : Hardware x} (w : Warl hw)
include w

theorem hwClear_off (i : Nat) (t : Trigger x) : Off (hwClear hw i t).tdata1 := by
  unfold hwClear
  dsimp only
  rw [w.write2]
  split
  · next hzero =>
    rw [hzero]
    exact off_zero
  · have htaken := w.takes (t := hw.write1 i t 0) (w.off (w.leaves i t 0))
    exact (congrArg Off htaken).mpr (off_typeMask _)

theorem hwProgram_off {hasTdata3 : Bool} {t : Trigger x}
    (hrefused : (hwProgram hw hasTdata3 i cfg t).2 = false) :
    Off (hwProgram hw hasTdata3 i cfg t).1.tdata1 := by
  rcases hwProgram_cases hw hasTdata3 i cfg t with heq | heq | ⟨-, heq⟩
  · rw [heq, w.write2]
    exact hwClear_off w i t
  · rw [heq]
    exact hwClear_off w i _
  · rw [heq] at hrefused
    cases hrefused

theorem hwProgram_armed {hasTdata3 : Bool} {t : Trigger x} (hcheck : configCheck cfg = .success)
    (htook : (hwProgram hw hasTdata3 i cfg t).2 = true) :
    Armed w i (stateOf i cfg.tdata1) (hwProgram hw hasTdata3 i cfg t).1.tdata1 := by
  rcases hwProgram_cases hw hasTdata3 i cfg t with heq | heq | ⟨hsame, heq⟩
  · rw [heq] at htook
    cases htook
  · rw [heq] at htook
    cases htook
  · rw [heq]
    set v := (hw.write1 i (readied hw hasTdata3 i cfg t) cfg.tdata1).tdata1
    have hguard : v &&& guard cfg.tdata1 = cfg.tdata1 &&& guard cfg.tdata1 := guard_of_hit hsame
    have halike := alike_of_guard hguard
    have hlegal : w.legal i v := w.leaves i _ cfg.tdata1
    have hmodes : v &&& modeBits v = recorded (typeOf v) (stateOf i cfg.tdata1) := by
      rw [halike.modeBits, halike.typeOf, recorded_stateOf]
      exact and_of_subset hguard (modeBits_and_guard _)
    refine ⟨halike.plain (plain_of_configCheck hcheck), hlegal, ?_, v, hlegal, rfl, hmodes⟩
    rw [hmodes, clear_self]

section

variable {v : Word x} (h : Armed w i state v)
include h

theorem Armed.replace (hm : clear m (recorded (typeOf v) state) = 0#x.bits)
    (hmodes : m &&& modeBits v = m) (hlegal : w.legal i (clear v (modeBits v) ||| m)) :
    Armed w i state (clear v (modeBits v) ||| m) := by
  have halike := alike_replace hmodes
  obtain ⟨u, hu, htype, hsource⟩ := h.source
  refine ⟨halike.plain h.toPlain, hlegal, ?_, u, hu, htype.trans halike.type.symm, ?_⟩
  · rw [halike.modeBits, halike.typeOf, replace_and_self hmodes, hm]
  · rw [halike.modeBits, halike.typeOf, hsource]

theorem Armed.disable :
    w.legal i (clear v (modeBits v)) ∧ Armed w i state (clear v (modeBits v)) := by
  have hoff := off_typeMask v
  have htype := tdata1Type_typeMask v
  have hbits : modeBits (v &&& typeMask) = modeBits v := by
    rw [modeBits_eq, modeBits_eq, typeOf_congr htype]
  have hnone : v &&& typeMask &&& modeBits v = 0#x.bits := hbits ▸ hoff.modes
  have hlegal := w.modes h.legal (w.off h.legal) htype
  rw [hnone] at hlegal
  have hreplace := h.replace w BitVec.zero_and BitVec.zero_and hlegal
  rw [BitVec.or_zero] at hlegal hreplace
  exact ⟨hlegal, hreplace⟩

theorem Armed.enable :
    w.legal i (clear v (modeBits v) ||| recorded (typeOf v) state) ∧
      Armed w i state (clear v (modeBits v) ||| recorded (typeOf v) state) := by
  obtain ⟨u, hu, htype, hsource⟩ := h.source
  have hlegal := w.modes h.legal hu htype
  rw [hsource] at hlegal
  exact ⟨hlegal, h.replace w (clear_self _) (recorded_and_modes _ _) hlegal⟩

/-- The hardware notes a match: the type, the modes and whose it is stay. -/
theorem Armed.fires (hlegal : w.legal i v') (hguard : v' &&& guard v = v &&& guard v) :
    Armed w i state v' := by
  have halike := alike_of_guard hguard
  have hmodes : v' &&& modeBits v = v &&& modeBits v :=
    and_of_subset hguard (modeBits_and_guard v)
  obtain ⟨u, hu, htype, hsource⟩ := h.source
  refine ⟨halike.plain h.toPlain, hlegal, ?_, u, hu, htype.trans halike.type.symm, ?_⟩
  · rw [halike.modeBits, halike.typeOf, hmodes, h.within]
  · rw [halike.modeBits, halike.typeOf, hsource]

end

omit w in
theorem Off.fires {v : Word x} (h : Off v) (hguard : v' &&& guard v = v &&& guard v) :
    Off v' := by
  have halike := alike_of_guard hguard
  refine ⟨halike.plain h.toPlain, ?_⟩
  rw [halike.modeBits, and_of_subset hguard (modeBits_and_guard v), h.modes]

end Warl

end RiscvMonitor.Dbtr
