import RiscvMonitor.PmuSwitch
import RiscvMonitor.Dbtr
import RiscvMonitor.Fwft

/-!
# Services out of the hart and back

What `hart_services_switch_out()` takes out of the hart, the other half puts back,
whatever is in the hart by then: the counters, the triggers and the features that a
domain had are what it finds again.
-/

/-! ### Counters -/

namespace RiscvMonitor.Pmu

variable {x : Xlen}

structure Seen where
  inhibit : BitVec 32
  counter : Nat → BitVec 64
  select : Nat → BitVec 64
  irqEnabled : Bool
  irqDelegated : Bool
  irqPending : Bool

def seen (cfg : Config x) (hw : Hardware) : Seen where
  inhibit := if cfg.haveInhibit then hw.inhibit else 0
  counter := fun n => if cfg.hwCounters.getLsbD n then hw.counter n else 0
  select := fun n => if cfg.hwCounters.getLsbD n then eventRead cfg hw n else 0
  irqEnabled := cfg.sscofpmf && hw.irqEnabled
  irqDelegated := cfg.sscofpmf && hw.irqDelegated
  irqPending := cfg.sscofpmf && hw.irqPending

def Held (cfg : Config x) (hw : Hardware) : Prop :=
  ∀ n, cfg.hasSelect n = true → cfg.selectLegal n (hw.select n) = hw.select n

section Trip

variable (cfg : Config x)

theorem eventRead_eq (hw : Hardware) {n : Nat} (hn : cfg.hwCounters.getLsbD n = true) :
    eventRead cfg hw n = if cfg.hasSelect n then hw.select n else 0 := by
  have hne := ne_one_of_exists cfg hn
  unfold eventRead Config.hasSelect
  by_cases h3 : n < 3
  · have hno : ¬ 3 ≤ n := by omega
    simp [h3, hno, hne, hn]
  · have hge : 3 ≤ n := by omega
    simp [h3, hge, hn]

theorem switchOut_saved (b : Hart x) :
    let saved := (switchOut cfg b).p.hw
    (cfg.haveInhibit = true → saved.inhibit = b.hw.inhibit) ∧
      (∀ n, cfg.hwCounters.getLsbD n = true →
        saved.counter n = b.hw.counter n ∧ saved.select n = eventRead cfg b.hw n) ∧
      (cfg.sscofpmf = true → saved.irqEnabled = b.hw.irqEnabled ∧
        saved.irqDelegated = b.hw.irqDelegated ∧ saved.irqPending = b.hw.irqPending) := by
  unfold switchOut
  cases hinhibit : cfg.haveInhibit with
  | false =>
    refine ⟨by rintro ⟨⟩, ?_, ?_⟩
    · intro n hn
      rw [not_exists_of_noInhibit cfg hinhibit n] at hn
      cases hn
    · intro hirq
      simp [hirq]
  | true =>
    refine ⟨?_, ?_, ?_⟩
    · intro _
      cases cfg.sscofpmf <;> rfl
    · intro n hn
      cases cfg.sscofpmf with
      | false => simp [hn]
      | true =>
        simp only [if_true, hn, Bool.true_eq_false, if_false]
        exact ⟨trivial, rfl⟩
    · intro hirq
      simp [hirq]

theorem seen_switchIn (b : Hart x) :
    seen cfg (switchIn cfg false b).hw =
      { inhibit := if cfg.haveInhibit then b.p.hw.inhibit else 0
        counter := fun n => if cfg.hwCounters.getLsbD n then b.p.hw.counter n else 0
        select := fun n =>
          if cfg.hwCounters.getLsbD n then
            if cfg.hasSelect n then cfg.selectLegal n (b.p.hw.select n) else 0
          else 0
        irqEnabled := cfg.sscofpmf && b.p.hw.irqEnabled
        irqDelegated := cfg.sscofpmf && b.p.hw.irqDelegated
        irqPending := cfg.sscofpmf && b.p.hw.irqPending } := by
  -- the interrupt bits do not matter for the counters
  set hw := if cfg.haveInhibit then
      { cfg.forEach (restoreOne cfg b.p.hw) { b.hw with inhibit := cfg.hwCounters } with
        inhibit := b.p.hw.inhibit }
    else b.hw with hhw
  have hresult : (switchIn cfg false b).hw =
      if cfg.sscofpmf then
        { hw with
          irqDelegated := b.p.hw.irqDelegated
          irqPending := b.p.hw.irqPending
          irqEnabled := b.p.hw.irqEnabled }
      else hw := by
    unfold switchIn
    rw [if_neg Bool.false_ne_true, hhw]
    cases cfg.sscofpmf <;> cases cfg.haveInhibit <;> rfl
  have hseen : ∀ hw', seen cfg (if cfg.sscofpmf then
        { hw' with
          irqDelegated := b.p.hw.irqDelegated
          irqPending := b.p.hw.irqPending
          irqEnabled := b.p.hw.irqEnabled }
      else hw') =
      { seen cfg hw' with
        irqEnabled := cfg.sscofpmf && b.p.hw.irqEnabled
        irqDelegated := cfg.sscofpmf && b.p.hw.irqDelegated
        irqPending := cfg.sscofpmf && b.p.hw.irqPending } := by
    intro hw'
    unfold seen
    cases cfg.sscofpmf <;> rfl
  have hcounters : ∀ n, cfg.hwCounters.getLsbD n = true → hw.counter n = b.p.hw.counter n ∧
      (cfg.hasSelect n = true → hw.select n = cfg.selectLegal n (b.p.hw.select n)) := by
    intro n hn
    obtain ⟨hcounter, hselect⟩ :=
      forEach_restore cfg b.p.hw { b.hw with inhibit := cfg.hwCounters }
    rw [hhw, if_pos (haveInhibit_of_exists cfg hn)]
    refine ⟨(hcounter n).trans (if_pos hn), ?_⟩
    intro hsel
    exact (hselect n).trans (if_pos hsel)
  have hinhibit : (seen cfg hw).inhibit = if cfg.haveInhibit then b.p.hw.inhibit else 0 := by
    rw [seen, hhw]
    split <;> rfl
  have hcounter : (seen cfg hw).counter =
      fun n => if cfg.hwCounters.getLsbD n then b.p.hw.counter n else 0 := by
    funext n
    simp only [seen]
    split
    · next hn => exact (hcounters n hn).1
    · rfl
  have hselect : (seen cfg hw).select = fun n =>
      if cfg.hwCounters.getLsbD n then
        if cfg.hasSelect n then cfg.selectLegal n (b.p.hw.select n) else 0
      else 0 := by
    funext n
    simp only [seen]
    split
    · next hn =>
      rw [eventRead_eq cfg hw hn]
      split
      · next hsel => exact (hcounters n hn).2 hsel
      · rfl
    · rfl
  rw [hresult, hseen, ← hinhibit, ← hcounter, ← hselect]

theorem switchIn_record (b : Hart x) : (switchIn cfg false b).p = b.p := by
  unfold switchIn
  rw [if_neg Bool.false_ne_true]
  cases cfg.sscofpmf <;> cases cfg.haveInhibit <;> rfl

theorem switchOut_record (b : Hart x) :
    (switchOut cfg b).p = { b.p with hw := (switchOut cfg b).p.hw } := by
  unfold switchOut
  cases cfg.sscofpmf <;> cases cfg.haveInhibit <;> rfl

theorem seen_switchIn_switchOut (b : Hart x) (hw : Hardware) (hheld : Held cfg b.hw) :
    seen cfg (switchIn cfg false ⟨(switchOut cfg b).p, hw⟩).hw = seen cfg b.hw := by
  obtain ⟨hinhibit, hcounters, hirq⟩ := switchOut_saved cfg b
  rw [seen_switchIn, seen]
  congr 1
  · split
    · next hon => exact hinhibit hon
    · rfl
  · funext n
    split
    · next hn => exact (hcounters n hn).1
    · rfl
  · funext n
    split
    · next hn =>
      simp only [(hcounters n hn).2, eventRead_eq cfg b.hw hn]
      split
      · next hsel => exact hheld n hsel
      · rfl
    · rfl
  · cases hon : cfg.sscofpmf with
    | false => rfl
    | true => rw [(hirq hon).1]
  · cases hon : cfg.sscofpmf with
    | false => rfl
    | true => rw [(hirq hon).2.1]
  · cases hon : cfg.sscofpmf with
    | false => rfl
    | true => rw [(hirq hon).2.2]

end Trip

end RiscvMonitor.Pmu

/-! ### Triggers -/

namespace RiscvMonitor.Dbtr

variable {x : Xlen}

def SameRegs (hasTdata3 : Bool) (t t' : Trigger x) : Prop :=
  t'.tdata1 = t.tdata1 ∧ t'.tdata2 = t.tdata2 ∧ (hasTdata3 = true → t'.tdata3 = t.tdata3)

/-- The hardware took the values that the trigger has, and takes them again. -/
def Retaken (hw : Hardware x) (hasTdata3 : Bool) (i : Nat) (t : Trigger x) : Prop :=
  ∀ old, SameRegs hasTdata3 t
    (hw.write1 i
      (if hasTdata3 then hw.write3 i (hw.write2 i (hwClear hw i old) t.tdata2) t.tdata3
      else hw.write2 i (hwClear hw i old) t.tdata2) t.tdata1)

theorem switchIn_switchOut (cfg : Config x) (b : Hart x) (trigger : Nat → Trigger x) {i : Nat}
    (hi : i < b.d.count) (hmapped : b.d.mapped i = true)
    (hretaken : Retaken cfg.hw b.d.hasTdata3 i (b.trigger i)) :
    SameRegs b.d.hasTdata3 (b.trigger i)
      ((switchIn cfg false ⟨(switchOut cfg.hw b).d, trigger⟩).trigger i) := by
  have htaken : (decide (i < b.d.count) && b.d.mapped i) = true := by simp [hi, hmapped]
  have hsaved : (switchOut cfg.hw b).d.saved i =
      { b.trigger i with tdata3 := if b.d.hasTdata3 then (b.trigger i).tdata3 else 0 } :=
    if_pos htaken
  have hback : (switchIn cfg false ⟨(switchOut cfg.hw b).d, trigger⟩).trigger i =
      writeBack cfg.hw (switchOut cfg.hw b).d i (trigger i) := if_pos htaken
  have htdata3 : (switchOut cfg.hw b).d.hasTdata3 = b.d.hasTdata3 := rfl
  rw [hback, writeBack, hsaved, htdata3]
  have hagain := hretaken (trigger i)
  dsimp only
  cases h3 : b.d.hasTdata3 with
  | false =>
    rw [h3] at hagain
    exact hagain
  | true =>
    rw [h3] at hagain
    exact hagain

theorem switchIn_record (cfg : Config x) (b : Hart x) : (switchIn cfg false b).d = b.d := rfl

theorem switchOut_record (hw : Hardware x) (b : Hart x) :
    (switchOut hw b).d = { b.d with saved := (switchOut hw b).d.saved } := rfl

end RiscvMonitor.Dbtr

/-! ### Features -/

namespace RiscvMonitor.Fwft

open Masks

variable {x : Xlen}

/-- The registers have values that the calls leave in them. -/
structure Held (hw : Hardware) (b : Hart x) : Prop where
  taken : hw.menvcfg = true → hw.Takes b.menvcfg
  deleg : b.medeleg &&& misalignedDeleg = 0#x.bits ∨ b.medeleg &&& misalignedDeleg = misalignedDeleg

theorem switchIn_switchOut (hw : Hardware) (b : Hart x) (hheld : Held hw b) {menvcfg : BitVec 64}
    {medeleg : Word x}
    (hfields : hw.menvcfg = true →
      clear menvcfg featureFields = clear b.menvcfg featureFields)
    (hdeleg : clear medeleg misalignedDeleg = clear b.medeleg misalignedDeleg) :
    let r := switchIn hw false ⟨(switchOut hw b).f, menvcfg, medeleg⟩
    (hw.menvcfg = true → r.menvcfg = b.menvcfg) ∧ r.medeleg = b.medeleg ∧
      r.f.locked = b.f.locked := by
  have hmedeleg : (if has b.medeleg misalignedDeleg then medeleg ||| misalignedDeleg
      else clear medeleg misalignedDeleg) = b.medeleg := by
    rcases hheld.deleg with hnone | hall
    · have hhas : has b.medeleg misalignedDeleg = false := by simp [has, hnone]
      rw [hhas, if_neg Bool.false_ne_true, hdeleg]
      have hsplit := clear_or_and b.medeleg misalignedDeleg
      rwa [hnone, BitVec.or_zero] at hsplit
    · have hhas : has b.medeleg misalignedDeleg = true := by
        simp [has, hall, misalignedDeleg_ne_zero]
      rw [hhas, if_pos rfl]
      have hset : medeleg ||| misalignedDeleg = clear medeleg misalignedDeleg ||| misalignedDeleg := by
        apply BitVec.eq_of_getLsbD_eq
        intro i _
        simp only [BitVec.getLsbD_or, getLsbD_clear]
        cases (misalignedDeleg : Word x).getLsbD i <;> simp
      have hsplit := clear_or_and b.medeleg misalignedDeleg
      rw [hset, hdeleg]
      rwa [hall] at hsplit
  cases hmenvcfg : hw.menvcfg with
  | false => simp [switchIn, switchOut, hmenvcfg, hmedeleg]
  | true =>
    have hvalue : hw.legal menvcfg (clear menvcfg featureFields ||| b.menvcfg &&& featureFields) =
        b.menvcfg := by
      rw [hfields hmenvcfg, clear_or_and, hheld.taken hmenvcfg]
    simp [switchIn, switchOut, hmenvcfg, hmedeleg, envcfgWrite, hvalue]

end RiscvMonitor.Fwft
