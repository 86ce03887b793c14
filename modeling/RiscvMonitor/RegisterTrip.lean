import RiscvMonitor.ContextSwitch

/-!
# Registers out of the hart and back

A register that was saved is written back in the state that the other domain left.
Where the bits of a register depend on `menvcfg`, on `henvcfg` or on `hvien`, the
write comes before these are restored, so what is lost is what the other domain had
shut.
-/

namespace RiscvMonitor.HartState

open Masks

variable {x : Xlen}

/-! ### The order -/

/-- The registers whose bits depend on those of other registers. -/
def Csr.dependent : Csr → Bool
  | .hyp .vsstatus | .hyp .vsie => true
  | _ => false

section Order

variable (cfg : Config x)

theorem gate_fixed {c : Csr} (hc : c.dependent = false) (menvcfg : BitVec 64)
    (file file' : Csr → BitVec 64) : cfg.gate menvcfg file c = cfg.gate menvcfg file' c := by
  cases c with
  | hyp c =>
    cases c with
    | vsstatus | vsie => cases hc
    | _ => rfl
  | _ => rfl

theorem mem_order_of_switched {c : Csr} (hc : cfg.switched c = true) :
    c ∈ supervisorOrder ∨ c ∈ hypOrder := by
  cases c with
  | sstateen n => fin_cases n <;> decide
  | hyp c => cases c <;> decide
  | jvt | scontext | hcontext | srmcfg | siselect | hedelegh | ssp | fcsr => cases hc
  | _ => decide

theorem orders_disjoint : ∀ c ∈ supervisorOrder, c ∉ hypOrder := by decide

variable {saved file : Csr → BitVec 64} {menvcfg : BitVec 64}

theorem csrsRestore_unknown {c : Csr} (hc : cfg.switched c = false) :
    csrsRestore cfg saved menvcfg file c = file c := by
  have hnot : ∀ l : List Csr, c ∉ l.filter cfg.switched := by
    intro l hmem
    rw [List.mem_filter, hc] at hmem
    exact Bool.false_ne_true hmem.2
  unfold csrsRestore
  rw [Gated.restore_of_not_mem (hnot _)]
  split
  · next hon =>
    have hne : c ≠ .vstimecmp := by
      rintro rfl
      rw [hc] at hon
      cases hon
    rw [Gated.write_of_ne hne, Gated.restore_of_not_mem (hnot _)]
  · exact Gated.restore_of_not_mem (hnot _)

theorem exists_before_hyp (saved file : Csr → BitVec 64) (menvcfg : BitVec 64) :
    ∃ mid : Csr → BitVec 64,
      csrsRestore cfg saved menvcfg file =
        Gated.restore (cfg.gate menvcfg) saved (hypOrder.filter cfg.switched) mid ∧
      (∀ c ∈ hypOrder, c ≠ .vstimecmp → mid c = file c) ∧
      ∀ c, c ∉ hypOrder →
        mid c =
          Gated.restore (cfg.gate menvcfg) saved (supervisorOrder.filter cfg.switched) file c := by
  set first := Gated.restore (cfg.gate menvcfg) saved (supervisorOrder.filter cfg.switched) file
    with hfirst
  have hkeeps : ∀ c ∈ hypOrder, first c = file c := by
    intro c hc
    apply Gated.restore_of_not_mem
    intro hmem
    exact orders_disjoint c (List.mem_of_mem_filter hmem) hc
  refine ⟨_, rfl, ?_, ?_⟩
  · intro c hc hne
    split
    · exact (Gated.write_of_ne hne _).trans (hkeeps c hc)
    · exact hkeeps c hc
  · intro c hc
    have hne : c ≠ .vstimecmp := by
      rintro rfl
      exact hc (by decide)
    split
    · exact Gated.write_of_ne hne _
    · rfl

theorem csrsRestore_fixed {c : Csr} (hc : cfg.switched c = true) (hfixed : c.dependent = false) :
    csrsRestore cfg saved menvcfg file c = saved c &&& cfg.gate menvcfg file c := by
  obtain ⟨mid, hrestore, -, houtside⟩ :=
    exists_before_hyp cfg saved file menvcfg
  have hgate := gate_fixed cfg hfixed menvcfg
  rw [hrestore]
  by_cases hhyp : c ∈ hypOrder
  · rw [Gated.restore_fixed (List.mem_filter.mpr ⟨hhyp, hc⟩) fun file' => hgate file' mid,
      hgate mid file]
  · rcases mem_order_of_switched cfg hc with hsup | hin
    · rw [Gated.restore_of_not_mem fun hmem => hhyp (List.mem_of_mem_filter hmem),
        houtside c hhyp,
        Gated.restore_fixed (List.mem_filter.mpr ⟨hsup, hc⟩) fun file' => hgate file' file]
    · exact absurd hin hhyp

theorem csrsRestore_split (saved file : Csr → BitVec 64) (menvcfg : BitVec 64) {c : Csr}
    (before behind : List Csr)
    (horder : hypOrder = before ++ c :: behind) (hc : cfg.switched c = true)
    (hbehind : c ∉ behind) :
    ∃ mid : Csr → BitVec 64,
      csrsRestore cfg saved menvcfg file c = saved c &&& cfg.gate menvcfg mid c ∧
      ∀ r ∈ hypOrder, r ≠ .vstimecmp → r.dependent = false →
        mid r = if r ∈ before ∧ cfg.switched r = true then saved r &&& cfg.gate menvcfg file r
          else file r := by
  obtain ⟨mid, hrestore, hinside, -⟩ :=
    exists_before_hyp cfg saved file menvcfg
  have hfilter : hypOrder.filter cfg.switched =
      before.filter cfg.switched ++ c :: behind.filter cfg.switched := by
    rw [horder, List.filter_append, List.filter_cons_of_pos hc]
  refine ⟨Gated.restore (cfg.gate menvcfg) saved (before.filter cfg.switched) mid, ?_, ?_⟩
  · rw [hrestore, hfilter]
    exact Gated.restore_split fun hmem => hbehind (List.mem_of_mem_filter hmem)
  · intro r hr hne hfixed
    have hgate := gate_fixed cfg hfixed menvcfg
    by_cases hmem : r ∈ before ∧ cfg.switched r = true
    · rw [if_pos hmem, Gated.restore_fixed (List.mem_filter.mpr hmem) fun file' => hgate file' mid,
        hgate mid file]
    · rw [if_neg hmem, Gated.restore_of_not_mem fun hin => hmem (List.mem_filter.mp hin),
        hinside r hr hne]

theorem csrsRestore_vsstatus (hc : cfg.switched (.hyp .vsstatus) = true) :
    csrsRestore cfg saved menvcfg file (.hyp .vsstatus) =
      saved (.hyp .vsstatus) &&& cfg.gate menvcfg file (.hyp .vsstatus) := by
  obtain ⟨mid, hvalue, hmid⟩ := csrsRestore_split cfg saved file menvcfg
    ((HypCsr.plain.take 10).map .hyp)
    ((HypCsr.plain.drop 11).map .hyp ++ HypCsr.aia.map .hyp ++ HypCsr.high.map .hyp ++
      [.htimedelta, .henvcfg, .hstateen0, .vstimecmp]) rfl hc (by decide)
  -- `henvcfg` comes later
  have hhenvcfg : mid .henvcfg = file .henvcfg := by
    rw [hmid .henvcfg (by decide) (by decide) rfl, if_neg]
    exact fun hmem => absurd hmem.1 (by decide)
  rw [hvalue]
  simp only [Config.gate, hhenvcfg]

theorem csrsRestore_vsie (hc : cfg.switched (.hyp .vsie) = true) :
    csrsRestore cfg saved menvcfg file (.hyp .vsie) =
      saved (.hyp .vsie) &&& cfg.gate menvcfg
        (Function.update file (.hyp .hideleg) (saved (.hyp .hideleg) &&& cfg.base (.hyp .hideleg)))
        (.hyp .vsie) := by
  obtain ⟨mid, hvalue, hmid⟩ := csrsRestore_split cfg saved file menvcfg
    ((HypCsr.plain.take 11).map .hyp)
    ((HypCsr.plain.drop 12).map .hyp ++ HypCsr.aia.map .hyp ++ HypCsr.high.map .hyp ++
      [.htimedelta, .henvcfg, .hstateen0, .vstimecmp]) rfl hc (by decide)
  -- `hideleg` came before, and `hvien` comes later
  have hhideleg : mid (.hyp .hideleg) = saved (.hyp .hideleg) &&& cfg.base (.hyp .hideleg) := by
    rw [hmid (.hyp .hideleg) (by decide) (by decide) rfl, if_pos ⟨by decide, hc⟩]
    rfl
  have hhvien : mid (.hyp .hvien) = file (.hyp .hvien) := by
    rw [hmid (.hyp .hvien) (by decide) (by decide) rfl, if_neg]
    exact fun hmem => absurd hmem.1 (by decide)
  rw [hvalue]
  simp [Config.gate, hhideleg, hhvien]

end Order

/-! ### There and back -/

/-- The registers that a caller counts on: not those that only `mstateen0` opens. -/
def Csr.listed : Csr → Bool
  | .jvt | .scontext | .srmcfg | .siselect | .ssp => false
  | _ => true

def Csr.forgotten : List Csr := [.hcontext, .hedelegh, .fcsr]

theorem Csr.listed_cases {c : Csr} (hc : c.listed = true) :
    c ∈ supervisorOrder ++ hypOrder ∨ c ∈ forgotten := by
  cases c with
  | sstateen n => fin_cases n <;> decide
  | hyp c => cases c <;> decide
  | jvt | scontext | srmcfg | siselect | ssp => cases hc
  | _ => decide

/-- The state `h₂`, in which the registers are written back, has room for what they had
    in the state `h`. -/
structure Opens (cfg : Config x) (h h₂ : Hart x) : Prop where
  senvcfg : clear (h.read cfg .senvcfg &&& envcfgSse) h₂.menvcfg = 0
  henvcfg :
    clear (h.read cfg .henvcfg &&& (envcfgSse ||| envcfgAdue ||| envcfgDte)) h₂.menvcfg = 0
  vsstatus : has (h.read cfg (.hyp .vsstatus)) statusSdt = true →
    has (h₂.read cfg .henvcfg) envcfgDte = true
  vsie : cfg.features.aia = true →
    clear (h.read cfg (.hyp .vsie))
      (h.read cfg (.hyp .hideleg) ||| h₂.read cfg (.hyp .hvien) ||| 0x1fff) = 0
  forgotten : ∀ c ∈ Csr.forgotten, h₂.read cfg c = h.read cfg c

section Trip

variable (cfg : Config x)

theorem read_gate (h : Hart x) (c : Csr) :
    h.read cfg c &&& cfg.gate h.menvcfg h.csr c = h.read cfg c := by
  unfold Hart.read Gated.read
  rw [BitVec.and_assoc, BitVec.and_self]

/-- The registers whose bits are not always there. -/
def Csr.gated : Csr → Bool
  | .senvcfg | .henvcfg => true
  | c => c.dependent

theorem gate_plain {c : Csr} (hc : c.gated = false) (menvcfg : BitVec 64)
    (file : Csr → BitVec 64) : cfg.gate menvcfg file c = cfg.base c := by
  cases c with
  | senvcfg | henvcfg => cases hc
  | hyp c =>
    cases c with
    | vsstatus | vsie => cases hc
    | _ => rfl
  | _ => rfl

theorem gate_base (menvcfg : BitVec 64) (file : Csr → BitVec 64) (c : Csr) :
    ∃ rest, cfg.gate menvcfg file c = cfg.base c &&& rest := by
  cases hc : c.gated with
  | false => exact ⟨cfg.base c, by rw [gate_plain cfg hc, BitVec.and_self]⟩
  | true =>
    cases c with
    | senvcfg | henvcfg => exact ⟨_, rfl⟩
    | hyp c =>
      cases c with
      | vsstatus | vsie => exact ⟨_, rfl⟩
      | _ => cases hc
    | _ => cases hc

theorem read_base (h : Hart x) (c : Csr) : h.read cfg c &&& cfg.base c = h.read cfg c := by
  obtain ⟨rest, hgate⟩ := gate_base cfg h.menvcfg h.csr c
  unfold Hart.read Gated.read
  rw [hgate, BitVec.and_comm (cfg.base c), ← BitVec.and_assoc, BitVec.and_assoc, BitVec.and_self]

theorem read_absent {menvcfg : BitVec 64} {file : Csr → BitVec 64} {c : Csr}
    (hc : cfg.base c = 0) : Gated.read (cfg.gate menvcfg) file c = 0 := by
  obtain ⟨rest, hgate⟩ := gate_base cfg menvcfg file c
  rw [Gated.read, hgate, hc, BitVec.ofNat_eq_ofNat, BitVec.zero_and, BitVec.and_zero]

theorem gate_menvcfg {menvcfg menvcfg' : BitVec 64}
    (hsame : cfg.features.menvcfg = true → menvcfg = menvcfg') :
    cfg.gate menvcfg = cfg.gate menvcfg' := by
  cases hon : cfg.features.menvcfg with
  | true => rw [hsame hon]
  | false =>
    have hsenvcfg : cfg.base .senvcfg = 0 := cfg.absent _ (by decide) hon
    have hhenvcfg : cfg.base .henvcfg = 0 :=
      cfg.absent _ (by decide) (by simp [Features.switched, hon])
    funext file c
    simp only [Config.gate, hsenvcfg, hhenvcfg, BitVec.ofNat_eq_ofNat, BitVec.zero_and]

theorem and_window_iff {v window final : BitVec 64} (hfinal : v &&& final = v) :
    v &&& window &&& final = v ↔ v &&& window = v := by
  have hswap : v &&& window &&& final = v &&& window := by
    rw [BitVec.and_assoc, BitVec.and_comm window, ← BitVec.and_assoc, hfinal]
  rw [hswap]

theorem and_base_iff {v base window : BitVec 64} (hbase : v &&& base = v) :
    v &&& (base &&& window) = v ↔ clear v window = 0 := by
  rw [← BitVec.and_assoc, hbase]
  constructor
  · intro hin
    rw [← hin]
    apply BitVec.eq_of_getLsbD_eq
    intro i _
    simp [getLsbD_clear]
  · intro hout
    have hsplit := clear_or_and v window
    rwa [hout, BitVec.ofNat_eq_ofNat, BitVec.zero_or] at hsplit

theorem clear_window {v mask menvcfg : BitVec 64} :
    clear v (menvcfg ||| ~~~mask) = clear (v &&& mask) menvcfg := by
  apply BitVec.eq_of_getLsbD_eq
  intro i hi
  simp only [getLsbD_clear, BitVec.getLsbD_or, BitVec.getLsbD_and, BitVec.getLsbD_not, hi]
  cases v.getLsbD i <;> cases mask.getLsbD i <;> cases menvcfg.getLsbD i <;> rfl

theorem clear_sdt_iff {v : BitVec 64} {given : Bool} :
    clear v (if given then -1 else ~~~statusSdt) = 0 ↔ (has v statusSdt = true → given = true) := by
  cases given with
  | true => simp [clear]
  | false => simp [clear, has]

/-- What is read once the registers have been written back in the state `h₂`, and the
    features are those of `h` again. -/
def readBack (saved : Csr → BitVec 64) (h h₂ : Hart x) (c : Csr) : BitVec 64 :=
  Gated.read (cfg.gate h.menvcfg) (csrsRestore cfg saved h₂.menvcfg h₂.csr) c

variable {cfg} {h h₂ : Hart x} {saved : Csr → BitVec 64}

theorem readBack_absent {c : Csr} (hc : c ∈ supervisorOrder ++ hypOrder)
    (hoff : cfg.switched c = false) : readBack cfg saved h h₂ c = h.read cfg c := by
  have hbase := cfg.absent c hc hoff
  rw [readBack, Hart.read, read_absent cfg hbase, read_absent cfg hbase]

theorem readBack_forgotten {c : Csr} (hc : c ∈ Csr.forgotten) :
    readBack cfg saved h h₂ c = h₂.read cfg c := by
  have hlost : ∀ c ∈ Csr.forgotten, cfg.switched c = false ∧ c.gated = false := by
    simp [Csr.forgotten, Config.switched, Features.switched, Csr.gated, Csr.dependent]
  obtain ⟨hoff, hplain⟩ := hlost c hc
  rw [readBack, Hart.read, Gated.read, Gated.read, csrsRestore_unknown cfg hoff,
    gate_plain cfg hplain, gate_plain cfg hplain]

section Saved

variable (hsaved : ∀ c, cfg.switched c = true → saved c = h.read cfg c)

include hsaved

theorem readBack_fixed_iff {c : Csr} (hon : cfg.switched c = true) (hfixed : c.dependent = false) :
    readBack cfg saved h h₂ c = h.read cfg c ↔
      h.read cfg c &&& cfg.gate h₂.menvcfg h₂.csr c = h.read cfg c := by
  rw [readBack, Gated.read, csrsRestore_fixed cfg hon hfixed, hsaved c hon,
    gate_fixed cfg hfixed h.menvcfg _ h.csr]
  exact and_window_iff (read_gate cfg h c)

theorem readBack_plain {c : Csr} (hc : c ∈ supervisorOrder ++ hypOrder) (hplain : c.gated = false) :
    readBack cfg saved h h₂ c = h.read cfg c := by
  cases hon : cfg.switched c with
  | false => exact readBack_absent hc hon
  | true =>
    have hfixed : c.dependent = false := by
      cases c with
      | senvcfg | henvcfg => cases hplain
      | _ => exact hplain
    rw [readBack_fixed_iff hsaved hon hfixed, gate_plain cfg hplain]
    exact read_base cfg h c

theorem readBack_envcfg_iff {c : Csr} {mask : BitVec 64} (hc : c ∈ supervisorOrder ++ hypOrder)
    (hfixed : c.dependent = false)
    (hgate : ∀ menvcfg file, cfg.gate menvcfg file c = cfg.base c &&& (menvcfg ||| ~~~mask)) :
    readBack cfg saved h h₂ c = h.read cfg c ↔ clear (h.read cfg c &&& mask) h₂.menvcfg = 0 := by
  cases hon : cfg.switched c with
  | false =>
    have hread : h.read cfg c = 0 := read_absent cfg (cfg.absent c hc hon)
    simp [readBack_absent hc hon, hread, clear]
  | true =>
    rw [readBack_fixed_iff hsaved hon hfixed, hgate, and_base_iff (read_base cfg h c),
      clear_window]

theorem readBack_senvcfg_iff :
    readBack cfg saved h h₂ .senvcfg = h.read cfg .senvcfg ↔
      clear (h.read cfg .senvcfg &&& envcfgSse) h₂.menvcfg = 0 :=
  readBack_envcfg_iff hsaved (by decide) rfl fun _ _ => rfl

theorem readBack_henvcfg_iff :
    readBack cfg saved h h₂ .henvcfg = h.read cfg .henvcfg ↔
      clear (h.read cfg .henvcfg &&& (envcfgSse ||| envcfgAdue ||| envcfgDte)) h₂.menvcfg = 0 :=
  readBack_envcfg_iff hsaved (by decide) rfl fun _ _ => rfl

theorem readBack_vsstatus_iff
    (hhenvcfg : readBack cfg saved h h₂ .henvcfg = h.read cfg .henvcfg) :
    readBack cfg saved h h₂ (.hyp .vsstatus) = h.read cfg (.hyp .vsstatus) ↔
      (has (h.read cfg (.hyp .vsstatus)) statusSdt = true →
        has (h₂.read cfg .henvcfg) envcfgDte = true) := by
  cases hon : cfg.switched (.hyp .vsstatus) with
  | false =>
    have hread : h.read cfg (.hyp .vsstatus) = 0 :=
      read_absent cfg (cfg.absent _ (by decide) hon)
    simp [readBack_absent (by decide) hon, hread, has]
  | true =>
    -- with `henvcfg` as it was, what is there of `vsstatus` is as it was
    have hfinal : cfg.gate h.menvcfg (csrsRestore cfg saved h₂.menvcfg h₂.csr) (.hyp .vsstatus) =
        cfg.gate h.menvcfg h.csr (.hyp .vsstatus) := by
      have hdte := congrArg (has · envcfgDte) hhenvcfg
      simp only [readBack, Hart.read, Gated.read, Config.gate] at hdte
      simp only [Config.gate, hdte]
    rw [readBack, Gated.read, csrsRestore_vsstatus cfg hon, hsaved _ hon, hfinal,
      and_window_iff (read_gate cfg h _)]
    simp only [Config.gate]
    rw [and_base_iff (read_base cfg h _), clear_sdt_iff]
    rfl

theorem readBack_vsie_iff :
    readBack cfg saved h h₂ (.hyp .vsie) = h.read cfg (.hyp .vsie) ↔
      (cfg.features.aia = true →
        clear (h.read cfg (.hyp .vsie))
          (h.read cfg (.hyp .hideleg) ||| h₂.read cfg (.hyp .hvien) ||| 0x1fff) = 0) := by
  cases hon : cfg.switched (.hyp .vsie) with
  | false =>
    have hread : h.read cfg (.hyp .vsie) = 0 := read_absent cfg (cfg.absent _ (by decide) hon)
    simp [readBack_absent (by decide) hon, hread, clear]
  | true =>
    have hhideleg : readBack cfg saved h h₂ (.hyp .hideleg) = h.read cfg (.hyp .hideleg) :=
      readBack_plain hsaved (by decide) rfl
    have hhvien : readBack cfg saved h h₂ (.hyp .hvien) = h.read cfg (.hyp .hvien) :=
      readBack_plain hsaved (by decide) rfl
    simp only [readBack, Hart.read, Gated.read, Config.gate] at hhideleg hhvien
    have hfinal : cfg.gate h.menvcfg (csrsRestore cfg saved h₂.menvcfg h₂.csr) (.hyp .vsie) =
        cfg.gate h.menvcfg h.csr (.hyp .vsie) := by
      simp only [Config.gate, hhideleg, hhvien]
    rw [readBack, Gated.read, csrsRestore_vsie cfg hon, hsaved _ hon,
      hsaved (.hyp .hideleg) hon, read_base, hfinal, and_window_iff (read_gate cfg h _)]
    simp only [Config.gate, Function.update_self]
    rw [Function.update_of_ne (by decide), read_base, and_base_iff (read_base cfg h _)]
    cases cfg.features.aia with
    | false => simp [clear]
    | true => simp [Hart.read, Gated.read, Config.gate]

theorem readBack_iff :
    (∀ c, c.listed = true → readBack cfg saved h h₂ c = h.read cfg c) ↔ Opens cfg h h₂ := by
  constructor
  · intro hback
    have hhenvcfg := hback .henvcfg rfl
    refine ⟨(readBack_senvcfg_iff hsaved).mp (hback _ rfl),
      (readBack_henvcfg_iff hsaved).mp hhenvcfg,
      (readBack_vsstatus_iff hsaved hhenvcfg).mp (hback _ rfl),
      (readBack_vsie_iff hsaved).mp (hback _ rfl), ?_⟩
    intro c hc
    have hlisted : ∀ c ∈ Csr.forgotten, c.listed = true := by decide
    rw [← readBack_forgotten hc]
    exact hback c (hlisted c hc)
  · intro hopens c hlisted
    have hhenvcfg := (readBack_henvcfg_iff hsaved).mpr hopens.henvcfg
    rcases Csr.listed_cases hlisted with hc | hc
    · cases hgated : c.gated with
      | false => exact readBack_plain hsaved hc hgated
      | true =>
        cases c with
        | senvcfg => exact (readBack_senvcfg_iff hsaved).mpr hopens.senvcfg
        | henvcfg => exact hhenvcfg
        | hyp c =>
          cases c with
          | vsstatus => exact (readBack_vsstatus_iff hsaved hhenvcfg).mpr hopens.vsstatus
          | vsie => exact (readBack_vsie_iff hsaved).mpr hopens.vsie
          | _ => cases hgated
        | _ => cases hgated
    · rw [readBack_forgotten hc]
      exact hopens.forgotten c hc

end Saved

end Trip

end RiscvMonitor.HartState
