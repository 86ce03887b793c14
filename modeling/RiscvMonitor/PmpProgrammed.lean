import RiscvMonitor.PmpLayout

/-!
# What the PMP holds while S-mode runs

`slotsSet` is the one loop that those over the region list are cases of; `Programmed`
says what stands in every entry once a hart runs a domain, and every start, restart,
switch and window leaves it so.
-/

namespace RiscvMonitor

open Pmp

variable {x : Xlen}

/-! ### The slots of the region list -/

/-- A walk over the regions that writes the ones `policy` has a rule for. -/
def slotsSet (cfg : PmpConfig x) (policy : MemRegion x → Option Cfg) :
    Nat → List (MemRegion x) → State x.bits → State x.bits
  | _, [], u => u
  | idx, r :: rs, u =>
    if cfg.skips r then slotsSet cfg policy idx rs u
    else
      slotsSet cfg policy (idx + regionEntries r) rs
        (match policy r with
          | some perm => (pmpRangeSet cfg.grain u idx r.base r.size perm).1
          | none => u)

/-- Every region `policy` has a rule for stands in its slot. -/
def LaidOut (cfg : PmpConfig x) (policy : MemRegion x → Option Cfg) :
    Nat → List (MemRegion x) → State x.bits → Prop
  | _, [], _ => True
  | idx, r :: rs, u =>
    if cfg.skips r then LaidOut cfg policy idx rs u
    else
      (∀ perm, policy r = some perm → RangeAt cfg.grain u idx r.base r.size perm) ∧
        LaidOut cfg policy (idx + regionEntries r) rs u

theorem regionEntries_eq (r : MemRegion x) : regionEntries r = rangeEntries r.base r.size := rfl

theorem le_monitorEntriesLoop (cfg : PmpConfig x) (n : Nat) (rs : List (MemRegion x)) :
    n ≤ monitorEntriesLoop cfg n rs := by
  induction rs generalizing n with
  | nil => exact Nat.le_refl n
  | cons r rs ih =>
    simp only [monitorEntriesLoop]
    split
    · exact ih n
    · exact Nat.le_trans (Nat.le_add_right _ _) (ih _)

variable {cfg : PmpConfig x} {policy : MemRegion x → Option Cfg} {idx : Nat}
  {rs : List (MemRegion x)} {u u' : State x.bits}

theorem LaidOut.congr (h : LaidOut cfg policy idx rs u)
    (hsame : ∀ j, idx ≤ j → j < monitorEntriesLoop cfg idx rs → u'.entry j = u.entry j) :
    LaidOut cfg policy idx rs u' := by
  induction rs generalizing idx with
  | nil => trivial
  | cons r rs ih =>
    simp only [LaidOut, monitorEntriesLoop] at h hsame ⊢
    cases hskip : cfg.skips r with
    | true =>
      simp only [hskip, if_true] at h hsame ⊢
      exact ih h hsame
    | false =>
      simp only [hskip, Bool.false_eq_true, if_false] at h hsame ⊢
      have hle := le_monitorEntriesLoop cfg (idx + regionEntries r) rs
      refine ⟨fun perm hperm => (h.1 perm hperm).congr fun j hj hj' => ?_, ih h.2 fun j hj => ?_⟩
      · rw [← regionEntries_eq] at hj'
        exact hsame j hj (Nat.lt_of_lt_of_le hj' hle)
      · exact hsame j (by omega)

theorem slotsSet_spec (hu : u.Writable)
    (hpolicy : ∀ r perm, policy r = some perm → u.rlb = true ∨ perm.lock = false)
    (hroom : monitorEntriesLoop cfg idx rs ≤ 16) :
    (slotsSet cfg policy idx rs u).Writable ∧
      WritesOnly idx (monitorEntriesLoop cfg idx rs) u (slotsSet cfg policy idx rs u) ∧
      LaidOut cfg policy idx rs (slotsSet cfg policy idx rs u) := by
  induction rs generalizing idx u with
  | nil => exact ⟨hu, WritesOnly.refl _ _ _, trivial⟩
  | cons r rs ih =>
    simp only [slotsSet, monitorEntriesLoop, LaidOut] at hroom ⊢
    cases hskip : cfg.skips r with
    | true =>
      simp only [hskip, if_true] at hroom ⊢
      exact ih hu hpolicy hroom
    | false =>
      simp only [hskip, Bool.false_eq_true, if_false] at hroom ⊢
      have hle := le_monitorEntriesLoop cfg (idx + regionEntries r) rs
      cases hrule : policy r with
      | none =>
        obtain ⟨hwritable, honly, hlaid⟩ := ih hu hpolicy hroom
        exact ⟨hwritable, honly.mono (by omega) (Nat.le_refl _), by simp, hlaid⟩
      | some perm =>
        obtain ⟨hset, hwrites, hat⟩ := pmpRangeSet_spec cfg.grain hu (hpolicy r perm hrule)
          (show idx + rangeEntries r.base r.size ≤ 16 by rw [← regionEntries_eq]; omega)
        obtain ⟨hwritable, honly, hlaid⟩ := ih hset
          (fun q perm' hq => by rw [hwrites.rlb]; exact hpolicy q perm' hq) hroom
        refine ⟨hwritable, ?_, ?_, hlaid⟩
        · exact (hwrites.mono (Nat.le_refl _) hle).trans (honly.mono (by omega) (Nat.le_refl _))
        · intro perm' hperm'
          cases hperm'
          -- the rest of the walk writes further up
          refine hat.congr fun j hj hj' => honly.entry j (.inl ?_)
          rwa [regionEntries_eq]

theorem LaidOut.slotsSet {kept : MemRegion x → Option Cfg} (h : LaidOut cfg kept idx rs u)
    (hu : u.Writable)
    (hpolicy : ∀ r perm, policy r = some perm → u.rlb = true ∨ perm.lock = false)
    (hdisjoint : ∀ r perm, policy r = some perm → kept r = none)
    (hroom : monitorEntriesLoop cfg idx rs ≤ 16) :
    LaidOut cfg kept idx rs (slotsSet cfg policy idx rs u) := by
  induction rs generalizing idx u with
  | nil => trivial
  | cons r rs ih =>
    simp only [LaidOut, RiscvMonitor.slotsSet, monitorEntriesLoop] at h hroom ⊢
    cases hskip : cfg.skips r with
    | true =>
      simp only [hskip, if_true] at h hroom ⊢
      exact ih h hu hpolicy hroom
    | false =>
      simp only [hskip, Bool.false_eq_true, if_false] at h hroom ⊢
      have hle := le_monitorEntriesLoop cfg (idx + regionEntries r) rs
      cases hrule : policy r with
      | none =>
        have honly := (slotsSet_spec hu hpolicy hroom).2.1
        refine ⟨fun perm hperm => ?_, ih h.2 hu hpolicy hroom⟩
        refine (h.1 perm hperm).congr fun j hj hj' => honly.entry j (.inl ?_)
        rwa [regionEntries_eq]
      | some perm =>
        obtain ⟨hset, hwrites, -⟩ := pmpRangeSet_spec cfg.grain hu (hpolicy r perm hrule)
          (show idx + rangeEntries r.base r.size ≤ 16 by rw [← regionEntries_eq]; omega)
        refine ⟨fun perm' hperm' => ?_, ih ?_ hset ?_ hroom⟩
        · rw [hdisjoint r perm hrule] at hperm'
          cases hperm'
        · exact h.2.congr fun j hj _ => hwrites.entry j (.inr hj)
        · intro q perm' hq
          rw [hwrites.rlb]
          exact hpolicy q perm' hq

theorem LaidOut.weaken {p q : MemRegion x → Option Cfg} (h : LaidOut cfg p idx rs u)
    (hsub : ∀ r perm, cfg.skips r = false → q r = some perm → p r = some perm) :
    LaidOut cfg q idx rs u := by
  induction rs generalizing idx with
  | nil => trivial
  | cons r rs ih =>
    simp only [LaidOut] at h ⊢
    cases hskip : cfg.skips r with
    | true =>
      simp only [hskip, if_true] at h ⊢
      exact ih h
    | false =>
      simp only [hskip, Bool.false_eq_true, if_false] at h ⊢
      exact ⟨fun perm hperm => h.1 perm (hsub r perm hskip hperm), ih h.2⟩

theorem LaidOut.union {p q both : MemRegion x → Option Cfg} (hp : LaidOut cfg p idx rs u)
    (hq : LaidOut cfg q idx rs u)
    (hboth : ∀ r perm, both r = some perm → p r = some perm ∨ q r = some perm) :
    LaidOut cfg both idx rs u := by
  induction rs generalizing idx with
  | nil => trivial
  | cons r rs ih =>
    simp only [LaidOut] at hp hq ⊢
    cases hskip : cfg.skips r with
    | true =>
      simp only [hskip, if_true] at hp hq ⊢
      exact ih hp hq
    | false =>
      simp only [hskip, Bool.false_eq_true, if_false] at hp hq ⊢
      refine ⟨fun perm hperm => ?_, ih hp.2 hq.2⟩
      rcases hboth r perm hperm with h | h
      · exact hp.1 perm h
      · exact hq.1 perm h

/-! ### The loops as walks -/

def monitorPolicy (cfg : PmpConfig x) (r : MemRegion x) : Option Cfg :=
  if r.kind ≠ .sharedRw then some (regionCfg cfg.smepmp r.kind) else none

def sharedPolicy (cfg : PmpConfig x) (monitor : List (MemRegion x)) (dom : Domain x)
    (r : MemRegion x) : Option Cfg :=
  if r.kind = .sharedRw then some (sharedCfg cfg monitor dom r) else none

def runPolicy (cfg : PmpConfig x) (monitor : List (MemRegion x)) (dom : Domain x)
    (r : MemRegion x) : Option Cfg :=
  if r.kind = .sharedRw then some (sharedCfg cfg monitor dom r)
  else some (regionCfg cfg.smepmp r.kind)

theorem monitorRegionsSet_eq (h : monitorRegionsSet cfg idx rs u = some u')
    (hidx : idx ≤ cfg.count) :
    u' = slotsSet cfg (monitorPolicy cfg) idx rs u ∧
      monitorEntriesLoop cfg idx rs ≤ cfg.count := by
  induction rs generalizing idx u with
  | nil =>
    cases h
    exact ⟨rfl, hidx⟩
  | cons r rs ih =>
    simp only [monitorRegionsSet, slotsSet, monitorEntriesLoop] at h ⊢
    cases hskip : cfg.skips r with
    | true =>
      simp only [hskip, if_true] at h ⊢
      exact ih h hidx
    | false =>
      simp only [hskip, Bool.false_eq_true, if_false] at h ⊢
      split at h
      · cases h
      · next hroom =>
        have hsize : regionEntries r ≤ 2 := by
          unfold regionEntries
          split <;> omega
        obtain ⟨heq, hle⟩ := ih h (by omega)
        refine ⟨?_, hle⟩
        rw [heq]
        by_cases hkind : r.kind = .sharedRw <;> simp [monitorPolicy, hkind]

theorem sharedRegionsLoop_eq (hsmepmp : cfg.smepmp = true) (monitor : List (MemRegion x))
    (dom : Domain x) (rs : List (MemRegion x)) (idx : Nat) (u : State x.bits) :
    sharedRegionsLoop cfg monitor dom idx rs u =
      slotsSet cfg (sharedPolicy cfg monitor dom) idx rs u := by
  induction rs generalizing idx u with
  | nil => rfl
  | cons r rs ih =>
    have hskip : cfg.skips r = false := by simp [PmpConfig.skips, hsmepmp]
    simp only [sharedRegionsLoop, slotsSet, hskip, Bool.false_eq_true, if_false, ih]
    by_cases hkind : r.kind = .sharedRw <;> simp [sharedPolicy, hkind]

/-! ### The domain's entries -/

/-- The one entry a domain's region takes: its order is a NAPOT size, or everything. -/
def domainEntry (r : DomainRegion x) : Entry x.bits where
  addr := if r.order ≥ x.bits then ~~~0 else napotWord r.base (bit r.order)
  cfg := { domainCfg r.perm with mode := .napot }

theorem isNapot_region {r : DomainRegion x} (h : r.order < x.bits) :
    isNapot r.base (bit r.order) = true :=
  isNapot_iff.mpr ⟨r.order, r.three_le_order, h, toNat_bit h, r.aligned h⟩

theorem domainRegionsSet_cons {r : DomainRegion x} {rs : List (DomainRegion x)} (hu : u.Writable)
    (hidx : idx < cfg.count) :
    domainRegionsSet cfg idx (r :: rs) u =
      domainRegionsSet cfg (idx + 1) rs (u.set idx (domainEntry r)) := by
  have h16 := cfg.count_le
  have hset (addr : Word x) := pmpEntrySet_eq addr { domainCfg r.perm with mode := .napot } hu
    (.inr rfl) (show idx < 16 by omega)
  rw [domainRegionsSet, if_neg (Nat.ne_of_lt hidx)]
  by_cases hwhole : r.order ≥ x.bits
  · simp only [hwhole, if_true, pmpAllSet, hset, domainEntry]
  · simp only [hwhole, if_false, pmpRangeSet, isNapot_region (Nat.not_le.mp hwhole), if_true,
      hset, domainEntry]

theorem domainRegionsSet_spec (rs : List (DomainRegion x)) (hu : u.Writable)
    (hidx : idx ≤ cfg.count) :
    (domainRegionsSet cfg idx rs u).2 = min (idx + rs.length) cfg.count ∧
      (domainRegionsSet cfg idx rs u).1.Writable ∧
      WritesOnly idx (min (idx + rs.length) cfg.count) u (domainRegionsSet cfg idx rs u).1 ∧
      ∀ i r, rs[i]? = some r → idx + i < cfg.count →
        (domainRegionsSet cfg idx rs u).1.entry (idx + i) = domainEntry r := by
  induction rs generalizing idx u with
  | nil => exact ⟨by simpa [domainRegionsSet] using hidx, hu, WritesOnly.refl _ _ _, by simp⟩
  | cons r rs ih =>
    rcases Nat.lt_or_eq_of_le hidx with hlt | heq
    · rw [domainRegionsSet_cons hu hlt]
      have hset : (u.set idx (domainEntry r)).Writable := hu.set (.inr rfl)
      have hnextIdx : idx + 1 ≤ cfg.count := hlt
      obtain ⟨hnext, hwritable, honly, hentries⟩ := ih hset hnextIdx
      have hend : idx + 1 + rs.length = idx + (r :: rs).length := by simp; omega
      rw [hend] at hnext honly
      refine ⟨hnext, hwritable, ?_, ?_⟩
      · exact ((WritesOnly.set u idx _).mono (Nat.le_refl _) (by simp; omega)).trans
          (honly.mono (by omega) (Nat.le_refl _))
      · intro i q hq hi
        cases i with
        | zero =>
          simp only [List.getElem?_cons_zero, Option.some.injEq] at hq
          subst hq
          have hfirst := honly.entry idx (.inl (Nat.lt_succ_self idx))
          rw [State.set_entry_same] at hfirst
          exact hfirst
        | succ i =>
          rw [List.getElem?_cons_succ] at hq
          have := hentries i q hq (by omega)
          rwa [Nat.add_assoc, Nat.add_comm 1] at this
    · rw [domainRegionsSet, if_pos heq]
      refine ⟨by simp; omega, hu, WritesOnly.refl _ _ _, ?_⟩
      intro i q _ hi
      omega

theorem entriesClear_spec {n : Nat} (hu : u.Writable) (hroom : idx + n ≤ 16) :
    (entriesClear n idx u).Writable ∧ WritesOnly idx (idx + n) u (entriesClear n idx u) ∧
      ∀ j, idx ≤ j → j < idx + n → (entriesClear n idx u).entry j = ⟨0, Cfg.zero⟩ := by
  induction n generalizing idx u with
  | zero => exact ⟨hu, WritesOnly.refl _ _ _, fun j _ _ => by omega⟩
  | succ n ih =>
    rw [entriesClear, pmpEntrySet_eq 0 Cfg.zero hu (.inr rfl) (by omega)]
    have hset : (u.set idx ⟨0, Cfg.zero⟩).Writable := hu.set (.inr rfl)
    obtain ⟨hwritable, honly, hclear⟩ := ih hset (show idx + 1 + n ≤ 16 by omega)
    refine ⟨hwritable, ?_, ?_⟩
    · exact ((WritesOnly.set u idx _).mono (Nat.le_refl _) (by omega)).trans
        (honly.mono (by omega) (by omega))
    · intro j hj hj'
      rcases Nat.lt_or_eq_of_le hj with hlt | rfl
      · exact hclear j hlt (by omega)
      · rw [honly.entry idx (.inl (Nat.lt_succ_self idx)), State.set_entry_same]

/-! ### Programmed -/

structure MonitorSet (cfg : PmpConfig x) (monitor : List (MemRegion x)) (u : State x.bits) :
    Prop where
  writable : u.Writable
  bypass : cfg.smepmp = true → u.rlb = true
  mml : u.mml = cfg.smepmp
  room : pmpMonitorEntries cfg monitor ≤ cfg.count
  window : cfg.smepmp = true → ∀ i < smepmpWindowEntries, (u.entry i).cfg.mode = .off
  own : LaidOut cfg (monitorPolicy cfg) cfg.first monitor u
  beyond : ∀ i, cfg.count ≤ i → (u.entry i).cfg.mode = .off

/-- What the PMP holds while S-mode of the domain runs. -/
structure Programmed (cfg : PmpConfig x) (monitor : List (MemRegion x)) (dom : Domain x)
    (u : State x.bits) : Prop extends MonitorSet cfg monitor u where
  regions : LaidOut cfg (runPolicy cfg monitor dom) cfg.first monitor u
  domain : ∀ i r, dom.regions.list[i]? = some r → pmpMonitorEntries cfg monitor + i < cfg.count →
    u.entry (pmpMonitorEntries cfg monitor + i) = domainEntry r
  rest : ∀ i, pmpMonitorEntries cfg monitor + dom.regions.list.length ≤ i →
    (u.entry i).cfg.mode = .off

variable {monitor : List (MemRegion x)}

theorem MonitorSet.of_writesOnly {lo hi : Nat} (h : MonitorSet cfg monitor u) (hu' : u'.Writable)
    (honly : WritesOnly lo hi u u') (hlo : pmpMonitorEntries cfg monitor ≤ lo)
    (hhi : hi ≤ cfg.count) : MonitorSet cfg monitor u' := by
  have hfirst : cfg.first ≤ pmpMonitorEntries cfg monitor := le_monitorEntriesLoop cfg _ _
  refine ⟨hu', ?_, ?_, h.room, ?_, ?_, ?_⟩
  · intro hsmepmp
    rw [honly.rlb]
    exact h.bypass hsmepmp
  · rw [honly.mml, h.mml]
  · intro hsmepmp i hi
    have : i < cfg.first := by simpa [PmpConfig.first, hsmepmp] using hi
    rw [honly.entry i (.inl (by omega))]
    exact h.window hsmepmp i hi
  · exact h.own.congr fun j _ hj => honly.entry j (.inl (Nat.lt_of_lt_of_le hj hlo))
  · intro i hi
    rw [honly.entry i (.inr (by omega))]
    exact h.beyond i hi

theorem sharedRegionsSet_spec (dom : Domain x) (h : MonitorSet cfg monitor u) :
    MonitorSet cfg monitor (sharedRegionsSet cfg monitor dom u) ∧
      LaidOut cfg (runPolicy cfg monitor dom) cfg.first monitor
        (sharedRegionsSet cfg monitor dom u) := by
  cases hsmepmp : cfg.smepmp with
  | false =>
    simp only [sharedRegionsSet, hsmepmp, Bool.false_eq_true, if_false]
    refine ⟨h, h.own.weaken fun r perm hskip hrule => ?_⟩
    have hkind : r.kind ≠ .sharedRw := by simpa [PmpConfig.skips, hsmepmp] using hskip
    simpa [runPolicy, monitorPolicy, hkind] using hrule
  | true =>
    have hfirst : cfg.first = smepmpWindowEntries := by simp [PmpConfig.first, hsmepmp]
    have hrlb := h.bypass hsmepmp
    have hroom : monitorEntriesLoop cfg cfg.first monitor ≤ 16 :=
      Nat.le_trans h.room cfg.count_le
    have hunlocked : ∀ r perm, sharedPolicy cfg monitor dom r = some perm →
        u.rlb = true ∨ perm.lock = false := fun _ _ _ => .inl hrlb
    simp only [sharedRegionsSet, hsmepmp, if_true, sharedRegionsLoop_eq hsmepmp, ← hfirst]
    obtain ⟨hwritable, honly, hshared⟩ := slotsSet_spec h.writable hunlocked hroom
    have hmonitor := h.own.slotsSet h.writable hunlocked (fun r perm hr => by
      by_cases hkind : r.kind = .sharedRw
      · simp [monitorPolicy, hkind]
      · simp [sharedPolicy, hkind] at hr) hroom
    refine ⟨⟨hwritable, fun _ => by rw [honly.rlb, hrlb], by rw [honly.mml, h.mml], h.room, ?_,
      hmonitor, ?_⟩, hmonitor.union hshared ?_⟩
    · intro _ i hi
      rw [honly.entry i (.inl (by omega))]
      exact h.window hsmepmp i hi
    · intro i hi
      rw [honly.entry i (.inr (Nat.le_trans h.room hi))]
      exact h.beyond i hi
    · intro r perm hr
      by_cases hkind : r.kind = .sharedRw
      · exact .inr (by simpa [runPolicy, sharedPolicy, hkind] using hr)
      · exact .inl (by simpa [runPolicy, monitorPolicy, hkind] using hr)

theorem pmpDomainSet_programmed (dom : Domain x) (h : MonitorSet cfg monitor u) :
    Programmed cfg monitor dom (pmpDomainSet cfg monitor dom u) := by
  obtain ⟨hshared, hregions⟩ := sharedRegionsSet_spec dom h
  set n := pmpMonitorEntries cfg monitor with hn
  set u₁ := sharedRegionsSet cfg monitor dom u
  obtain ⟨hnext, hwritable₂, honly₂, hdomain⟩ :=
    domainRegionsSet_spec dom.regions.list hshared.writable hshared.room
  rw [← hn] at hnext hwritable₂ honly₂ hdomain
  set next := min (n + dom.regions.list.length) cfg.count
  have hset₂ := hshared.of_writesOnly hwritable₂ honly₂ (Nat.le_refl n) (Nat.min_le_right _ _)
  have hroom : next + (cfg.count - next) ≤ 16 := by
    have := cfg.count_le
    omega
  obtain ⟨hwritable₃, honly₃, hclear⟩ := entriesClear_spec hwritable₂ hroom
  have hle : n ≤ next := Nat.le_min.mpr ⟨Nat.le_add_right _ _, hshared.room⟩
  have heq : pmpDomainSet cfg monitor dom u = entriesClear (cfg.count - next) next
      (domainRegionsSet cfg n dom.regions.list u₁).1 := by
    simp only [pmpDomainSet]
    rw [← hn, hnext]
  rw [heq]
  have hset₃ := hset₂.of_writesOnly hwritable₃ honly₃ hle (by omega)
  refine ⟨hset₃, ?_, ?_, ?_⟩
  · exact hregions.congr fun j _ hj =>
      (honly₃.entry j (.inl (Nat.lt_of_lt_of_le hj hle))).trans (honly₂.entry j (.inl hj))
  · intro i r hr hi
    have hlen : i < dom.regions.list.length := (List.getElem?_eq_some_iff.mp hr).1
    rw [honly₃.entry (n + i) (.inl (by omega))]
    exact hdomain i r hr hi
  · intro i hi
    rcases Nat.lt_or_ge i cfg.count with hlt | hge
    · rw [hclear i (by omega) (by omega)]
      rfl
    · exact hset₃.beyond i hge

/-- A hart about to be set up: out of reset, or up to now without MML. -/
structure Startable (cfg : PmpConfig x) (u : State x.bits) : Prop where
  writable : u.Writable
  unlocked : cfg.smepmp = true → ∀ i, (u.entry i).cfg.lock = false
  mml : u.mml = false
  beyond : ∀ i, cfg.count ≤ i → (u.entry i).cfg.mode = .off

theorem startable_of_reset (cfg : PmpConfig x) (h : u.Reset) :
    Startable cfg u :=
  ⟨.inr h.unlocked, fun _ => h.unlocked, h.mml, fun i _ => h.off i⟩

theorem MonitorSet.startable (h : MonitorSet cfg monitor u) (hsmepmp : cfg.smepmp = false) :
    Startable cfg u :=
  ⟨h.writable, by simp [hsmepmp], h.mml.trans hsmepmp, h.beyond⟩

theorem regionCfg_zero {smepmp : Bool} (h : smepmp = false) (kind : MemregionKind) :
    regionCfg smepmp kind = Cfg.zero := by
  simp [regionCfg, h]

theorem monitorRegionsSet_spec (hu : u.Writable) (hrlb : cfg.smepmp = true → u.rlb = true)
    (hmml : u.mml = false)
    (hwindow : cfg.smepmp = true → ∀ i < smepmpWindowEntries, (u.entry i).cfg.mode = .off)
    (hbeyond : ∀ i, cfg.count ≤ i → (u.entry i).cfg.mode = .off)
    (h : monitorRegionsSet cfg cfg.first monitor u = some u') :
    MonitorSet cfg monitor (if cfg.smepmp then u'.setMmlMmwp else u') := by
  have hfirst : cfg.first ≤ cfg.count := by
    have := cfg.two_le_count
    simp only [PmpConfig.first, smepmpWindowEntries]
    split <;> omega
  obtain ⟨rfl, hroom⟩ := monitorRegionsSet_eq h hfirst
  have hunlocked : ∀ r perm, monitorPolicy cfg r = some perm → u.rlb = true ∨ perm.lock = false := by
    intro r perm hr
    cases hsmepmp : cfg.smepmp with
    | true => exact .inl (hrlb hsmepmp)
    | false =>
      by_cases hkind : r.kind = .sharedRw
      · simp [monitorPolicy, hkind] at hr
      · simp only [monitorPolicy, hkind, ne_eq, not_false_eq_true, if_true, Option.some.injEq] at hr
        rw [← hr, regionCfg_zero hsmepmp]
        exact .inr rfl
  obtain ⟨hwritable, honly, hlaid⟩ :=
    slotsSet_spec hu hunlocked (Nat.le_trans hroom cfg.count_le)
  have hbelow : ∀ i, i < cfg.first ∨ cfg.count ≤ i →
      (slotsSet cfg (monitorPolicy cfg) cfg.first monitor u).entry i = u.entry i :=
    fun i hi => honly.entry i (hi.imp id (Nat.le_trans hroom))
  cases hsmepmp : cfg.smepmp with
  | false =>
    simp only [Bool.false_eq_true, if_false]
    refine ⟨hwritable, by simp [hsmepmp], by rw [honly.mml, hmml, hsmepmp], hroom,
      by simp [hsmepmp], hlaid, fun i hi => ?_⟩
    rw [hbelow i (.inr hi)]
    exact hbeyond i hi
  | true =>
    have hrlb' := honly.rlb.trans (hrlb hsmepmp)
    simp only [if_true]
    refine ⟨.inl hrlb', fun _ => hrlb', hsmepmp.symm, hroom, fun _ i hi => ?_,
      hlaid.congr fun _ _ _ => rfl, fun i hi => ?_⟩
    · have hlt : i < cfg.first := by simpa [PmpConfig.first, hsmepmp] using hi
      show ((slotsSet cfg (monitorPolicy cfg) cfg.first monitor u).entry i).cfg.mode = .off
      rw [hbelow i (.inl hlt)]
      exact hwindow hsmepmp i hi
    · show ((slotsSet cfg (monitorPolicy cfg) cfg.first monitor u).entry i).cfg.mode = .off
      rw [hbelow i (.inr hi)]
      exact hbeyond i hi

variable {dom : Domain x}

theorem pmpHartInit_programmed (hstart : Startable cfg u)
    (h : pmpHartInit cfg monitor dom u = some u') : Programmed cfg monitor dom u' := by
  simp only [pmpHartInit, hstart.mml, Bool.false_eq_true, and_false, if_false] at h
  obtain ⟨v, hv, rfl⟩ := Option.map_eq_some_iff.mp h
  refine pmpDomainSet_programmed dom ?_
  cases hsmepmp : cfg.smepmp with
  | false =>
    simp only [hsmepmp, Bool.false_eq_true, if_false] at hv
    have := monitorRegionsSet_spec hstart.writable (by simp [hsmepmp]) hstart.mml
      (by simp [hsmepmp]) hstart.beyond hv
    simpa [hsmepmp] using this
  | true =>
    simp only [hsmepmp, if_true] at hv
    have hbypass : u.setRlb = { u with rlb := true } := by
      simp [State.setRlb, hstart.unlocked hsmepmp]
    have h0 : (u.setRlb).Writable := .inl (by rw [hbypass])
    have h1 : (u.setRlb.set 0 ⟨0, Cfg.zero⟩).Writable := h0.set (.inr rfl)
    rw [pmpEntrySet_eq 0 Cfg.zero h0 (.inr rfl) (by omega),
      pmpEntrySet_eq 0 Cfg.zero h1 (.inr rfl) (by omega)] at hv
    have := monitorRegionsSet_spec (h1.set (.inr rfl)) (fun _ => by simp [hbypass])
      (by simp [hbypass, hstart.mml]) (fun _ i hi => ?_) (fun i hi => ?_) hv
    · simpa [hsmepmp] using this
    · have hi' : i = 0 ∨ i = 1 := by simp only [smepmpWindowEntries] at hi; omega
      rcases hi' with rfl | rfl
      · rw [State.set_entry_of_ne _ _ (by omega), State.set_entry_same]
        rfl
      · rw [State.set_entry_same]
        rfl
    · have := cfg.two_le_count
      rw [State.set_entry_of_ne _ _ (by omega), State.set_entry_of_ne _ _ (by omega), hbypass]
      exact hstart.beyond i hi

theorem windowClose_spec {v : State x.bits} (hv : v.Writable) (hoff : (v.entry 0).cfg.mode = .off) :
    (pmpEntryCfg v 1 Cfg.zero).Writable ∧
      WritesOnly 0 smepmpWindowEntries v (pmpEntryCfg v 1 Cfg.zero) ∧
      ∀ i < smepmpWindowEntries, ((pmpEntryCfg v 1 Cfg.zero).entry i).cfg.mode = .off := by
  rw [pmpEntryCfg, if_pos (by omega), pmpcfgUpdate_eq 1 Cfg.zero hv (.inr rfl)]
  refine ⟨hv.set (.inr rfl), (WritesOnly.set v 1 _).mono (by omega) (Nat.le_refl _), ?_⟩
  intro i hi
  by_cases h1 : i = 1
  · rw [h1, State.set_entry_same]
    rfl
  · rw [State.set_entry_of_ne _ _ h1, show i = 0 by simp only [smepmpWindowEntries] at hi; omega]
    exact hoff

theorem windowOpenClose_programmed {addr size : Word x} (hu : Programmed cfg monitor dom u)
    (h : windowOpenClose cfg monitor addr size u = some u') : Programmed cfg monitor dom u' := by
  unfold windowOpenClose at h
  split at h
  · cases h
  · cases hsmepmp : cfg.smepmp with
    | false =>
      simp only [hsmepmp, Bool.false_eq_true, if_false, Option.some.injEq] at h
      exact h ▸ hu
    | true =>
      simp only [hsmepmp, if_true, Option.some.injEq] at h
      -- only the two window entries are written, and the second one ends up off
      have hwindow : u'.Writable ∧ WritesOnly 0 smepmpWindowEntries u u' ∧
          ∀ i < smepmpWindowEntries, (u'.entry i).cfg.mode = .off := by
        by_cases hsize : size = 0
        · simp only [hsize, ne_eq, not_true_eq_false, if_false] at h
          subst h
          exact windowClose_spec hu.writable (hu.window hsmepmp 0 (by decide))
        · simp only [hsize, ne_eq, not_false_eq_true, if_true] at h
          have h0 : (u.set 0 ⟨addr >>> 2, Cfg.zero⟩).Writable := hu.writable.set (.inr rfl)
          rw [pmpEntrySet_eq (addr >>> 2) Cfg.zero hu.writable (.inr rfl) (by omega),
            pmpEntrySet_eq _ _ h0 (.inr rfl) (by omega)] at h
          subst h
          refine (windowClose_spec (h0.set (.inr rfl)) ?_).imp_right (And.imp_left fun honly => ?_)
          · rw [State.set_entry_of_ne _ _ (by omega), State.set_entry_same]
            rfl
          · exact ((WritesOnly.set u 0 _).mono (by omega) (by decide)).trans
              (((WritesOnly.set _ 1 _).mono (by omega) (Nat.le_refl _)).trans honly)
      obtain ⟨hwritable, honly, hoff⟩ := hwindow
      have hfirst : cfg.first = smepmpWindowEntries := by simp [PmpConfig.first, hsmepmp]
      have hle : cfg.first ≤ pmpMonitorEntries cfg monitor := le_monitorEntriesLoop cfg _ _
      have habove : ∀ j, cfg.first ≤ j → u'.entry j = u.entry j :=
        fun j hj => honly.entry j (.inr (by omega))
      have hcount : cfg.first ≤ cfg.count := by
        have := hu.room
        omega
      refine ⟨⟨hwritable, fun _ => honly.rlb.trans (hu.bypass hsmepmp), honly.mml.trans hu.mml,
        hu.room, fun _ => hoff, hu.own.congr fun j hj _ => habove j hj, fun i hi => ?_⟩,
        hu.regions.congr fun j hj _ => habove j hj, fun i r hr hi => ?_, fun i hi => ?_⟩
      · rw [habove i (by omega)]
        exact hu.beyond i hi
      · rw [habove _ (by omega)]
        exact hu.domain i r hr hi
      · rw [habove i (by omega)]
        exact hu.rest i hi

/-- A hart from its reset on: it starts, starts again, changes domains, and opens
    windows; `ok` is what is asked of the domains it comes to run. -/
inductive PmpRun (cfg : PmpConfig x) (monitor : List (MemRegion x)) (ok : Domain x → Prop) :
    Domain x → State x.bits → Prop
  | start {dom : Domain x} {u u' : State x.bits} (hreset : u.Reset)
      (h : pmpHartInit cfg monitor dom u = some u') (hok : ok dom) : PmpRun cfg monitor ok dom u'
  | restart {from_ dom : Domain x} {u u' : State x.bits} (hrun : PmpRun cfg monitor ok from_ u)
      (h : pmpHartInit cfg monitor dom u = some u') (hok : ok dom) : PmpRun cfg monitor ok dom u'
  | switch {from_ dom : Domain x} {u : State x.bits} (hrun : PmpRun cfg monitor ok from_ u)
      (hok : ok dom) : PmpRun cfg monitor ok dom (pmpDomainSet cfg monitor dom u)
  | window {dom : Domain x} {u u' : State x.bits} {addr size : Word x}
      (hrun : PmpRun cfg monitor ok dom u)
      (h : windowOpenClose cfg monitor addr size u = some u') : PmpRun cfg monitor ok dom u'

theorem exists_pmpRun {cfg : PmpConfig x} {monitor : List (MemRegion x)} {ok : Domain x → Prop}
    {dom : Domain x} (hinit : (pmpHartInit cfg monitor dom State.atReset).isSome = true)
    (hok : ok dom) : ∃ u, PmpRun cfg monitor ok dom u := by
  obtain ⟨u, hu⟩ := Option.isSome_iff_exists.mp hinit
  exact ⟨u, PmpRun.start State.reset_atReset hu hok⟩

theorem PmpRun.programmed {ok : Domain x → Prop} (h : PmpRun cfg monitor ok dom u) :
    Programmed cfg monitor dom u ∧ ok dom := by
  induction h with
  | start hreset h hok => exact ⟨pmpHartInit_programmed (startable_of_reset cfg hreset) h, hok⟩
  | restart hrun h hok ih =>
    refine ⟨?_, hok⟩
    cases hsmepmp : cfg.smepmp with
    | false => exact pmpHartInit_programmed (ih.1.startable hsmepmp) h
    | true =>
      simp only [pmpHartInit, hsmepmp, ih.1.mml, and_self, if_true, Option.some.injEq] at h
      exact h ▸ pmpDomainSet_programmed _ ih.1.toMonitorSet
  | switch hrun hok ih => exact ⟨pmpDomainSet_programmed _ ih.1.toMonitorSet, hok⟩
  | window hrun h ih => exact ⟨windowOpenClose_programmed ih.1 h, ih.2⟩

end RiscvMonitor
