import RiscvMonitor.PmpProgrammed

/-!
# The entries as rules

The rule of a region of the monitor's is for the bytes `MemRegion.Covers` says, which
is the region as the unit sees it at its grain.  The rule of a domain's region grants
the bits of its permissions.
-/

namespace RiscvMonitor

open Pmp FirstMatch

variable {x : Xlen}

def MemRegion.Covers (cfg : PmpConfig x) (r : MemRegion x) (a : Nat) : Prop :=
  if regionIsNapot r then matchNapot x.bits cfg.g (napotWord r.base r.size).toNat a
  else matchTor cfg.g (r.base >>> 2).toNat (torTop cfg.grain r.base r.size).toNat a

instance (cfg : PmpConfig x) (r : MemRegion x) (a : Nat) : Decidable (r.Covers cfg a) :=
  inferInstanceAs (Decidable
    (if regionIsNapot r then matchNapot x.bits cfg.g (napotWord r.base r.size).toNat a
    else matchTor cfg.g (r.base >>> 2).toNat (torTop cfg.grain r.base r.size).toNat a))

theorem suGrants_mode (mml : Bool) (perm : Cfg) (mode : Mode) (acc : Access) :
    Cfg.suGrants mml { perm with mode := mode } acc = perm.suGrants mml acc := by
  cases acc <;> rfl

variable {k j : Nat}

theorem RangeAt.rule_of_mem {cfg : PmpConfig x} {u : State x.bits} {r : MemRegion x} {perm : Cfg}
    {a : Nat} (h : RangeAt cfg.grain u k r.base r.size perm) (hk : k ≤ j)
    (hj : j < k + regionEntries r) (hcov : (u.rule cfg.g j).covers a) :
    r.Covers cfg a ∧ ∀ acc, (u.rule cfg.g j).grants acc ↔ perm.suGrants u.mml acc = true := by
  unfold RangeAt at h
  unfold regionEntries regionIsNapot at hj
  unfold MemRegion.Covers regionIsNapot
  simp only [State.rule] at hcov ⊢
  cases hnapot : isNapot r.base r.size with
  | true =>
    simp only [hnapot, if_true] at h hj ⊢
    obtain rfl : j = k := by omega
    rw [h] at hcov ⊢
    exact ⟨hcov, fun acc => by rw [suGrants_mode]⟩
  | false =>
    simp only [hnapot, Bool.false_eq_true, if_false] at h hj ⊢
    rcases Nat.lt_or_eq_of_le hk with hlt | rfl
    · obtain rfl : j = k + 1 := by omega
      rw [h.2] at hcov ⊢
      refine ⟨?_, fun acc => by rw [suGrants_mode]⟩
      have hprev : u.prevAddr (k + 1) = (r.base >>> 2).toNat := by rw [State.prevAddr, h.1]
      rw [hprev] at hcov
      exact hcov
    · -- the first entry of a pair is off
      rw [h.1] at hcov
      exact hcov.elim

theorem RangeAt.exists_rule {cfg : PmpConfig x} {u : State x.bits} {r : MemRegion x} {perm : Cfg}
    (h : RangeAt cfg.grain u k r.base r.size perm) :
    ∃ j, k ≤ j ∧ j < k + regionEntries r ∧ (∀ i, k ≤ i → i < j → ∀ a, ¬ (u.rule cfg.g i).covers a) ∧
      ∀ a, r.Covers cfg a → (u.rule cfg.g j).covers a := by
  unfold RangeAt at h
  unfold regionEntries MemRegion.Covers regionIsNapot
  simp only [State.rule]
  cases hnapot : isNapot r.base r.size with
  | true =>
    simp only [hnapot, if_true] at h ⊢
    refine ⟨k, Nat.le_refl k, Nat.lt_succ_self k, fun i hi hi' => by omega, fun a ha => ?_⟩
    rw [h]
    exact ha
  | false =>
    simp only [hnapot, Bool.false_eq_true, if_false] at h ⊢
    refine ⟨k + 1, by omega, by omega, fun i hi hi' a => ?_, fun a ha => ?_⟩
    · obtain rfl : i = k := by omega
      rw [h.1]
      exact id
    · have hprev : u.prevAddr (k + 1) = (r.base >>> 2).toNat := by rw [State.prevAddr, h.1]
      rw [h.2, hprev]
      exact ha

/-! ### Slots -/

theorem LaidOut.slot_of_index {cfg : PmpConfig x} {policy : MemRegion x → Option Cfg} {idx : Nat}
    {rs : List (MemRegion x)} {u : State x.bits} (h : LaidOut cfg policy idx rs u) (hj : idx ≤ j)
    (hj' : j < monitorEntriesLoop cfg idx rs) :
    ∃ r ∈ rs, cfg.skips r = false ∧ ∃ k ≤ j, j < k + regionEntries r ∧
      ∀ perm, policy r = some perm → RangeAt cfg.grain u k r.base r.size perm := by
  induction rs generalizing idx with
  | nil => exact absurd hj' (Nat.not_lt.mpr hj)
  | cons r rs ih =>
    simp only [LaidOut, monitorEntriesLoop] at h hj'
    cases hskip : cfg.skips r with
    | true =>
      simp only [hskip, if_true] at h hj'
      obtain ⟨q, hq, hslot⟩ := ih h hj hj'
      exact ⟨q, List.mem_cons_of_mem r hq, hslot⟩
    | false =>
      simp only [hskip, Bool.false_eq_true, if_false] at h hj'
      rcases Nat.lt_or_ge j (idx + regionEntries r) with hlt | hge
      · exact ⟨r, List.mem_cons_self, hskip, idx, hj, hlt, h.1⟩
      · obtain ⟨q, hq, hslot⟩ := ih h.2 hge hj'
        exact ⟨q, List.mem_cons_of_mem r hq, hslot⟩

theorem LaidOut.slot_of_split {cfg : PmpConfig x} {policy : MemRegion x → Option Cfg} {idx : Nat}
    {pre post : List (MemRegion x)} {m : MemRegion x} {u : State x.bits}
    (h : LaidOut cfg policy idx (pre ++ m :: post) u) (hskip : cfg.skips m = false) :
    ∃ i, idx ≤ i ∧ i + regionEntries m ≤ monitorEntriesLoop cfg idx (pre ++ m :: post) ∧
      (∀ perm, policy m = some perm → RangeAt cfg.grain u i m.base m.size perm) ∧
      ∀ j, idx ≤ j → j < i → ∃ r ∈ pre, cfg.skips r = false ∧ ∃ k ≤ j, j < k + regionEntries r ∧
        ∀ perm, policy r = some perm → RangeAt cfg.grain u k r.base r.size perm := by
  induction pre generalizing idx with
  | nil =>
    simp only [List.nil_append, LaidOut, monitorEntriesLoop, hskip, Bool.false_eq_true,
      if_false] at h ⊢
    exact ⟨idx, Nat.le_refl _, le_monitorEntriesLoop cfg _ post, h.1, fun j hj hj' => by omega⟩
  | cons r pre ih =>
    simp only [List.cons_append, LaidOut, monitorEntriesLoop] at h ⊢
    cases hskip' : cfg.skips r with
    | true =>
      simp only [hskip', if_true] at h ⊢
      obtain ⟨i, hi, hend, hat, hbefore⟩ := ih h
      refine ⟨i, hi, hend, hat, fun j hj hj' => ?_⟩
      obtain ⟨q, hq, hslot⟩ := hbefore j hj hj'
      exact ⟨q, List.mem_cons_of_mem r hq, hslot⟩
    | false =>
      simp only [hskip', Bool.false_eq_true, if_false] at h ⊢
      obtain ⟨i, hi, hend, hat, hbefore⟩ := ih h.2
      refine ⟨i, by omega, hend, hat, fun j hj hj' => ?_⟩
      rcases Nat.lt_or_ge j (idx + regionEntries r) with hlt | hge
      · exact ⟨r, List.mem_cons_self, hskip', idx, hj, hlt, h.1⟩
      · obtain ⟨q, hq, hslot⟩ := hbefore j hge hj'
        exact ⟨q, List.mem_cons_of_mem r hq, hslot⟩

/-! ### The domain's rules -/

def accessPerm : Access → Perm
  | .read => domainPermSuR
  | .write => domainPermSuW
  | .exec => domainPermSuX

private theorem one_shiftLeft_ne_zero (hk : k < 32) : 1#32 <<< k ≠ 0#32 := by
  intro hzero
  have hbit := congrArg (fun v => BitVec.getLsbD v k) hzero
  simp [hk] at hbit

variable {perm : Perm}

theorem and_shiftLeft_eq_iff (hk : k < 32) :
    perm &&& 1#32 <<< k = 1#32 <<< k ↔ perm.getLsbD k = true := by
  have hne := one_shiftLeft_ne_zero hk
  rw [← BitVec.twoPow_eq] at hne ⊢
  rw [BitVec.and_twoPow]
  cases perm.getLsbD k <;> simp [hne.symm]

theorem shiftRight_and_ne_zero_iff (hj : j < 32) :
    (perm >>> k) &&& 1#32 <<< j ≠ 0#32 ↔ perm.getLsbD (k + j) = true := by
  have hne := one_shiftLeft_ne_zero hj
  rw [← BitVec.twoPow_eq] at hne ⊢
  rw [BitVec.and_twoPow, BitVec.getLsbD_ushiftRight]
  cases perm.getLsbD (k + j) <;> simp [hne]

variable {acc : Access}

theorem and_accessPerm_eq_iff :
    perm &&& accessPerm acc = accessPerm acc ↔
      perm.getLsbD (match acc with | .read => 3 | .write => 4 | .exec => 5) = true := by
  cases acc <;> exact and_shiftLeft_eq_iff (by omega)

theorem domainCfg_suGrants :
    (domainCfg perm).suGrants false acc = true ↔
      perm &&& accessPerm acc = accessPerm acc ∧
        (acc = .write → perm &&& accessPerm .read = accessPerm .read) := by
  have hbit (j : Nat) (hj : j < 32) : ((perm >>> 3) &&& 1#32 <<< j != 0#32) = true ↔
      perm.getLsbD (3 + j) = true := by
    rw [bne_iff_ne, shiftRight_and_ne_zero_iff hj]
  have h0 := hbit 0 (by omega)
  have h1 := hbit 1 (by omega)
  have h2 := hbit 2 (by omega)
  simp only [and_accessPerm_eq_iff]
  cases acc with
  | read => simpa [Cfg.suGrants, domainCfg, domainPermSuShift] using h0
  | write =>
    simp only [Cfg.suGrants, Bool.false_eq_true, if_false, domainCfg, domainPermSuShift,
      Bool.and_eq_true]
    exact and_congr h1 (by simpa using h0)
  | exec => simpa [Cfg.suGrants, domainCfg, domainPermSuShift] using h2

/-- The rule the entry of a domain's region is, without MML. -/
def DomainRegion.pmpRule (cfg : PmpConfig x) (r : DomainRegion x) : Rule Nat Access where
  covers := matchNapot x.bits cfg.g (domainEntry r).addr.toNat
  grants := fun acc => (domainCfg r.perm).suGrants false acc = true

variable {i : Nat}

theorem not_covers_of_off {w g : Nat} {u : State w} (h : (u.entry i).cfg.mode = .off) (a : Nat) :
    ¬ (u.rule g i).covers a := by
  simp [State.rule, Entry.matches, h]

namespace Programmed

variable {cfg : PmpConfig x} {monitor : List (MemRegion x)} {dom : Domain x} {u : State x.bits}

section

variable (h : Programmed cfg monitor dom u) (hsmepmp : cfg.smepmp = false)
include h hsmepmp

theorem domain_rule {r : DomainRegion x} (hr : dom.regions.list[i]? = some r)
    (hi : pmpMonitorEntries cfg monitor + i < cfg.count) :
    u.rule cfg.g (pmpMonitorEntries cfg monitor + i) = r.pmpRule cfg := by
  simp only [State.rule, h.domain i r hr hi, h.mml, hsmepmp, DomainRegion.pmpRule]
  congr 1

theorem monitor_rule {a : Nat} (hi : i < pmpMonitorEntries cfg monitor)
    (hcov : (u.rule cfg.g i).covers a) :
    (∃ r ∈ monitor, r.kind ≠ .sharedRw ∧ r.Covers cfg a) ∧
      ∀ acc, ¬ (u.rule cfg.g i).grants acc := by
  have hfirst : cfg.first ≤ i := by simp [PmpConfig.first, hsmepmp]
  obtain ⟨r, hr, hskip, k, hk, hik, hat⟩ := h.regions.slot_of_index hfirst hi
  have hkind : r.kind ≠ .sharedRw := by simpa [PmpConfig.skips, hsmepmp] using hskip
  have hrange := hat (regionCfg cfg.smepmp r.kind) (by simp [runPolicy, hkind])
  obtain ⟨hcovers, hgrants⟩ := hrange.rule_of_mem hk hik hcov
  refine ⟨⟨r, hr, hkind, hcovers⟩, ?_⟩
  intro acc
  rw [hgrants acc, regionCfg_zero hsmepmp, h.mml, hsmepmp]
  cases acc <;> simp [Cfg.suGrants, Cfg.zero]

theorem monitor_touches_iff {S : Nat → Prop} :
    (∃ i < pmpMonitorEntries cfg monitor, (u.rule cfg.g i).Touches S) ↔
      ∃ r ∈ monitor, r.kind ≠ .sharedRw ∧ ∃ a, S a ∧ r.Covers cfg a := by
  constructor
  · rintro ⟨i, hi, a, ha, hcov⟩
    obtain ⟨⟨r, hr, hkind, hcovers⟩, -⟩ := h.monitor_rule hsmepmp hi hcov
    exact ⟨r, hr, hkind, a, ha, hcovers⟩
  · rintro ⟨r, hr, hkind, a, ha, hcov⟩
    obtain ⟨pre, post, rfl⟩ := List.append_of_mem hr
    have hskip : cfg.skips r = false := by simp [PmpConfig.skips, hkind]
    obtain ⟨i, -, hend, hat, -⟩ := h.regions.slot_of_split hskip
    obtain ⟨j, -, hj, -, hcovers⟩ :=
      (hat (regionCfg cfg.smepmp r.kind) (by simp [runPolicy, hkind])).exists_rule
    exact ⟨j, Nat.lt_of_lt_of_le hj hend, a, ha, hcovers a hcov⟩

/-- The programmed PMP as a whole, without Smepmp: the monitor's regions are out of
    reach, and for the rest the domain's entries decide in their order. -/
theorem granted_iff {S : Nat → Prop} :
    Granted (u.rules cfg.g) S acc ↔
      (¬ ∃ r ∈ monitor, r.kind ≠ .sharedRw ∧ ∃ a, S a ∧ r.Covers cfg a) ∧
        Granted ((dom.regions.list.take (cfg.count - pmpMonitorEntries cfg monitor)).map
          (·.pmpRule cfg)) S acc := by
  have h16 := cfg.count_le
  have hroom := h.room
  rw [← h.monitor_touches_iff hsmepmp]
  set n := pmpMonitorEntries cfg monitor with hn
  set l := dom.regions.list.take (cfg.count - n) with hl
  have hlen : l.length ≤ cfg.count - n := by rw [hl]; simp
  -- the sixteen entries are the monitor's, the domain's, and the ones that are off
  have hsplit : u.rules cfg.g = (List.range n).map (u.rule cfg.g) ++
      (l.map (·.pmpRule cfg) ++
        (List.range (entryCount - n - l.length)).map fun i => u.rule cfg.g (n + l.length + i)) := by
    have hcount : entryCount = n + l.length + (entryCount - n - l.length) := by
      simp only [entryCount]
      omega
    have hdomain : (List.range l.length).map (fun i => u.rule cfg.g (n + i)) =
        l.map (·.pmpRule cfg) := by
      refine List.ext_getElem (by simp) fun i hi hi' => ?_
      simp only [List.length_map, List.length_range] at hi
      have hget : dom.regions.list[i]? = some (l[i]) := by
        rw [← List.getElem?_eq_getElem, hl, List.getElem?_take, if_pos (by omega)]
      simpa using h.domain_rule hsmepmp hget (by omega)
    rw [State.rules, hcount, List.range_add, List.range_add, List.map_append, List.map_append,
      List.append_assoc, ← hdomain, List.map_map, List.map_map]
    simp only [← hcount]
    congr 3
  have hoff : ∀ r ∈ (List.range (entryCount - n - l.length)).map
      (fun i => u.rule cfg.g (n + l.length + i)), ¬ r.Touches S := by
    simp only [List.forall_mem_map]
    rintro i - ⟨a, -, hcov⟩
    refine not_covers_of_off ?_ a hcov
    rcases Nat.lt_or_ge (n + l.length + i) cfg.count with hlt | hge
    · refine h.rest _ ?_
      have : l.length = dom.regions.list.length := by
        rw [hl, List.length_take] at hlt ⊢
        omega
      omega
    · exact h.beyond _ hge
  rw [hsplit, granted_append_of_deny, granted_append_of_empty hoff]
  · refine and_congr_left fun _ => ?_
    simp
  · simp only [List.forall_mem_map, List.mem_range]
    rintro i hi ⟨a, -, hcov⟩
    exact (h.monitor_rule hsmepmp hi hcov).2 acc

end

end Programmed

end RiscvMonitor
