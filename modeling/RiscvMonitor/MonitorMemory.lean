import RiscvMonitor.DomainMemory

/-!
# The monitor's memory is out of reach

The entry of a region of the monitor's own comes before the domain's and gives S- and
U-mode nothing.  Three things can be in the way.  Merging two ranges loses bytes where
one of them ends at the top of the address space.  A TOR pair whose rounded end is the
top has no bytes.  And under Smepmp the rule of a shared device can reach into the
region by the grain.
-/

namespace RiscvMonitor

open Pmp FirstMatch

variable {x : Xlen} {cfg : PmpConfig x}

/-- The end of the region, rounded up to the grain, is an address, where the
    region is not a NAPOT entry. -/
def MemRegion.Protectable (cfg : PmpConfig x) (m : MemRegion x) : Prop :=
  m.size.toNat = 0 ∨ regionIsNapot m = true ∨ roundedEnd cfg.g m.base m.size < 2 ^ x.bits

instance (cfg : PmpConfig x) (m : MemRegion x) : Decidable (m.Protectable cfg) :=
  inferInstanceAs (Decidable (_ ∨ _ ∨ _))

/-- No shared device that the domain has reaches into a region of the monitor's
    after it, as the unit sees the device. -/
def SharedApart (cfg : PmpConfig x) (monitor : List (MemRegion x)) (dom : Domain x) : Prop :=
  cfg.smepmp = true → monitor.Pairwise fun s m =>
    s.kind = .sharedRw → m.kind ≠ .sharedRw → smodeRangeOk monitor dom s.base s.size = true →
      ∀ a, s.Covers cfg a → ¬ m.Has a

theorem MemRegion.Protectable.covers {m : MemRegion x} (h : m.Protectable cfg) {a : Nat}
    (ha : m.Has a) : m.Covers cfg a := by
  have hlow := ha.1
  have hhigh := ha.2
  unfold MemRegion.Covers
  cases hnapot : regionIsNapot m with
  | true =>
    obtain ⟨k, hk, hkx, hsize, halign⟩ := isNapot_iff.mp hnapot
    rw [hsize] at hhigh
    exact matchNapot_of_inRange (Nat.le_of_lt cfg.g_lt) hk hkx hsize halign ⟨hlow, hhigh⟩
  | false =>
    simp only [Bool.false_eq_true, if_false, cfg.grain_eq]
    rcases h with hempty | hn | hfit
    · omega
    · rw [hnapot] at hn
      cases hn
    · exact matchTor_of_inRange hfit ⟨hlow, hhigh⟩

theorem regionCfg_denies (smepmp : Bool) {kind : MemregionKind} (hkind : kind ≠ .sharedRw)
    (acc : Access) : (regionCfg smepmp kind).suGrants smepmp acc = false := by
  cases smepmp <;> cases kind <;> cases acc <;> first | rfl | exact absurd rfl hkind

theorem Programmed.not_granted {monitor : List (MemRegion x)} {dom : Domain x} {u : State x.bits}
    (h : Programmed cfg monitor dom u) (hshared : SharedApart cfg monitor dom) {m : MemRegion x}
    (hm : m ∈ monitor) (hkind : m.kind ≠ .sharedRw) (hprotect : m.Protectable cfg) {a : Nat}
    (ha : m.Has a) {S : Nat → Prop} (hS : S a) (acc : Access) :
    ¬ Granted (u.rules cfg.g) S acc := by
  obtain ⟨pre, post, rfl⟩ := List.append_of_mem hm
  have hskip : cfg.skips m = false := by simp [PmpConfig.skips, hkind]
  obtain ⟨i, hi, hend, hat, hbefore⟩ := h.regions.slot_of_split hskip
  have hrange := hat (regionCfg cfg.smepmp m.kind) (by simp [runPolicy, hkind])
  obtain ⟨j, hij, hji, hoff, hcovers⟩ := hrange.exists_rule
  have hcov := hcovers a (hprotect.covers ha)
  have hroom := h.room
  have h16 := cfg.count_le
  have hdeny (k : Nat) (kind : MemregionKind) (hk : kind ≠ .sharedRw)
      (hgrants : ∀ acc, (u.rule cfg.g k).grants acc ↔
        (regionCfg cfg.smepmp kind).suGrants u.mml acc = true) :
      ¬ (u.rule cfg.g k).grants acc := by
    rw [hgrants, h.mml, regionCfg_denies _ hk]
    simp
  refine not_granted_of_covers hS (i := j) ?_ hcov ?_ ?_
  · exact Nat.lt_of_lt_of_le hji (Nat.le_trans hend (Nat.le_trans hroom h16))
  · exact hdeny j m.kind hkind (hrange.rule_of_mem hij hji hcov).2
  · intro k hk hkcov
    rcases Nat.lt_or_ge k cfg.first with hwindow | hfirst
    · -- the window is shut
      cases hsmepmp : cfg.smepmp with
      | false => simp [PmpConfig.first, hsmepmp] at hwindow
      | true =>
        have hlt : k < smepmpWindowEntries := by simpa [PmpConfig.first, hsmepmp] using hwindow
        exact absurd hkcov (not_covers_of_off (h.window hsmepmp k hlt) a)
    · rcases Nat.lt_or_ge k i with hki | hik
      · obtain ⟨r, hr, hrskip, k₀, hk₀, hkr, hrat⟩ := hbefore k hfirst hki
        by_cases hrkind : r.kind = .sharedRw
        · have hpolicy := hrat (sharedCfg cfg (pre ++ m :: post) dom r) (by simp [runPolicy, hrkind])
          obtain ⟨hrcov, hrgrants⟩ := hpolicy.rule_of_mem hk₀ hkr hkcov
          cases hok : smodeRangeOk (pre ++ m :: post) dom r.base r.size with
          | false =>
            refine hdeny k .mmodeRw (by decide) ?_
            simpa [sharedCfg, hok] using hrgrants
          | true =>
            -- the domain has the device, so the device is not in the way
            have hsmepmp : cfg.smepmp = true := by simpa [PmpConfig.skips, hrkind] using hrskip
            have hpair := (List.pairwise_append.mp (hshared hsmepmp)).2.2 r hr m List.mem_cons_self
            exact absurd ha (hpair hrkind hkind hok a hrcov)
        · have hpolicy := hrat (regionCfg cfg.smepmp r.kind) (by simp [runPolicy, hrkind])
          exact hdeny k r.kind hrkind (hpolicy.rule_of_mem hk₀ hkr hkcov).2
      · exact absurd hkcov (hoff k hik hk a)

/-- Every byte of every range the boot added as the monitor's own is denied to
    S- and U-mode, in every state of every run. -/
theorem pmpRun_denies_monitor {image : Image x} {adds monitor : List (MemRegion x)}
    {dom : Domain x} {u : State x.bits} (hboot : memregionAdds image [] adds = some monitor)
    (hfit : ∀ r ∈ adds, r.FitsSpace) (hapart : AddsApart image [] adds)
    (hprotect : ∀ m ∈ monitor, m.kind ≠ .sharedRw → m.Protectable cfg)
    (hrun : PmpRun cfg monitor (SharedApart cfg monitor) dom u) {r : MemRegion x} (hr : r ∈ adds)
    (hkind : r.kind ≠ .sharedRw) {a : Nat} (ha : r.Has a) {S : Nat → Prop} (hS : S a)
    (acc : Access) : ¬ Granted (u.rules cfg.g) S acc := by
  obtain ⟨hprogrammed, hshared⟩ := hrun.programmed
  obtain ⟨m, hm, hmkind, hma⟩ := memregionAdds_hasByte hboot hapart hfit (by simp) hkind
    (Or.inr ⟨r, hr, rfl, ha⟩)
  rw [← hmkind] at hkind
  exact hprogrammed.not_granted hshared hm hkind (hprotect m hm hkind) hma hS acc

/-- The image and a console that S-mode has too, on a hart with Smepmp. -/
def imageAndConsole : List (MemRegion .rv64) :=
  [⟨0x80000000, 0x40000, .mmodeRw⟩, ⟨0x10000000, 0x100, .sharedRw⟩]

def smepmpHart : PmpConfig .rv64 := { pageGrain with smepmp := true }

theorem pmpRun_denies_image :
    ∃ u, PmpRun smepmpHart imageAndConsole (SharedApart smepmpHart imageAndConsole)
        (rootDomain {0} 0 0x80200000 .supervisor) u ∧
      ¬ Granted (u.rules smepmpHart.g) (· = 0x80000000) .read := by
  have hapart : SharedApart smepmpHart imageAndConsole
      (rootDomain {0} 0 0x80200000 .supervisor) := by
    intro _
    simp [imageAndConsole]
  obtain ⟨u, hrun⟩ := @exists_pmpRun _ smepmpHart imageAndConsole _ _ (by decide) hapart
  have hboot : memregionAdds ⟨0x80000000, 0x40000⟩ [] imageAndConsole = some imageAndConsole := by
    decide
  have himage : (⟨0x80000000, 0x40000, .mmodeRw⟩ : MemRegion .rv64) ∈ imageAndConsole := by decide
  have hfirst : (⟨0x80000000, 0x40000, .mmodeRw⟩ : MemRegion .rv64).Has 0x80000000 := by decide
  exact ⟨u, hrun, pmpRun_denies_monitor (S := (· = 0x80000000)) hboot (by decide)
    ⟨by simp, by simp [AddsApart]⟩ (by decide) hrun himage (by decide) hfirst rfl .read⟩

def pagesAtTop : List (MemRegion .rv32) :=
  [⟨0x80000000, 0x40000, .mmodeRw⟩, ⟨0xffffd000, 0x3000, .mmodeRw⟩]

/-- Its TOR pair ends at zero, and the root domain has all of it. -/
theorem pmpRun_grants_pagesAtTop :
    ¬ ∀ (cfg : PmpConfig .rv32) (image : Image .rv32) (adds monitor : List (MemRegion .rv32))
        (dom : Domain .rv32) (u : State 32), memregionAdds image [] adds = some monitor →
        (∀ r ∈ adds, r.FitsSpace) → PmpRun cfg monitor (fun _ => True) dom u →
        ∀ r ∈ adds, r.kind ≠ .sharedRw → ∀ a, r.Has a → ∀ S : Nat → Prop, S a →
          ∀ acc, ¬ Granted (u.rules cfg.g) S acc := by
  intro hdenied
  obtain ⟨u, hrun⟩ := @exists_pmpRun _ (finestGrain .rv32) pagesAtTop (fun _ => True)
    (rootDomain {0} 0 0x80200000 .supervisor) (by decide) trivial
  refine hdenied (finestGrain .rv32) ⟨0x80000000, 0x40000⟩ pagesAtTop pagesAtTop _ u (by decide)
    (by decide) hrun ⟨0xffffd000, 0x3000, .mmodeRw⟩ (by decide) (by decide) 0xffffd000 (by decide)
    (· = 0xffffd000) rfl .read ?_
  refine (hrun.programmed.1.granted_iff rfl).mpr ⟨?_, ?_⟩
  · rintro ⟨r, hr, -, a, rfl, hcov⟩
    have hclear : ∀ r ∈ pagesAtTop, ¬ r.Covers (finestGrain .rv32) 0xffffd000 := by decide
    exact hclear r hr hcov
  · have hall : matchNapot 32 0 (~~~(0 : Word .rv32)).toNat 0xffffd000 := by decide
    have hread : (domainCfg domainPermSuRwx).suGrants false .read = true := by decide
    refine Or.inl ⟨⟨_, rfl, hall⟩, ?_, hread⟩
    rintro a rfl
    exact hall

end RiscvMonitor
