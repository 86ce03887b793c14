import RiscvMonitor.PmpGrants

/-!
# A domain's memory is its own regions

Without Smepmp, whatever a hart's PMP lets S- and U-mode do comes from an entry of
the domain it runs, as long as the unit can tell the region apart: one smaller than
the grain is widened, and one that is everything is so wherever its base is.
-/

namespace RiscvMonitor

open Pmp FirstMatch

variable {x : Xlen}

theorem Programmed.exists_domain_rule {cfg : PmpConfig x} {monitor : List (MemRegion x)}
    {dom : Domain x} {u : State x.bits} (h : Programmed cfg monitor dom u)
    (hsmepmp : cfg.smepmp = false) {S : Nat → Prop} {acc : Access}
    (hgranted : Granted (u.rules cfg.g) S acc) :
    ∃ r ∈ dom.regions.list, (domainCfg r.perm).suGrants false acc = true ∧
      ∀ a, S a → matchNapot x.bits cfg.g (domainEntry r).addr.toNat a := by
  obtain ⟨-, hdomain⟩ := (h.granted_iff hsmepmp).mp hgranted
  obtain ⟨rule, hrule, hcontains, hgrants⟩ := hdomain.exists_rule
  obtain ⟨r, hr, rfl⟩ := List.mem_map.mp hrule
  exact ⟨r, List.mem_of_mem_take hr, hgrants, hcontains⟩

def DomainRegion.GrainFits (cfg : PmpConfig x) (r : DomainRegion x) : Prop :=
  (r.order < x.bits → cfg.g + 2 ≤ r.order) ∧ (r.order = x.bits → r.base = 0)

def Domain.GrainFits (cfg : PmpConfig x) (dom : Domain x) : Prop :=
  ∀ r ∈ dom.regions.list, (∃ acc, (domainCfg r.perm).suGrants false acc = true) →
    r.GrainFits cfg

theorem DomainRegion.GrainFits.covers {cfg : PmpConfig x} {r : DomainRegion x}
    (h : r.GrainFits cfg) {a : Nat} (ha : a < 2 ^ x.bits)
    (hmatch : matchNapot x.bits cfg.g (domainEntry r).addr.toNat a) : r.rule.covers a := by
  rcases Nat.lt_or_eq_of_le r.order_le_bits with hlt | hwhole
  · simp only [domainEntry, Nat.not_le.mpr hlt, if_false] at hmatch
    obtain ⟨hlow, hhigh⟩ := (matchNapot_iff r.three_le_order hlt (h.1 hlt) (toNat_bit hlt)
      (r.aligned hlt)).mp hmatch
    refine ⟨hlow, ?_⟩
    rw [(toNat_regionLast_of_lt hlt).1]
    omega
  · refine ⟨by simp [h.2 hwhole], ?_⟩
    rw [toNat_regionLast_of_whole hwhole]
    omega

/-- What the PMP allows while a domain runs lies inside one region of that
    domain, which has the permission. -/
theorem pmpRun_confined {cfg : PmpConfig x} {monitor : List (MemRegion x)} {dom : Domain x}
    {u : State x.bits} (hsmepmp : cfg.smepmp = false)
    (hrun : PmpRun cfg monitor (Domain.GrainFits cfg) dom u) {S : Nat → Prop} {acc : Access}
    (hspace : ∀ a, S a → a < 2 ^ x.bits) (hgranted : Granted (u.rules cfg.g) S acc) :
    ∃ r ∈ dom.regions.list, r.rule.Contains S ∧ r.perm &&& accessPerm acc = accessPerm acc := by
  obtain ⟨hprogrammed, hfits⟩ := hrun.programmed
  obtain ⟨r, hr, hgrants, hcovers⟩ := hprogrammed.exists_domain_rule hsmepmp hgranted
  refine ⟨r, hr, ?_, (domainCfg_suGrants.mp hgrants).1⟩
  intro a ha
  exact (hfits r hr ⟨acc, hgrants⟩).covers (hspace a ha) (hcovers a ha)

/-! ### One region of a page, and one of eight bytes -/

def oneRegionNode (order : Nat) : InstanceNode where
  phandle := 1
  possibleHarts := [some 0]
  inheritAll := false
  regions := [(some ⟨some 0x90000000, order, false⟩, domainPermSuR ||| domainPermSuW)]
  bootHart := none
  nextAddr := some 0x90000000
  nextArg1 := none
  nextMode := 1
  systemResetAllowed := false
  systemSuspendAllowed := false

def pageDomain : Domain .rv64 := (instanceParse none (oneRegionNode 12)).get (by decide)

def eightByteDomain : Domain .rv64 := (instanceParse none (oneRegionNode 3)).get (by decide)

def pageGrain : PmpConfig .rv64 := { finestGrain .rv64 with g := 10, g_lt := by decide }

theorem Programmed.granted_oneRegion {dom : Domain .rv64} {u : State 64}
    (h : Programmed pageGrain imageOnly dom u) {r : DomainRegion .rv64}
    (hregions : dom.regions.list = [r])
    (hcovers : matchNapot 64 10 (domainEntry r).addr.toNat 0x90000008)
    (hgrants : (domainCfg r.perm).suGrants false .read = true) :
    Granted (u.rules pageGrain.g) (· = 0x90000008) .read := by
  refine (h.granted_iff rfl).mpr ⟨?_, ?_⟩
  · rintro ⟨q, hq, -, a, rfl, hcov⟩
    obtain rfl : q = ⟨0x80000000, 0x40000, .mmodeRw⟩ := List.mem_singleton.mp hq
    have himage : ¬ matchNapot 64 10
        (napotWord (0x80000000 : Word .rv64) 0x40000).toNat 0x90000008 := by decide
    exact himage hcov
  · have htake : pageGrain.count - pmpMonitorEntries pageGrain imageOnly = 15 := by decide
    rw [hregions, htake]
    refine Or.inl ⟨⟨_, rfl, hcovers⟩, ?_, hgrants⟩
    rintro a rfl
    exact hcovers

theorem pmpRun_confined_page :
    ∃ u, PmpRun pageGrain imageOnly (Domain.GrainFits pageGrain) pageDomain u ∧
      Granted (u.rules pageGrain.g) (· = 0x90000008) .read ∧
      ∃ r ∈ pageDomain.regions.list, r.rule.Contains (· = 0x90000008) ∧
        r.perm &&& accessPerm .read = accessPerm .read := by
  have hfits : pageDomain.GrainFits pageGrain := by
    rintro r hr -
    obtain rfl := List.mem_singleton.mp hr
    exact ⟨fun _ => by decide, fun h => by cases h⟩
  obtain ⟨u, hrun⟩ := @exists_pmpRun _ pageGrain imageOnly _ pageDomain (by decide) hfits
  have hgranted := hrun.programmed.1.granted_oneRegion rfl (by decide) (by decide)
  exact ⟨u, hrun, hgranted, pmpRun_confined rfl hrun (by rintro a rfl; decide) hgranted⟩

/-- Eight bytes are a page to a unit with that grain. -/
theorem pmpRun_not_confined_below_grain :
    ¬ ∀ (cfg : PmpConfig .rv64) (monitor : List (MemRegion .rv64)) (dom : Domain .rv64)
        (u : State 64), cfg.smepmp = false →
        PmpRun cfg monitor (fun d => d.Accepted ∧ d.FitsPmp cfg monitor) dom u →
        ∀ (S : Nat → Prop) (acc : Access), (∀ a, S a → a < 2 ^ 64) →
          Granted (u.rules cfg.g) S acc →
          ∃ r ∈ dom.regions.list, r.rule.Contains S ∧
            r.perm &&& accessPerm acc = accessPerm acc := by
  intro hconfined
  have hok : eightByteDomain.Accepted ∧ eightByteDomain.FitsPmp pageGrain imageOnly :=
    ⟨⟨none, oneRegionNode 3, (Option.some_get _).symm⟩, by decide⟩
  obtain ⟨u, hrun⟩ := @exists_pmpRun _ pageGrain imageOnly
    (fun d => d.Accepted ∧ d.FitsPmp pageGrain imageOnly) eightByteDomain (by decide) hok
  have hgranted := hrun.programmed.1.granted_oneRegion rfl (by decide) (by decide)
  obtain ⟨r, hr, hcontains, -⟩ := hconfined pageGrain imageOnly eightByteDomain u rfl hrun _ _
    (by rintro a rfl; decide) hgranted
  obtain rfl := List.mem_singleton.mp hr
  have hlast := (hcontains 0x90000008 rfl).2
  revert hlast
  decide

end RiscvMonitor
