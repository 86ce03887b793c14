import RiscvMonitor.PmuRuns

/-!
# Counters that nobody owns, and the monitor's own time

A counter without an event is as a reset leaves it: `cycle` and `instret` run, the
others stand still.  The monitor's own time is not counted.  But a stop names any
counters: one without `RESET` stops `cycle` and `instret`, and one with it clears
their filters.
-/

namespace RiscvMonitor.Pmu

open Masks

variable {x : Xlen} {cfg : Config x}

/-! ### Free counters -/

structure Unowned (cfg : Config x) (m : Machine x) : Prop where
  /-- `cycle` and `instret` run. -/
  fixed : ∀ n, n = 0 ∨ n = 2 → m.hart.p.event n = eventNone → running m.hw n = true
  programmable : ∀ n, 3 ≤ n → cfg.hwCounters.getLsbD n = true → m.hart.p.event n = eventNone →
    running m.hw n = false ∧ m.hw.select n = 0
  firmware : ∀ i : Fin fwCounterCount, m.hart.p.event (fwFirst + i) = eventNone →
    ∀ event, (fwEvent m.hart event).p.fwValue i = m.hart.p.fwValue i

def Counter.idle (cfg : Config x) (n : Nat) (k : Counter) : Prop :=
  k.event = eventNone →
    (n = 0 ∨ n = 2 → k.counting = true) ∧
      (3 ≤ n → cfg.hwCounters.getLsbD n = true → k.counting = false ∧ k.select = 0) ∧
      (fwFirst ≤ n → k.counting = false)

/-- A stop that keeps the events does not name `cycle` or `instret` while nobody owns it. -/
def sparesFree (cfg : Config x) (b : Hart x) : Call x → Prop
  | .counterStop base mask flags =>
    stopReset flags = false →
      (stopNames cfg b.p base mask flags 0 → b.p.event 0 ≠ eventNone) ∧
        (stopNames cfg b.p base mask flags 2 → b.p.event 2 ≠ eventNone)
  | _ => True

instance sparesFree.decidable (b : Hart x) (c : Call x) : Decidable (sparesFree cfg b c) := by
  unfold sparesFree
  split <;> infer_instance

variable {n : Nat}

theorem selectAfter_zero (hzero : ∀ n, cfg.legal n 0 = 0) (hn : 3 ≤ n) :
    cfg.selectAfter n 0 = 0 := by
  unfold Config.selectAfter Config.selectLegal
  split
  · rw [if_neg (by omega), hzero]
  · rfl

theorem idle_fresh (hzero : ∀ n, cfg.legal n 0 = 0) (n : Nat) :
    (Counter.fresh cfg n).idle cfg n := by
  intro _
  refine ⟨?_, ?_, ?_⟩
  · intro hfixed
    have hbit : (0b101#32).getLsbD n = true := by
      rcases hfixed with rfl | rfl <;> rfl
    have hlt : n < fwFirst := BitVec.lt_of_getLsbD hbit
    rw [Counter.fresh, Config.stopped, getLsbD_clear, hbit, decide_eq_true hlt]
    rw [Bool.not_true, Bool.and_false, Bool.not_false, Bool.true_and]
  · intro hlarge hn
    have hbit : (0b101#32).getLsbD n = false := by
      have hlt : n < 32 := BitVec.lt_of_getLsbD hn
      interval_cases n <;> rfl
    have hselect : (freshHw cfg).select n = 0 := by
      simp [freshHw, show n ≠ 0 ∧ n ≠ 2 by omega]
    refine ⟨?_, ?_⟩
    · simp [Counter.fresh, Config.stopped, hn, hbit]
    · rw [Counter.fresh, hselect, selectAfter_zero hzero hlarge]
  · intro hfw
    simp [Counter.fresh, Nat.not_lt.2 hfw]

theorem configured_event (n : Nat) (flags : Word x) (event : BitVec 32) (select : BitVec 64)
    (k : Counter) : (k.configured cfg n flags event select).event = event := by
  unfold Counter.configured
  dsimp only
  split <;> split <;> rfl

variable {k : Counter}

theorem idle_change (hzero : ∀ n, cfg.legal n 0 = 0) {b : Hart x} {c : Call x}
    (hspares : sparesFree cfg b c) (hold : (b.counter cfg n).idle cfg n)
    (hchange : Change cfg b c n k) : k.idle cfg n := by
  cases hchange with
  | same => exact hold
  | starts hexists howned => exact fun hfree => absurd hfree howned
  | configures hexists flags hevent select =>
    intro hfree
    rw [configured_event] at hfree
    exact absurd hfree hevent
  | stops base mask flags hcall hnames hkeep =>
    intro hfree
    subst hcall
    obtain ⟨hzeroth, hsecond⟩ := hspares hkeep
    refine ⟨?_, ?_, fun _ => rfl⟩
    · rintro (rfl | rfl)
      · exact absurd hfree (hzeroth hnames)
      · exact absurd hfree (hsecond hnames)
    · intro hlarge hn
      exact ⟨rfl, ((hold hfree).2.1 hlarge hn).2⟩
  | frees base mask flags hcall hnames hreset =>
    intro _
    refine ⟨?_, ?_, ?_⟩
    · rintro (rfl | rfl) <;> rfl
    · intro hlarge _
      exact ⟨decide_eq_false (by omega), selectAfter_zero hzero hlarge⟩
    · intro hfw
      simp only [fwFirst, hwCounterCount] at hfw
      exact decide_eq_false (by omega)

theorem keeps_idle (hzero : ∀ n, cfg.legal n 0 = 0) :
    Keeps cfg (Counter.idle cfg) (sparesFree cfg) where
  fresh := idle_fresh hzero
  change := idle_change hzero
  settles := by
    intro n k _ hk hfree
    obtain ⟨hfixed, hprogrammable, hfirmware⟩ := hk hfree
    refine ⟨hfixed, fun hlarge hn => ⟨(hprogrammable hlarge hn).1, ?_⟩, hfirmware⟩
    have hselect := (hprogrammable hlarge hn).2
    simp only [hselect, Config.selectLegal, if_neg (Nat.not_lt.2 hlarge), hzero]
  overflows := by
    intro n k hsel hlarge hcounting hk hfree
    have hstill := ((hk hfree).2.1 hlarge (hasSelect_exists cfg hsel)).1
    rw [hstill] at hcounting
    cases hcounting

/-- Counters that no event owns are left alone, in every state that any calls, switches and
    starts reach where no stop without `RESET` names a free `cycle` or `instret`. -/
theorem run_unowned (hon : cfg.haveInhibit = true) (hzero : ∀ n, cfg.legal n 0 = 0)
    {domain : Nat} {record : Nat → PmuHart x} {hw : Hardware} {acts : List (Act x)}
    {m : Machine x}
    (halong : Runs.Along (step cfg) (fun m a => a.meets (sparesFree cfg) m)
      (boot cfg domain record hw) acts)
    (hrun : Runs.run (step cfg) (boot cfg domain record hw) acts = some m) : Unowned cfg m := by
  have hidle := ((keeps_idle hzero).run hon halong hrun).here
  refine ⟨?_, ?_, ?_⟩
  · intro n hn hfree
    have hcounting := (hidle n hfree).1 hn
    have hlt : ¬ fwFirst ≤ n := by
      simp only [fwFirst, hwCounterCount]
      omega
    rwa [Hart.counter, counterRunning, if_neg hlt] at hcounting
  · intro n hlarge hn hfree
    obtain ⟨hcounting, hselect⟩ := (hidle n hfree).2.1 hlarge hn
    have hlt : ¬ fwFirst ≤ n := Nat.not_le.2 (BitVec.lt_of_getLsbD hn)
    have hsel : cfg.hasSelect n = true := by simp [Config.hasSelect, hn, hlarge]
    rw [Hart.counter, counterRunning, if_neg hlt] at hcounting
    rw [Hart.counter, if_pos hsel] at hselect
    exact ⟨hcounting, hselect⟩
  · intro i hfree event
    have hcounting := (hidle (fwFirst + i) hfree).2.2 (Nat.le_add_right ..)
    have hstill : m.hart.p.fwStarted.getLsbD i = false := by
      rwa [Hart.counter, counterRunning, if_pos (Nat.le_add_right ..), Nat.add_sub_cancel_left]
        at hcounting
    simp [fwEvent, hstill]

/-- A hart with `cycle` and `instret`, their filters, and nothing else. -/
def fixedOnly (haveInhibit : Bool) : Config .rv64 :=
  { Config.bare with
    hwCounters := if haveInhibit then 0b101 else 0
    haveInhibit := haveInhibit
    noInhibit := by cases haveInhibit <;> simp
    fixed := by cases haveInhibit <;> simp
    smcntrpmf := true
    ranges := [⟨1, 1, 0b1⟩, ⟨2, 2, 0b100⟩] }

def emptyRecord : PmuHart .rv64 :=
  ⟨snapshotNone, false, false, fun _ => eventNone, 0, fun _ => 0, .zero⟩

def noMem : Mem := ⟨0, fun _ => 0, fun _ => (0, 0, 0)⟩

/-- `cycle` is taken, started, stopped, and given back. -/
def useCycle : List (Act .rv64) :=
  [.call (.configMatching 0 1 0 1 0) noMem, .call (.counterStart 0 1 0 0) noMem,
   .call (.counterStop 0 1 0) noMem, .switch 2 true, .call (.counterStop 0 5 1) noMem,
   .switch 1 false, .call (.counterStop 0 1 1) noMem]

theorem run_unowned_useCycle :
    ∃ m, Runs.run (step (fixedOnly true)) (boot (fixedOnly true) 1 (fun _ => emptyRecord) .zero)
        useCycle = some m ∧ m.hart.p.event 0 = eventNone ∧ Unowned (fixedOnly true) m := by
  have halong : Runs.Along (step (fixedOnly true))
      (fun m a => a.meets (sparesFree (fixedOnly true)) m)
      (boot (fixedOnly true) 1 (fun _ => emptyRecord) .zero) useCycle := by
    decide +kernel
  exact ⟨_, rfl, rfl, run_unowned rfl (fun _ => rfl) halong rfl⟩

/-- Nobody owns `cycle`, and it is stopped. -/
theorem stop_stops_free_cycle :
    ∃ m ∈ Runs.run (step (fixedOnly true))
        (boot (fixedOnly true) 1 (fun _ => emptyRecord) .zero)
        [.call (.counterStop 0 1 0) noMem],
      m.hart.p.event 0 = eventNone ∧ running m.hw 0 = false := by
  decide +kernel

/-! ### The monitor's own time -/

/-- `MINH`, where there is one. -/
structure Unseen (cfg : Config x) (m : Machine x) : Prop where
  /-- In `mcyclecfg` and `minstretcfg`. -/
  fixed : cfg.smcntrpmf = true → ∀ n, n = 0 ∨ n = 2 → (m.hw.select n).getLsbD 62 = true
  programmable : cfg.sscofpmf = true → ∀ n, 3 ≤ n → cfg.hwCounters.getLsbD n = true →
    m.hart.p.event n ≠ eventNone → (m.hw.select n).getLsbD 62 = true

def Counter.blind (cfg : Config x) (n : Nat) (k : Counter) : Prop :=
  (cfg.smcntrpmf = true → n = 0 ∨ n = 2 → k.select.getLsbD 62 = true) ∧
    (cfg.sscofpmf = true → 3 ≤ n → cfg.hwCounters.getLsbD n = true → k.event ≠ eventNone →
      k.select.getLsbD 62 = true)

/-- A stop that frees counters does not name `cycle` or `instret`. -/
def sparesFilters (cfg : Config x) (b : Hart x) : Call x → Prop
  | .counterStop base mask flags =>
    cfg.smcntrpmf = true → stopReset flags = true →
      ¬ stopNames cfg b.p base mask flags 0 ∧ ¬ stopNames cfg b.p base mask flags 2
  | _ => True

instance sparesFilters.decidable (b : Hart x) (c : Call x) :
    Decidable (sparesFilters cfg b c) := by
  unfold sparesFilters
  split <;> infer_instance

/-- The hart's `mhpmevent` have `MINH` as it is written. -/
def Config.filters (cfg : Config x) : Prop :=
  cfg.sscofpmf = true → ∀ n v, 3 ≤ n → cfg.hwCounters.getLsbD n = true →
    (cfg.legal n v).getLsbD 62 = v.getLsbD 62

theorem filterBits_minh : filterBits.getLsbD 62 = true := by decide

theorem inhibitBits_minh (flags : Word x) : (inhibitBits flags).getLsbD 62 = true := by
  have hminh : hpmeventMinh.getLsbD 62 = true := by decide
  simp only [inhibitBits, getLsbD_setIf, hminh, Bool.true_or]

theorem hasSelect_fixed (hon : cfg.haveInhibit = true) (hpmf : cfg.smcntrpmf = true)
    (hn : n = 0 ∨ n = 2) : cfg.hasSelect n = true := by
  obtain ⟨h0, -, h2⟩ := cfg.fixed hon
  rcases hn with rfl | rfl
  · simp only [Config.hasSelect, h0, hpmf, Bool.or_true, Bool.and_true]
  · simp only [Config.hasSelect, h2, hpmf, Bool.or_true, Bool.and_true]

variable {v : BitVec 64}

theorem selectAfter_fixed (hon : cfg.haveInhibit = true) (hpmf : cfg.smcntrpmf = true)
    (hn : n = 0 ∨ n = 2) (hv : v.getLsbD 62 = true) :
    (cfg.selectAfter n v).getLsbD 62 = true := by
  have hsmall : n < 3 := by omega
  rw [Config.selectAfter, if_pos (hasSelect_fixed hon hpmf hn), Config.selectLegal, if_pos hsmall,
    BitVec.getLsbD_and, hv, filterBits_minh, Bool.true_and]

theorem selectAfter_programmable (hminh : cfg.filters) (hof : cfg.sscofpmf = true) (hn : 3 ≤ n)
    (hexists : cfg.hwCounters.getLsbD n = true) (hv : v.getLsbD 62 = true) :
    (cfg.selectAfter n v).getLsbD 62 = true := by
  have hsel : cfg.hasSelect n = true := by simp [Config.hasSelect, hexists, hn]
  rw [Config.selectAfter, if_pos hsel, Config.selectLegal, if_neg (Nat.not_lt.2 hn),
    hminh hof n v hn hexists, hv]

theorem armed_minh (hminh : cfg.filters) (hv : v.getLsbD 62 = true)
    (hn : n < 3 ∨ cfg.hwCounters.getLsbD n = true) : (armed cfg n v).getLsbD 62 = true := by
  unfold armed
  split
  · next harm =>
    have hexists : cfg.hwCounters.getLsbD n = true := hn.resolve_left (by omega)
    have hof : hpmeventOf.getLsbD 62 = false := by decide
    rw [hminh harm.1 n _ harm.2.1 hexists, getLsbD_clear, hv, hof, Bool.not_false, Bool.true_and]
  · exact hv

theorem blind_started (hminh : cfg.filters) (hk : k.blind cfg n) :
    (k.started cfg n).blind cfg n := by
  refine ⟨?_, ?_⟩
  · intro hpmf hn
    exact armed_minh hminh (hk.1 hpmf hn) (.inl (by omega))
  · intro hof hn hexists howned
    exact armed_minh hminh (hk.2 hof hn hexists howned) (.inr hexists)

section

variable (hon : cfg.haveInhibit = true) (hminh : cfg.filters)
include hon hminh

theorem blind_configured (flags : Word x) (event : BitVec 32) (select : BitVec 64)
    (hk : k.blind cfg n) : (k.configured cfg n flags event select).blind cfg n := by
  have hplain : (if fwFirst ≤ n then { k with event := event }
      else ⟨event, false, cfg.selectAfter n (configSelect cfg n flags select)⟩ :
        Counter).blind cfg n := by
    split
    · next hfw =>
      refine ⟨hk.1, ?_⟩
      intro _ _ hexists
      exact absurd hfw (Nat.not_le.2 (BitVec.lt_of_getLsbD hexists))
    · refine ⟨?_, ?_⟩
      · intro hpmf hn
        apply selectAfter_fixed hon hpmf hn
        have hsmall : n < 3 := by omega
        rw [configSelect, if_pos hsmall, inhibitBits_minh]
      · intro hof hn hexists _
        apply selectAfter_programmable hminh hof hn hexists
        rw [configSelect, if_neg (Nat.not_lt.2 hn), if_pos hof, BitVec.getLsbD_or,
          BitVec.getLsbD_or, inhibitBits_minh, Bool.or_true, Bool.true_or]
  unfold Counter.configured
  dsimp only
  split
  · exact blind_started hminh hplain
  · exact hplain

theorem blind_change {b : Hart x} {c : Call x} (hspares : sparesFilters cfg b c)
    (hold : (b.counter cfg n).blind cfg n) (hchange : Change cfg b c n k) : k.blind cfg n := by
  cases hchange with
  | same => exact hold
  | starts hexists howned => exact blind_started hminh hold
  | configures hexists flags hevent select => exact blind_configured hon hminh flags _ select hold
  | stops base mask flags hcall hnames hkeep => exact hold
  | frees base mask flags hcall hnames hreset =>
    subst hcall
    refine ⟨?_, ?_⟩
    · intro hpmf hn
      obtain ⟨hcycle, hinstret⟩ := hspares hpmf hreset
      rcases hn with rfl | rfl
      · exact absurd hnames hcycle
      · exact absurd hnames hinstret
    · intro _ _ _ howned
      exact absurd rfl howned

theorem keeps_blind :
    Keeps cfg (Counter.blind cfg) (sparesFilters cfg) where
  fresh := by
    intro n
    refine ⟨?_, fun _ _ _ howned => absurd rfl howned⟩
    intro hpmf hn
    apply selectAfter_fixed hon hpmf hn
    simp only [freshHw, if_pos hn]
    decide
  change := blind_change hon hminh
  settles := by
    intro n k hsel hk
    have hselect : cfg.selectLegal n k.select = cfg.selectAfter n k.select :=
      (if_pos hsel).symm
    refine ⟨?_, ?_⟩
    · intro hpmf hn
      rw [hselect]
      exact selectAfter_fixed hon hpmf hn (hk.1 hpmf hn)
    · intro hof hn hexists howned
      rw [hselect]
      exact selectAfter_programmable hminh hof hn hexists (hk.2 hof hn hexists howned)
  overflows := by
    intro n k _ hlarge _ hk
    refine ⟨fun _ hn => by omega, ?_⟩
    intro hof hn hexists howned
    rw [BitVec.getLsbD_or, hk.2 hof hn hexists howned, Bool.true_or]

end

/-- `MINH` is set wherever it has to be, in every state that any calls, switches and starts
    reach where the hart has `mcountinhibit` and no stop with `RESET` names `cycle` or
    `instret`. -/
theorem run_unseen (hfilters : cfg.smcntrpmf = true → cfg.haveInhibit = true)
    (hminh : cfg.filters) {domain : Nat} {record : Nat → PmuHart x} {hw : Hardware}
    {acts : List (Act x)} {m : Machine x}
    (halong : Runs.Along (step cfg) (fun m a => a.meets (sparesFilters cfg) m)
      (boot cfg domain record hw) acts)
    (hrun : Runs.run (step cfg) (boot cfg domain record hw) acts = some m) : Unseen cfg m := by
  have hblind : cfg.haveInhibit = true → ∀ n, (m.hart.counter cfg n).blind cfg n :=
    fun hon => ((keeps_blind hon hminh).run hon halong hrun).here
  refine ⟨?_, ?_⟩
  · intro hpmf n hn
    have hselect := (hblind (hfilters hpmf) n).1 hpmf hn
    rwa [Hart.counter, if_pos (hasSelect_fixed (hfilters hpmf) hpmf hn)] at hselect
  · intro hof n hn hexists howned
    have hselect := (hblind (haveInhibit_of_exists cfg hexists) n).2 hof hn hexists howned
    have hsel : cfg.hasSelect n = true := by simp [Config.hasSelect, hexists, hn]
    rwa [Hart.counter, if_pos hsel] at hselect

/-- `cycle` is taken and started, and waits for the hart to come back. -/
def keepCycle : List (Act .rv64) :=
  [.call (.configMatching 0 1 4 1 0) noMem, .switch 2 true, .call (.counterStop 0 5 0) noMem,
   .switch 1 false]

theorem run_unseen_keepCycle :
    ∃ m, Runs.run (step (fixedOnly true)) (boot (fixedOnly true) 1 (fun _ => emptyRecord) .zero)
        keepCycle = some m ∧ m.hart.p.event 0 = 1 ∧ Unseen (fixedOnly true) m := by
  have halong : Runs.Along (step (fixedOnly true))
      (fun m a => a.meets (sparesFilters (fixedOnly true)) m)
      (boot (fixedOnly true) 1 (fun _ => emptyRecord) .zero) keepCycle := by
    decide +kernel
  exact ⟨_, rfl, rfl, run_unseen (fun _ => rfl) (fun h => absurd h Bool.false_ne_true) halong rfl⟩

/-- `mcyclecfg` is zero once `cycle` has been given back, and `pmu_hart_init()` does not write
    it where there is no `mcountinhibit`. -/
theorem reset_clears_minh :
    (∃ m ∈ Runs.run (step (fixedOnly true))
        (boot (fixedOnly true) 1 (fun _ => emptyRecord) .zero)
        [.call (.counterStop 0 1 1) noMem],
      (m.hw.select 0).getLsbD 62 = false) ∧
    ((boot (fixedOnly false) 1 (fun _ => emptyRecord) .zero).hw.select 0).getLsbD 62 = false := by
  decide +kernel

end RiscvMonitor.Pmu
