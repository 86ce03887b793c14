import RiscvMonitor.ContextSwitch

/-!
# What a step does to the contexts

A step of the hart leaves it in its domain or takes it to another one.  In the first
case the contexts of the other domains get an IPI kept, or are gone; in the second the
domain that the hart was in is saved, and `context_switch()` makes the other one run.
-/

namespace RiscvMonitor.HartState

open Function (update_of_ne update_self)
open Masks
open Lifecycle (CtxState)

variable {x : Xlen} {cfg : Config x} {m m' m₀ : Machine x}

/-! ### Pieces -/

@[simp]
theorem setCtx_ctx_self (m : Machine x) (d : Nat) (c : Ctx x) : (m.setCtx d c).ctx d = c :=
  update_self ..

theorem setCtx_ctx_of_ne (m : Machine x) {d e : Nat} (c : Ctx x) (hne : e ≠ d) :
    (m.setCtx d c).ctx e = m.ctx e := update_of_ne hne ..

structure SameServices (m m' : Machine x) (d : Nat) : Prop where
  pmu : m'.pmu d = m.pmu d
  dbtr : m'.dbtr d = m.dbtr d
  fwft : m'.fwft d = m.fwft d

theorem setServices_elsewhere (m : Machine x) {d : Nat} (hne : d ≠ m.domain) (pmu : Pmu.Hart x)
    (dbtr : Dbtr.Hart x) (fwft : Fwft.Hart x) : SameServices m (m.setServices pmu dbtr fwft) d :=
  ⟨update_of_ne hne .., update_of_ne hne .., update_of_ne hne ..⟩

def FieldsOnly (cfg : Config x) (m : Machine x) (d : Nat) : Prop :=
  cfg.fwft.menvcfg = true → clear (m.fwft d).envcfg Fwft.featureFields = 0#64

theorem FieldsOnly.of_eq {d : Nat} (hfields : FieldsOnly cfg m d) (heq : m'.fwft d = m.fwft d) :
    FieldsOnly cfg m' d := by
  intro hon
  rw [heq]
  exact hfields hon

/-! ### Out of a domain -/

structure Out (cfg : Config x) (m m₀ : Machine x) : Prop where
  regs : m₀.hart.regs = m.hart.regs
  mstatus : unitsOn cfg m₀.hart.mstatus = unitsOn cfg m.hart.mstatus
  csr : m₀.hart.csr = m.hart.csr
  vec : m₀.hart.vec = m.hart.vec
  menvcfg : m₀.hart.menvcfg = m.hart.menvcfg
  medeleg : m₀.hart.medeleg = m.hart.medeleg
  services : ∀ d, d ≠ m.domain → SameServices m m₀ d
  /-- Of the other contexts a new caller at most. -/
  ctx : ∀ d, d ≠ m.domain → ∃ caller, m₀.ctx d = { m.ctx d with caller := caller }
  fields : FieldsOnly cfg m₀ m.domain

theorem unitsOn_unitsOn (cfg : Config x) (mstatus : Word x) :
    unitsOn cfg (unitsOn cfg mstatus) = unitsOn cfg mstatus := by
  apply BitVec.eq_of_getLsbD_eq
  intro i _
  simp only [unitsOn, getLsbD_setIf]
  generalize mstatus.getLsbD i = a
  generalize (cfg.fpu && (mstatusFs : Word x).getLsbD i) = b
  generalize ((cfg.vector == .switched || cfg.vector == .cleared) &&
    (mstatusVs : Word x).getLsbD i) = c
  cases a <;> cases b <;> cases c <;> rfl

theorem servicesSwitchOut_fields (cfg : Config x) (m : Machine x) :
    FieldsOnly cfg (servicesSwitchOut cfg m) m.domain := by
  intro hon
  have hrecord : (servicesSwitchOut cfg m).fwft m.domain = (Fwft.switchOut cfg.fwft m.fwftHart).f :=
    update_self ..
  rw [hrecord]
  simp only [Fwft.switchOut, hon, if_true]
  apply BitVec.eq_of_getLsbD_eq
  intro i _
  simp [Bool.and_assoc]

theorem servicesSwitchOut_out (cfg : Config x) (m : Machine x) :
    Out cfg m (servicesSwitchOut cfg m) where
  regs := rfl
  mstatus := rfl
  csr := rfl
  vec := rfl
  menvcfg := rfl
  medeleg := rfl
  services _ hne := setServices_elsewhere m hne ..
  ctx d _ := ⟨(m.ctx d).caller, rfl⟩
  fields := servicesSwitchOut_fields cfg m

theorem contextSave_ctx_of_ne {d : Nat} (hne : d ≠ m.domain) :
    (contextSave cfg m).ctx d = m.ctx d := setCtx_ctx_of_ne m _ hne

theorem contextPark_out (cfg : Config x) (m : Machine x) (state : CtxState) (quiet : Bool) :
    Out cfg m (contextPark cfg m state quiet) where
  regs := rfl
  mstatus := unitsOn_unitsOn cfg m.hart.mstatus
  csr := rfl
  vec := rfl
  menvcfg := rfl
  medeleg := rfl
  services _ hne :=
    ⟨update_of_ne hne .., update_of_ne hne .., update_of_ne hne ..⟩
  ctx d hne := by
    refine ⟨(m.ctx d).caller, ?_⟩
    unfold contextPark
    rw [setCtx_ctx_of_ne _ _ hne, contextSave_ctx_of_ne hne]
  fields := servicesSwitchOut_fields cfg { m with hart := _ }

theorem Out.setCaller (hout : Out cfg m m₀) (d : Nat) (caller : Option Nat) :
    Out cfg m (m₀.setCtx d { m₀.ctx d with caller := caller }) where
  regs := hout.regs
  mstatus := hout.mstatus
  csr := hout.csr
  vec := hout.vec
  menvcfg := hout.menvcfg
  medeleg := hout.medeleg
  services e hne := by
    have hsame := hout.services e hne
    exact ⟨hsame.pmu, hsame.dbtr, hsame.fwft⟩
  ctx e hne := by
    obtain ⟨caller', hctx⟩ := hout.ctx e hne
    by_cases hed : e = d
    · subst hed
      exact ⟨caller, by rw [setCtx_ctx_self, hctx]⟩
    · exact ⟨caller', by rw [setCtx_ctx_of_ne _ _ hed, hctx]⟩
  fields := hout.fields

theorem Out.of_setCtx {d : Nat} {c : Ctx x} (hout : Out cfg (m.setCtx d c) m₀)
    (hc : d ≠ m.domain → ∃ caller, c = { m.ctx d with caller := caller }) : Out cfg m m₀ where
  regs := hout.regs
  mstatus := hout.mstatus
  csr := hout.csr
  vec := hout.vec
  menvcfg := hout.menvcfg
  medeleg := hout.medeleg
  services e hne := by
    have hsame := hout.services e hne
    exact ⟨hsame.pmu, hsame.dbtr, hsame.fwft⟩
  ctx e hne := by
    obtain ⟨caller, hctx⟩ := hout.ctx e hne
    by_cases hed : e = d
    · subst hed
      obtain ⟨caller', rfl⟩ := hc hne
      exact ⟨caller, by rw [hctx, setCtx_ctx_self]⟩
    · exact ⟨caller, by rw [hctx, setCtx_ctx_of_ne _ _ hed]⟩
  fields := hout.fields

/-! ### Into a domain -/

theorem contextRestore_elsewhere (cfg : Config x) (m : Machine x) {d e : Nat} (hne : e ≠ d)
    (fresh : Bool) :
    (contextRestore cfg m d fresh).ctx e = m.ctx e ∧
      SameServices m (contextRestore cfg m d fresh) e :=
  ⟨setCtx_ctx_of_ne m _ hne, update_of_ne hne .., update_of_ne hne ..,
    update_of_ne hne ..⟩

theorem contextRestore_ctx (m : Machine x) (d : Nat) (fresh : Bool) :
    (contextRestore cfg m d fresh).ctx d = { m.ctx d with ipi := false, state := .running } :=
  setCtx_ctx_self ..

theorem contextRestore_allowed {d : Nat} {fresh : Bool} (hallowed : cfg.allowed m.hart)
    (hfields : fresh = false → FieldsOnly cfg m d) :
    cfg.allowed (contextRestore cfg m d fresh).hart := by
  set b : Fwft.Hart x := ⟨m.fwft d, m.hart.menvcfg, m.hart.medeleg⟩ with hb
  have hmenvcfg : (contextRestore cfg m d fresh).hart.menvcfg =
      (Fwft.switchIn cfg.fwft fresh b).menvcfg := rfl
  have hmedeleg : (contextRestore cfg m d fresh).hart.medeleg =
      (Fwft.switchIn cfg.fwft fresh b).medeleg := rfl
  unfold Config.allowed
  constructor
  · intro hfeature
    have hon : cfg.fwft.menvcfg = true := cfg.sameMenvcfg.trans hfeature
    have henvcfg : clear (if fresh then 0 else b.f.envcfg) Fwft.featureFields = 0#64 := by
      cases fresh with
      | true => exact BitVec.zero_and
      | false => exact hfields rfl hon
    -- the fields that are not features stay what they were
    have hrest : clear (clear b.menvcfg Fwft.featureFields ||| if fresh then 0 else b.f.envcfg)
        Fwft.featureFields = clear cfg.envcfg Fwft.featureFields := by
      rw [clear_or_of_subset henvcfg, hallowed.1 hfeature]
    have hold : clear b.menvcfg Fwft.featureFields = clear cfg.envcfg Fwft.featureFields := by
      rw [hallowed.1 hfeature, cfg.noFeatures]
    have hlegal := cfg.fwft.apart _ _ _ cfg.envcfg hold hrest
    rw [cfg.envcfgTaken] at hlegal
    rw [hmenvcfg, Fwft.switchIn_menvcfg hon]
    exact hlegal.trans cfg.noFeatures
  · rw [hmedeleg, Fwft.switchIn_medeleg, ← hallowed.2]
    split
    · exact clear_or_of_subset (clear_self _)
    · exact clear_clear_of_subset (clear_self _)

theorem contextFresh_ctx_of_ne {d e : Nat} (hne : e ≠ d) :
    (contextFresh cfg m d).ctx e = m.ctx e := setCtx_ctx_of_ne m _ hne

section Switch

variable (cfg) (m) (d : Nat) (error value : Word x) (answer : Option (Word x × Word x))

theorem contextSwitch_cases :
    ∃ m₁ fresh regs stopped,
      (m₁ : Machine x).hart = m.hart ∧ m₁.pmu = m.pmu ∧ m₁.dbtr = m.dbtr ∧ m₁.fwft = m.fwft ∧
      (∀ e, e ≠ d → m₁.ctx e = m.ctx e) ∧
      contextSwitch cfg m d error value answer =
        { contextRestore cfg m₁ d fresh with
          hart := { (contextRestore cfg m₁ d fresh).hart with regs := regs }
          stopped := stopped } := by
  unfold contextSwitch
  split
  · dsimp only
    split
    · exact ⟨contextFresh cfg m d, true, _, _, rfl, rfl, rfl, rfl,
        fun _ hne => contextFresh_ctx_of_ne hne, rfl⟩
    · exact ⟨contextFresh cfg m d, true, _, _, rfl, rfl, rfl, rfl,
        fun _ hne => contextFresh_ctx_of_ne hne, rfl⟩
  · exact ⟨m.setCtx d _, false, _, _, rfl, rfl, rfl, rfl,
      fun _ hne => setCtx_ctx_of_ne m _ hne, rfl⟩

theorem contextSwitch_domain : (contextSwitch cfg m d error value answer).domain = d := by
  obtain ⟨m₁, fresh, regs, stopped, -, -, -, -, -, heq⟩ :=
    contextSwitch_cases cfg m d error value answer
  rw [heq]
  rfl

theorem contextSwitch_ctx : ((contextSwitch cfg m d error value answer).ctx d).ipi = false ∧
    ((contextSwitch cfg m d error value answer).ctx d).state = .running := by
  obtain ⟨m₁, fresh, regs, stopped, -, -, -, -, -, heq⟩ :=
    contextSwitch_cases cfg m d error value answer
  rw [heq]
  dsimp only
  rw [contextRestore_ctx]
  exact ⟨rfl, rfl⟩

variable {d}

theorem contextSwitch_elsewhere {e : Nat} (hne : e ≠ d) :
    (contextSwitch cfg m d error value answer).ctx e = m.ctx e ∧
      SameServices m (contextSwitch cfg m d error value answer) e := by
  obtain ⟨m₁, fresh, regs, stopped, -, hpmu, hdbtr, hfwft, hctx, heq⟩ :=
    contextSwitch_cases cfg m d error value answer
  obtain ⟨hrestored, hsame⟩ := contextRestore_elsewhere cfg m₁ hne fresh
  rw [heq]
  exact ⟨hrestored.trans (hctx e hne), hsame.pmu.trans (congrFun hpmu e),
    hsame.dbtr.trans (congrFun hdbtr e), hsame.fwft.trans (congrFun hfwft e)⟩

variable {cfg m}

theorem contextSwitch_allowed (hallowed : cfg.allowed m.hart) (hfields : FieldsOnly cfg m d) :
    cfg.allowed (contextSwitch cfg m d error value answer).hart := by
  obtain ⟨m₁, fresh, regs, stopped, hhart, -, -, hfwft, -, heq⟩ :=
    contextSwitch_cases cfg m d error value answer
  rw [heq]
  have hin : cfg.allowed m₁.hart := by
    rw [hhart]
    exact hallowed
  have hrestored : cfg.allowed (contextRestore cfg m₁ d fresh).hart :=
    contextRestore_allowed hin fun _ => hfields.of_eq (congrFun hfwft d)
  exact hrestored

end Switch

/-! ### One step -/

def Act.keptFor (d : Nat) : Act x → Bool
  | .kept e => decide (e = d)
  | _ => false

structure Stays (cfg : Config x) (m : Machine x) (a : Act x) (m' : Machine x) : Prop where
  domain : m'.domain = m.domain
  services : ∀ d, d ≠ m.domain → SameServices m m' d
  ctx : ∀ d, d ≠ m.domain →
    m'.ctx d = { m.ctx d with ipi := (m.ctx d).ipi || a.keptFor d } ∨ (m'.ctx d).state = .none
  ipi : (m'.ctx m.domain).ipi = (m.ctx m.domain).ipi
  allowed : cfg.allowed m.hart → cfg.allowed m'.hart

def Goes (cfg : Config x) (m : Machine x) (a : Act x) (m' : Machine x) : Prop :=
  ∃ m₀ d error value answer stopped, Out cfg m m₀ ∧ (∀ e, a.keptFor e = false) ∧
    m' = { contextSwitch cfg m₀ d error value answer with stopped := stopped }

theorem Stays.of_ctx {a : Act x} (hdomain : m'.domain = m.domain)
    (hservices : ∀ d, d ≠ m.domain → SameServices m m' d)
    (hctx : ∀ d, d ≠ m.domain → m'.ctx d = m.ctx d) (hkept : ∀ d, a.keptFor d = false)
    (hipi : (m'.ctx m.domain).ipi = (m.ctx m.domain).ipi)
    (hallowed : cfg.allowed m.hart → cfg.allowed m'.hart) : Stays cfg m a m' where
  domain := hdomain
  services := hservices
  ctx d hne := by
    rw [hctx d hne, hkept d, Bool.or_false]
    exact .inl rfl
  ipi := hipi
  allowed := hallowed

theorem hartStart_allowed (m : Machine x) (entry arg : Word x) (mode : BitVec 2) :
    cfg.allowed (hartStart cfg m entry arg mode).hart := by
  have hmenvcfg : cfg.features.menvcfg = true →
      (hartStart cfg m entry arg mode).hart.menvcfg = cfg.envcfg := by
    intro hon
    unfold hartStart hartEnterSmode hartRuntimeInit
    dsimp only
    cases cfg.features.smstateen <;> simp [Hart.write, Machine.setServices, Machine.fwftHart, hon,
      Machine.setCtx]
  have hmedeleg : (hartStart cfg m entry arg mode).hart.medeleg = cfg.deleg := by
    unfold hartStart hartEnterSmode hartRuntimeInit
    dsimp only
    cases cfg.features.smstateen <;> simp [Hart.write, Machine.setServices, Machine.fwftHart,
      Machine.setCtx]
  constructor
  · intro hon
    rw [hmenvcfg hon]
    exact cfg.noFeatures
  · rw [hmedeleg]
    exact cfg.noMisaligned

theorem hartStart_stays (m : Machine x) (entry arg : Word x) (mode : BitVec 2) :
    Stays cfg m (.starts entry arg mode) (hartStart cfg m entry arg mode) := by
  refine .of_ctx rfl ?_ ?_ (fun _ => rfl) ?_ fun _ => hartStart_allowed m entry arg mode
  · intro d hne
    exact ⟨update_of_ne hne .., update_of_ne hne .., update_of_ne hne ..⟩
  · intro d hne
    exact setCtx_ctx_of_ne (hartRuntimeInit cfg m) _ hne
  · have hown := setCtx_ctx_self (hartRuntimeInit cfg m) m.domain
      { m.ctx m.domain with state := .running }
    exact (congrArg Ctx.ipi hown).trans rfl

theorem step_cases {a : Act x} (hstep : step cfg m a = some m') :
    Stays cfg m a m' ∨ Goes cfg m a m' := by
  unfold step at hstep
  split at hstep
  all_goals repeat' first | cases hstep | split at hstep
  · next hok =>
    refine .inl (.of_ctx rfl ?_ (fun _ _ => rfl) (fun _ => rfl) rfl fun _ => hok.2)
    intro d hne
    exact ⟨update_of_ne hne .., update_of_ne hne .., update_of_ne hne ..⟩
  · next d hok =>
    refine .inl ⟨rfl, fun _ _ => ⟨rfl, rfl, rfl⟩, ?_, ?_, id⟩
    · intro e _
      left
      by_cases hed : e = d
      · subst hed
        simp [Act.keptFor]
      · rw [setCtx_ctx_of_ne _ _ hed]
        simp [Act.keptFor, Ne.symm hed]
    · rw [setCtx_ctx_of_ne _ _ hok.1.symm]
  · next target arg quiet _ =>
    exact .inr ⟨_, target, 0, arg, none, _,
      (contextPark_out cfg m .calling quiet).setCaller target (some m.domain), fun _ => rfl, rfl⟩
  · next value quiet _ answer _ d _ _ =>
    refine .inr ⟨_, d, 0, value, answer, _, ?_, fun _ => rfl, rfl⟩
    have hpark := contextPark_out cfg
    split
    · exact (hpark (m.setCtx m.domain _) .idle quiet).of_setCtx fun hne => absurd rfl hne
    · -- the one that is booted has no caller
      apply Out.of_setCtx (d := d) (c := { m.ctx d with caller := none })
      · exact (hpark (Machine.setCtx (m.setCtx d _) m.domain _) .idle quiet).of_setCtx
          fun hne => absurd rfl hne
      · exact fun _ => ⟨none, rfl⟩
  · exact .inl (.of_ctx rfl (fun _ _ => ⟨rfl, rfl, rfl⟩) (fun _ _ => rfl) (fun _ => rfl) rfl id)
  · exact .inl (hartStart_stays m _ _ _)
  · refine .inl ⟨rfl, fun _ _ => ⟨rfl, rfl, rfl⟩, ?_, ?_, id⟩
    · intro e _
      dsimp only
      split
      · exact .inr rfl
      · left
        simp [Act.keptFor]
    · dsimp only
      split <;> rfl
  · exact .inl (.of_ctx rfl (fun _ _ => ⟨rfl, rfl, rfl⟩) (fun _ _ => rfl) (fun _ => rfl) rfl id)
  · next d _ =>
    refine .inl ⟨rfl, fun _ _ => ⟨rfl, rfl, rfl⟩, ?_, ?_, id⟩
    · intro e _
      by_cases hed : e = d
      · subst hed
        exact .inr (congrArg Ctx.state (setCtx_ctx_self ..))
      · left
        rw [setCtx_ctx_of_ne _ _ hed]
        simp [Act.keptFor]
    · by_cases hown : m.domain = d
      · rw [hown, setCtx_ctx_self]
      · rw [setCtx_ctx_of_ne _ _ hown]
  · refine .inl (.of_ctx rfl (fun _ _ => ⟨rfl, rfl, rfl⟩) ?_ (fun _ => rfl) ?_ id)
    · intro d hne
      exact setCtx_ctx_of_ne _ _ hne
    · dsimp only
      rw [setCtx_ctx_self]
  · next answer _ d _ =>
    refine .inr ⟨_, d, -1, 0, answer, _, ?_, fun _ => rfl, rfl⟩
    exact (servicesSwitchOut_out cfg (m.setCtx m.domain _)).of_setCtx fun hne => absurd rfl hne

/-! ### What holds on every hart -/

structure Sound (cfg : Config x) (m : Machine x) : Prop where
  allowed : cfg.allowed m.hart
  fields : ∀ d, d ≠ m.domain → FieldsOnly cfg m d
  ipi : (m.ctx m.domain).ipi = false

theorem step_sound {a : Act x} (hsound : Sound cfg m) (hstep : step cfg m a = some m') :
    Sound cfg m' := by
  rcases step_cases hstep with hstays | ⟨m₀, d, error, value, answer, stopped, hout, -, rfl⟩
  · refine ⟨hstays.allowed hsound.allowed, ?_, ?_⟩
    · intro d hne
      rw [hstays.domain] at hne
      exact (hsound.fields d hne).of_eq (hstays.services d hne).fwft
    · rw [hstays.domain, hstays.ipi]
      exact hsound.ipi
  · have hfields : ∀ e, FieldsOnly cfg m₀ e := by
      intro e
      by_cases hown : e = m.domain
      · rw [hown]
        exact hout.fields
      · exact (hsound.fields e hown).of_eq (hout.services e hown).fwft
    have hallowed : cfg.allowed m₀.hart := by
      unfold Config.allowed
      rw [hout.menvcfg, hout.medeleg]
      exact hsound.allowed
    have hdomain := contextSwitch_domain cfg m₀ d error value answer
    refine ⟨contextSwitch_allowed error value answer hallowed (hfields d), ?_, ?_⟩
    · intro e hne
      dsimp only at hne
      rw [hdomain] at hne
      exact (hfields e).of_eq (contextSwitch_elsewhere cfg m₀ error value answer hne).2.fwft
    · dsimp only
      rw [hdomain]
      exact (contextSwitch_ctx cfg m₀ d error value answer).1

theorem run_sound {acts : List (Act x)} (hsound : Sound cfg m) (hrun : run cfg m acts = some m') :
    Sound cfg m' :=
  (Runs.along_true (step cfg) m acts).invariant (fun _ _ _ hs _ hstep => step_sound hs hstep)
    hsound hrun

end RiscvMonitor.HartState
