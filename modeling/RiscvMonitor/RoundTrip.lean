import RiscvMonitor.RegisterTrip
import RiscvMonitor.ServiceTrip
import RiscvMonitor.SwitchSteps

/-!
# A domain is entered, and returns

Whatever ran on the hart in between, what the caller of `domain_enter()` is given back
comes from its record; the registers are written while the features are still those of
the other domain, and that is all that can be lost.
-/

namespace RiscvMonitor.HartState

open Lifecycle (CtxState)

variable {x : Xlen} {cfg : Config x}

/-! ### The caller -/

structure Caller (cfg : Config x) where
  machine : Machine x
  sound : Sound cfg machine
  fwft : Fwft.Held cfg.fwft machine.fwftHart
  vec : cfg.vsetvl machine.hart.vec.vl machine.hart.vec.vtype =
    (machine.hart.vec.vl, machine.hart.vec.vtype)
  pmu : Pmu.Held cfg.pmu machine.hart.pmu
  trigger : ∀ i < (machine.dbtr machine.domain).count,
    (machine.dbtr machine.domain).mapped i = true →
    Dbtr.Retaken cfg.dbtr.hw (machine.dbtr machine.domain).hasTdata3 i (machine.hart.trigger i)

/-- What the domain of `m` finds in `m₃` is what it had, and an IPI that was kept. -/
structure Found (cfg : Config x) (m m₃ : Machine x) (kept : Bool) : Prop where
  gpr : ∀ r, r ≠ 10 → r ≠ 11 → m₃.hart.regs.gpr r = m.hart.regs.gpr r
  mstatus : m₃.hart.regs.mstatus = m.hart.regs.mstatus
  mepc : m₃.hart.regs.mepc = m.hart.regs.mepc
  csr : ∀ c, c.listed = true → m₃.hart.read cfg c = m.hart.read cfg c
  timer : cfg.hasTimer = true → m₃.hart.timer = m.hart.timer
  fp : cfg.fpu = true → m₃.hart.fp = m.hart.fp
  vec : cfg.vector ≠ .none → m₃.hart.vec = m.hart.vec
  shmem : m₃.hart.shmem = m.hart.shmem
  counters : Pmu.seen cfg.pmu m₃.hart.pmu = Pmu.seen cfg.pmu m.hart.pmu
  /-- The firmware counters, and which counter counts what. -/
  pmu : { m₃.pmu m.domain with hw := (m.pmu m.domain).hw } = m.pmu m.domain
  trigger : ∀ i < (m.dbtr m.domain).count, (m.dbtr m.domain).mapped i = true →
    Dbtr.SameRegs (m.dbtr m.domain).hasTdata3 (m.hart.trigger i) (m₃.hart.trigger i)
  dbtr : { m₃.dbtr m.domain with saved := (m.dbtr m.domain).saved } = m.dbtr m.domain
  menvcfg : cfg.features.menvcfg = true → m₃.hart.menvcfg = m.hart.menvcfg
  medeleg : m₃.hart.medeleg = m.hart.medeleg
  locked : (m₃.fwft m.domain).locked = (m.fwft m.domain).locked
  ssip : m₃.hart.ssip = (m.hart.ssip || kept)

/-! ### While it waits -/

/-- Domain `d` is parked as in `p`, and an IPI may have been kept for it. -/
structure Waits (p : Machine x) (d : Nat) (m : Machine x) (kept : Bool) : Prop where
  away : m.domain ≠ d
  ctx : ∃ caller, m.ctx d = { p.ctx d with ipi := kept, caller := caller }
  services : SameServices p m d

theorem enter_waits {m m₁ : Machine x} {target : Nat} {arg : Word x} {quiet : Bool}
    (hsound : Sound cfg m) (henter : step cfg m (.enter target arg quiet) = some m₁) :
    Waits (contextPark cfg m .calling quiet) m.domain m₁ false := by
  simp only [step] at henter
  split at henter
  · next hok =>
    cases henter
    have hne : target ≠ m.domain := by
      have hchecks := hok.2
      simp only [enterOk, Bool.and_eq_true, bne_iff_ne] at hchecks
      exact hchecks.1.1.1.1.1
    set p := contextPark cfg m .calling quiet with hp
    obtain ⟨hctx, hsame⟩ := contextSwitch_elsewhere cfg
      (p.setCtx target { p.ctx target with caller := some m.domain }) 0 arg none hne.symm
    have hipi : (p.ctx m.domain).ipi = false := by
      rw [hp, contextPark, setCtx_ctx_self]
      dsimp only
      rw [contextSave]
      exact (congrArg Ctx.ipi (setCtx_ctx_self m m.domain _)).trans hsound.ipi
    refine ⟨?_, ⟨(p.ctx m.domain).caller, ?_⟩, ?_⟩
    · rw [contextSwitch_domain]
      exact hne
    · rw [hctx, setCtx_ctx_of_ne _ _ hne.symm, ← hipi]
    · exact ⟨hsame.pmu, hsame.dbtr, hsame.fwft⟩
  · cases henter

section Waits

variable {p m m' : Machine x} {d : Nat} {kept : Bool}

theorem step_waits {a : Act x} (hwaits : Waits p d m kept) (hstep : step cfg m a = some m')
    (hcalling : (m'.ctx d).state = .calling) : Waits p d m' (kept || a.keptFor d) := by
  obtain ⟨caller, hctx⟩ := hwaits.ctx
  have haway := hwaits.away.symm
  rcases step_cases hstep with hstays | ⟨m₀, e, error, value, answer, stopped, hout, hkept, rfl⟩
  · have hsame := hstays.services d haway
    refine ⟨?_, ?_, ?_⟩
    · rw [hstays.domain]
      exact hwaits.away
    · rcases hstays.ctx d haway with hnext | hnone
      · exact ⟨caller, by rw [hnext, hctx]⟩
      · rw [hnone] at hcalling
        cases hcalling
    · exact ⟨hsame.pmu.trans hwaits.services.pmu, hsame.dbtr.trans hwaits.services.dbtr,
        hsame.fwft.trans hwaits.services.fwft⟩
  · -- a switch to `d` would have made it run
    have hne : d ≠ e := by
      rintro rfl
      dsimp only at hcalling
      rw [(contextSwitch_ctx cfg m₀ d error value answer).2] at hcalling
      cases hcalling
    obtain ⟨hkeeps, hsame⟩ := contextSwitch_elsewhere cfg m₀ error value answer hne
    have hgone := hout.services d haway
    refine ⟨?_, ?_, ?_⟩
    · dsimp only
      rw [contextSwitch_domain]
      exact hne.symm
    · obtain ⟨caller', hparked⟩ := hout.ctx d haway
      exact ⟨caller', by rw [hkeeps, hparked, hctx, hkept d, Bool.or_false]⟩
    · exact ⟨(hsame.pmu.trans hgone.pmu).trans hwaits.services.pmu,
        (hsame.dbtr.trans hgone.dbtr).trans hwaits.services.dbtr,
        (hsame.fwft.trans hgone.fwft).trans hwaits.services.fwft⟩

/-- The domain has not been called back by the time of any of the steps. -/
abbrev CallingAlong (cfg : Config x) (d : Nat) : Machine x → List (Act x) → Prop :=
  Runs.Along (step cfg) fun m _ => (m.ctx d).state = .calling

theorem run_waits {acts : List (Act x)} {back : Act x} (hwaits : Waits p d m kept)
    (hcalling : CallingAlong cfg d m (acts ++ [back])) (hrun : run cfg m acts = some m') :
    Waits p d m' (kept || acts.any (Act.keptFor d)) := by
  induction acts generalizing m kept with
  | nil =>
    cases hrun
    rwa [List.any_nil, Bool.or_false]
  | cons a acts ih =>
    obtain ⟨u, hu, hrun⟩ := Runs.run_cons.mp hrun
    have hrest : CallingAlong cfg d u (acts ++ [back]) := hcalling.2 u hu
    have hstate : (u.ctx d).state = .calling := by
      cases acts with
      | nil => exact hrest.1
      | cons b acts => exact hrest.1
    rw [List.any_cons, ← Bool.or_assoc]
    exact ih (step_waits hwaits hu hstate) hrest hrun

end Waits

/-! ### Back -/

theorem Regs.set_gpr (regs : Regs x) (a0 a1 : Word x) {r : Fin 32} (h10 : r ≠ 10) (h11 : r ≠ 11) :
    (regs.set a0 a1).gpr r = regs.gpr r := by
  rw [Regs.set]
  dsimp only
  rw [Function.update_of_ne h11, Function.update_of_ne h10]

/-- The registers are the same, but for those of the answer. -/
structure SameFrame (regs regs' : Regs x) : Prop where
  gpr : ∀ r, r ≠ 10 → r ≠ 11 → regs'.gpr r = regs.gpr r
  mstatus : regs'.mstatus = regs.mstatus
  mepc : regs'.mepc = regs.mepc

theorem SameFrame.set {regs regs' : Regs x} (hsame : SameFrame regs regs') (a0 a1 : Word x) :
    SameFrame regs (regs'.set a0 a1) where
  gpr r h10 h11 := (Regs.set_gpr regs' a0 a1 h10 h11).trans (hsame.gpr r h10 h11)
  mstatus := hsame.mstatus
  mepc := hsame.mepc

structure Back (cfg : Config x) (m₀ : Machine x) (d : Nat) (m₃ : Machine x) : Prop where
  regs : SameFrame (m₀.ctx d).saved.regs m₃.hart.regs
  csr : m₃.hart.csr = csrsRestore cfg (m₀.ctx d).saved.csr m₀.hart.menvcfg m₀.hart.csr
  timer : cfg.hasTimer = true → m₃.hart.timer = (m₀.ctx d).saved.timer
  fp : cfg.fpu = true → m₃.hart.fp = (m₀.ctx d).saved.fp
  vec : m₃.hart.vec = vecRestore cfg (m₀.ctx d).saved.vec m₀.hart.vec
  shmem : m₃.hart.shmem = (m₀.ctx d).saved.shmem
  ssip : m₃.hart.ssip = ((m₀.ctx d).saved.ssip || (m₀.ctx d).ipi)
  pmu : ∃ hw, (⟨m₃.pmu d, m₃.hart.pmu⟩ : Pmu.Hart x) = Pmu.switchIn cfg.pmu false ⟨m₀.pmu d, hw⟩
  dbtr : (⟨m₃.dbtr d, m₃.hart.trigger⟩ : Dbtr.Hart x) =
    Dbtr.switchIn cfg.dbtr false ⟨m₀.dbtr d, m₀.hart.trigger⟩
  fwft : (⟨m₃.fwft d, m₃.hart.menvcfg, m₃.hart.medeleg⟩ : Fwft.Hart x) =
    Fwft.switchIn cfg.fwft false ⟨m₀.fwft d, m₀.hart.menvcfg, m₀.hart.medeleg⟩

theorem contextSwitch_back {m₀ : Machine x} {d : Nat} (hstate : (m₀.ctx d).state ≠ .none)
    (error value : Word x) (answer : Option (Word x × Word x)) (stopped : Bool) :
    Back cfg m₀ d { contextSwitch cfg m₀ d error value answer with stopped := stopped } := by
  have hregs : ∀ (quiet : Bool) (regs : Regs x), SameFrame regs
      (answer.elim (if quiet then regs else regs.set error value) fun a =>
        (if quiet then regs else regs.set error value).set a.1 a.2) := by
    intro quiet regs
    have hself : SameFrame regs regs := ⟨fun _ _ _ => rfl, rfl, rfl⟩
    have hfirst : SameFrame regs (if quiet then regs else regs.set error value) := by
      cases quiet with
      | true => exact hself
      | false => exact hself.set error value
    cases answer with
    | none => exact hfirst
    | some a => exact hfirst.set a.1 a.2
  unfold contextSwitch
  rw [if_neg hstate]
  constructor
  case regs => exact hregs _ _
  case timer => exact fun hon => by simp [contextRestore, servicesSwitchIn, Machine.setServices, hon]
  case fp => exact fun hon => by simp [contextRestore, servicesSwitchIn, Machine.setServices, hon]
  case pmu =>
    refine ⟨if m₀.hart.pmu.irqDelegated then
      { m₀.hart.pmu with irqEnabled := (m₀.ctx d).saved.lcofie } else m₀.hart.pmu, ?_⟩
    simp [contextRestore, servicesSwitchIn, Machine.setServices, Machine.pmuHart, Machine.setCtx]
  all_goals
    simp [contextRestore, servicesSwitchIn, Machine.setServices, Machine.dbtrHart,
      Machine.fwftHart, Machine.setCtx]

theorem contextPark_saved (cfg : Config x) (m : Machine x) (state : CtxState) (quiet : Bool) :
    ((contextPark cfg m state quiet).ctx m.domain).state = state ∧
      ((contextPark cfg m state quiet).ctx m.domain).saved =
        { regs := m.hart.regs
          csr := fun r => if cfg.switched r then m.hart.read cfg r else (m.ctx m.domain).saved.csr r
          lcofie := m.hart.pmu.irqEnabled && m.hart.pmu.irqDelegated
          ssip := m.hart.ssip
          timer := m.hart.timer
          shmem := m.hart.shmem
          fp := if cfg.fpu then m.hart.fp else (m.ctx m.domain).saved.fp
          vec := if cfg.vector = .switched then m.hart.vec else (m.ctx m.domain).saved.vec } := by
  unfold contextPark
  rw [setCtx_ctx_self]
  refine ⟨rfl, ?_⟩
  exact congrArg Ctx.saved (setCtx_ctx_self m m.domain _)

theorem contextPark_services (cfg : Config x) (m : Machine x) (state : CtxState) (quiet : Bool) :
    let p := contextPark cfg m state quiet
    p.pmu m.domain = (Pmu.switchOut cfg.pmu m.pmuHart).p ∧
      p.dbtr m.domain = (Dbtr.switchOut cfg.dbtr.hw m.dbtrHart).d ∧
      p.fwft m.domain = (Fwft.switchOut cfg.fwft m.fwftHart).f :=
  ⟨Function.update_self .., Function.update_self .., Function.update_self ..⟩

section Return

variable {m₀ m₂ m₃ : Machine x} {d : Nat} {kept : Bool}

theorem Waits.out {p : Machine x} (hwaits : Waits p d m₂ kept) (hout : Out cfg m₂ m₀) :
    (∃ caller, m₀.ctx d = { p.ctx d with ipi := kept, caller := caller }) ∧
      SameServices p m₀ d := by
  obtain ⟨caller, hctx⟩ := hwaits.ctx
  obtain ⟨caller', hgone⟩ := hout.ctx d hwaits.away.symm
  have hsame := hout.services d hwaits.away.symm
  refine ⟨⟨caller', by rw [hgone, hctx]⟩, ?_⟩
  exact ⟨hsame.pmu.trans hwaits.services.pmu, hsame.dbtr.trans hwaits.services.dbtr,
    hsame.fwft.trans hwaits.services.fwft⟩

variable {quiet : Bool} (b : Caller cfg)
  (hwaits : Waits (contextPark cfg b.machine .calling quiet) b.machine.domain m₂ kept)
  (hout : Out cfg m₂ m₀) (hback : Back cfg m₀ b.machine.domain m₃)

include hwaits hout hback

theorem Back.fwft_found (hsound : Sound cfg m₂) :
    (cfg.features.menvcfg = true → m₃.hart.menvcfg = b.machine.hart.menvcfg) ∧
      m₃.hart.medeleg = b.machine.hart.medeleg ∧
      (m₃.fwft b.machine.domain).locked = (b.machine.fwft b.machine.domain).locked := by
  have hsame := (hwaits.out hout).2.fwft
  rw [(contextPark_services cfg b.machine .calling quiet).2.2] at hsame
  have hfwft := hback.fwft
  rw [hsame] at hfwft
  have hfields : cfg.fwft.menvcfg = true → Masks.clear m₀.hart.menvcfg Fwft.featureFields =
      Masks.clear b.machine.hart.menvcfg Fwft.featureFields := by
    intro hon
    have hfeature := cfg.sameMenvcfg.symm.trans hon
    rw [hout.menvcfg, hsound.allowed.1 hfeature, b.sound.allowed.1 hfeature]
  have hdeleg : Masks.clear m₀.hart.medeleg Fwft.misalignedDeleg =
      Masks.clear b.machine.hart.medeleg Fwft.misalignedDeleg := by
    rw [hout.medeleg, hsound.allowed.2, b.sound.allowed.2]
  obtain ⟨hmenvcfg, hmedeleg, hlocked⟩ :=
    Fwft.switchIn_switchOut cfg.fwft b.machine.fwftHart b.fwft hfields hdeleg
  rw [← hfwft] at hmenvcfg hmedeleg hlocked
  exact ⟨fun hon => hmenvcfg (cfg.sameMenvcfg.trans hon), hmedeleg, hlocked⟩

theorem Back.pmu_found :
    Pmu.seen cfg.pmu m₃.hart.pmu = Pmu.seen cfg.pmu b.machine.hart.pmu ∧
      { m₃.pmu b.machine.domain with hw := (b.machine.pmu b.machine.domain).hw } =
        b.machine.pmu b.machine.domain := by
  have hsame := (hwaits.out hout).2.pmu
  rw [(contextPark_services cfg b.machine .calling quiet).1] at hsame
  obtain ⟨hw, hpmu⟩ := hback.pmu
  rw [hsame] at hpmu
  have hhw := congrArg Pmu.Hart.hw hpmu
  have hrecord := congrArg Pmu.Hart.p hpmu
  dsimp only at hhw hrecord
  constructor
  · rw [hhw]
    exact Pmu.seen_switchIn_switchOut cfg.pmu b.machine.pmuHart hw b.pmu
  · rw [hrecord, Pmu.switchIn_record, Pmu.switchOut_record]
    rfl

theorem Back.dbtr_found :
    (∀ i < (b.machine.dbtr b.machine.domain).count,
      (b.machine.dbtr b.machine.domain).mapped i = true →
      Dbtr.SameRegs (b.machine.dbtr b.machine.domain).hasTdata3 (b.machine.hart.trigger i)
        (m₃.hart.trigger i)) ∧
      { m₃.dbtr b.machine.domain with saved := (b.machine.dbtr b.machine.domain).saved } =
        b.machine.dbtr b.machine.domain := by
  have hsame := (hwaits.out hout).2.dbtr
  rw [(contextPark_services cfg b.machine .calling quiet).2.1] at hsame
  have hdbtr := hback.dbtr
  rw [hsame] at hdbtr
  have htrigger := congrArg Dbtr.Hart.trigger hdbtr
  have hrecord := congrArg Dbtr.Hart.d hdbtr
  dsimp only at htrigger hrecord
  constructor
  · intro i hi hmapped
    rw [htrigger]
    exact Dbtr.switchIn_switchOut cfg.dbtr b.machine.dbtrHart m₀.hart.trigger hi hmapped
      (b.trigger i hi hmapped)
  · rw [hrecord, Dbtr.switchIn_record, Dbtr.switchOut_record]
    rfl

theorem Back.read_eq (hsound : Sound cfg m₂) :
    ∃ saved : Csr → BitVec 64,
      (∀ c, cfg.switched c = true → saved c = b.machine.hart.read cfg c) ∧
      ∀ c, m₃.hart.read cfg c = readBack cfg saved b.machine.hart m₂.hart c := by
  obtain ⟨⟨caller, hctx⟩, -⟩ := hwaits.out hout
  have hsaved := (contextPark_saved cfg b.machine .calling quiet).2
  refine ⟨(m₀.ctx b.machine.domain).saved.csr, ?_, ?_⟩
  · intro c hon
    rw [hctx]
    dsimp only
    rw [hsaved]
    exact if_pos hon
  · intro c
    have hmenvcfg := (hback.fwft_found b hwaits hout hsound).1
    rw [Hart.read, hback.csr, gate_menvcfg cfg hmenvcfg, hout.csr, hout.menvcfg]
    rfl

theorem Back.found_iff (hvector : cfg.vector ≠ .cleared) (hsound : Sound cfg m₂) :
    Found cfg b.machine m₃ kept ↔
      Opens cfg b.machine.hart m₂.hart ∧
        (cfg.vector = .hidden → m₂.hart.vec = b.machine.hart.vec) := by
  obtain ⟨saved, hsaved, hread⟩ := hback.read_eq b hwaits hout hsound
  have hregisters : (∀ c, c.listed = true → readBack cfg saved b.machine.hart m₂.hart c =
      b.machine.hart.read cfg c) ↔ Opens cfg b.machine.hart m₂.hart := readBack_iff hsaved
  obtain ⟨⟨caller, hctx⟩, -⟩ := hwaits.out hout
  have hrecord := (contextPark_saved cfg b.machine .calling quiet).2
  have hctxSaved : (m₀.ctx b.machine.domain).saved =
      ((contextPark cfg b.machine .calling quiet).ctx b.machine.domain).saved := by rw [hctx]
  have hipi : (m₀.ctx b.machine.domain).ipi = kept := by rw [hctx]
  rw [hrecord] at hctxSaved
  constructor
  · intro hfound
    constructor
    · apply hregisters.mp
      intro c hlisted
      rw [← hread]
      exact hfound.csr c hlisted
    · intro hhidden
      have hvec := hback.vec
      rw [vecRestore, hhidden] at hvec
      rw [← hout.vec, ← hfound.vec (by rw [hhidden]; nofun)]
      exact hvec.symm
  · rintro ⟨hopens, hhidden⟩
    obtain ⟨hmenvcfg, hmedeleg, hlocked⟩ := hback.fwft_found b hwaits hout hsound
    obtain ⟨hcounters, hpmu⟩ := hback.pmu_found b hwaits hout
    obtain ⟨htrigger, hdbtr⟩ := hback.dbtr_found b hwaits hout
    have hregs := hback.regs
    rw [hctxSaved] at hregs
    exact
      { gpr := hregs.gpr
        mstatus := hregs.mstatus
        mepc := hregs.mepc
        csr := fun c hlisted => (hread c).trans (hregisters.mpr hopens c hlisted)
        timer := fun hon => by rw [hback.timer hon, hctxSaved]
        fp := fun hon => by rw [hback.fp hon, hctxSaved]; exact if_pos hon
        vec := by
          intro hunit
          rw [hback.vec, hctxSaved, hout.vec]
          unfold vecRestore
          cases hcase : cfg.vector with
          | none => exact absurd hcase hunit
          | switched =>
            have hvec := b.vec
            simp [hvec]
          | cleared => exact absurd hcase hvector
          | hidden => exact hhidden hcase
        shmem := by rw [hback.shmem, hctxSaved]
        counters := hcounters
        pmu := hpmu
        trigger := htrigger
        dbtr := hdbtr
        menvcfg := hmenvcfg
        medeleg := hmedeleg
        locked := hlocked
        ssip := by rw [hback.ssip, hctxSaved, hipi] }

end Return

/-- A domain that was entered returns, through whatever happened since: the caller finds all
    as it was if what it had is open in the state that it returns from. -/
theorem enter_returns_iff (hvector : cfg.vector ≠ .cleared) (b : Caller cfg) {target : Nat}
    {arg : Word x} {quiet : Bool} {acts : List (Act x)} {back : Act x} {m₁ m₂ m₃ : Machine x}
    (henter : step cfg b.machine (.enter target arg quiet) = some m₁)
    (hrun : run cfg m₁ acts = some m₂) (hback : step cfg m₂ back = some m₃)
    (hcalling : CallingAlong cfg b.machine.domain m₁ (acts ++ [back]))
    (hhome : m₃.domain = b.machine.domain) :
    Found cfg b.machine m₃ (acts.any (Act.keptFor b.machine.domain)) ↔
      Opens cfg b.machine.hart m₂.hart ∧
        (cfg.vector = .hidden → m₂.hart.vec = b.machine.hart.vec) := by
  have hwaits := run_waits (enter_waits b.sound henter) hcalling hrun
  rw [Bool.false_or] at hwaits
  have hsound : Sound cfg m₂ := run_sound (step_sound b.sound henter) hrun
  rcases step_cases hback with hstays | ⟨m₀, d, error, value, answer, stopped, hout, -, rfl⟩
  · exact absurd (hstays.domain.symm.trans hhome) hwaits.away
  · dsimp only at hhome
    rw [contextSwitch_domain] at hhome
    subst hhome
    have hstate : (m₀.ctx b.machine.domain).state ≠ .none := by
      obtain ⟨⟨caller, hctx⟩, -⟩ := hwaits.out hout
      rw [hctx]
      dsimp only
      rw [(contextPark_saved cfg b.machine .calling quiet).1]
      nofun
    exact (contextSwitch_back hstate error value answer stopped).found_iff b hwaits hout hvector
      hsound

/-! ### A shadow stack that is lost -/

/-- A hart with shadow stacks for user mode, and a table of jumps. -/
def shadowStacks : Config .rv64 where
  hartid := 0
  features := ⟨true, false, false, false, false⟩
  fpu := false
  vector := .none
  hasTimer := true
  base := fun c =>
    if Features.switched ⟨true, false, false, false, false⟩ .rv64 c || c == .jvt then -1 else 0
  absent := by
    intro c hc hoff
    have hjvt : c ≠ .jvt := by
      rintro rfl
      revert hc
      decide
    simp [hoff, hjvt]
  pmu := .bare
  dbtr :=
    { maxTriggers := 0
      maxTriggers_le := by decide
      hw :=
        { tselect := fun _ => false
          tinfo := fun _ => none
          hasTdata3 := false
          write1 := fun _ t _ => t
          write2 := fun _ t _ => t
          write3 := fun _ t _ => t
          noTdata3 := fun _ _ _ _ => ⟨rfl, rfl, rfl⟩ }
      smodeRangeOk := fun _ _ _ => true }
  fwft := .full true
  sameMenvcfg := rfl
  envcfg := 0
  envcfgTaken := fun _ => rfl
  noFeatures := rfl
  deleg := 0
  noMisaligned := rfl
  vsetvl := Prod.mk
  domains := 3
  domain := fun _ => ⟨0x80200000, 0, 1, true, true, true⟩
  mayEnter := fun _ _ => true

def quietHart : Machine .rv64 where
  hart :=
    { regs := ⟨fun _ => 0, 0, 0⟩
      mstatus := 0
      csr := fun _ => 0
      fp := fun _ => 0
      vec := vecZero .rv64
      timer := -1
      ssip := false
      shmem := shmemNone
      pmu := .zero
      trigger := fun _ => ⟨0, 0, 0⟩
      menvcfg := 0
      medeleg := 0 }
  domain := 1
  stopped := false
  ctx := fun d =>
    { state := if d = 1 then .running else .none
      caller := none
      ipi := false
      quiet := false
      saved := ⟨⟨fun _ => 0, 0, 0⟩, fun _ => 0, false, false, 0, 0, fun _ => 0, vecZero .rv64⟩ }
  stopping := fun _ => false
  pmu := fun _ =>
    ⟨Pmu.snapshotNone, false, false, fun _ => Pmu.eventNone, 0, fun _ => 0, .zero⟩
  dbtr := fun _ => ⟨Dbtr.shmemNone, 0, false, fun _ => 0, fun _ => 0, fun _ => ⟨0, 0, 0⟩⟩
  fwft := fun _ => ⟨0, 0, false⟩

/-- The domain has switched shadow stacks on, and given them to user mode. -/
def withShadowStack : Caller shadowStacks where
  machine :=
    { quietHart with
      hart :=
        { quietHart.hart with
          csr := Function.update (fun _ => 0) .senvcfg envcfgSse
          menvcfg := envcfgSse } }
  sound :=
    { allowed := by decide
      fields := fun _ _ _ => BitVec.zero_and
      ipi := rfl }
  fwft := ⟨fun _ _ => rfl, .inl (by decide)⟩
  vec := rfl
  pmu := by
    intro n _
    simp [Pmu.Config.selectLegal, shadowStacks, quietHart, Pmu.Hardware.zero, Pmu.Config.bare]
  trigger := by
    intro i hi
    exact absurd hi (Nat.not_lt_zero i)

theorem enter_returns_iff_shadowStacks :
    ∃ m₁ m₃, step shadowStacks withShadowStack.machine (.enter 2 0 false) = some m₁ ∧
      step shadowStacks m₁ (.leave 0 false none none) = some m₃ ∧
      (Found shadowStacks withShadowStack.machine m₃ false ↔
        Opens shadowStacks withShadowStack.machine.hart m₁.hart ∧
          (shadowStacks.vector = .hidden → m₁.hart.vec = withShadowStack.machine.hart.vec)) :=
  ⟨_, _, rfl, rfl,
    @enter_returns_iff _ _ (by decide) withShadowStack 2 0 false [] (.leave 0 false none none) _ _ _
      rfl rfl rfl ⟨rfl, fun _ _ => trivial⟩ rfl⟩

/-- `senvcfg` is written before `menvcfg` has the shadow stacks again. -/
theorem shadow_stack_lost_on_return :
    ∃ m₁ ∈ step shadowStacks withShadowStack.machine (.enter 2 0 false),
      ∃ m₃ ∈ step shadowStacks m₁ (.leave 0 false none none),
        m₃.domain = 1 ∧ m₃.hart.menvcfg = envcfgSse ∧
          withShadowStack.machine.hart.read shadowStacks .senvcfg = envcfgSse ∧
          m₃.hart.read shadowStacks .senvcfg = 0 := by
  decide +kernel

end RiscvMonitor.HartState
