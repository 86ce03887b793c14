import RiscvMonitor.RegisterTrip
import RiscvMonitor.RoundTrip

/-!
# What a new context shows of the others

A context that has never run gets its registers from `context_fresh()`; or the hart
only comes into the domain, stops, and is started with `hart_runtime_init()` and
`hart_enter_smode()`.  What S-mode sees when the context first runs is the same for
two histories of the hart but for what neither of the two ways touches.
-/

namespace RiscvMonitor.HartState

open Function (update update_eq_self update_of_ne update_self)
open Masks

variable {x : Xlen} {cfg : Config x}

/-! ### What S-mode sees -/

/-- `sstatus` in `mstatus`: `SIE`, `SPIE`, `UBE`, `SPP`, `VS`, `FS`, `XS`, `SUM`, `MXR`, `SPELP`,
    `SDT`, and on RV64 `UXL`.  `SD` is made up of others. -/
def sstatusMask : Word x :=
  bit 1 ||| bit 5 ||| bit 6 ||| bit 8 ||| mstatusVs ||| mstatusFs ||| 3#x.bits <<< 15 |||
    bit 18 ||| bit 19 ||| bit 23 ||| bit 24 |||
    (match x with
    | .rv32 => 0
    | .rv64 => bit 32 ||| bit 33)

structure View (x : Xlen) where
  gpr : Fin 32 → Word x
  pc : Word x
  sstatus : Word x
  csr : Csr → BitVec 64
  fp : Option (Fin 33 → BitVec 64)
  vec : Option Vec
  timer : Option (BitVec 64)
  ssip : Bool
  shmem : Word x

def view (cfg : Config x) (h : Hart x) : View x where
  gpr := h.regs.gpr
  pc := h.regs.mepc
  sstatus := h.regs.mstatus &&& sstatusMask
  csr := h.read cfg
  fp := if cfg.fpu then some h.fp else none
  vec := if cfg.vector = .none then none else some h.vec
  timer := if cfg.hasTimer then some h.timer else none
  ssip := h.ssip
  shmem := h.shmem

/-- What a new context has from the state of the hart before it. -/
structure Residue (x : Xlen) where
  sstatus : Word x
  csr : Csr → BitVec 64
  vec : Option Vec

def residue (cfg : Config x) (boots : Bool) (h : Hart x) : Residue x where
  sstatus :=
    (if boots then clear h.regs.mstatus freshCleared
    else clear (clear (unitsOn cfg h.mstatus) (bit 24)) startCleared) &&& sstatusMask
  csr := fun c =>
    if cfg.switched c then
      if c = .hyp .hstatus then freshCsr cfg h 0 c &&& cfg.base c else 0
    else h.read cfg c
  vec := if cfg.vector = .hidden then some h.vec else none

def Residue.shown (cfg : Config x) (pc arg : Word x) (r : Residue x) : View x where
  gpr := (firstRegs cfg pc arg 0).gpr
  pc := pc
  sstatus := r.sstatus
  csr := fun c =>
    if cfg.switched c = true ∧ c ≠ .hyp .hstatus then
      match c with
      | .stvec => pc.setWidth 64 &&& cfg.base .stvec
      | .sstateen n => cfg.base (.sstateen n)
      | .vstimecmp => cfg.base .vstimecmp
      | _ => 0
    else r.csr c
  fp := if cfg.fpu then some (fun _ => 0) else none
  vec :=
    match cfg.vector with
    | .none => none
    | .hidden => r.vec
    | .cleared => some (vecZero x)
    | .switched => some (vecRestore cfg (vecZero x) (vecZero x))
  timer := if cfg.hasTimer then some (-1) else none
  ssip := false
  shmem := shmemNone

/-! ### The registers of a new context -/

theorem freshCsr_gated (cfg : Config x) {c : Csr} (hc : c.gated = true) (h : Hart x) (pc : Word x) :
    freshCsr cfg h pc c = 0 := by
  cases c with
  | senvcfg | henvcfg => rfl
  | hyp c =>
    cases c with
    | vsstatus | vsie => rfl
    | _ => cases hc
  | _ => cases hc

theorem csrsRestore_zero {saved file : Csr → BitVec 64} {menvcfg : BitVec 64} {c : Csr}
    (hon : cfg.switched c = true) (hgated : c.gated = true) (hzero : saved c = 0) :
    csrsRestore cfg saved menvcfg file c = 0 := by
  cases hfixed : c.dependent with
  | false =>
    rw [csrsRestore_fixed cfg hon hfixed, hzero]
    exact BitVec.zero_and
  | true =>
    cases c with
    | hyp c =>
      cases c with
      | vsstatus =>
        rw [csrsRestore_vsstatus cfg hon, hzero]
        exact BitVec.zero_and
      | vsie =>
        rw [csrsRestore_vsie cfg hon, hzero]
        exact BitVec.zero_and
      | _ => cases hfixed
    | _ => cases hfixed

theorem read_fresh (h : Hart x) (pc : Word x) (menvcfg : BitVec 64) (c : Csr) :
    Gated.read (cfg.gate menvcfg) (csrsRestore cfg (freshCsr cfg h pc) h.menvcfg h.csr) c =
      if cfg.switched c then freshCsr cfg h pc c &&& cfg.base c else h.read cfg c := by
  cases hgated : c.gated with
  | false =>
    have hfixed : c.dependent = false := by
      cases c with
      | senvcfg | henvcfg => cases hgated
      | _ => exact hgated
    rw [Gated.read, gate_plain cfg hgated]
    cases hon : cfg.switched c with
    | true =>
      rw [csrsRestore_fixed cfg hon hfixed, gate_plain cfg hgated, BitVec.and_assoc,
        BitVec.and_self]
      rfl
    | false =>
      rw [csrsRestore_unknown cfg hon, Hart.read, Gated.read, gate_plain cfg hgated]
      rfl
  | true =>
    cases hon : cfg.switched c with
    | true =>
      have hzero := freshCsr_gated cfg hgated h pc
      rw [Gated.read, csrsRestore_zero hon hgated hzero, hzero]
      exact BitVec.zero_and.trans BitVec.zero_and.symm
    | false =>
      have hmem : c ∈ supervisorOrder ++ hypOrder := by
        cases c with
        | senvcfg | henvcfg => decide
        | hyp c => cases c <;> decide
        | _ => cases hgated
      have hbase := cfg.absent c hmem hon
      rw [Hart.read, read_absent cfg hbase, read_absent cfg hbase]
      rfl

theorem shown_csr (boots : Bool) (h : Hart x) (pc arg : Word x) (c : Csr) :
    ((residue cfg boots h).shown cfg pc arg).csr c =
      if cfg.switched c then freshCsr cfg h pc c &&& cfg.base c else h.read cfg c := by
  cases hon : cfg.switched c with
  | false => simp [Residue.shown, residue, hon]
  | true =>
    by_cases hstatus : c = .hyp .hstatus
    · subst hstatus
      simp [Residue.shown, residue, hon, freshCsr]
    · simp only [Residue.shown, hon, hstatus, ne_eq, not_false_eq_true, and_self, if_true]
      cases c with
      | hyp c =>
        cases c with
        | hstatus => exact absurd rfl hstatus
        | _ => exact BitVec.zero_and.symm
      | stvec => rfl
      | sstateen n => exact BitVec.allOnes_and.symm
      | vstimecmp => exact BitVec.allOnes_and.symm
      | _ => exact BitVec.zero_and.symm

/-! ### A hart that boots the domain -/

theorem mode_outside (mode : BitVec 2) :
    (mode.setWidth x.bits <<< 11) &&& (sstatusMask : Word x) = 0#x.bits := by
  cases x <;> revert mode <;> decide

theorem sstatus_or_mode (v : Word x) (mode : BitVec 2) :
    (v ||| mode.setWidth x.bits <<< 11) &&& sstatusMask = v &&& sstatusMask := by
  apply BitVec.eq_of_getLsbD_eq
  intro i _
  have hbit := congrArg (BitVec.getLsbD · i) (mode_outside (x := x) mode)
  simp only [BitVec.getLsbD_and, BitVec.getLsbD_zero] at hbit
  simp only [BitVec.getLsbD_and, BitVec.getLsbD_or, Bool.and_or_distrib_right, hbit, Bool.or_false]

structure Entered (cfg : Config x) (m₀ : Machine x) (d : Nat) (h : Hart x) : Prop where
  mstatus : h.mstatus = unitsOn cfg m₀.hart.mstatus
  csr : h.csr =
    csrsRestore cfg (freshCsr cfg m₀.hart (cfg.domain d).nextAddr) m₀.hart.menvcfg m₀.hart.csr
  fp : cfg.fpu = true → h.fp = fun _ => 0
  vec : h.vec = vecRestore cfg (vecZero x) m₀.hart.vec
  timer : cfg.hasTimer = true → h.timer = -1
  ssip : h.ssip = false
  shmem : h.shmem = shmemNone

theorem contextFresh_entered (cfg : Config x) (m₀ : Machine x) (d : Nat) :
    Entered cfg m₀ d (contextRestore cfg (contextFresh cfg m₀ d) d true).hart := by
  constructor
  case fp =>
    intro hon
    simp [contextRestore, contextFresh, servicesSwitchIn, Machine.setServices, hon]
  case timer =>
    intro hon
    simp [contextRestore, contextFresh, servicesSwitchIn, Machine.setServices, hon]
  all_goals
    simp [contextRestore, contextFresh, servicesSwitchIn, Machine.setServices, Machine.setCtx]

section

variable {m₀ : Machine x} {d : Nat} {h : Hart x} (hin : Entered cfg m₀ d h)
include m₀ d hin

theorem Entered.vec_shown (boots : Bool) (pc arg : Word x) :
    (if cfg.vector = .none then none else some h.vec) =
      ((residue cfg boots m₀.hart).shown cfg pc arg).vec := by
  rw [hin.vec]
  cases hunit : cfg.vector <;> simp [Residue.shown, residue, vecRestore, hunit]

theorem Entered.fp_shown :
    (if cfg.fpu then some h.fp else none) = if cfg.fpu then some (fun _ => 0) else none := by
  cases hon : cfg.fpu with
  | false => rfl
  | true => rw [hin.fp hon]

theorem booted_view {mstatus : Word x}
    (hmstatus : mstatus = clear m₀.hart.regs.mstatus freshCleared |||
      (cfg.domain d).nextMode.setWidth x.bits <<< 11) :
    view cfg { h with
        regs := firstRegs cfg (cfg.domain d).nextAddr (cfg.domain d).nextArg1 mstatus } =
      (residue cfg true m₀.hart).shown cfg (cfg.domain d).nextAddr (cfg.domain d).nextArg1 := by
  have hcsr : h.read cfg =
      ((residue cfg true m₀.hart).shown cfg (cfg.domain d).nextAddr (cfg.domain d).nextArg1).csr := by
    funext c
    rw [shown_csr, Hart.read, hin.csr, read_fresh]
  have hvec := hin.vec_shown true (cfg.domain d).nextAddr (cfg.domain d).nextArg1
  have htimer : (if cfg.hasTimer then some h.timer else none) =
      if cfg.hasTimer then some (-1) else none := by
    cases hon : cfg.hasTimer with
    | false => rfl
    | true => rw [hin.timer hon]
  have hsstatus : mstatus &&& sstatusMask = (residue cfg true m₀.hart).sstatus := by
    rw [hmstatus, sstatus_or_mode]
    rfl
  unfold view
  simp only [firstRegs, hsstatus, hvec, htimer, hin.fp_shown, hin.ssip, hin.shmem]
  exact congrArg (fun csr : Csr → BitVec 64 =>
    { (residue cfg true m₀.hart).shown cfg (cfg.domain d).nextAddr (cfg.domain d).nextArg1 with
      csr := csr }) hcsr

end

/-! ### A hart that is started there -/

section Writes

variable {file : Csr → BitVec 64} {menvcfg : BitVec 64}

theorem gate_write {c : Csr} (hc : c ∈ supervisorOrder) (menvcfg' : BitVec 64) (v : BitVec 64) :
    cfg.gate menvcfg' (Gated.write (cfg.gate menvcfg) file c v) = cfg.gate menvcfg' file := by
  have hapart : ∀ q ∈ [Csr.henvcfg, .hyp .hideleg, .hyp .hvien], q ≠ c := by
    rintro q hq rfl
    revert hc
    revert q
    decide
  have hsame : ∀ q ∈ [Csr.henvcfg, .hyp .hideleg, .hyp .hvien],
      Gated.write (cfg.gate menvcfg) file c v q = file q :=
    fun q hq => Gated.write_of_ne (hapart q hq) v
  funext q
  simp only [Config.gate, hsame .henvcfg (by decide), hsame (.hyp .hideleg) (by decide),
    hsame (.hyp .hvien) (by decide)]

section

variable {c : Csr} (hc : c ∈ supervisorOrder) (hplain : c.gated = false) (menvcfg' : BitVec 64)
include hc hplain

theorem read_write (v : BitVec 64) :
    Gated.read (cfg.gate menvcfg') (Gated.write (cfg.gate menvcfg) file c v) =
      update (Gated.read (cfg.gate menvcfg') file) c (v &&& cfg.base c) := by
  funext q
  rw [Gated.read, gate_write hc]
  by_cases hq : q = c
  · subst hq
    rw [Gated.write_self, update_self, gate_plain cfg hplain, gate_plain cfg hplain,
      BitVec.and_assoc, BitVec.and_self]
  · rw [Gated.write_of_ne hq, update_of_ne hq]
    rfl

theorem read_write_same {v : BitVec 64}
    (hthere : Gated.read (cfg.gate menvcfg') file c = v &&& cfg.base c) :
    Gated.read (cfg.gate menvcfg') (Gated.write (cfg.gate menvcfg) file c v) =
      Gated.read (cfg.gate menvcfg') file := by
  rw [read_write hc hplain, ← hthere, update_eq_self]

end

end Writes

def startFile (cfg : Config x) (menvcfg : BitVec 64) (entry : Word x) (file : Csr → BitVec 64) :
    Csr → BitVec 64 :=
  let write := Gated.write (cfg.gate menvcfg)
  let file := write (write (write (write (write file .scounteren 0) .stvec (entry.setWidth 64))
    .sscratch 0) .sie 0) .satp 0
  if cfg.features.smstateen then
    write (write (write (write file (.sstateen 0) (-1)) (.sstateen 1) (-1)) (.sstateen 2) (-1))
      (.sstateen 3) (-1)
  else file

theorem hartStart_hart (cfg : Config x) (m : Machine x) (entry arg : Word x) (mode : BitVec 2) :
    ∃ menvcfg pmu trigger medeleg, (hartStart cfg m entry arg mode).hart =
      { m.hart with
        regs := firstRegs cfg entry arg
          (clear (clear m.hart.mstatus (bit 24)) startCleared ||| mode.setWidth x.bits <<< 11)
        mstatus := clear m.hart.mstatus (bit 24)
        csr := startFile cfg menvcfg entry m.hart.csr
        timer := -1
        ssip := false
        shmem := shmemNone
        pmu := pmu
        trigger := trigger
        menvcfg := menvcfg
        medeleg := medeleg } := by
  refine ⟨if cfg.features.menvcfg then cfg.envcfg else m.hart.menvcfg,
    (hartStart cfg m entry arg mode).hart.pmu, (Dbtr.hartInit cfg.dbtr m.hart.trigger).trigger,
    cfg.deleg, ?_⟩
  unfold hartStart hartEnterSmode startFile
  cases cfg.features.smstateen <;> rfl

theorem startFile_update {menvcfg : BitVec 64} {file : Csr → BitVec 64} (entry : Word x)
    (hzero : ∀ c ∈ [Csr.scounteren, .sscratch, .sie, .satp],
      Gated.read (cfg.gate menvcfg) file c = 0 &&& cfg.base c)
    (hones : cfg.features.smstateen = true → ∀ n,
      Gated.read (cfg.gate menvcfg) file (.sstateen n) = -1 &&& cfg.base (.sstateen n)) :
    Gated.read (cfg.gate menvcfg) (startFile cfg menvcfg entry file) =
      update (Gated.read (cfg.gate menvcfg) file) .stvec
        (entry.setWidth 64 &&& cfg.base .stvec) := by
  set reads := update (Gated.read (cfg.gate menvcfg) file) .stvec
    (entry.setWidth 64 &&& cfg.base .stvec) with hreads
  have hstvec : Gated.read (cfg.gate menvcfg)
      (Gated.write (cfg.gate menvcfg) (Gated.write (cfg.gate menvcfg) file .scounteren 0) .stvec
        (entry.setWidth 64)) = reads := by
    rw [read_write (by decide) rfl, read_write_same (by decide) rfl _ (hzero _ (by decide))]
  have hstay : ∀ {f : Csr → BitVec 64} {c : Csr} {v : BitVec 64}, c ∈ supervisorOrder →
      c.gated = false → c ≠ .stvec → Gated.read (cfg.gate menvcfg) file c = v &&& cfg.base c →
      Gated.read (cfg.gate menvcfg) f = reads →
      Gated.read (cfg.gate menvcfg) (Gated.write (cfg.gate menvcfg) f c v) = reads := by
    intro f c v hc hplain hne hthere hf
    rw [read_write_same hc hplain _ (by rw [hf, hreads, update_of_ne hne, hthere]), hf]
  have hsscratch := hstay (c := .sscratch) (by decide) rfl nofun (hzero _ (by decide)) hstvec
  have hsie := hstay (c := .sie) (by decide) rfl nofun (hzero _ (by decide)) hsscratch
  have hsatp := hstay (c := .satp) (by decide) rfl nofun (hzero _ (by decide)) hsie
  unfold startFile
  cases hon : cfg.features.smstateen with
  | false => exact hsatp
  | true =>
    have hstateen0 := hstay (c := .sstateen 0) (by decide) rfl nofun (hones hon 0) hsatp
    have hstateen1 := hstay (c := .sstateen 1) (by decide) rfl nofun (hones hon 1) hstateen0
    have hstateen2 := hstay (c := .sstateen 2) (by decide) rfl nofun (hones hon 2) hstateen1
    exact hstay (c := .sstateen 3) (by decide) rfl nofun (hones hon 3) hstateen2

theorem freshCsr_of_ne (cfg : Config x) (h : Hart x) (pc pc' : Word x) {c : Csr}
    (hc : c ≠ .stvec) : freshCsr cfg h pc c = freshCsr cfg h pc' c := by
  cases c with
  | stvec => exact absurd rfl hc
  | hyp c => cases c <;> rfl
  | _ => rfl

theorem startFile_read {m₀ : Machine x} {d : Nat} {h : Hart x} (hin : Entered cfg m₀ d h)
    (menvcfg : BitVec 64) (entry : Word x) (arg : Word x) :
    Gated.read (cfg.gate menvcfg) (startFile cfg menvcfg entry h.csr) =
      ((residue cfg false m₀.hart).shown cfg entry arg).csr := by
  set pc := (cfg.domain d).nextAddr with hpc
  have hfirst : ∀ c, Gated.read (cfg.gate menvcfg) h.csr c =
      if cfg.switched c then freshCsr cfg m₀.hart pc c &&& cfg.base c
      else m₀.hart.read cfg c := by
    intro c
    rw [hin.csr, read_fresh]
  have hzero : ∀ c ∈ [Csr.scounteren, .sscratch, .sie, .satp],
      Gated.read (cfg.gate menvcfg) h.csr c = 0 &&& cfg.base c := by
    intro c hc
    rw [hfirst]
    fin_cases hc <;> rfl
  have hones : cfg.features.smstateen = true → ∀ n,
      Gated.read (cfg.gate menvcfg) h.csr (.sstateen n) = -1 &&& cfg.base (.sstateen n) := by
    intro hon n
    rw [hfirst, show cfg.switched (.sstateen n) = true from hon]
    rfl
  rw [startFile_update entry hzero hones]
  funext c
  rw [shown_csr]
  by_cases hc : c = .stvec
  · subst hc
    rw [update_self]
    rfl
  · rw [update_of_ne hc, hfirst, freshCsr_of_ne cfg m₀.hart pc entry hc]

theorem started_view {m₀ m : Machine x} {d : Nat} (hin : Entered cfg m₀ d m.hart)
    (entry arg : Word x) (mode : BitVec 2) :
    view cfg (hartStart cfg m entry arg mode).hart =
      (residue cfg false m₀.hart).shown cfg entry arg := by
  obtain ⟨menvcfg, pmu, trigger, medeleg, hhart⟩ := hartStart_hart cfg m entry arg mode
  rw [hhart]
  have hvec := hin.vec_shown false entry arg
  have hsstatus : (clear (clear m.hart.mstatus (bit 24)) startCleared |||
      mode.setWidth x.bits <<< 11) &&& sstatusMask = (residue cfg false m₀.hart).sstatus := by
    rw [sstatus_or_mode, hin.mstatus]
    rfl
  unfold view Hart.read
  simp only [firstRegs, hsstatus, hvec, hin.fp_shown]
  exact congrArg (fun csr : Csr → BitVec 64 =>
    { (residue cfg false m₀.hart).shown cfg entry arg with csr := csr })
    (startFile_read hin menvcfg entry arg)

/-! ### The first time -/

def Act.elsewhere : Act x → Bool
  | .kept _ | .stopBegins _ | .stopEnds _ | .domainStart _ => true
  | _ => false

/-- From `s` the hart goes to domain `d`, whose context has never run; in `s'` it runs.
    A hart that only stops there is started with the arguments of `hart_start`. -/
inductive First (cfg : Config x) (d : Nat) (entry arg : Word x) (mode : BitVec 2) (s : Machine x) :
    Machine x → Prop
  | booted {a : Act x} {s' : Machine x} (hboot : (cfg.domain d).bootsHere = true)
      (haway : s.domain ≠ d) (hnone : (s.ctx d).state = .none) (hstep : step cfg s a = some s')
      (hin : s'.domain = d) : First cfg d entry arg mode s s'
  | started {a : Act x} {s₁ s₂ s' : Machine x} {acts : List (Act x)}
      (hboot : (cfg.domain d).bootsHere = false)
      (haway : s.domain ≠ d) (hnone : (s.ctx d).state = .none) (hstep : step cfg s a = some s₁)
      (hin : s₁.domain = d) (hacts : ∀ b ∈ acts, b.elsewhere = true)
      (hrun : run cfg s₁ acts = some s₂)
      (hstart : step cfg s₂ (.starts entry arg mode) = some s') : First cfg d entry arg mode s s'

theorem step_elsewhere {m m' : Machine x} {a : Act x} (ha : a.elsewhere = true)
    (hstep : step cfg m a = some m') : m'.hart = m.hart := by
  cases a with
  | kept d =>
    simp only [step] at hstep
    split_ifs at hstep
    cases hstep
    rfl
  | domainStart d =>
    simp only [step] at hstep
    split_ifs at hstep
    cases hstep
    rfl
  | stopBegins d | stopEnds d =>
    cases hstep
    rfl
  | _ => cases ha

theorem run_elsewhere {m m' : Machine x} {acts : List (Act x)}
    (hacts : ∀ a ∈ acts, a.elsewhere = true) (hrun : run cfg m acts = some m') :
    m'.hart = m.hart := by
  induction acts generalizing m with
  | nil =>
    cases hrun
    rfl
  | cons a acts ih =>
    obtain ⟨u, hu, hrun⟩ := Runs.run_cons.mp hrun
    rw [ih (fun b hb => hacts b (List.mem_cons_of_mem a hb)) hrun,
      step_elsewhere (hacts a List.mem_cons_self) hu]

theorem residue_out {m m₀ : Machine x} (hout : Out cfg m m₀) (boots : Bool) :
    residue cfg boots m₀.hart = residue cfg boots m.hart := by
  have hread : m₀.hart.read cfg = m.hart.read cfg := by
    funext c
    rw [Hart.read, Hart.read, hout.csr, hout.menvcfg]
  have hfresh : freshCsr cfg m₀.hart 0 = freshCsr cfg m.hart 0 := by
    funext c
    unfold freshCsr
    rw [hread]
  unfold residue
  rw [hout.regs, hout.mstatus, hout.vec, hread, hfresh]

theorem step_enters {s s' : Machine x} {a : Act x} {d : Nat} (haway : s.domain ≠ d)
    (hnone : (s.ctx d).state = .none) (hstep : step cfg s a = some s') (hin : s'.domain = d) :
    ∃ m₀, Out cfg s m₀ ∧ (m₀.ctx d).state = .none ∧
      ∃ error value answer, s'.hart = (contextSwitch cfg m₀ d error value answer).hart := by
  rcases step_cases hstep with hstays | ⟨m₀, e, error, value, answer, stopped, hout, -, rfl⟩
  · exact absurd (hstays.domain.symm.trans hin) haway
  · dsimp only at hin
    rw [contextSwitch_domain] at hin
    subst hin
    obtain ⟨caller, hctx⟩ := hout.ctx e haway.symm
    refine ⟨m₀, hout, ?_, error, value, answer, rfl⟩
    rw [hctx]
    exact hnone

theorem First.view_eq {d : Nat} {entry arg : Word x} {mode : BitVec 2} {s s' : Machine x}
    (hfirst : First cfg d entry arg mode s s') :
    view cfg s'.hart =
      (residue cfg (cfg.domain d).bootsHere s.hart).shown cfg
        (if (cfg.domain d).bootsHere then (cfg.domain d).nextAddr else entry)
        (if (cfg.domain d).bootsHere then (cfg.domain d).nextArg1 else arg) := by
  cases hfirst with
  | booted hboot haway hnone hstep hin =>
    obtain ⟨m₀, hout, hstate, error, value, answer, hhart⟩ := step_enters haway hnone hstep hin
    have hin := contextFresh_entered cfg m₀ d
    have hregs : ((contextRestore cfg (contextFresh cfg m₀ d) d true).ctx d).saved.regs =
        firstRegs cfg (cfg.domain d).nextAddr (cfg.domain d).nextArg1
          (clear m₀.hart.regs.mstatus freshCleared |||
            (cfg.domain d).nextMode.setWidth x.bits <<< 11) := by
      rw [contextRestore_ctx]
      simp [contextFresh]
    rw [hhart, contextSwitch, if_pos hstate, if_pos hboot, hboot, ← residue_out hout]
    dsimp only
    rw [hregs]
    exact booted_view hin rfl
  | started hboot haway hnone hstep hin hacts hrun hstart =>
    rename_i s₁ s₂ acts
    obtain ⟨m₀, hout, hstate, error, value, answer, hhart⟩ := step_enters haway hnone hstep hin
    have hin : Entered cfg m₀ d s₂.hart := by
      have hfirst := contextFresh_entered cfg m₀ d
      rw [run_elsewhere hacts hrun, hhart, contextSwitch, if_pos hstate,
        if_neg (by simp [hboot])]
      exact hfirst
    simp only [step] at hstart
    split_ifs at hstart
    cases hstart
    rw [hboot, ← residue_out hout]
    exact started_view hin entry arg mode

/-- Domain 1 has set up its table of jumps, and allowed itself the pages of user mode. -/
def leavesTraces : Hart .rv64 :=
  { quietHart.hart with
    csr := update (fun _ => 0) .jvt 0x40
    mstatus := bit 18 }

def tracesRun : Act .rv64 :=
  .runs leavesTraces (quietHart.pmu 1) (quietHart.dbtr 1) (quietHart.fwft 1)

def startedThere : Config .rv64 :=
  { shadowStacks with domain := fun _ => ⟨0x80200000, 0, 1, false, true, true⟩ }

end RiscvMonitor.HartState
