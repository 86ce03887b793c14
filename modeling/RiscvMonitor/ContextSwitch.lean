import RiscvMonitor.Gated
import RiscvMonitor.Lifecycle
import RiscvMonitor.PmuSwitch
import RiscvMonitor.Dbtr
import RiscvMonitor.Fwft

/-!
# What moves with a hart

`domain_context.c` on one hart: what S-mode of a domain owns of the hart is saved
when the hart leaves the domain and written back when it returns.  With it goes the
other way to S-mode, that of a hart which is started: `hart_runtime_init()` and
`hart_enter_smode()`.

Registers are 64 bits wide here, those of RV32 with nothing in the upper half.
What a domain does between two switches is an input.
-/

namespace RiscvMonitor.HartState

open Function (update)
open Lifecycle (CtxState)
open Masks

variable {x : Xlen}

inductive HypCsr where
  | hstatus
  | hedeleg
  | hideleg
  | hie
  | hcounteren
  | hgeie
  | htval
  | htinst
  | hvip
  | hgatp
  | vsstatus
  | vsie
  | vstvec
  | vsscratch
  | vsepc
  | vscause
  | vstval
  | vsatp
  | hvien
  | hvictl
  | hviprio1
  | hviprio2
  | vsiselect
  | hidelegh
  | hvienh
  | hviph
  | hviprio1h
  | hviprio2h
  | vsieh
deriving DecidableEq

/-- Up to `HYP_FIRST_AIA`. -/
def HypCsr.plain : List HypCsr :=
  [.hstatus, .hedeleg, .hideleg, .hie, .hcounteren, .hgeie, .htval, .htinst, .hvip, .hgatp,
   .vsstatus, .vsie, .vstvec, .vsscratch, .vsepc, .vscause, .vstval, .vsatp]

def HypCsr.aia : List HypCsr := [.hvien, .hvictl, .hviprio1, .hviprio2, .vsiselect]

def HypCsr.high : List HypCsr := [.hidelegh, .hvienh, .hviph, .hviprio1h, .hviprio2h, .vsieh]

/-- The registers of S-mode and of a hypervisor there, with those that are open to them and that
    the switch does not know. -/
inductive Csr where
  | sie
  | stvec
  | sscratch
  | sepc
  | scause
  | stval
  | satp
  | scounteren
  | senvcfg
  | sstateen (n : Fin 4)
  | hyp (c : HypCsr)
  | htimedelta
  | henvcfg
  | hstateen0
  | vstimecmp
  | jvt
  | scontext
  | hcontext
  | srmcfg
  | siselect
  | hedelegh
  | ssp
  /-- `fcsr` of a hart with floating-point numbers in the integer registers. -/
  | fcsr
deriving DecidableEq

structure Features where
  menvcfg : Bool
  smstateen : Bool
  sstc : Bool
  h : Bool
  aia : Bool

/-- The registers that `context_save()` and `context_restore()` read and write. -/
def Features.switched (f : Features) (x : Xlen) : Csr → Bool
  | .sie | .stvec | .sscratch | .sepc | .scause | .stval | .satp | .scounteren => true
  | .senvcfg => f.menvcfg
  | .sstateen _ => f.smstateen
  | .hyp c =>
    f.h && (decide (c ∈ HypCsr.plain) || f.aia && (decide (c ∈ HypCsr.aia) || x == .rv32))
  | .htimedelta => f.h
  | .henvcfg => f.h && f.menvcfg
  | .hstateen0 => f.h && f.smstateen
  | .vstimecmp => f.h && f.sstc
  | .jvt | .scontext | .hcontext | .srmcfg | .siselect | .hedelegh | .ssp | .fcsr => false

instance neZero_sstateen : NeZero 4 := ⟨by decide⟩

/-- The order of `context_restore()`, up to `hyp_state_restore()`. -/
def supervisorOrder : List Csr :=
  [.sie, .stvec, .sscratch, .sepc, .scause, .stval, .satp, .scounteren, .senvcfg,
   .sstateen 0, .sstateen 1, .sstateen 2, .sstateen 3]

/-- The order of `hyp_state_restore()`. -/
def hypOrder : List Csr :=
  HypCsr.plain.map .hyp ++ HypCsr.aia.map .hyp ++ HypCsr.high.map .hyp ++
    [.htimedelta, .henvcfg, .hstateen0, .vstimecmp]

def envcfgSse : BitVec 64 := .twoPow 64 3
def envcfgDte : BitVec 64 := .twoPow 64 59
def envcfgAdue : BitVec 64 := .twoPow 64 61
def statusSdt : BitVec 64 := .twoPow 64 24

/-- `struct trap_regs` -/
structure Regs (x : Xlen) where
  gpr : Fin 32 → Word x
  mstatus : Word x
  mepc : Word x

def Regs.set (regs : Regs x) (a0 a1 : Word x) : Regs x :=
  { regs with gpr := update (update regs.gpr 10 a0) 11 a1 }

/-- `struct vec_state` -/
structure Vec where
  vstart : BitVec 64
  vcsr : BitVec 64
  vl : BitVec 64
  vtype : BitVec 64
  regs : Nat → BitVec 8

/-- `vector_unit()`; the last one is there, but not for `misa` to show (Zve*). -/
inductive VecUnit where
  | none
  | switched
  | cleared
  | hidden
deriving DecidableEq

structure Hart (x : Xlen) where
  regs : Regs x
  /-- `mstatus` itself, while the monitor runs. -/
  mstatus : Word x
  csr : Csr → BitVec 64
  fp : Fin 33 → BitVec 64
  vec : Vec
  /-- `stimecmp`, or `deadline[]` -/
  timer : BitVec 64
  ssip : Bool
  /-- `shmem[]` of the message proxy -/
  shmem : Word x
  pmu : Pmu.Hardware
  trigger : Nat → Dbtr.Trigger x
  menvcfg : BitVec 64
  medeleg : Word x

structure Dom (x : Xlen) where
  nextAddr : Word x
  nextArg1 : Word x
  nextMode : BitVec 2
  /-- `boot_hart` is this hart. -/
  bootsHere : Bool
  /-- The hart is in `possible`. -/
  possible : Bool
  /-- `domain_range_ok()` of `next_addr` -/
  entryOk : Bool

structure Config (x : Xlen) where
  hartid : Word x
  features : Features
  fpu : Bool
  vector : VecUnit
  hasTimer : Bool
  /-- What the hart has of a register. -/
  base : Csr → BitVec 64
  absent : ∀ c ∈ supervisorOrder ++ hypOrder, features.switched x c = false → base c = 0
  pmu : Pmu.Config x
  dbtr : Dbtr.Config x
  fwft : Fwft.Hardware
  sameMenvcfg : fwft.menvcfg = features.menvcfg
  /-- `menvcfg` as `envcfg_init()` leaves it. -/
  envcfg : BitVec 64
  envcfgTaken : fwft.Takes envcfg
  noFeatures : clear envcfg Fwft.featureFields = envcfg
  /-- `medeleg` as `hart_runtime_init()` writes it. -/
  deleg : Word x
  noMisaligned : clear deleg Fwft.misalignedDeleg = deleg
  vsetvl : BitVec 64 → BitVec 64 → BitVec 64 × BitVec 64
  domains : Nat
  domain : Nat → Dom x
  mayEnter : Nat → Nat → Bool

def Config.switched (cfg : Config x) (c : Csr) : Bool := cfg.features.switched x c

/-- The bits of a register that are there: those of extensions that S-mode gives its guests and
    user mode are if they are its own, those of `vsie` if the interrupt is delegated or made up.
    -/
def Config.gate (cfg : Config x) (menvcfg : BitVec 64) : Gated.Gate Csr 64 := fun file c =>
  let henvcfgOpen := cfg.base .henvcfg &&& (menvcfg ||| ~~~(envcfgSse ||| envcfgAdue ||| envcfgDte))
  match c with
  | .senvcfg => cfg.base .senvcfg &&& (menvcfg ||| ~~~envcfgSse)
  | .henvcfg => henvcfgOpen
  | .hyp .vsstatus =>
    cfg.base (.hyp .vsstatus) &&&
      (if has (file .henvcfg &&& henvcfgOpen) envcfgDte then -1 else ~~~statusSdt)
  | .hyp .vsie =>
    cfg.base (.hyp .vsie) &&&
      (if cfg.features.aia then
        file (.hyp .hideleg) &&& cfg.base (.hyp .hideleg) |||
          file (.hyp .hvien) &&& cfg.base (.hyp .hvien) ||| 0x1fff
      else -1)
  | c => cfg.base c

def Hart.read (cfg : Config x) (h : Hart x) (c : Csr) : BitVec 64 :=
  Gated.read (cfg.gate h.menvcfg) h.csr c

def Hart.write (cfg : Config x) (h : Hart x) (c : Csr) (v : BitVec 64) : Hart x :=
  { h with csr := Gated.write (cfg.gate h.menvcfg) h.csr c v }

/-! ### The contexts -/

structure Saved (x : Xlen) where
  regs : Regs x
  csr : Csr → BitVec 64
  /-- The counter overflow interrupt in `sie`. -/
  lcofie : Bool
  /-- `SSIP` in `sip`. -/
  ssip : Bool
  timer : BitVec 64
  shmem : Word x
  fp : Fin 33 → BitVec 64
  vec : Vec

structure Ctx (x : Xlen) where
  state : CtxState
  caller : Option Nat
  ipi : Bool
  quiet : Bool
  saved : Saved x

structure Machine (x : Xlen) where
  hart : Hart x
  domain : Nat
  stopped : Bool
  ctx : Nat → Ctx x
  stopping : Nat → Bool
  pmu : Nat → Pmu.PmuHart x
  dbtr : Nat → Dbtr.DbtrHart x
  fwft : Nat → Fwft.FwftHart

def Machine.setCtx (m : Machine x) (d : Nat) (c : Ctx x) : Machine x :=
  { m with ctx := update m.ctx d c }

/-! ### The services -/

def Machine.setServices (m : Machine x) (pmu : Pmu.Hart x) (dbtr : Dbtr.Hart x)
    (fwft : Fwft.Hart x) : Machine x :=
  { m with
    hart := { m.hart with
      pmu := pmu.hw
      trigger := dbtr.trigger
      menvcfg := fwft.menvcfg
      medeleg := fwft.medeleg }
    pmu := update m.pmu m.domain pmu.p
    dbtr := update m.dbtr m.domain dbtr.d
    fwft := update m.fwft m.domain fwft.f }

def Machine.pmuHart (m : Machine x) : Pmu.Hart x := ⟨m.pmu m.domain, m.hart.pmu⟩
def Machine.dbtrHart (m : Machine x) : Dbtr.Hart x := ⟨m.dbtr m.domain, m.hart.trigger⟩
def Machine.fwftHart (m : Machine x) : Fwft.Hart x :=
  ⟨m.fwft m.domain, m.hart.menvcfg, m.hart.medeleg⟩

def servicesSwitchOut (cfg : Config x) (m : Machine x) : Machine x :=
  m.setServices (Pmu.switchOut cfg.pmu m.pmuHart) (Dbtr.switchOut cfg.dbtr.hw m.dbtrHart)
    (Fwft.switchOut cfg.fwft m.fwftHart)

def servicesSwitchIn (cfg : Config x) (fresh : Bool) (m : Machine x) : Machine x :=
  m.setServices (Pmu.switchIn cfg.pmu fresh m.pmuHart) (Dbtr.switchIn cfg.dbtr fresh m.dbtrHart)
    (Fwft.switchIn cfg.fwft fresh m.fwftHart)

/-! ### Saving and restoring -/

def shmemNone : Word x := -1

def mstatusFs : Word x := 3#x.bits <<< 13
def mstatusVs : Word x := 3#x.bits <<< 9

def unitsOn (cfg : Config x) (mstatus : Word x) : Word x :=
  setIf (cfg.vector == .switched || cfg.vector == .cleared)
    (setIf cfg.fpu mstatus mstatusFs) mstatusVs

/-- `context_save()`, for the domain that the hart is in. -/
def contextSave (cfg : Config x) (m : Machine x) : Machine x :=
  let h := m.hart
  let c := m.ctx m.domain
  let saved : Saved x :=
    { regs := h.regs
      csr := fun r => if cfg.switched r then h.read cfg r else c.saved.csr r
      lcofie := h.pmu.irqEnabled && h.pmu.irqDelegated
      ssip := h.ssip
      timer := h.timer
      shmem := h.shmem
      fp := if cfg.fpu then h.fp else c.saved.fp
      vec := if cfg.vector = .switched then h.vec else c.saved.vec }
  let m := m.setCtx m.domain { c with saved := saved }
  servicesSwitchOut cfg
    { m with hart := { h with shmem := shmemNone, mstatus := unitsOn cfg h.mstatus } }

def vecZero (x : Xlen) : Vec := ⟨0, 0, 0, 1#64 <<< (x.bits - 1), fun _ => 0⟩

/-- `unit_state_restore()` of the vector unit. -/
def vecRestore (cfg : Config x) (saved : Vec) (vec : Vec) : Vec :=
  match cfg.vector with
  | .switched =>
    let r := cfg.vsetvl saved.vl saved.vtype
    { saved with vl := r.1, vtype := r.2 }
  | .cleared => vecZero x
  | .none | .hidden => vec

/-- The registers, in the order of `context_restore()`. -/
def csrsRestore (cfg : Config x) (saved : Csr → BitVec 64) (menvcfg : BitVec 64)
    (file : Csr → BitVec 64) : Csr → BitVec 64 :=
  let gate := cfg.gate menvcfg
  let file := Gated.restore gate saved (supervisorOrder.filter cfg.switched) file
  -- no guest timer interrupt from a deadline that is another context's
  let file := if cfg.switched .vstimecmp then Gated.write gate file .vstimecmp (-1) else file
  Gated.restore gate saved (hypOrder.filter cfg.switched) file

/-- `context_restore()`: the hart is in domain `d` from here on. -/
def contextRestore (cfg : Config x) (m : Machine x) (d : Nat) (fresh : Bool) : Machine x :=
  let h := m.hart
  let c := m.ctx d
  let hart : Hart x :=
    { h with
      csr := csrsRestore cfg c.saved.csr h.menvcfg h.csr
      -- `sie` has the counter overflow interrupt only where it is delegated
      pmu :=
        if h.pmu.irqDelegated then { h.pmu with irqEnabled := c.saved.lcofie } else h.pmu
      mstatus := unitsOn cfg h.mstatus
      fp := if cfg.fpu then c.saved.fp else h.fp
      vec := vecRestore cfg c.saved.vec h.vec
      timer := if cfg.hasTimer then c.saved.timer else h.timer
      ssip := c.saved.ssip || c.ipi
      shmem := c.saved.shmem }
  let m := m.setCtx d { c with ipi := false, state := .running }
  servicesSwitchIn cfg fresh { m with hart := hart, domain := d }

def contextPark (cfg : Config x) (m : Machine x) (state : CtxState) (quiet : Bool) : Machine x :=
  let d := m.domain
  let m := contextSave cfg m
  m.setCtx d { m.ctx d with state := state, quiet := quiet }

/-! ### A context that has never run -/

def mstatusMpp : Word x := 3#x.bits <<< 11

/-- What `context_fresh()` clears in `mstatus`: `MPP`, `MPIE`, `MPRV`, `SIE`, `SPIE`, `SPP`, `FS`,
    `VS`, `SUM`, `MXR`, `SDT`, and on RV64 `MPV` and `GVA`. -/
def freshCleared : Word x :=
  mstatusMpp ||| bit 7 ||| bit 17 ||| bit 1 ||| bit 5 ||| bit 8 ||| mstatusFs ||| mstatusVs |||
    bit 18 ||| bit 19 ||| bit 24 |||
    (match x with
    | .rv32 => 0
    | .rv64 => bit 38 ||| bit 39)

def hstatusVsxl : BitVec 64 := 3#64 <<< 32

def firstRegs (cfg : Config x) (pc arg mstatus : Word x) : Regs x where
  gpr := update (update (fun _ => 0) 10 cfg.hartid) 11 arg
  mstatus := mstatus
  mepc := pc

def freshCsr (cfg : Config x) (h : Hart x) (pc : Word x) : Csr → BitVec 64
  | .stvec => pc.setWidth 64
  | .sstateen _ => -1
  | .vstimecmp => -1
  | .hyp .hstatus =>
    if x = .rv64 ∧ cfg.features.h = true then h.read cfg (.hyp .hstatus) &&& hstatusVsxl else 0
  | _ => 0

def contextFresh (cfg : Config x) (m : Machine x) (d : Nat) : Machine x :=
  let dom := cfg.domain d
  let h := m.hart
  let saved : Saved x :=
    { regs :=
        firstRegs cfg dom.nextAddr dom.nextArg1
          (clear h.regs.mstatus freshCleared ||| dom.nextMode.setWidth x.bits <<< 11)
      csr := freshCsr cfg h dom.nextAddr
      lcofie := false
      ssip := false
      timer := -1
      shmem := shmemNone
      fp := fun _ => 0
      vec := vecZero x }
  m.setCtx d ⟨.none, (m.ctx d).caller, false, false, saved⟩

/-- `context_switch()` to domain `d`; `answer` is what came of a message that the context
    sent through the switch. -/
def contextSwitch (cfg : Config x) (m : Machine x) (d : Nat) (error value : Word x)
    (answer : Option (Word x × Word x)) : Machine x :=
  if (m.ctx d).state = .none then
    let m := contextFresh cfg m d
    if (cfg.domain d).bootsHere then
      let m := contextRestore cfg m d true
      { m with hart := { m.hart with regs := (m.ctx d).saved.regs } }
    else
      -- only the boot hart boots the domain: the others are started
      { contextRestore cfg m d true with stopped := true }
  else
    let c := m.ctx d
    let regs := if c.quiet then c.saved.regs else c.saved.regs.set error value
    let m := m.setCtx d { c with quiet := false, saved := { c.saved with regs := regs } }
    let m := contextRestore cfg m d false
    let regs := answer.elim regs fun a => regs.set a.1 a.2
    { m with hart := { m.hart with regs := regs } }

/-! ### Entering and leaving -/

def callerWaits (m : Machine x) : Option Nat :=
  (m.ctx m.domain).caller.filter fun d => (m.ctx d).state == .calling

/-- The checks of `enter()`. -/
def enterOk (cfg : Config x) (m : Machine x) (target : Nat) (quiet : Bool) : Bool :=
  target != m.domain && (cfg.domain target).possible &&
    (quiet || cfg.mayEnter m.domain target) &&
    !m.stopping target && !m.stopping m.domain &&
    match (m.ctx target).state with
    | .running | .calling => false
    | .none => (cfg.domain target).entryOk
    | .idle => true

/-- Where `leave()` goes. -/
def leaveTo (cfg : Config x) (m : Machine x) (quiet : Bool) (first : Option Nat) : Option Nat :=
  let due := fun d => d != m.domain && (cfg.domain d).possible && !m.stopping d &&
    (m.ctx d).state == .none
  match callerWaits m with
  | some d => some d
  | none =>
    if quiet then
      first.filter fun d => due d && (cfg.domain d).bootsHere && (cfg.domain d).entryOk
    else
      (List.range cfg.domains).find? fun d =>
        decide (0 < d) && due d && cfg.mayEnter m.domain d

/-! ### A hart that is started -/

/-- What `hart_enter_smode()` clears in `mstatus`: `MPP`, `MPIE`, `MPRV`, `SIE`, `SPIE`, `SPP`,
    and on RV64 `MPV`. -/
def startCleared : Word x :=
  mstatusMpp ||| bit 7 ||| bit 17 ||| bit 1 ||| bit 5 ||| bit 8 |||
    (match x with
    | .rv32 => 0
    | .rv64 => bit 39)

def hartRuntimeInit (cfg : Config x) (m : Machine x) : Machine x :=
  let h := m.hart
  let h : Hart x :=
    { h with
      medeleg := cfg.deleg
      menvcfg := if cfg.features.menvcfg then cfg.envcfg else h.menvcfg
      pmu := { h.pmu with irqDelegated := cfg.pmu.sscofpmf }
      timer := -1
      ssip := false
      shmem := shmemNone
      -- `menvcfg` has no `DTE`, and `mstatus` no `SDT`
      mstatus := clear h.mstatus (bit 24) }
  let m := { m with hart := h.write cfg .scounteren 0 }
  m.setServices (Pmu.hartInit cfg.pmu m.pmuHart) (Dbtr.hartInit cfg.dbtr m.hart.trigger)
    { m.fwftHart with f := { m.fwftHart.f with locked := 0 } }

def hartEnterSmode (cfg : Config x) (m : Machine x) (entry arg : Word x) (mode : BitVec 2) :
    Machine x :=
  let h := m.hart
  let mstatus := clear h.mstatus startCleared ||| mode.setWidth x.bits <<< 11
  let h := h.write cfg .stvec (entry.setWidth 64)
  let h := h.write cfg .sscratch 0
  let h := h.write cfg .sie 0
  let h := h.write cfg .satp 0
  let h :=
    if cfg.features.smstateen then
      [0, 1, 2, 3].foldl (fun h n => h.write cfg (.sstateen n) (-1)) h
    else h
  { m with
    hart := { h with
      regs := firstRegs cfg entry arg mstatus
      pmu := if h.pmu.irqDelegated then { h.pmu with irqEnabled := false } else h.pmu } }

/-- The start of a hart in the domain that it stopped in, with `domain_context_started()`. -/
def hartStart (cfg : Config x) (m : Machine x) (entry arg : Word x) (mode : BitVec 2) : Machine x :=
  let m := hartRuntimeInit cfg m
  let m := m.setCtx m.domain { m.ctx m.domain with state := .running }
  { hartEnterSmode cfg m entry arg mode with stopped := false }

inductive Act (x : Xlen) where
  /-- S-mode runs, with its calls and its traps, and makes a call. -/
  | runs (hart : Hart x) (pmu : Pmu.PmuHart x) (dbtr : Dbtr.DbtrHart x) (fwft : Fwft.FwftHart)
  /-- `domain_ipi_parked()` -/
  | kept (d : Nat)
  | enter (target : Nat) (arg : Word x) (quiet : Bool)
  | leave (value : Word x) (quiet : Bool) (first : Option Nat) (answer : Option (Word x × Word x))
  | stops
  | starts (entry arg : Word x) (mode : BitVec 2)
  | stopBegins (d : Nat)
  | stopEnds (d : Nat)
  /-- `domain_start()`, of a domain that does not run. -/
  | domainStart (d : Nat)
  | stopSelf (answer : Option (Word x × Word x))

def Config.allowed (cfg : Config x) (h : Hart x) : Prop :=
  (cfg.features.menvcfg = true → clear h.menvcfg Fwft.featureFields = cfg.envcfg) ∧
    clear h.medeleg Fwft.misalignedDeleg = cfg.deleg

instance (cfg : Config x) (h : Hart x) : Decidable (cfg.allowed h) :=
  inferInstanceAs (Decidable (_ ∧ _))

def step (cfg : Config x) (m : Machine x) : Act x → Option (Machine x)
  | .runs hart pmu dbtr fwft =>
    if m.stopped = false ∧ cfg.allowed hart then
      some { m with
        hart := hart
        pmu := update m.pmu m.domain pmu
        dbtr := update m.dbtr m.domain dbtr
        fwft := update m.fwft m.domain fwft }
    else none
  | .kept d =>
    if d ≠ m.domain ∧ (m.ctx d).state ≠ .none then some (m.setCtx d { m.ctx d with ipi := true })
    else none
  | .enter target arg quiet =>
    if m.stopped = false ∧ enterOk cfg m target quiet = true then
      let d := m.domain
      let m := contextPark cfg m .calling quiet
      let m := m.setCtx target { m.ctx target with caller := some d }
      some (contextSwitch cfg m target 0 arg none)
    else none
  | .leave value quiet first answer =>
    match leaveTo cfg m quiet first with
    | none => none
    | some d =>
      if m.stopped = false ∧ m.stopping m.domain = false then
        -- one that is booted has nobody to go back to
        let m := if (callerWaits m).isSome then m
          else m.setCtx d { m.ctx d with caller := none }
        let m := m.setCtx m.domain { m.ctx m.domain with caller := none }
        some (contextSwitch cfg (contextPark cfg m .idle quiet) d 0 value answer)
      else none
  | .stops => if m.stopped = false then some { m with stopped := true } else none
  | .starts entry arg mode =>
    if m.stopped then some (hartStart cfg m entry arg mode) else none
  | .stopBegins d =>
    let gone := fun d' : Nat => d' = d ∧ ((m.ctx d').state = .calling ∨ (m.ctx d').state = .idle)
    some { m with
      stopping := update m.stopping d true
      ctx := fun d' =>
        if gone d' then { m.ctx d' with state := .none, caller := none } else m.ctx d' }
  | .stopEnds d => some { m with stopping := update m.stopping d false }
  | .domainStart d =>
    if (m.ctx d).state ≠ .calling ∧ (m.ctx d).state ≠ .idle ∧ (d = m.domain → m.stopped = true) then
      some (m.setCtx d { m.ctx d with state := .none })
    else none
  | .stopSelf answer =>
    let cur := m.setCtx m.domain { m.ctx m.domain with state := .none, caller := none }
    match callerWaits m with
    | none => some { cur with stopped := true }
    | some d =>
      some { contextSwitch cfg (servicesSwitchOut cfg cur) d (-1) 0 answer with
        stopped := false }

abbrev run (cfg : Config x) : Machine x → List (Act x) → Option (Machine x) :=
  Runs.run (step cfg)

end RiscvMonitor.HartState
