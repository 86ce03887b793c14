import RiscvMonitor.PmuSwitch
import RiscvMonitor.SseReset
import RiscvMonitor.Fwft
import RiscvMonitor.Replies

/-!
# Services after the stop of a domain

When a domain has been stopped and its context on the hart is fresh again, it is to
find the PMU, SSE and FWFT services as if it had never called them.  It does, with one
exception: `pmu_hart_init()` does not reset the values of the firmware counters, and a
counter configured without `CLEAR_VALUE` goes on from the value that it had.
-/

namespace RiscvMonitor.Services

open Replies

variable {x : Xlen}

/-! ### The services of one hart -/

structure Config (x : Xlen) where
  hart : Nat
  pmu : Pmu.Config x
  sse : Sse.Config x
  fwft : Fwft.Hardware

structure State (x : Xlen) where
  pmu : Pmu.Hart x
  sse : Sse.Sys x
  fwft : Fwft.Hart x

inductive SseCall (x : Xlen) where
  | readAttrs (eventId base count addr : Word x)
  | writeAttrs (eventId base count addr : Word x) (vals : List (Word x))
  | register (eventId entryPc entryArg : Word x)
  | unregister (eventId : Word x)
  | enable (eventId : Word x)
  | disable (eventId : Word x)
  | complete
  | inject (eventId hartid : Word x)
  | hartUnmask
  | hartMask

def SseCall.call : SseCall x → Sse.Call x
  | .readAttrs eventId base count addr => .sseReadAttrs eventId base count addr
  | .writeAttrs eventId base count addr vals => .sseWriteAttrs eventId base count addr vals
  | .register eventId entryPc entryArg => .sseRegister eventId entryPc entryArg
  | .unregister eventId => .sseUnregister eventId
  | .enable eventId => .sseEnable eventId
  | .disable eventId => .sseDisable eventId
  | .complete => .sseComplete
  | .inject eventId hartid => .sseInject eventId hartid
  | .hartUnmask => .sseHartUnmask
  | .hartMask => .sseHartMask

inductive Answer (x : Xlen) where
  | pmu (reply : Pmu.Reply x)
  | sse (error : SbiError)
  | attrs (values : Except SbiError (List (Word x)))
  /-- The code that the handler of an event goes back to. -/
  | resumes (interrupted : Option (Sse.Interrupted x))
  | fwft (error : SbiError) (value : Word x)
  | nothing

/-- What the event that `sse_complete()` ends has interrupted. -/
def interrupted (cfg : Sse.Config x) (s : Sse.Sys x) (self : Nat) : Option (Sse.Interrupted x) :=
  (Sse.topEvent cfg s self .running).map fun slot =>
    let e := s.event (s.domain self) slot
    ⟨e.attr .interruptedFlags, e.attr .interruptedSepc, e.attr .interruptedA6,
      e.attr .interruptedA7⟩

def sseAnswer (cfg : Sse.Config x) (s : Sse.Sys x) (self : Nat) : SseCall x → Answer x
  | .readAttrs eventId base count addr =>
    .attrs (Sse.sseReadAttrs cfg s self eventId base count addr)
  | .writeAttrs eventId base count addr vals =>
    .sse (Sse.sseWriteAttrs cfg s self eventId base count addr vals).2
  | .register eventId entryPc entryArg =>
    .sse (Sse.sseRegister cfg s self eventId entryPc entryArg).2
  | .unregister eventId => .sse (Sse.transition cfg s self eventId .registered .unused).2
  | .enable eventId => .sse (Sse.transition cfg s self eventId .registered .enabled).2
  | .disable eventId => .sse (Sse.transition cfg s self eventId .enabled .registered).2
  | .complete => .resumes (interrupted cfg s self)
  | .inject eventId hartid => .sse (Sse.sseInject cfg s self eventId hartid).2
  | .hartUnmask => .sse (Sse.sseHartUnmask s self).2
  | .hartMask => .sse (Sse.sseHartMask s self).2

/-- `event_source_update()` of the counter overflow event: armed once it is enabled. -/
def overflowArmed (s : Sse.Sys x) (self : Nat) : Bool :=
  let e := s.event (s.domain self) (.onHart self 2)
  e.state == .enabled || e.state == .running

/-- A call of one of the services, or what happens between the calls: something counts, a trap
    ends, an event is raised. -/
inductive Op (x : Xlen) where
  | pmu (mem : Pmu.Mem) (c : Pmu.Call x)
  | sse (c : SseCall x)
  | fwft (c : Fwft.Call x)
  | fwEvent (event : BitVec 32)
  | counts (n : Nat) (k : BitVec 64)
  | trapEnd (saved : Sse.Interrupted x)
  | raiseLocal (id : Word x)
  | raiseGlobal (id : Nat)

def call (cfg : Config x) (s : State x) : Op x → State x × Answer x
  | .pmu mem c =>
    let r := Pmu.ecall cfg.pmu s.pmu mem c
    ({ s with pmu := r.1 }, .pmu r.2)
  | .sse c =>
    let sse := Sse.ecall cfg.sse s.sse cfg.hart c.call
    ({ s with sse := sse, pmu := Pmu.sseEnable s.pmu (overflowArmed sse cfg.hart) },
      sseAnswer cfg.sse s.sse cfg.hart c)
  | .fwft c =>
    let r := Fwft.ecall cfg.fwft s.fwft c
    ({ s with fwft := r.1 }, .fwft r.2.1 r.2.2)
  | .fwEvent event => ({ s with pmu := Pmu.fwEvent s.pmu event }, .nothing)
  | .counts n k =>
    ({ s with pmu := { s.pmu with hw := Pmu.counts cfg.pmu s.pmu.hw n k } }, .nothing)
  | .trapEnd saved =>
    ({ s with sse := Sse.sseProcess cfg.sse s.sse cfg.hart saved }, .nothing)
  | .raiseLocal id => ({ s with sse := (Sse.sseRaiseLocal cfg.sse s.sse cfg.hart id).1 }, .nothing)
  | .raiseGlobal id =>
    let d := s.sse.domain cfg.hart
    ({ s with sse := Sse.sseRaiseGlobal cfg.sse s.sse cfg.hart id d }, .nothing)

/-! ### A stop, and a fresh context -/

/-- What the domain did on the hart before: this, or a call of another extension. -/
inductive Past (x : Xlen) where
  | op (o : Op x)
  | other (c : Sse.Call x)

def past (cfg : Config x) (s : State x) : Past x → State x
  | .op o => (call cfg s o).1
  | .other c => { s with sse := Sse.ecall cfg.sse s.sse cfg.hart c }

structure Start (cfg : Config x) where
  state : State x
  names : Sse.LocalNames cfg.hart (state.sse.domain cfg.hart) state.sse
  taken : cfg.fwft.Takes state.fwft.menvcfg

def Start.after {cfg : Config x} (s : Start cfg) (es : List (Past x)) : State x :=
  es.foldl (past cfg) s.state

structure Left (cfg : Config x) where
  /-- The hart went on in the domain that it had come from. -/
  switched : Bool
  pmu : Pmu.Left cfg.pmu
  features : BitVec 64
  misaligned : Bool

/-- The domain is stopped, and `hart_services_switch_in(true)` has been called for its
    context on the hart. -/
def restart (cfg : Config x) (s : State x) (w : Sse.World) (l : Left cfg) : State x where
  pmu :=
    Pmu.switchIn cfg.pmu true
      ⟨if l.switched then (Pmu.switchOut cfg.pmu s.pmu).p else s.pmu.p, l.pmu.hw⟩
  sse := Sse.sseRestart cfg.sse w s.sse cfg.hart
  fwft := Fwft.switchIn cfg.fwft true (Fwft.leftBy cfg.fwft s.fwft l.features l.misaligned)

/-! ### What the calls are answered from -/

/-- Two states in which the hart gets the same answers. -/
structure Same (cfg : Config x) (d : Nat) (s t : State x) : Prop where
  pmu : s.pmu.plain = t.pmu.plain
  sse : Sse.Agree cfg.sse cfg.hart d s.sse t.sse
  fwft : s.fwft = t.fwft

section Same

variable {cfg : Config x} {d : Nat} {s t : State x}

section

variable {cfg : Sse.Config x} {self : Nat} {s t : Sse.Sys x} (h : Sse.Agree cfg self d s t)
include h

theorem interrupted_same : interrupted cfg s self = interrupted cfg t self := by
  unfold interrupted
  rw [h.topEvent, h.here, h.there]
  cases htop : Sse.topEvent cfg t self .running with
  | none => rfl
  | some slot => simp only [Option.map_some, h.seen slot (Sse.topEvent_mem htop).1]

theorem sse_same (c : SseCall x) :
    sseAnswer cfg s self c = sseAnswer cfg t self c ∧
      Sse.Agree cfg self d (Sse.ecall cfg s self c.call) (Sse.ecall cfg t self c.call) := by
  cases c with
  | readAttrs eventId base count addr =>
    exact ⟨congrArg Answer.attrs (h.sseReadAttrs eventId base count addr), h⟩
  | writeAttrs eventId base count addr vals =>
    exact (h.sseWriteAttrs eventId base count addr vals).imp_left (congrArg Answer.sse)
  | register eventId entryPc entryArg =>
    exact (h.sseRegister eventId entryPc entryArg).imp_left (congrArg Answer.sse)
  | unregister eventId =>
    exact (h.transition eventId .registered .unused).imp_left (congrArg Answer.sse)
  | enable eventId =>
    exact (h.transition eventId .registered .enabled).imp_left (congrArg Answer.sse)
  | disable eventId =>
    exact (h.transition eventId .enabled .registered).imp_left (congrArg Answer.sse)
  | complete => exact ⟨congrArg Answer.resumes (interrupted_same h), h.sseComplete.2⟩
  | inject eventId hartid =>
    exact (h.sseInject eventId hartid).imp_left (congrArg Answer.sse)
  | hartUnmask => exact h.sseHartUnmask.imp_left (congrArg Answer.sse)
  | hartMask => exact h.sseHartMask.imp_left (congrArg Answer.sse)

end

theorem pmu_same (cfg : Pmu.Config x) {b c : Pmu.Hart x} (h : b.plain = c.plain) (mem : Pmu.Mem)
    (op : Pmu.Call x) :
    (Pmu.ecall cfg b mem op).2 = (Pmu.ecall cfg c mem op).2 ∧
      (Pmu.ecall cfg b mem op).1.plain = (Pmu.ecall cfg c mem op).1.plain := by
  have hb := Pmu.ecall_plain cfg b mem op
  have hc := Pmu.ecall_plain cfg c mem op
  rw [h, hc, Prod.mk.injEq] at hb
  exact ⟨hb.2.symm, hb.1.symm⟩

theorem counts_same {cfg : Pmu.Config x} {b c : Pmu.Hart x} (h : b.plain = c.plain) (n : Nat)
    (k : BitVec 64) :
    ({ b with hw := Pmu.counts cfg b.hw n k } : Pmu.Hart x).plain =
      ({ c with hw := Pmu.counts cfg c.hw n k } : Pmu.Hart x).plain := by
  have hp : b.plain.p = c.plain.p := congrArg Pmu.Hart.p h
  have hhw : b.hw.silent = c.hw.silent := congrArg Pmu.Hart.hw h
  have hcounts : (Pmu.counts cfg b.hw n k).silent = (Pmu.counts cfg c.hw n k).silent := by
    rw [Pmu.counts_silent, hhw, ← Pmu.counts_silent]
  exact congrArg₂ Pmu.Hart.mk hp hcounts

theorem Same.call (h : Same cfg d s t) (o : Op x) :
    (call cfg s o).2 = (call cfg t o).2 ∧ Same cfg d (call cfg s o).1 (call cfg t o).1 := by
  cases o with
  | pmu mem c =>
    obtain ⟨hreply, hplain⟩ := pmu_same cfg.pmu h.pmu mem c
    exact ⟨congrArg Answer.pmu hreply, { h with pmu := hplain }⟩
  | sse c =>
    obtain ⟨hanswer, hagree⟩ := sse_same h.sse c
    refine ⟨hanswer, { h with pmu := ?_, sse := hagree }⟩
    exact (Pmu.sseEnable_plain _ _).trans (h.pmu.trans (Pmu.sseEnable_plain _ _).symm)
  | fwft c =>
    simp only [Services.call, h.fwft]
    exact ⟨trivial, { h with fwft := rfl }⟩
  | fwEvent event =>
    refine ⟨rfl, { h with pmu := ?_ }⟩
    exact (Pmu.fwEvent_plain s.pmu event).symm.trans
      ((congrArg (Pmu.fwEvent · event) h.pmu).trans (Pmu.fwEvent_plain t.pmu event))
  | counts n k => exact ⟨rfl, { h with pmu := counts_same h.pmu n k }⟩
  | trapEnd saved => exact ⟨rfl, { h with sse := h.sse.sseProcess saved }⟩
  | raiseLocal id => exact ⟨rfl, { h with sse := h.sse.sseRaiseLocal id }⟩
  | raiseGlobal id =>
    refine ⟨rfl, { h with sse := ?_ }⟩
    simp only [Services.call, h.sse.here, h.sse.there]
    exact h.sse.sseRaiseGlobal id

theorem Same.alike (h : Same cfg d s t) : Alike (Services.call cfg) s t :=
  alike_of_kept (K := Same cfg d) (fun _ _ o hst => hst.call o) h

end Same

/-! ### Histories -/

section Histories

variable {cfg : Config x}

structure Within (cfg : Config x) (s t : State x) : Prop where
  sse : Sse.Elsewhere cfg.hart (s.sse.domain cfg.hart) s.sse t.sse
  fwft : Fwft.Kept cfg.fwft s.fwft t.fwft

theorem Within.past {s : Start cfg} {t : State x} (h : Within cfg s.state t) (p : Past x) :
    Within cfg s.state (past cfg t p) := by
  have hd : t.sse.domain cfg.hart = s.state.sse.domain cfg.hart := by rw [h.sse.domain]
  have hnames := h.sse.localNames s.names
  cases p with
  | other c => exact { h with sse := h.sse.trans (Sse.ecall_elsewhere hd hnames c) }
  | op o =>
    cases o with
    | pmu | fwEvent | counts => exact { h with }
    | sse c => exact { h with sse := h.sse.trans (Sse.ecall_elsewhere hd hnames c.call) }
    | fwft c => exact { h with fwft := h.fwft.ecall s.taken c }
    | trapEnd saved => exact { h with sse := h.sse.trans (Sse.sseProcess_elsewhere hd saved) }
    | raiseLocal id =>
      exact { h with sse := h.sse.trans (Sse.sseRaiseLocal_elsewhere hd hnames id) }
    | raiseGlobal id =>
      refine { h with sse := h.sse.trans ?_ }
      simp only [Services.past, Services.call, hd]
      exact Sse.sseRaiseGlobal_elsewhere hnames id

theorem Start.within (s : Start cfg) (es : List (Past x)) : Within cfg s.state (s.after es) := by
  have hstart : Within cfg s.state s.state := ⟨.refl _, .refl s.taken⟩
  exact List.foldlRecOn es _ hstart fun t ht p _ => ht.past p

end Histories

/-! ### Fresh again -/

section Restart

variable {cfg : Config x}

theorem restart_pmu (s : State x) (w : Sse.World) (l : Left cfg) :
    (restart cfg s w l).pmu.plain = Pmu.fresh cfg.pmu s.pmu.p.fwValue := by
  have hvalues : (if l.switched then (Pmu.switchOut cfg.pmu s.pmu).p else s.pmu.p).fwValue =
      s.pmu.p.fwValue := by
    unfold Pmu.switchOut
    dsimp only
    split
    · split <;> split <;> rfl
    · rfl
  rw [← hvalues]
  exact Pmu.switchIn_fresh cfg.pmu _ l.pmu

theorem restart_same (s : Start cfg) (es fs : List (Past x)) (w : Sse.World) (l₁ l₂ : Left cfg)
    (hvalues : (s.after es).pmu.p.fwValue = (s.after fs).pmu.p.fwValue) :
    Same cfg (s.state.sse.domain cfg.hart) (restart cfg (s.after es) w l₁)
      (restart cfg (s.after fs) w l₂) where
  pmu := by rw [restart_pmu, restart_pmu, hvalues]
  sse := Sse.sseRestart_agree rfl (s.within es).sse (s.within fs).sse w
  fwft := by
    have hes := Fwft.switchIn_fresh s.taken (s.within es).fwft l₁.features l₁.misaligned
    have hfs := Fwft.switchIn_fresh s.taken (s.within fs).fwft l₂.features l₂.misaligned
    exact hes.trans hfs.symm

theorem restart_record (s : State x) (w : Sse.World) (l : Left cfg) :
    (∀ n, (restart cfg s w l).pmu.p.event n = Pmu.eventNone) ∧
      (restart cfg s w l).pmu.p.fwValue = s.pmu.p.fwValue ∧
      ∀ n, (restart cfg s w l).pmu.hw.counter n = 0 := by
  have hplain := restart_pmu s w l
  have hevent := congrArg (fun b : Pmu.Hart x => b.p.event) hplain
  have hvalue := congrArg (fun b : Pmu.Hart x => b.p.fwValue) hplain
  have hcounter := congrArg (fun b : Pmu.Hart x => b.hw.counter) hplain
  exact ⟨congrFun hevent, hvalue, congrFun hcounter⟩

def anyMem : Pmu.Mem := ⟨0, fun _ => 0, fun _ => (0, 0, 0)⟩

theorem fwValue_of_alike {s t : State x} {w : Sse.World} {l₁ l₂ : Left cfg}
    (halike : Alike (call cfg) (restart cfg s w l₁) (restart cfg t w l₂)) :
    s.pmu.p.fwValue = t.pmu.p.fwValue := by
  obtain ⟨hsfree, hsvalue, -⟩ := restart_record s w l₁
  obtain ⟨htfree, htvalue, -⟩ := restart_record t w l₂
  funext i
  have hnext := halike.next
    (.pmu anyMem (.configMatching (Pmu.fwIndex i) 1 0 Pmu.fwProbeEvent 0))
  have hlow := hnext.reply (.pmu anyMem (.fwRead (Pmu.fwIndex i)))
  have hhigh := hnext.reply (.pmu anyMem (.fwReadHi (Pmu.fwIndex i)))
  simp only [call, Pmu.ecall, Pmu.counterFwRead_configured cfg.pmu hsfree i,
    Pmu.counterFwRead_configured cfg.pmu htfree i, Answer.pmu.injEq, Pmu.Reply.mk.injEq,
    true_and, and_true] at hlow hhigh
  have hvalue := Pmu.eq_of_halves hlow hhigh
  rwa [hsvalue, htvalue] at hvalue

/-- Two histories of the domain on the hart are told apart in its fresh context by the values
    that they leave in the firmware counters, and by nothing else. -/
theorem services_start_over_iff (cfg : Config x) (s : Start cfg) (es fs : List (Past x))
    (w : Sse.World) (l₁ l₂ : Left cfg) :
    (Alike (call cfg) (restart cfg (s.after es) w l₁) (restart cfg (s.after fs) w l₂) ↔
      (s.after es).pmu.p.fwValue = (s.after fs).pmu.p.fwValue) ∧
    ((∀ base mask flags eventIdx data c,
        let r := Pmu.counterConfig cfg.pmu (restart cfg (s.after es) w l₁).pmu base mask flags
          eventIdx data
        r.2 = (.success, c) → Pmu.counterValue r.1 c.toNat = 0) ↔
      ∀ i, (s.after es).pmu.p.fwValue i = 0) := by
  refine ⟨⟨fwValue_of_alike, fun h => (restart_same s es fs w l₁ l₂ h).alike⟩, ?_⟩
  obtain ⟨hfree, hvalue, hcounter⟩ := restart_record (s.after es) w l₁
  constructor
  · intro hzero i
    have hconfig := Pmu.counterConfig_fw cfg.pmu hfree i
    have hconfigured := hzero (Pmu.fwIndex i) 1 0 Pmu.fwProbeEvent 0 (Pmu.fwIndex i)
      (by rw [hconfig])
    rw [hconfig, Pmu.counterValue, if_pos (by rw [Pmu.fwIndex_toNat]; exact Nat.le_add_right ..),
      Pmu.fwSlot_fwIndex] at hconfigured
    rw [← hvalue]
    exact hconfigured
  · intro hzero base mask flags eventIdx data c r _
    have hvalues : ∀ i, (restart cfg (s.after es) w l₁).pmu.p.fwValue i = 0 := by
      intro i
      rw [hvalue, hzero]
    exact Pmu.counterConfig_zero cfg.pmu hvalues hcounter base mask flags eventIdx data c.toNat

end Restart

/-! ### A counter that goes on -/

/-- A hart without hardware counters, in domain 1. -/
def noCounters : Config .rv64 where
  hart := 0
  pmu := .bare
  sse :=
    { harts := 1
      hartId := fun _ => 0
      valid := fun _ => true
      monitor := []
      domain := fun _ => rootDomain {0} 0 0x80200000 .supervisor
      ipiAvailable := true
      platformStart := false
      platformSuspend := false
      hypervisor := fun _ => false
      eventAvailable := fun _ id => Sse.eventInjectable id
      mpxyEvents := 0 }
  fwft := .full false

def firstStart : Start noCounters where
  state :=
    { pmu := ⟨⟨Pmu.snapshotNone, false, false, fun _ => Pmu.eventNone, 0, fun _ => 0, .zero⟩, .zero⟩
      sse := Sse.init fun _ => 1
      fwft := ⟨⟨0, 0, false⟩, 0, 0⟩ }
  names := by
    have hzero : Sse.isGlobal 0 = false := by decide
    exact fun _ _ _ => hzero
  taken := fun _ => rfl

/-- The domain has the monitor count misaligned loads, and makes one. -/
def countsOne : List (Past .rv64) :=
  [.op (.pmu anyMem (.configMatching 32 1 4 Pmu.fwProbeEvent 0)), .op (.fwEvent 0)]

def alone : Sse.World := ⟨fun _ => .started, fun _ _ => true, fun _ _ => false, []⟩

def nothingLeft : Left noCounters where
  switched := false
  pmu := ⟨.zero, fun _ => rfl, fun _ _ => rfl, fun _ _ => rfl⟩
  features := 0
  misaligned := false

/-- The counter is configured without `CLEAR_VALUE`, and read. -/
def readsCounter : List (Op .rv64) :=
  [.pmu anyMem (.configMatching 32 1 0 Pmu.fwProbeEvent 0), .pmu anyMem (.fwRead 32)]

def Answer.word : Answer x → Option (SbiError × Word x)
  | .pmu reply => some (reply.error, reply.value)
  | _ => none

/-- A counter that the domain uses for the first time after its stop says 1, as it did
    before. -/
theorem firmware_counter_survives_stop :
    (replies (call noCounters) (restart noCounters (firstStart.after countsOne) alone nothingLeft)
      readsCounter).map Answer.word = [some (.success, 32), some (.success, 1)] ∧
    (replies (call noCounters) (restart noCounters (firstStart.after []) alone nothingLeft)
      readsCounter).map Answer.word = [some (.success, 32), some (.success, 0)] := by
  decide +kernel

end RiscvMonitor.Services
