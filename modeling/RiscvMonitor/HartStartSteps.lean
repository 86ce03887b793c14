import RiscvMonitor.HartStart

/-!
# What a step of a start does

The target's own steps, then those of a starter.  When a start is only undone with
its target still waiting, the state of a hart fits where it is, the start lock has
one holder, and a hart whose arguments are being written is stopped.
-/

namespace RiscvMonitor.HartStart

open Function (forall_update_iff update update_eq_self update_of_ne update_self)

variable {x : Xlen} {n : Nat} {s t : Sys x} {h : Nat}

/-- A step of a hart on its own: its state becomes `state`. -/
inductive Walk (s : Sys x) (h : Nat) : Pc x → HsmState → Pc x → Prop
  | platform (target : Nat) (ok : Bool) :
      Walk s h (.bootPlat target) (s.hsm h) (if ok then .bootKick target else .bootUndo target)
  | kick (target : Nat) : Walk s h (.bootKick target) (s.hsm h) .smode
  | stop (hsm : s.hsm h = .started) : Walk s h .smode .stopPending .arrive
  | flagged (hstop : s.stopping h = true) : Walk s h .smode (s.hsm h) .forceStop
  | forceStop : Walk s h .forceStop .stopPending .arrive
  | on : Walk s h .off (s.hsm h) .reset
  | reset (hpresent : s.present h = true) : Walk s h .reset (s.hsm h) .comeIn
  | first (hpresent : s.present h = false) : Walk s h .reset .stopped .comeIn
  | arriveSuspended (hsm : s.hsm h = .suspended) : Walk s h .arrive (s.hsm h) .resumeReset
  | arrive (hsm : s.hsm h ≠ .suspended) : Walk s h .arrive (s.hsm h) .park
  | park : Walk s h .park .stopped .wait
  | resumeReset : Walk s h .resumeReset .resumePending .enter
  | leave (hsm : s.hsm h = .startPending) : Walk s h .wait (s.hsm h) .enter
  | waitOff : Walk s h .wait (s.hsm h) .off
  | enterStop (hstop : s.stopping h = true) : Walk s h .enter (s.hsm h) .forceStop
  | enter (hstop : s.stopping h = false) : Walk s h .enter (s.hsm h) .started
  | started : Walk s h .started .started .readAddr
  | readAddr : Walk s h .readAddr (s.hsm h) (.readArg (s.start h).addr)
  | readArg (addr : Word x) : Walk s h (.readArg addr) (s.hsm h) (.readMode addr (s.start h).arg)
  | readMode (addr arg : Word x) :
      Walk s h (.readMode addr arg) (s.hsm h) (.enters ⟨addr, arg, (s.start h).mode⟩)
  | enters (args : Args x) : Walk s h (.enters args) (s.hsm h) .smode
  | suspend (args : Args x) (hsm : s.hsm h = .started) :
      Walk s h .smode .suspendPending (.suspending args)
  | suspending (args : Args x) : Walk s h (.suspending args) (s.hsm h) (.suspendArgs args)
  | refused (args : Args x) : Walk s h (.suspending args) .started .smode
  | suspended : Walk s h .suspended .suspended .asleep
  | wakeStop (hstop : s.stopping h = true) : Walk s h .asleep (s.hsm h) .forceStop
  | wake : Walk s h .asleep (s.hsm h) .woken
  | asleepOff : Walk s h .asleep (s.hsm h) .off
  | woken : Walk s h .woken .resumePending .enter

inductive Effect (s : Sys x) (h : Nat) : Sys x → Prop
  | idle (hpc : s.pc h = .smode ∨ s.pc h = .wait) : Effect s h s
  | walk {state q} (hwalk : Walk s h (s.pc h) state q) : Effect s h ((s.setHsm h state).goto h q)
  | comeIn (hpc : s.pc h = .comeIn) :
      Effect s h ({ s with present := update s.present h true }.goto h .arrive)
  | suspendArgs {args} (hpc : s.pc h = .suspendArgs args) :
      Effect s h ((s.setStart h args).goto h .suspended)
  | boot {target args} (hpc : s.pc h = .smode) (hpresent : s.present target = true) :
      Effect s h (s.goto h (.bootLock target args))
  | lock {target args} (hpc : s.pc h = .bootLock target args) (hlock : s.lock = none) :
      Effect s h ((s.setLock (some h)).goto h (.bootState target args))
  | state {target args} (hpc : s.pc h = .bootState target args) :
      Effect s h (s.goto h (.bootFlag target args (s.hsm target)))
  | refuse {target args state} (hpc : s.pc h = .bootFlag target args state) :
      Effect s h ((s.setLock none).goto h .smode)
  | accept {target args} (hpc : s.pc h = .bootFlag target args .stopped) :
      Effect s h (s.goto h (.bootAddr target args))
  | addr {target args} (hpc : s.pc h = .bootAddr target args) :
      Effect s h ((s.setStart target { s.start target with addr := args.addr }).goto h
        (.bootArg target args))
  | arg {target args} (hpc : s.pc h = .bootArg target args) :
      Effect s h ((s.setStart target { s.start target with arg := args.arg }).goto h
        (.bootMode target args))
  | mode {target args} (hpc : s.pc h = .bootMode target args) :
      Effect s h ((s.setStart target { s.start target with mode := args.mode }).goto h
        (.bootPending target args))
  | pending {target args} (hpc : s.pc h = .bootPending target args) :
      Effect s h (bootPending s h target)
  | undo {target} (hpc : s.pc h = .bootUndo target) (hsm : s.hsm target = .startPending) :
      Effect s h ((s.setHsm target .stopped).goto h .smode)
  | late {target} (hpc : s.pc h = .bootUndo target) (hsm : s.hsm target ≠ .startPending) :
      Effect s h (s.goto h .smode)

/-! ### Every step is one of these -/

theorem setHsm_self (s : Sys x) (h : Nat) : s.setHsm h (s.hsm h) = s := by
  unfold Sys.setHsm
  rw [update_eq_self]

theorem Effect.of_walk {p q : Pc x} (hpc : s.pc h = p) (hwalk : Walk s h p (s.hsm h) q) :
    Effect s h (s.goto h q) := by
  have heff : Effect s h ((s.setHsm h (s.hsm h)).goto h q) := .walk (hpc ▸ hwalk)
  rwa [setHsm_self] at heff

theorem Effect.of_set {p q : Pc x} {state : HsmState} (hpc : s.pc h = p)
    (hwalk : Walk s h p state q) : Effect s h ((s.setHsm h state).goto h q) :=
  .walk (hpc ▸ hwalk)

variable {target : Nat} {args : Args x}

theorem bootFlag_effect {state : HsmState} (hpc : s.pc h = .bootFlag target args state) :
    Effect s h (bootFlag s h target args state) := by
  unfold bootFlag
  split
  case isTrue => exact .refuse hpc
  case isFalse =>
    split
    case isTrue hstate => exact .accept (hstate ▸ hpc)
    case isFalse => exact .refuse hpc

theorem bootUndo_effect (hpc : s.pc h = .bootUndo target) :
    Effect s h (bootUndo s h target) := by
  unfold bootUndo
  split
  case isTrue hsm => exact .undo hpc hsm
  case isFalse hsm => exact .late hpc hsm

variable {a : Act x}

theorem smode_effect (hnot : ∀ b, a ≠ .domain b) (hpc : s.pc h = .smode)
    (hadv : advance n s h .smode a = some t) : Effect s h t := by
  cases a with
  | boot target args =>
    cases hadv
    split
    case isTrue hvalid => exact .boot hpc hvalid.2
    case isFalse => exact .idle (.inl hpc)
  | stop =>
    cases hadv
    split
    case isTrue hsm => exact .of_set hpc (.stop hsm)
    case isFalse => exact .idle (.inl hpc)
  | suspend args =>
    cases hadv
    split
    case isTrue hsm => exact .of_set hpc (.suspend args hsm)
    case isFalse => exact .idle (.inl hpc)
  | go =>
    simp only [advance] at hadv
    split at hadv
    case isTrue hstop =>
      cases hadv
      exact .of_walk hpc (.flagged hstop)
    case isFalse => cases hadv
  | wake => cases hadv
  | platform ok => cases hadv
  | power => cases hadv
  | domain b => exact absurd rfl (hnot b)

theorem reset_effect (hpc : s.pc h = .reset) :
    Effect s h ((if s.present h then s else s.setHsm h .stopped).goto h .comeIn) := by
  split
  case isTrue hpresent => exact .of_walk hpc (.reset hpresent)
  case isFalse hpresent => exact .of_set hpc (.first (Bool.eq_false_iff.mpr hpresent))

theorem arrive_effect (hpc : s.pc h = .arrive) :
    Effect s h (s.goto h (if s.hsm h = .suspended then .resumeReset else .park)) := by
  split
  case isTrue hsm => exact .of_walk hpc (.arriveSuspended hsm)
  case isFalse hsm => exact .of_walk hpc (.arrive hsm)

theorem wait_effect (hpc : s.pc h = .wait) :
    Effect s h (if s.hsm h = .startPending then s.goto h .enter else s) := by
  split
  case isTrue hsm => exact .of_walk hpc (.leave hsm)
  case isFalse => exact .idle (.inr hpc)

theorem enter_effect (hpc : s.pc h = .enter) :
    Effect s h (s.goto h (if s.stopping h then .forceStop else .started)) := by
  split
  case isTrue hstop => exact .of_walk hpc (.enterStop hstop)
  case isFalse hstop => exact .of_walk hpc (.enter (Bool.eq_false_iff.mpr hstop))

theorem wake_effect (hpc : s.pc h = .asleep) :
    Effect s h (s.goto h (if s.stopping h then .forceStop else .woken)) := by
  split
  case isTrue hstop => exact .of_walk hpc (.wakeStop hstop)
  case isFalse => exact .of_walk hpc .wake

theorem advance_effect (hnot : ∀ b, a ≠ .domain b) (hadv : advance n s h (s.pc h) a = some t) :
    Effect s h t := by
  generalize hpc : s.pc h = pc at hadv
  by_cases hsmode : pc = .smode
  · subst hsmode
    exact smode_effect hnot hpc hadv
  unfold advance at hadv
  split at hadv
  all_goals first
    | exact absurd rfl hsmode
    | cases hadv
    | (split at hadv <;> cases hadv)
  · exact .lock hpc ‹_›
  · exact .state hpc
  · exact bootFlag_effect hpc
  · exact .addr hpc
  · exact .arg hpc
  · exact .mode hpc
  · exact .pending hpc
  · exact .of_walk hpc (.platform _ _)
  · exact bootUndo_effect hpc
  · exact .of_walk hpc (.kick _)
  · exact .of_set hpc .forceStop
  · exact .of_walk hpc .on
  · exact reset_effect hpc
  · exact .comeIn hpc
  · exact arrive_effect hpc
  · exact .of_set hpc .park
  · exact .of_set hpc .resumeReset
  · exact wait_effect hpc
  · exact .of_walk hpc .waitOff
  · exact enter_effect hpc
  · exact .of_set hpc .started
  · exact .of_walk hpc .readAddr
  · exact .of_walk hpc (.readArg _)
  · exact .of_walk hpc (.readMode _ _)
  · exact .of_walk hpc (.enters _)
  · exact .of_walk hpc (.suspending _)
  · exact .of_set hpc (.refused _)
  · exact .suspendArgs hpc
  · exact .of_set hpc .suspended
  · exact wake_effect hpc
  · exact .of_walk hpc .asleepOff
  · exact .of_set hpc .woken
  · exact absurd rfl (hnot _)

theorem step_effect (hnot : ∀ b, a ≠ .domain b) (hstep : step n s (h, a) = some t) :
    Effect s h t := by
  unfold step at hstep
  split at hstep
  case isTrue => exact advance_effect hnot hstep
  case isFalse => cases hstep

theorem step_domain {stopping : Bool} (hstep : step n s (h, .domain stopping) = some t) :
    t = { s with stopping := update s.stopping h stopping } := by
  unfold step at hstep
  split at hstep
  case isTrue =>
    dsimp only at hstep
    generalize s.pc h = pc at hstep
    cases pc <;> exact (Option.some.inj hstep).symm
  case isFalse => cases hstep

/-! ### Where a hart is and its state -/

def Pc.states : Pc x → List HsmState
  | .smode | .bootLock .. | .bootState .. | .bootFlag .. | .bootAddr .. | .bootArg ..
  | .bootMode .. | .bootPending .. | .bootPlat _ | .bootUndo _ | .bootKick _ | .readAddr
  | .readArg _ | .readMode .. | .enters _ => [.started]
  | .forceStop => [.started, .startPending, .resumePending, .suspended]
  | .enter | .started => [.startPending, .resumePending]
  | .suspending _ | .suspendArgs _ | .suspended => [.suspendPending]
  | .asleep | .woken | .resumeReset => [.suspended]
  | .wait => [.stopped, .startPending]
  | .park => [.stopPending, .stopped, .startPending]
  | .arrive => [.stopPending, .stopped, .startPending, .suspended]
  | .off | .reset | .comeIn => [.stopped, .startPending, .suspended]

def Pc.left : Pc x → Bool
  | .enter | .started | .forceStop => true
  | _ => false

def Pc.holds : Pc x → Bool
  | .bootState .. | .bootFlag .. | .bootAddr .. | .bootArg .. | .bootMode .. | .bootPending .. => true
  | _ => false

def Pc.boots : Pc x → Option Nat
  | .bootLock target _ | .bootState target _ | .bootFlag target _ _ | .bootAddr target _
  | .bootArg target _ | .bootMode target _ | .bootPending target _ | .bootPlat target
  | .bootUndo target | .bootKick target => some target
  | _ => none

def Pc.writes : Pc x → Option Nat
  | .bootFlag target _ .stopped | .bootAddr target _ | .bootArg target _ | .bootMode target _
  | .bootPending target _ => some target
  | _ => none

structure Orderly (s : Sys x) : Prop where
  /-- A hart that has not come in yet has no state. -/
  fits : ∀ h, s.hsm h ∈ (s.pc h).states ∨ s.pc h = .reset ∧ s.present h = false
  holder : ∀ g, (s.pc g).holds = true → s.lock = some g
  stopped : ∀ g target, (s.pc g).writes = some target → s.hsm target = .stopped
  present : ∀ g target, (s.pc g).boots = some target → s.present target = true

/-- A start is undone only with its target still waiting for it, and a hart that
    comes to wait has no start pending. -/
def KeepsStarts (s : Sys x) (e : Nat × Act x) : Prop :=
  match s.pc e.1, e.2 with
  | .park, .go => s.hsm e.1 ≠ .startPending
  | .bootUndo target, .go =>
    s.hsm target = .startPending → s.starter target = some e.1 ∧ (s.pc target).left = false
  | _, _ => True

structure Careful (s : Sys x) (h : Nat) : Prop where
  park : s.pc h = .park → s.hsm h ≠ .startPending
  undo : ∀ target, s.pc h = .bootUndo target → s.hsm target = .startPending →
    s.starter target = some h ∧ (s.pc target).left = false

theorem step_go (hnot : ∀ b, a ≠ .domain b) (hstep : step n s (h, a) = some t)
    (hpc : s.pc h = .park ∨ ∃ target, s.pc h = .bootUndo target) : a = .go := by
  unfold step at hstep
  split at hstep
  case isFalse => cases hstep
  case isTrue =>
    dsimp only at hstep
    rcases hpc with hpc | ⟨target, hpc⟩ <;> rw [hpc] at hstep <;> cases a <;>
      first | exact absurd rfl (hnot _) | rfl | cases hstep

theorem KeepsStarts.careful (hkeeps : KeepsStarts s (h, a)) (hnot : ∀ b, a ≠ .domain b)
    (hstep : step n s (h, a) = some t) : Careful s h := by
  constructor
  · intro hpc
    cases step_go hnot hstep (.inl hpc)
    rw [KeepsStarts] at hkeeps
    simpa only [hpc] using hkeeps
  · intro target hpc
    cases step_go hnot hstep (.inr ⟨target, hpc⟩)
    rw [KeepsStarts] at hkeeps
    simpa only [hpc] using hkeeps

/-! ### The order is kept -/

section Order

variable {p q : Pc x} {state : HsmState}

theorem Pc.holds_of_writes (hwrites : p.writes = some target) : p.holds = true := by
  cases p <;> first | rfl | cases hwrites

theorem Pc.writes_bootFlag {k : Nat} (hwrites : (Pc.bootFlag target args state).writes = some k) :
    state = .stopped ∧ target = k := by
  cases state <;> first | exact ⟨rfl, Option.some.inj hwrites⟩ | cases hwrites

theorem Pc.startPending_mem (hmem : .stopped ∈ p.states) : .startPending ∈ p.states := by
  cases p <;> revert hmem <;> simp [Pc.states]

theorem Pc.stopped_mem (hleft : p.left = false) (hmem : .startPending ∈ p.states) :
    .stopped ∈ p.states := by
  cases p <;> revert hmem hleft <;> simp [Pc.states, Pc.left]

section

variable (hwalk : Walk s h p state q)
  (hfits : s.hsm h ∈ p.states ∨ p = .reset ∧ s.present h = false)
include hwalk hfits

theorem Walk.fits : state ∈ q.states := by
  cases hwalk
  case first => exact List.mem_cons_self
  case reset hpresent =>
    rcases hfits with hfits | ⟨-, habsent⟩
    · exact hfits
    · rw [hpresent] at habsent
      cases habsent
  case platform target ok => cases ok <;> grind [Pc.states]
  all_goals grind [Pc.states]

theorem Walk.keeps_stopped (hstopped : s.hsm h = .stopped) : state = .stopped := by
  rw [hstopped] at hfits
  cases hwalk <;> simp_all [Pc.states]

end

theorem Walk.quiet (hwalk : Walk s h p state q) :
    q.holds = false ∧ q.writes = none ∧ ∀ target, q.boots = some target → p.boots = some target := by
  cases hwalk
  case platform target ok => cases ok <;> exact ⟨rfl, rfl, fun _ hboots => hboots⟩
  all_goals exact ⟨rfl, rfl, nofun⟩

section

variable (ho : Orderly s)
include ho

theorem Orderly.moved (hpc : t.pc = update s.pc h q) (hhsm : t.hsm = update s.hsm h state)
    (hfits : state ∈ q.states) (hstopped : s.hsm h = .stopped → state = .stopped)
    (hpresent : ∀ i ≠ h, t.present i = s.present i)
    (hcame : s.present h = true → t.present h = true)
    (hlock : ∀ g ≠ h, (s.pc g).holds = true → t.lock = some g)
    (hholds : q.holds = true → t.lock = some h)
    (hwrites : ∀ target, q.writes = some target → s.hsm target = .stopped)
    (hboots : ∀ target, q.boots = some target → s.present target = true) : Orderly t := by
  have hkeep : ∀ i, s.hsm i = .stopped → t.hsm i = .stopped := by
    intro i hi
    rw [hhsm]
    by_cases heq : i = h
    · rw [heq, update_self]
      exact hstopped (heq ▸ hi)
    · rwa [update_of_ne heq]
  have hstill : ∀ i, s.present i = true → t.present i = true := by
    intro i hi
    by_cases heq : i = h
    · exact heq ▸ hcame (heq ▸ hi)
    · rwa [hpresent i heq]
  constructor
  · intro i
    rw [hpc, hhsm]
    by_cases heq : i = h
    · rw [heq, update_self, update_self]
      exact .inl hfits
    · rw [update_of_ne heq, update_of_ne heq, hpresent i heq]
      exact ho.fits i
  · rw [hpc]
    exact (forall_update_iff s.pc fun g p => p.holds = true → t.lock = some g).mpr ⟨hholds, hlock⟩
  · rw [hpc]
    exact (forall_update_iff s.pc fun _ p => ∀ k, p.writes = some k → t.hsm k = .stopped).mpr
      ⟨fun k hk => hkeep k (hwrites k hk), fun g _ k hk => hkeep k (ho.stopped g k hk)⟩
  · rw [hpc]
    exact (forall_update_iff s.pc fun _ p => ∀ k, p.boots = some k → t.present k = true).mpr
      ⟨fun k hk => hstill k (hboots k hk), fun g _ k hk => hstill k (ho.present g k hk)⟩

theorem Orderly.walk (hwalk : Walk s h (s.pc h) state q) :
    Orderly ((s.setHsm h state).goto h q) := by
  obtain ⟨hholds, hwrites, hboots⟩ := hwalk.quiet
  refine ho.moved rfl rfl (hwalk.fits (ho.fits h)) (hwalk.keeps_stopped (ho.fits h)) (fun _ _ => rfl)
    id (fun g _ => ho.holder g) ?_ ?_ ?_
  · intro hq
    rw [hholds] at hq
    cases hq
  · intro target hq
    rw [hwrites] at hq
    cases hq
  · exact fun target hq => ho.present h target (hboots target hq)

theorem Orderly.hsm_eq (hpc : s.pc h = p) (hstates : p.states = [state]) : s.hsm h = state := by
  rcases ho.fits h with hmem | ⟨hreset, -⟩
  · rw [hpc, hstates] at hmem
    exact List.mem_singleton.mp hmem
  · rw [← hpc, hreset] at hstates
    cases hstates

theorem Orderly.keep (hpc : s.pc h = p) (hp : p.states = [state]) (hq : q.states = [state])
    (ht : t.pc = update s.pc h q) (hhsm : t.hsm = s.hsm) (hpresent : t.present = s.present)
    (hlock : ∀ g ≠ h, (s.pc g).holds = true → t.lock = some g)
    (hholds : q.holds = true → t.lock = some h)
    (hwrites : ∀ target, q.writes = some target → s.hsm target = .stopped)
    (hboots : ∀ target, q.boots = some target → s.present target = true) : Orderly t := by
  have hsame : t.hsm = update s.hsm h (s.hsm h) := by rw [hhsm, update_eq_self]
  refine ho.moved ht hsame ?_ id (fun i _ => by rw [hpresent]) (by rw [hpresent]; exact id) hlock
    hholds hwrites hboots
  rw [ho.hsm_eq hpc hp, hq]
  exact List.mem_singleton.mpr rfl

theorem Orderly.write (args : Args x) (hpc : s.pc h = p) (hp : p.states = [.started])
    (hq : q.states = [.started]) (hholds : p.holds = true) (hwp : p.writes = some target)
    (hwq : q.writes = some target) (hbp : p.boots = some target) (hbq : q.boots = some target) :
    Orderly ((s.setStart target args).goto h q) := by
  refine ho.keep hpc hp hq rfl rfl rfl (fun g _ => ho.holder g) ?_ ?_ ?_
  · exact fun _ => ho.holder h (hpc ▸ hholds)
  · intro k hk
    exact ho.stopped h k (by rw [hpc, hwp, ← hwq, hk])
  · intro k hk
    exact ho.present h k (by rw [hpc, hbp, ← hbq, hk])

theorem Orderly.ne_target (hpc : s.pc h = p) (hp : p.states = [.started])
    (hsm : s.hsm target ≠ .started) : target ≠ h := by
  rintro rfl
  exact hsm (ho.hsm_eq hpc hp)

theorem Orderly.alone (hholds : (s.pc h).holds = true) {g : Nat} (hg : g ≠ h) :
    (s.pc g).holds = false := by
  by_contra hother
  have hsome := ho.holder g (Bool.not_eq_false _ ▸ hother)
  rw [ho.holder h hholds] at hsome
  exact hg (Option.some.inj hsome).symm

theorem Orderly.sets (hpc : s.pc h = p) (hp : p.states = [.started]) (hq : q.states = [.started])
    (hbp : p.boots = some target) (hne : target ≠ h) (ht : t.pc = update s.pc h q)
    (hhsm : t.hsm = update s.hsm target state) (hpresent : t.present = s.present)
    (hfits : s.hsm target ∈ (s.pc target).states → state ∈ (s.pc target).states)
    (hlock : ∀ g ≠ h, (s.pc g).holds = true → t.lock = some g) (hholds : q.holds = false)
    (hwrites : q.writes = none)
    (hstopped : ∀ g ≠ h, (s.pc g).writes = some target → state = .stopped)
    (hboots : ∀ k, q.boots = some k → k = target) : Orderly t := by
  have hup : s.present target = true := ho.present h target (by rw [hpc, hbp])
  constructor
  · rw [ht, hhsm, hpresent]
    refine (forall_update_iff s.pc fun i p => update s.hsm target state i ∈ p.states ∨
      p = .reset ∧ s.present i = false).mpr ⟨.inl ?_, ?_⟩
    · rw [update_of_ne hne.symm, ho.hsm_eq hpc hp, hq]
      exact List.mem_singleton.mpr rfl
    · intro i hi
      by_cases hit : i = target
      · rw [hit, update_self]
        rcases ho.fits target with hmem | ⟨-, habsent⟩
        · exact .inl (hfits hmem)
        · rw [hup] at habsent
          cases habsent
      · rw [update_of_ne hit]
        exact ho.fits i
  · rw [ht]
    exact (forall_update_iff s.pc fun g p => p.holds = true → t.lock = some g).mpr
      ⟨fun hq => absurd (hholds.symm.trans hq) nofun, hlock⟩
  · rw [ht, hhsm]
    refine (forall_update_iff s.pc fun _ p => ∀ k, p.writes = some k →
      update s.hsm target state k = .stopped).mpr ⟨?_, ?_⟩
    · rw [hwrites]
      exact nofun
    · intro g hg k hk
      by_cases hkt : k = target
      · rw [hkt, update_self]
        exact hstopped g hg (hkt ▸ hk)
      · rw [update_of_ne hkt]
        exact ho.stopped g k hk
  · rw [ht, hpresent]
    exact (forall_update_iff s.pc fun _ p => ∀ k, p.boots = some k → s.present k = true).mpr
      ⟨fun k hk => hboots k hk ▸ hup, fun g _ => ho.present g⟩

theorem Orderly.pending (hpc : s.pc h = .bootPending target args) :
    Orderly (bootPending s h target) := by
  have hstopped : s.hsm target = .stopped := ho.stopped h target (by rw [hpc]; rfl)
  have hne : target ≠ h := ho.ne_target hpc rfl (by rw [hstopped]; decide)
  have hfree : ∀ g ≠ h, (s.pc g).holds = false := fun g => ho.alone (by rw [hpc]; rfl)
  refine ho.sets hpc rfl rfl rfl hne rfl rfl rfl ?_ ?_ rfl rfl ?_ ?_
  · rw [hstopped]
    exact Pc.startPending_mem
  · intro g hg hholds
    rw [hfree g hg] at hholds
    cases hholds
  · intro g hg hwrites
    have hholds := Pc.holds_of_writes hwrites
    rw [hfree g hg] at hholds
    cases hholds
  · rintro k ⟨⟩
    rfl

theorem Orderly.undo (hpc : s.pc h = .bootUndo target) (hsm : s.hsm target = .startPending)
    (hleft : (s.pc target).left = false) : Orderly ((s.setHsm target .stopped).goto h .smode) := by
  have hne : target ≠ h := ho.ne_target hpc rfl (by rw [hsm]; decide)
  refine ho.sets hpc rfl rfl rfl hne rfl rfl rfl ?_ (fun g _ => ho.holder g) rfl rfl
    (fun _ _ _ => rfl) nofun
  rw [hsm]
  exact Pc.stopped_mem hleft

theorem Orderly.comeIn (hpc : s.pc h = .comeIn) :
    Orderly ({ s with present := update s.present h true }.goto h .arrive) := by
  have hsame : s.hsm = update s.hsm h (s.hsm h) := (update_eq_self h s.hsm).symm
  refine ho.moved rfl hsame ?_ id (fun i hi => update_of_ne hi ..)
    (fun _ => update_self ..) (fun g _ => ho.holder g) nofun nofun nofun
  rcases ho.fits h with hmem | ⟨hreset, -⟩
  · rw [hpc] at hmem
    exact List.mem_cons_of_mem _ hmem
  · rw [hpc] at hreset
    cases hreset

theorem Orderly.effect (hc : Careful s h) (heff : Effect s h t) : Orderly t := by
  cases heff with
  | idle => exact ho
  | walk hwalk => exact ho.walk hwalk
  | comeIn hpc => exact ho.comeIn hpc
  | suspendArgs hpc =>
    exact ho.keep hpc rfl rfl rfl rfl rfl (fun g _ => ho.holder g) nofun nofun nofun
  | boot hpc hpresent =>
    refine ho.keep hpc rfl rfl rfl rfl rfl (fun g _ => ho.holder g) nofun nofun ?_
    rintro k ⟨⟩
    exact hpresent
  | lock hpc hlock =>
    refine ho.keep hpc rfl rfl rfl rfl rfl ?_ (fun _ => rfl) nofun ?_
    · intro g _ hholds
      have hsome := ho.holder g hholds
      rw [hlock] at hsome
      cases hsome
    · rintro k ⟨⟩
      exact ho.present h _ (by rw [hpc]; rfl)
  | state hpc =>
    refine ho.keep hpc rfl rfl rfl rfl rfl (fun g _ => ho.holder g) ?_ ?_ ?_
    · exact fun _ => ho.holder h (by rw [hpc]; rfl)
    · intro k hk
      obtain ⟨hstopped, rfl⟩ := Pc.writes_bootFlag hk
      exact hstopped
    · rintro k ⟨⟩
      exact ho.present h _ (by rw [hpc]; rfl)
  | refuse hpc =>
    refine ho.keep hpc rfl rfl rfl rfl rfl ?_ nofun nofun nofun
    intro g hg hholds
    rw [ho.alone (by rw [hpc]; rfl) hg] at hholds
    cases hholds
  | accept hpc =>
    refine ho.keep hpc rfl rfl rfl rfl rfl (fun g _ => ho.holder g) ?_ ?_ ?_
    · exact fun _ => ho.holder h (by rw [hpc]; rfl)
    · rintro k ⟨⟩
      exact ho.stopped h _ (by rw [hpc]; rfl)
    · rintro k ⟨⟩
      exact ho.present h _ (by rw [hpc]; rfl)
  | addr hpc | arg hpc | mode hpc => exact ho.write _ hpc rfl rfl rfl rfl rfl rfl rfl
  | pending hpc => exact ho.pending hpc
  | undo hpc hsm => exact ho.undo hpc hsm (hc.undo _ hpc hsm).2
  | late hpc hsm =>
    exact ho.keep hpc rfl rfl rfl rfl rfl (fun g _ => ho.holder g) nofun nofun nofun

theorem Orderly.domain (stopping : Nat → Bool) : Orderly { s with stopping := stopping } :=
  ⟨ho.fits, ho.holder, ho.stopped, ho.present⟩

end

theorem init_pc (up : Nat → Bool) (h : Nat) : (init up : Sys x).pc h = .smode ∨
    (init up : Sys x).pc h = .reset ∧ (init up : Sys x).present h = false := by
  by_cases hup : up h = true
  · exact .inl (if_pos hup)
  · exact .inr ⟨if_neg hup, Bool.eq_false_iff.mpr hup⟩

theorem init_orderly (up : Nat → Bool) : Orderly (init up : Sys x) := by
  constructor
  · intro h
    rcases init_pc up h with hs | hr
    · rw [hs]
      exact .inl (List.mem_singleton.mpr rfl)
    · exact .inr hr
  all_goals
    intro g
    rcases init_pc (x := x) up g with hs | ⟨hr, -⟩
    · rw [hs]
      exact nofun
    · rw [hr]
      exact nofun

end Order

end RiscvMonitor.HartStart
