import RiscvMonitor.StartNotLost

/-!
# Starts are atomic

Noted of the starts are which arguments a hart was given last, how many calls have set
`START_PENDING` since the hart stopped and have not failed, and whether a call that fails
has put its target into S-mode.  The argument words are written only while the hart is
stopped.
-/

namespace RiscvMonitor.HartStart

open Function (forall_update_iff update update_of_ne update_self)

variable {x : Xlen}

/-! ### What is noted -/

structure StartLog (x : Xlen) where
  given : Nat → Args x
  /-- The call that set `START_PENDING` last has returned an error. -/
  failed : Nat → Bool
  /-- The call a hart is in has put its target into S-mode. -/
  caused : Nat → Bool
  /-- The calls that have set `START_PENDING` since the hart stopped, failed ones apart. -/
  starts : Nat → Nat
  /-- A call has put its target into S-mode and has returned an error. -/
  blamed : Bool

def StartLog.start : StartLog x :=
  ⟨fun _ => ⟨0, 0, .user⟩, fun _ => false, fun _ => false, fun _ => 0, false⟩

/-- Hart `h` has entered S-mode: if the call that started it is not over, it is the cause. -/
def enteredBy (caused : Nat → Bool) (s : Sys x) (h : Nat) (g : Nat) : Bool :=
  if s.starter h = some g ∧ (s.pc g).boots = some h then true else caused g

def StartLog.noteAt (w : StartLog x) (s : Sys x) (h : Nat) : Pc x → StartLog x
  | .bootPending target args =>
    { w with
      given := update w.given target args
      failed := update w.failed target false
      caused := update w.caused h false
      starts := update w.starts target (w.starts target + 1) }
  | .bootUndo target =>
    if s.starter target = some h then
      { w with
        failed := update w.failed target true
        starts := update w.starts target (w.starts target - 1)
        blamed := w.blamed || w.caused h }
    else { w with blamed := w.blamed || w.caused h }
  | .park =>
    if s.hsm h = .stopPending then { w with starts := update w.starts h 0 } else w
  | .suspendArgs args => { w with given := update w.given h args }
  | .enters _ => { w with caused := enteredBy w.caused s h, blamed := w.blamed || w.failed h }
  | _ => w

def StartLog.note (w : StartLog x) (s : Sys x) (e : Nat × Act x) : StartLog x :=
  match e.2 with
  | .domain _ => w
  | _ => w.noteAt s e.1 (s.pc e.1)

def startLog (n : Nat) (s : Sys x) (es : List (Nat × Act x)) : StartLog x :=
  Runs.watch (step n) StartLog.note .start s es

/-- A start fails only with its target still waiting for it, and a hart that comes to
    wait has no start pending. -/
def KeepsAtomic (s : Sys x) (e : Nat × Act x) : Prop :=
  match s.pc e.1, e.2 with
  | .park, .go => s.hsm e.1 ≠ .startPending
  | .bootUndo target, .go =>
    s.hsm target = .startPending ∧ s.starter target = some e.1 ∧ (s.pc target).left = false
  | _, _ => True

/-! ### The invariant -/

def Pc.written (start : Nat → Args x) : Pc x → Prop
  | .bootArg target args => (start target).addr = args.addr
  | .bootMode target args => (start target).addr = args.addr ∧ (start target).arg = args.arg
  | .bootPending target args => start target = args
  | _ => True

def Pc.hasRead (given : Args x) : Pc x → Prop
  | .readArg addr => addr = given.addr
  | .readMode addr arg => addr = given.addr ∧ arg = given.arg
  | .enters args => args = given
  | _ => True

def Pc.asks : Pc x → Option Nat
  | .bootPlat target | .bootUndo target => some target
  | _ => none

structure AtomicInv (s : Sys x) (w : StartLog x) : Prop where
  orderly : Orderly s
  given : ∀ h, s.hsm h ≠ .stopped → s.start h = w.given h
  written : ∀ g, (s.pc g).written s.start
  hasRead : ∀ h, (s.pc h).hasRead (w.given h)
  failed : ∀ h, w.failed h = true → s.hsm h = .stopped
  caused : ∀ g k, (s.pc g).asks = some k → s.starter k = some g → s.hsm k = .startPending →
    w.caused g = false
  once : ∀ h, w.starts h ≤ 1
  stopped : ∀ h, s.hsm h = .stopped ∨ s.present h = false → w.starts h = 0
  blameless : w.blamed = false

variable {a : Act x} {target : Nat} {args : Args x}

section Steps

variable {n : Nat} {s t : Sys x} {h : Nat} {p q : Pc x} {state : HsmState} {w : StartLog x}

theorem KeepsAtomic.keepsStarts {e : Nat × Act x} (hkeeps : KeepsAtomic s e) : KeepsStarts s e := by
  unfold KeepsAtomic at hkeeps
  unfold KeepsStarts
  split
  case h_1 hpc ha => simpa only [hpc, ha] using hkeeps
  case h_2 target hpc ha =>
    simp only [hpc, ha] at hkeeps
    exact fun _ => hkeeps.2
  case h_3 => trivial

theorem KeepsAtomic.undo (hkeeps : KeepsAtomic s (h, a)) (hnot : ∀ b, a ≠ .domain b)
    (hstep : step n s (h, a) = some t) (hpc : s.pc h = .bootUndo target) :
    s.hsm target = .startPending ∧ s.starter target = some h := by
  cases step_go hnot hstep (.inr ⟨target, hpc⟩)
  unfold KeepsAtomic at hkeeps
  simp only [hpc] at hkeeps
  exact ⟨hkeeps.1, hkeeps.2.1⟩

/-! ### What a hart has written and read -/

theorem Pc.written_congr {start start' : Nat → Args x}
    (hsame : ∀ target, p.writes = some target → start' target = start target)
    (hwritten : p.written start) : p.written start' := by
  cases p
  case bootArg target args => exact (congrArg Args.addr (hsame target rfl)).trans hwritten
  case bootMode target args =>
    exact ⟨(congrArg Args.addr (hsame target rfl)).trans hwritten.1,
      (congrArg Args.arg (hsame target rfl)).trans hwritten.2⟩
  case bootPending target args => exact (hsame target rfl).trans hwritten
  all_goals trivial

theorem Pc.written_of_writes_none {start : Nat → Args x} (hnone : p.writes = none) :
    p.written start := by
  cases p <;> trivial

theorem Pc.hasRead_of_not_reads {given : Args x} (hreads : p.reads = false) : p.hasRead given := by
  cases p <;> trivial

theorem Pc.states_of_reads (hreads : p.reads = true) : p.states = [.started] := by
  cases p <;> first | rfl | cases hreads

theorem Walk.hasRead {given : Args x} (hwalk : Walk s h p state q)
    (hgiven : p.reads = true → s.start h = given) (hread : p.hasRead given) : q.hasRead given := by
  cases hwalk
  case platform target ok => cases ok <;> trivial
  case readAddr => exact congrArg Args.addr (hgiven rfl)
  case readArg => exact ⟨hread, congrArg Args.arg (hgiven rfl)⟩
  case readMode => simp only [Pc.hasRead, hread.1, hread.2, hgiven rfl]
  all_goals trivial

theorem Walk.asks {k : Nat} (hwalk : Walk s h p state q) (hasks : q.asks = some k) :
    p.asks = some k := by
  cases hwalk
  case platform target ok =>
    cases ok
    · exact hasks
    · cases hasks
  all_goals cases hasks

theorem Walk.startPending (hwalk : Walk s h p state q) (hstate : state = .startPending) :
    s.hsm h = .startPending := by
  cases hwalk <;> first | exact hstate | cases hstate

theorem Walk.stopped (hwalk : Walk s h p state q) (hstate : state = .stopped) :
    s.hsm h = .stopped ∨ p = .park ∨ s.present h = false := by
  cases hwalk
  case first hpresent => exact .inr (.inr hpresent)
  case park => exact .inr (.inl rfl)
  all_goals first | exact .inl hstate | cases hstate

/-! ### The target's own steps -/

theorem AtomicInv.reads_given (hinv : AtomicInv s w) (hreads : (s.pc h).reads = true) :
    s.start h = w.given h := by
  apply hinv.given
  rw [hinv.orderly.hsm_eq rfl (Pc.states_of_reads hreads)]
  decide

theorem AtomicInv.walk {w' : StartLog x} (hinv : AtomicInv s w)
    (hwalk : Walk s h (s.pc h) state q) (hgiven : w'.given = w.given)
    (hfailed : w'.failed = w.failed)
    (hcaused : ∀ g k, (s.pc g).asks = some k → s.starter k = some g → s.hsm k = .startPending →
      w'.caused g = false)
    (hother : ∀ i ≠ h, w'.starts i = w.starts i) (hself : w'.starts h ≤ w.starts h)
    (hstopped : state = .stopped → w'.starts h = 0) (hblame : w'.blamed = false) :
    AtomicInv ((s.setHsm h state).goto h q) w' := by
  have hkeeps := hwalk.keeps_stopped (hinv.orderly.fits h)
  have hstays : ∀ i, s.hsm i = .stopped → update s.hsm h state i = .stopped :=
    (forall_update_iff s.hsm fun i st => s.hsm i = .stopped → st = .stopped).mpr
      ⟨hkeeps, fun _ _ => id⟩
  obtain ⟨-, hwrites, -⟩ := hwalk.quiet
  constructor
  case orderly => exact hinv.orderly.walk hwalk
  case given =>
    intro i hi
    rw [hgiven]
    exact hinv.given i fun hstop => hi (hstays i hstop)
  case written =>
    exact (forall_update_iff s.pc fun _ p => p.written s.start).mpr
      ⟨Pc.written_of_writes_none hwrites, fun g _ => hinv.written g⟩
  case hasRead =>
    rw [hgiven]
    exact (forall_update_iff s.pc fun i p => p.hasRead (w.given i)).mpr
      ⟨hwalk.hasRead hinv.reads_given (hinv.hasRead h), fun i _ => hinv.hasRead i⟩
  case failed =>
    intro i hi
    rw [hfailed] at hi
    exact hstays i (hinv.failed i hi)
  case caused =>
    intro g k hasks hstarter hsm
    refine hcaused g k ?_ hstarter ?_
    · by_cases heq : g = h
      · subst heq
        simp only [Sys.goto, update_self] at hasks
        exact hwalk.asks hasks
      · simpa only [Sys.goto, Sys.setHsm, update_of_ne heq] using hasks
    · by_cases heq : k = h
      · subst heq
        simp only [Sys.goto, Sys.setHsm, update_self] at hsm
        exact hwalk.startPending hsm
      · simpa only [Sys.goto, Sys.setHsm, update_of_ne heq] using hsm
  case once =>
    intro i
    by_cases heq : i = h
    · subst heq
      exact hself.trans (hinv.once i)
    · rw [hother i heq]
      exact hinv.once i
  case stopped =>
    intro i hi
    by_cases heq : i = h
    · subst heq
      simp only [Sys.goto, Sys.setHsm, update_self] at hi
      rcases hi with hstate | habsent
      · exact hstopped hstate
      · exact Nat.le_zero.mp (hinv.stopped i (.inr habsent) ▸ hself)
    · rw [hother i heq]
      simp only [Sys.goto, Sys.setHsm, update_of_ne heq] at hi
      exact hinv.stopped i hi
  case blameless => exact hblame

theorem AtomicInv.park (hinv : AtomicInv s w) (hc : Careful s h) (hpc : s.pc h = .park)
    (hwalk : Walk s h (s.pc h) state q) :
    AtomicInv ((s.setHsm h state).goto h q) (w.noteAt s h .park) := by
  have hstates : s.hsm h = .stopPending ∨ s.hsm h = .stopped := by
    rcases hinv.orderly.fits h with hmem | ⟨hreset, -⟩
    · rw [hpc] at hmem
      have hne := hc.park hpc
      simp only [Pc.states, List.mem_cons, List.not_mem_nil, or_false] at hmem
      tauto
    · rw [hpc] at hreset
      cases hreset
  rcases hstates with hsm | hsm
  · rw [StartLog.noteAt, if_pos hsm]
    refine hinv.walk hwalk rfl rfl hinv.caused (fun i hi => update_of_ne hi ..) ?_
      (fun _ => update_self ..) hinv.blameless
    simp only [update_self]
    exact Nat.zero_le _
  · rw [StartLog.noteAt, if_neg (by rw [hsm]; decide)]
    exact hinv.walk hwalk rfl rfl hinv.caused (fun _ _ => rfl) le_rfl
      (fun _ => hinv.stopped h (.inl hsm)) hinv.blameless

theorem AtomicInv.enters (hinv : AtomicInv s w) (hpc : s.pc h = .enters args)
    (hwalk : Walk s h (s.pc h) state q) :
    AtomicInv ((s.setHsm h state).goto h q) (w.noteAt s h (.enters args)) := by
  have hsm : s.hsm h = .started := hinv.orderly.hsm_eq hpc rfl
  have hfailed : w.failed h = false := by
    by_contra hf
    have hstop := hinv.failed h (Bool.not_eq_false _ ▸ hf)
    rw [hsm] at hstop
    cases hstop
  refine hinv.walk hwalk rfl rfl ?_ (fun _ _ => rfl) le_rfl ?_ ?_
  · intro g k hasks hstarter hpending
    change enteredBy w.caused s h g = false
    unfold enteredBy
    split
    case isTrue hboth =>
      -- the call it is in is for `h`, which has started
      have hboots : (s.pc g).boots = some k := by
        generalize s.pc g = p at hasks
        cases p <;> first | exact hasks | cases hasks
      rw [hboth.2] at hboots
      cases hboots
      rw [hsm] at hpending
      cases hpending
    case isFalse => exact hinv.caused g k hasks hstarter hpending
  · intro hstate
    rcases hwalk.stopped hstate with hstop | hpark | habsent
    · rw [hsm] at hstop
      cases hstop
    · rw [hpc] at hpark
      cases hpark
    · exact hinv.stopped h (.inr habsent)
  · change (w.blamed || w.failed h) = false
    rw [hinv.blameless, hfailed]
    rfl

theorem Walk.noteAt (hwalk : Walk s h p state q) (hpark : p ≠ .park)
    (henters : ∀ args, p ≠ .enters args) : w.noteAt s h p = w := by
  cases hwalk
  case park => exact absurd rfl hpark
  case enters args => exact absurd rfl (henters args)
  all_goals rfl

theorem AtomicInv.own (hinv : AtomicInv s w) (hc : Careful s h)
    (hwalk : Walk s h (s.pc h) state q) :
    AtomicInv ((s.setHsm h state).goto h q) (w.noteAt s h (s.pc h)) := by
  by_cases hpark : s.pc h = .park
  · rw [hpark]
    exact hinv.park hc hpark hwalk
  by_cases henters : ∃ args, s.pc h = .enters args
  · obtain ⟨args, henters⟩ := henters
    rw [henters]
    exact hinv.enters henters hwalk
  rw [hwalk.noteAt hpark fun args hargs => henters ⟨args, hargs⟩]
  refine hinv.walk hwalk rfl rfl hinv.caused (fun _ _ => rfl) le_rfl ?_ hinv.blameless
  intro hstate
  rcases hwalk.stopped hstate with hstop | hp | habsent
  · exact hinv.stopped h (.inl hstop)
  · exact absurd hp hpark
  · exact hinv.stopped h (.inr habsent)

/-! ### The starter's steps -/

theorem Orderly.writes_none (ho : Orderly s) (hholds : (s.pc h).holds = true) {g : Nat}
    (hg : g ≠ h) : (s.pc g).writes = none := by
  by_contra hsome
  obtain ⟨k, hk⟩ := Option.ne_none_iff_exists'.mp hsome
  exact absurd ((ho.alone hholds hg).symm.trans (Pc.holds_of_writes hk)) Bool.false_ne_true

section

variable (hinv : AtomicInv s w)
include hinv

/-- A call goes on: at most the arguments of a stopped hart change. -/
theorem AtomicInv.call (ho : Orderly t) (hpc : t.pc = update s.pc h q) (hhsm : t.hsm = s.hsm)
    (hpresent : ∀ i, t.present i = false → s.present i = false) (hstarter : t.starter = s.starter)
    (hstart : ∀ k, s.hsm k ≠ .stopped → t.start k = s.start k)
    (hwriters : ∀ g ≠ h, ∀ k, (s.pc g).writes = some k → t.start k = s.start k)
    (hwritten : q.written t.start) (hreads : q.reads = false) (hasks : q.asks = none) :
    AtomicInv t w := by
  constructor
  case orderly => exact ho
  case given =>
    intro i hi
    rw [hhsm] at hi
    rw [hstart i hi]
    exact hinv.given i hi
  case written =>
    rw [hpc]
    exact (forall_update_iff s.pc fun _ p => p.written t.start).mpr
      ⟨hwritten, fun g hg => Pc.written_congr (hwriters g hg) (hinv.written g)⟩
  case hasRead =>
    rw [hpc]
    exact (forall_update_iff s.pc fun i p => p.hasRead (w.given i)).mpr
      ⟨Pc.hasRead_of_not_reads hreads, fun i _ => hinv.hasRead i⟩
  case failed =>
    rw [hhsm]
    exact hinv.failed
  case caused =>
    intro g k hg hk hsm
    rw [hpc] at hg
    rw [hstarter] at hk
    rw [hhsm] at hsm
    by_cases heq : g = h
    · rw [heq, update_self, hasks] at hg
      cases hg
    · rw [update_of_ne heq] at hg
      exact hinv.caused g k hg hk hsm
  case once => exact hinv.once
  case stopped =>
    intro i hi
    rw [hhsm] at hi
    exact hinv.stopped i (hi.imp_right (hpresent i))
  case blameless => exact hinv.blameless

theorem AtomicInv.write (ho : Orderly ((s.setStart target args).goto h q))
    (hwrites : (s.pc h).writes = some target) (hwritten : q.written (update s.start target args))
    (hreads : q.reads = false) (hasks : q.asks = none) :
    AtomicInv ((s.setStart target args).goto h q) w := by
  refine hinv.call ho rfl rfl (fun _ => id) rfl ?_ ?_ hwritten hreads hasks
  · intro k hk
    refine update_of_ne ?_ ..
    rintro rfl
    exact hk (hinv.orderly.stopped h k hwrites)
  · intro g hg k hk
    rw [hinv.orderly.writes_none (Pc.holds_of_writes hwrites) hg] at hk
    cases hk

theorem AtomicInv.comeIn (hpc : s.pc h = .comeIn) :
    AtomicInv ({ s with present := update s.present h true }.goto h .arrive) w := by
  refine hinv.call (hinv.orderly.comeIn hpc) rfl rfl ?_ rfl (fun _ _ => rfl) (fun _ _ _ _ => rfl)
    trivial rfl rfl
  exact (forall_update_iff s.present fun i b => b = false → s.present i = false).mpr
    ⟨nofun, fun _ _ => id⟩

theorem AtomicInv.suspendArgs (ho : Orderly ((s.setStart h args).goto h .suspended))
    (hpc : s.pc h = .suspendArgs args) :
    AtomicInv ((s.setStart h args).goto h .suspended)
      { w with given := update w.given h args } := by
  have hsm : s.hsm h = .suspendPending := hinv.orderly.hsm_eq hpc rfl
  constructor
  case orderly => exact ho
  case given =>
    intro i hi
    simp only [Sys.goto, Sys.setStart]
    by_cases heq : i = h
    · rw [heq, update_self, update_self]
    · rw [update_of_ne heq, update_of_ne heq]
      exact hinv.given i hi
  case written =>
    refine (forall_update_iff s.pc fun _ p => p.written (update s.start h args)).mpr ⟨trivial, ?_⟩
    intro g _
    refine Pc.written_congr ?_ (hinv.written g)
    intro k hk
    refine update_of_ne ?_ ..
    rintro rfl
    have hstop := hinv.orderly.stopped g k hk
    rw [hsm] at hstop
    cases hstop
  case hasRead =>
    intro i
    simp only [Sys.goto, Sys.setStart]
    by_cases heq : i = h
    · rw [heq, update_self, update_self]
      trivial
    · rw [update_of_ne heq, update_of_ne heq]
      exact hinv.hasRead i
  case failed => exact hinv.failed
  case caused =>
    intro g k hg
    by_cases heq : g = h
    · rw [heq] at hg
      simp [Sys.goto, Pc.asks] at hg
    · simp only [Sys.goto, Sys.setStart, update_of_ne heq] at hg
      exact hinv.caused g k hg
  case once => exact hinv.once
  case stopped => exact hinv.stopped
  case blameless => exact hinv.blameless

theorem AtomicInv.pending (hpc : s.pc h = .bootPending target args) :
    AtomicInv (bootPending s h target) (w.noteAt s h (.bootPending target args)) := by
  have ho := hinv.orderly
  have hstopped : s.hsm target = .stopped := ho.stopped h target (by rw [hpc]; rfl)
  have hne : target ≠ h := ho.ne_target hpc rfl (by rw [hstopped]; decide)
  have hself : (bootPending s h target).pc h = .bootPlat target := update_self ..
  have hother : ∀ g ≠ h, (bootPending s h target).pc g = s.pc g :=
    fun g hg => update_of_ne hg ..
  have hsm : (bootPending s h target).hsm = update s.hsm target .startPending := rfl
  have hstarter : (bootPending s h target).starter = update s.starter target (some h) := rfl
  constructor
  case orderly => exact ho.pending hpc
  case given =>
    intro i hi
    rw [hsm] at hi
    change s.start i = update w.given target args i
    by_cases hit : i = target
    · subst hit
      have hwritten := hinv.written h
      rw [hpc] at hwritten
      rw [update_self]
      exact hwritten
    · rw [update_of_ne hit] at hi ⊢
      exact hinv.given i hi
  case written =>
    exact (forall_update_iff s.pc fun _ p => p.written s.start).mpr
      ⟨trivial, fun g _ => hinv.written g⟩
  case hasRead =>
    intro i
    change ((bootPending s h target).pc i).hasRead (update w.given target args i)
    by_cases hih : i = h
    · rw [hih, hself]
      trivial
    · rw [hother i hih]
      by_cases hit : i = target
      · subst hit
        apply Pc.hasRead_of_not_reads
        by_contra hreads
        have hstarted := ho.hsm_eq rfl (Pc.states_of_reads (Bool.not_eq_false _ ▸ hreads))
        rw [hstopped] at hstarted
        cases hstarted
      · rw [update_of_ne hit]
        exact hinv.hasRead i
  case failed =>
    intro i hi
    change update w.failed target false i = true at hi
    rw [hsm]
    by_cases hit : i = target
    · rw [hit, update_self] at hi
      cases hi
    · rw [update_of_ne hit] at hi ⊢
      exact hinv.failed i hi
  case caused =>
    intro g k hg hk hpending
    change update w.caused h false g = false
    by_cases hgh : g = h
    · rw [hgh, update_self]
    · rw [update_of_ne hgh]
      rw [hother g hgh] at hg
      rw [hstarter] at hk
      rw [hsm] at hpending
      by_cases hkt : k = target
      · rw [hkt, update_self] at hk
        exact absurd (Option.some.inj hk).symm hgh
      · rw [update_of_ne hkt] at hk hpending
        exact hinv.caused g k hg hk hpending
  case once =>
    have hzero := hinv.stopped target (.inl hstopped)
    exact (forall_update_iff w.starts fun _ m => m ≤ 1).mpr ⟨by rw [hzero], fun i _ => hinv.once i⟩
  case stopped =>
    intro i hi
    change update w.starts target (w.starts target + 1) i = 0
    rw [hsm] at hi
    by_cases hit : i = target
    · subst hit
      rw [update_self] at hi
      have hpresent : s.present i = true := ho.present h i (by rw [hpc]; rfl)
      rcases hi with hi | hi
      · cases hi
      · exact absurd (hpresent.symm.trans hi) Bool.noConfusion
    · rw [update_of_ne hit] at hi ⊢
      exact hinv.stopped i hi
  case blameless => exact hinv.blameless

theorem AtomicInv.undo (hpc : s.pc h = .bootUndo target)
    (ho : Orderly ((s.setHsm target .stopped).goto h .smode)) (hsm : s.hsm target = .startPending)
    (hown : s.starter target = some h) :
    AtomicInv ((s.setHsm target .stopped).goto h .smode) (w.noteAt s h (.bootUndo target)) := by
  rw [StartLog.noteAt, if_pos hown]
  have hcaused : w.caused h = false := hinv.caused h target (by rw [hpc]; rfl) hown hsm
  constructor
  case orderly => exact ho
  case given =>
    exact (forall_update_iff s.hsm fun i st => st ≠ .stopped → s.start i = w.given i).mpr
      ⟨absurd rfl, fun i _ => hinv.given i⟩
  case written =>
    exact (forall_update_iff s.pc fun _ p => p.written s.start).mpr
      ⟨trivial, fun g _ => hinv.written g⟩
  case hasRead =>
    exact (forall_update_iff s.pc fun i p => p.hasRead (w.given i)).mpr
      ⟨trivial, fun i _ => hinv.hasRead i⟩
  case failed =>
    intro i hi
    simp only [Sys.goto, Sys.setHsm]
    by_cases hit : i = target
    · rw [hit, update_self]
    · dsimp only at hi
      rw [update_of_ne hit] at hi ⊢
      exact hinv.failed i hi
  case caused =>
    intro g k hg hk hpending
    simp only [Sys.goto, Sys.setHsm] at hg hk hpending
    by_cases hgh : g = h
    · rw [hgh, update_self] at hg
      cases hg
    · rw [update_of_ne hgh] at hg
      by_cases hkt : k = target
      · rw [hkt, update_self] at hpending
        cases hpending
      · rw [update_of_ne hkt] at hpending
        exact hinv.caused g k hg hk hpending
  case once =>
    exact (forall_update_iff w.starts fun _ m => m ≤ 1).mpr
      ⟨(Nat.sub_le _ _).trans (hinv.once target), fun i _ => hinv.once i⟩
  case stopped =>
    intro i hi
    dsimp only
    by_cases hit : i = target
    · rw [hit, update_self]
      exact Nat.sub_eq_zero_of_le (hinv.once target)
    · simp only [Sys.goto, Sys.setHsm, update_of_ne hit] at hi
      rw [update_of_ne hit]
      exact hinv.stopped i hi
  case blameless =>
    change (w.blamed || w.caused h) = false
    rw [hinv.blameless, hcaused]
    rfl

theorem AtomicInv.effect (hc : Careful s h) (hundo : ∀ target, s.pc h = .bootUndo target →
      s.hsm target = .startPending ∧ s.starter target = some h) (heff : Effect s h t) :
    AtomicInv t (w.noteAt s h (s.pc h)) := by
  have ho : Orderly t := hinv.orderly.effect hc heff
  cases heff
  case idle hpc =>
    rcases hpc with hpc | hpc <;> rw [hpc] <;> exact hinv
  case walk hwalk => exact hinv.own hc hwalk
  case comeIn hpc =>
    rw [hpc]
    exact hinv.comeIn hpc
  case suspendArgs hpc =>
    rw [hpc]
    exact hinv.suspendArgs ho hpc
  case addr hpc =>
    rw [hpc]
    refine hinv.write ho (by rw [hpc]; rfl) ?_ rfl rfl
    simp only [Pc.written, update_self]
  case arg hpc =>
    have hwritten := hinv.written h
    rw [hpc] at hwritten ⊢
    refine hinv.write ho (by rw [hpc]; rfl) ?_ rfl rfl
    simp only [Pc.written, update_self]
    exact ⟨hwritten, trivial⟩
  case mode hpc =>
    have hwritten := hinv.written h
    rw [hpc] at hwritten ⊢
    refine hinv.write ho (by rw [hpc]; rfl) ?_ rfl rfl
    simp only [Pc.written, update_self, hwritten.1, hwritten.2]
  case pending hpc =>
    rw [hpc]
    exact hinv.pending hpc
  case undo hpc hsm =>
    rw [hpc]
    exact hinv.undo hpc ho hsm (hundo _ hpc).2
  case late hpc hsm => exact absurd (hundo _ hpc).1 hsm
  case boot hpc _ | lock hpc _ | state hpc | refuse hpc | accept hpc =>
    rw [hpc]
    exact hinv.call ho rfl rfl (fun _ => id) rfl (fun _ _ => rfl) (fun _ _ _ _ => rfl) trivial rfl rfl

theorem AtomicInv.domain (stopping : Nat → Bool) : AtomicInv { s with stopping := stopping } w :=
  ⟨hinv.orderly.domain stopping, hinv.given, hinv.written, hinv.hasRead, hinv.failed, hinv.caused,
    hinv.once, hinv.stopped, hinv.blameless⟩

end

theorem StartLog.note_go (hnot : ∀ b, a ≠ .domain b) :
    w.note s (h, a) = w.noteAt s h (s.pc h) := by
  cases a <;> first | rfl | exact absurd rfl (hnot _)

theorem AtomicInv.step (hinv : AtomicInv s w) (hkeeps : KeepsAtomic s (h, a))
    (hstep : step n s (h, a) = some t) : AtomicInv t (w.note s (h, a)) := by
  by_cases hdomain : ∃ b, a = .domain b
  · obtain ⟨b, rfl⟩ := hdomain
    rw [step_domain hstep]
    exact hinv.domain _
  · have hnot : ∀ b, a ≠ .domain b := fun b hb => hdomain ⟨b, hb⟩
    rw [StartLog.note_go hnot]
    exact hinv.effect (hkeeps.keepsStarts.careful hnot hstep)
      (fun target hpc => hkeeps.undo hnot hstep hpc) (step_effect hnot hstep)

end Steps

theorem init_atomicInv (up : Nat → Bool) : AtomicInv (init up : Sys x) .start := by
  constructor
  case orderly => exact init_orderly up
  case given => exact fun _ _ => rfl
  case written =>
    intro g
    rcases init_pc (x := x) up g with hg | ⟨hg, -⟩ <;> rw [hg] <;> trivial
  case hasRead =>
    intro h
    rcases init_pc (x := x) up h with hh | ⟨hh, -⟩ <;> rw [hh] <;> trivial
  case failed => exact nofun
  case caused => exact fun _ _ _ _ _ => rfl
  case once => exact fun _ => Nat.zero_le _
  case stopped => exact fun _ _ => rfl
  case blameless => rfl

/-- In every run in which no hart stores `STOPPED` over a pending start and a start only fails
    with its target still waiting: of the starts of a hart since it stopped at most one has not
    failed; a hart enters S-mode with the arguments of the call that set `START_PENDING` last,
    or of its own suspend; and no call that returns an error puts its target into S-mode. -/
theorem starts_atomic (n : Nat) (up : Nat → Bool) (es : List (Nat × Act x)) (t : Sys x)
    (halong : Runs.Along (step n) KeepsAtomic (init up) es) (hrun : run n (init up) es = some t) :
    let w := startLog n (init up) es
    (∀ h, w.starts h ≤ 1) ∧ (∀ h args, t.pc h = .enters args → args = w.given h) ∧
      w.blamed = false := by
  intro w
  have hinv : AtomicInv t w := by
    refine halong.watch_invariant ?_ (init_atomicInv up) hrun
    intro s w e u hinv hkeeps hstep
    exact hinv.step hkeeps hstep
  refine ⟨hinv.once, ?_, hinv.blameless⟩
  intro h args hpc
  have hread := hinv.hasRead h
  rw [hpc] at hread
  exact hread

instance (s : Sys x) (e : Nat × Act x) : Decidable (KeepsAtomic s e) := by
  unfold KeepsAtomic
  induction s.pc e.1 using Pc.casesOn <;> induction e.2 using Act.casesOn <;> infer_instance

def startsAndEnters : List (Nat × Act .rv64) := startsStopped ++ goes 1 6

theorem starts_atomic_stopped :
    ∃ t, run 2 (init fun _ => true) startsAndEnters = some t ∧ t.pc 1 = .enters entry ∧
      entry = (startLog 2 (init fun _ => true) startsAndEnters).given 1 ∧
      (startLog 2 (init fun _ => true) startsAndEnters).starts 1 ≤ 1 ∧
      (startLog 2 (init fun _ => true) startsAndEnters).blamed = false := by
  have hend : ∃ t ∈ run 2 (init fun _ => true) startsAndEnters, t.pc 1 = .enters entry := by
    decide +kernel
  have halong : Runs.Along (step 2) KeepsAtomic (init fun _ => true) startsAndEnters := by
    decide +kernel
  obtain ⟨t, hrun, hpc⟩ := hend
  obtain ⟨honce, hread, hblame⟩ := starts_atomic 2 _ _ t halong hrun
  exact ⟨t, hrun, hpc, hread 1 entry hpc, honce 1, hblame⟩

/-- Hart 1 leaves its wait loop for the start by hart 0, which the platform then refuses. -/
def refusedLate : List (Nat × Act .rv64) :=
  [(1, .stop)] ++ goes 1 2 ++ [(0, .boot 1 entry)] ++ goes 0 7 ++ [(1, .go), (0, .platform false),
    (0, .go)]

def entry' : Args .rv64 := ⟨0x90000000, 9, .supervisor⟩

/-- Hart 2 starts hart 1 again, which has read the first of its arguments. -/
def startedTwice : List (Nat × Act .rv64) :=
  refusedLate ++ [(2, .boot 1 entry')] ++ goes 2 3 ++ goes 1 3 ++ goes 2 4 ++ goes 1 2

/-- The call of hart 0 has failed and puts hart 1 into S-mode; and with another call in
    between hart 1 enters S-mode at the address of one with the argument of the other. -/
theorem starts_not_atomic :
    (∃ t, run 3 (init fun _ => true) (refusedLate ++ goes 1 6) = some t ∧ t.pc 1 = .smode ∧
      (startLog 3 (init fun _ => true) (refusedLate ++ goes 1 6)).blamed = true) ∧
    ∃ t, run 3 (init fun _ => true) startedTwice = some t ∧
      t.pc 1 = .enters ⟨entry.addr, entry'.arg, .supervisor⟩ :=
  ⟨Runs.exists_end (by decide +kernel), Runs.exists_end (by decide +kernel)⟩

end RiscvMonitor.HartStart
