import RiscvMonitor.Bookkeeping

/-!
# Who gave a start address

A hart enters S-mode at an address that somebody named: software of its domain, in a
`hart_start()` or in its own suspend, or the tree.  `hart_start()` and `domain_start()`
look at the domain of the hart before they take the start lock: in the runs here no hart
changes its domain while a start of it is in between.
-/

namespace RiscvMonitor.Lifecycle

open Sys

variable {x : Xlen}

/-- Where a start address comes from: the software of a domain, or the tree. -/
structure Origin (x : Xlen) where
  domain : Nat
  addr : Word x
  software : Bool
deriving DecidableEq

/-- The start that each hart is in the middle of, and the start that each hart was last given.
    -/
structure Origins (x : Xlen) where
  asks : Nat → Option (Origin x)
  given : Nat → Option (Origin x)

def Origins.none : Origins x := ⟨fun _ => .none, fun _ => .none⟩

def Origin.tree (cfg : Config x) (d : Nat) : Origin x := ⟨d, (cfg.domain d).nextAddr, false⟩

/-- The start that hart `h` begins with a step, if it passes its checks. -/
def askOf (cfg : Config x) (s : Sys x) (h : Nat) (a : Act x) : Option (Origin x) :=
  match s.pc h, a with
  | .smode, .call (.hartStart _ addr _) => some ⟨s.domain h, addr, true⟩
  | .smode, .call (.domainStart d) | .domainsStart d, .go => some (.tree cfg d)
  | _, _ => none

/-- The hart that is given a start, or a place to resume at, by a step of `h`. -/
def startOf (cfg : Config x) (w : Origins x) (s t : Sys x) (h : Nat) : Option (Nat × Origin x) :=
  match s.pc h with
  | .bootLock target _ _ _ _ =>
    if s.hsm target = .stopped ∧ t.hsm target = .startPending then
      (w.asks h).map (target, ·)
    else none
  | .domainsStart _ => if t.pc h = .enter then some (h, .tree cfg (s.domain h)) else none
  | .suspending false _ addr _ =>
    if t.pc h = .asleep false then some (h, ⟨s.domain h, addr, true⟩) else none
  | _ => none

def Origins.see (cfg : Config x) (w : Origins x) (s t : Sys x) (h : Nat) (a : Act x) :
    Origins x where
  asks := Function.update w.asks h ((askOf cfg s h a).or (w.asks h))
  given := (startOf cfg w s t h).elim w.given fun o => Function.update w.given o.1 (some o.2)

def Origins.note (cfg : Config x) (w : Origins x) (s : Sys x) (e : Nat × Act x) : Origins x :=
  (step cfg s e.1 e.2).elim w fun t => w.see cfg s t e.1 e.2

abbrev origins (cfg : Config x) (s : Sys x) (es : List (Nat × Act x)) : Origins x :=
  Runs.watch (fun s e => step cfg s e.1 e.2) (Origins.note cfg) .none s es

/-- The origin is the domain's, and the address one that the domain may execute. -/
structure Origin.Backs (cfg : Config x) (o : Origin x) (d : Nat) (addr : Word x) : Prop where
  sameDomain : o.domain = d
  sameAddr : o.addr = addr
  entry : cfg.entryOk d addr = true
  ofTree : o.software = false → addr = (cfg.domain d).nextAddr

def Pc.starting : Pc x → Option Nat
  | .bootLock target _ _ _ _ => some target
  | _ => none

/-- No hart changes its domain while a start of it has passed its checks and does
    not have the start lock yet. -/
def StartsSettled (cfg : Config x) (s : Sys x) (e : Nat × Act x) : Prop :=
  ∀ t ∈ step cfg s e.1 e.2, t.domain e.1 = s.domain e.1 ∨
    ∀ g < cfg.harts, (s.pc g).starting ≠ some e.1

instance (cfg : Config x) (s : Sys x) (e : Nat × Act x) : Decidable (StartsSettled cfg s e) :=
  inferInstanceAs (Decidable (∀ t ∈ step cfg s e.1 e.2, _))

/-- The hart is to enter S-mode at its start address: on its way there, asleep, or
    in the wait loop with a start to come. -/
def Pc.armed (hsm : HsmState) : Pc x → Bool
  | .enter | .started | .begin | .resumeReset | .asleep false | .woken false
  | .resuming false => true
  | .off | .arrive | .park | .wait | .domainsStart _ | .bootLock _ _ _ _ (.domainsStart _)
  | .bootPlat _ (.domainsStart _) => hsm == .startPending || hsm == .suspended
  | _ => false

structure Sourced (cfg : Config x) (s : Sys x) (w : Origins x) : Prop where
  asked : ∀ g target addr arg mode cont, s.pc g = .bootLock target addr arg mode cont →
    g < cfg.harts ∧ ∃ o, w.asks g = some o ∧ o.Backs cfg (s.domain target) addr
  suspending : ∀ h platform addr arg, s.pc h = .suspending false platform addr arg →
    cfg.entryOk (s.domain h) addr = true
  armed : ∀ h, (s.pc h).armed (s.hsm h) = true →
    ∃ o, w.given h = some o ∧ o.Backs cfg (s.domain h) (s.hart h).startAddr

theorem init_sourced (cfg : Config x) (home : Nat → Nat) (bootHart : Nat) :
    Sourced cfg (init home bootHart) .none := by
  constructor
  · intro g target addr arg mode cont hlock
    rcases init_pc home bootHart g with heq | heq <;> rw [heq] at hlock <;> cases hlock
  · intro h platform addr arg hsusp
    rcases init_pc home bootHart h with heq | heq <;> rw [heq] at hsusp <;> cases hsusp
  · intro h harmed
    rcases init_pc home bootHart h with heq | heq <;> rw [heq] at harmed <;> cases harmed

variable {d i : Nat} {hsm : HsmState} {addr arg : Word x} {mode : NextMode} {cont : Cont}
  {platform : Bool}

section Steps

variable {cfg : Config x} {s t : Sys x} {w : Origins x} {h : Nat} {a : Act x} {p q : Pc x}

/-! ### Places -/

theorem Pc.not_armed_of_stops (hp : p.stops = some d) :
    p.armed hsm = false := by
  cases p <;> first | rfl | cases hp

theorem Pc.armed_startPending (harmed : p.armed .stopped = true) :
    p.armed .startPending = true := by
  cases p with
  | asleep retentive | woken retentive | resuming retentive =>
    cases retentive <;> first | rfl | cases harmed
  | bootLock _ _ _ _ cont | bootPlat _ cont => cases cont <;> cases harmed
  | _ => first | rfl | cases harmed

theorem Goes.armed (hgo : Goes cfg s h a p q) (harmed : q.armed (s.hsm h) = true) :
    p.armed (s.hsm h) = true := by
  cases hgo with
  | resets hhsm =>
    rw [hhsm]
    rfl
  | wakes hhsm =>
    rw [hhsm]
    rfl
  | starts hpc =>
    rcases hpc with ⟨rfl, -, rfl⟩ | ⟨rfl, -, rfl⟩
    · cases harmed
    · exact harmed
  | @unasked _ _ _ _ cont =>
    cases cont with
    | trapExit => cases harmed
    | domainsStart => exact harmed
  | stopping _ hnew =>
    rw [Pc.not_armed_of_stops hnew] at harmed
    cases harmed
  | unlocks hpc => rcases hpc with rfl | rfl <;> cases harmed
  | @wakesUp retentive =>
    cases retentive with
    | true => cases harmed
    | false => rfl
  | _ => first | rfl | exact harmed | cases harmed

theorem Sets.armed (hset : Sets cfg s h p hsm q) (harmed : q.armed hsm = true) :
    p.armed (s.hsm h) = true := by
  cases hset with
  | resumes hpc => rcases hpc with rfl | rfl <;> rfl
  | _ => cases harmed

theorem Goes.asked {target : Nat} (hc : Contexts cfg s) (hpc : s.pc h = p)
    (hgo : Goes cfg s h a p q) (hq : q = .bootLock target addr arg mode cont) :
    ∃ o, (w.see cfg s t h a).asks h = some o ∧ o.Backs cfg (s.domain target) addr := by
  cases hgo with
  | asks hact hassigned hentry =>
    cases hq
    refine ⟨⟨s.domain h, addr, true⟩, ?_, ?_⟩
    · simp [Origins.see, askOf, hpc, hact]
    · have hdomain := (hc.assigned _ _).mp hassigned
      rw [hdomain]
      exact ⟨rfl, rfl, hentry, nofun⟩
  | @starts _ d _ _ hwhere hboot hassigned hentry =>
    cases hq
    refine ⟨.tree cfg d, ?_, ?_⟩
    · rcases hwhere with ⟨rfl, hact, -⟩ | ⟨rfl, hact, -⟩
      · simp [Origins.see, askOf, hpc, hact]
      · simp [Origins.see, askOf, hpc, hact]
    · have hdomain := (hc.assigned _ _).mp hassigned
      rw [hdomain]
      exact ⟨rfl, rfl, hentry, fun _ => rfl⟩
  | @unasked _ _ _ _ cont => cases cont <;> cases hq
  | stopping _ hnew =>
    rw [hq] at hnew
    cases hnew
  | unlocks hpc => rcases hpc with rfl | rfl <;> cases hq
  | _ => cases hq

theorem Sets.not_asked (hset : Sets cfg s h p hsm q) : q.starting = none := by
  cases hset <;> rfl

theorem Goes.not_suspends (hgo : Goes cfg s h a p q)
    (hq : q = .suspending false platform addr arg) : False := by
  cases hgo with
  | starts => cases hq
  | @unasked _ _ _ _ cont => cases cont <;> cases hq
  | stopping _ hnew =>
    rw [hq] at hnew
    cases hnew
  | unlocks hpc => rcases hpc with rfl | rfl <;> cases hq
  | _ => cases hq

theorem Sets.suspended (hset : Sets cfg s h p hsm q)
    (hq : q = .suspending false platform addr arg) :
    cfg.entryOk (s.domain h) addr = true := by
  cases hset with
  | suspends _ hentry =>
    cases hq
    exact hentry rfl
  | _ => cases hq

/-! ### The observer -/

theorem Origins.see_asks {g : Nat} (hg : g ≠ h) : (w.see cfg s t h a).asks g = w.asks g :=
  Function.update_of_ne hg _ _

theorem Origins.see_start {o : Origin x} (hstart : startOf cfg w s t h = some (i, o)) :
    (w.see cfg s t h a).given i = some o := by
  simp [Origins.see, hstart]

theorem Origins.see_other (hnone : ∀ o, startOf cfg w s t h ≠ some (i, o)) :
    (w.see cfg s t h a).given i = w.given i := by
  unfold Origins.see
  cases hstart : startOf cfg w s t h with
  | none => rfl
  | some o =>
    have hne : i ≠ o.1 := by
      rintro rfl
      exact hnone o.2 hstart
    simp [hne]

theorem startOf_eq_some {o : Origin x} (hstart : startOf cfg w s t h = some (i, o)) :
    (s.hsm i = .stopped ∧ t.hsm i = .startPending ∧ (s.pc h).starting = some i ∧
        w.asks h = some o) ∨
      (i = h ∧ t.pc h = .enter ∧ ∃ d, s.pc h = .domainsStart d) ∨
      (i = h ∧ t.pc h = .asleep false ∧ ∃ platform addr arg,
        s.pc h = .suspending false platform addr arg) := by
  unfold startOf at hstart
  split at hstart
  · next hpc =>
    split at hstart
    · next hboot =>
      obtain ⟨_, hasks, heq⟩ := Option.map_eq_some_iff.mp hstart
      cases heq
      exact .inl ⟨hboot.1, hboot.2, by rw [hpc]; rfl, hasks⟩
    · cases hstart
  · next hpc =>
    split at hstart
    · next henter =>
      cases hstart
      exact .inr (.inl ⟨rfl, henter, _, hpc⟩)
    · cases hstart
  · next hpc =>
    split at hstart
    · next hsleep =>
      cases hstart
      exact .inr (.inr ⟨rfl, hsleep, _, _, _, hpc⟩)
    · cases hstart
  · cases hstart

/-- A hart that nobody starts, and that does not start or suspend itself. -/
theorem Origins.see_keep (hboot : s.hsm i = .stopped → t.hsm i ≠ .startPending)
    (henter : i = h → ∀ d, s.pc h = .domainsStart d → t.pc h ≠ .enter)
    (hsleep : i = h → ∀ platform addr arg, s.pc h = .suspending false platform addr arg →
      t.pc h ≠ .asleep false) : (w.see cfg s t h a).given i = w.given i := by
  apply Origins.see_other
  intro o hstart
  rcases startOf_eq_some hstart with ⟨hold, hnew, -, -⟩ | ⟨hi, hpc, d, hd⟩ | ⟨hi, hpc, _, _, _, hd⟩
  · exact hboot hold hnew
  · exact henter hi d hd hpc
  · exact hsleep hi _ _ _ hd hpc

/-! ### One step -/

theorem Goes.not_enter (hgo : Goes cfg s h a (.domainsStart d) q) : q ≠ .enter := by
  rintro rfl
  cases hgo with
  | stopping hold => cases hold

theorem Goes.not_suspending :
    ¬ Goes cfg s h a (.suspending false platform addr arg) q := by
  intro hgo
  cases hgo with
  | giveUp hpc => rcases hpc with hpc | hpc | hpc <;> cases hpc
  | starts hpc => rcases hpc with ⟨hpc, -, -⟩ | ⟨hpc, -, -⟩ <;> cases hpc
  | stopping hold => cases hold

theorem Sets.hsm_ne (hset : Sets cfg s h p hsm q) : hsm ≠ .startPending := by
  rintro rfl
  cases hset

theorem Sets.ne_domainsStart (hset : Sets cfg s h (.domainsStart d) hsm q) : False := by
  cases hset with
  | resumes hpc => rcases hpc with hpc | hpc <;> cases hpc

section

variable (hs : Sourced cfg s w)
include hs

theorem Sourced.keep (hkeep : (w.see cfg s t h a).given i = w.given i)
    (hdomain : t.domain i = s.domain i) (haddr : (t.hart i).startAddr = (s.hart i).startAddr)
    (hold : (s.pc i).armed (s.hsm i) = true) :
    ∃ o, (w.see cfg s t h a).given i = some o ∧
      o.Backs cfg (t.domain i) (t.hart i).startAddr := by
  rw [hkeep, hdomain, haddr]
  exact hs.armed i hold

theorem Sourced.stay (hhart : t.hart h = { s.hart h with pc := q })
    (hboot : ∀ d, s.pc h = .domainsStart d → q ≠ .enter)
    (hsuspend : ∀ platform addr arg, s.pc h ≠ .suspending false platform addr arg)
    (hold : (s.pc h).armed (s.hsm h) = true) :
    ∃ o, (w.see cfg s t h a).given h = some o ∧
      o.Backs cfg (t.domain h) (t.hart h).startAddr := by
  have hpc : t.pc h = q := by rw [Sys.pc, hhart]
  refine hs.keep (Origins.see_keep ?_ ?_ ?_) (by rw [Sys.domain, hhart]; rfl) (by rw [hhart]) hold
  · intro hstopped hnew
    rw [Sys.hsm, hhart] at hnew
    change s.hsm h = .startPending at hnew
    rw [hstopped] at hnew
    cases hnew
  · exact fun _ d hd => hpc ▸ hboot d hd
  · exact fun _ platform addr arg hd => absurd hd (hsuspend platform addr arg)

theorem Sourced.goes (hgo : Goes cfg s h a (s.pc h) q)
    (hhart : t.hart h = { s.hart h with pc := q }) (harmed : q.armed (s.hsm h) = true) :
    ∃ o, (w.see cfg s t h a).given h = some o ∧
      o.Backs cfg (t.domain h) (t.hart h).startAddr := by
  refine hs.stay hhart ?_ ?_ (hgo.armed harmed)
  · intro d hd
    rw [hd] at hgo
    exact hgo.not_enter
  · intro platform addr arg hd
    rw [hd] at hgo
    exact Goes.not_suspending hgo

theorem Sourced.sets (hset : Sets cfg s h (s.pc h) hsm q)
    (hhart : t.hart h = { s.hart h with hsm := hsm, pc := q }) (harmed : q.armed hsm = true) :
    ∃ o, (w.see cfg s t h a).given h = some o ∧
      o.Backs cfg (t.domain h) (t.hart h).startAddr := by
  have hold := hset.armed harmed
  refine hs.keep (Origins.see_keep ?_ ?_ ?_) (by rw [Sys.domain, hhart]; rfl) (by rw [hhart]) hold
  · intro _
    rw [Sys.hsm, hhart]
    exact hset.hsm_ne
  · intro _ d hd
    rw [hd] at hset
    exact hset.ne_domainsStart.elim
  · intro _ platform addr arg hd
    rw [hd] at hold
    cases hold

theorem Sourced.boot (hpc : s.pc h = .bootLock i addr arg mode cont) (hold : s.hsm i = .stopped)
    (hnew : t.hsm i = .startPending) (hdomain : t.domain i = s.domain i)
    (haddr : (t.hart i).startAddr = addr) :
    ∃ o, (w.see cfg s t h a).given i = some o ∧
      o.Backs cfg (t.domain i) (t.hart i).startAddr := by
  obtain ⟨-, o, hasks, hbacks⟩ := hs.asked h i addr arg mode cont hpc
  refine ⟨o, Origins.see_start ?_, ?_⟩
  · simp [startOf, hpc, hold, hnew, hasks]
  · rw [hdomain, haddr]
    exact hbacks

theorem Sourced.walk {hart : Hart x} (hw : Walk cfg s h a hart) (hhart : t.hart h = hart)
    (harmed : hart.pc.armed hart.hsm = true) :
    ∃ o, (w.see cfg s t h a).given h = some o ∧
      o.Backs cfg (t.domain h) (t.hart h).startAddr := by
  cases hw with
  | goes hgo => exact hs.goes hgo hhart harmed
  | sets hset => exact hs.sets hset hhart harmed
  | @sleeps platform addr arg hpc =>
    have hasleep : t.pc h = .asleep false := by rw [Sys.pc, hhart]
    have hdomain : t.domain h = s.domain h := by rw [Sys.domain, hhart]; rfl
    refine ⟨⟨s.domain h, addr, true⟩, Origins.see_start ?_, ?_⟩
    · simp [startOf, hpc, hasleep]
    · rw [hdomain, hhart]
      exact ⟨rfl, rfl, hs.suspending h platform addr arg hpc, by rintro ⟨⟩⟩
  | @boots d _ _ hpc hboot hentry =>
    have henter : t.pc h = .enter := by rw [Sys.pc, hhart]
    have hdomain : t.domain h = s.domain h := by rw [Sys.domain, hhart]; rfl
    refine ⟨.tree cfg (s.domain h), Origins.see_start ?_, ?_⟩
    · simp [startOf, hpc, henter]
    · rw [hdomain, hhart]
      exact ⟨rfl, rfl, hentry, fun _ => rfl⟩
  | @asked hart target _ _ _ cont hpc hpoked =>
    cases hpoked with
    | same =>
      refine hs.stay hhart (by simp [hpc]) (by simp [hpc]) ?_
      rw [hpc]
      cases cont with
      | trapExit => cases harmed
      | domainsStart => exact harmed
    | boot hlock hstopped =>
      exact hs.boot hlock hstopped (by rw [Sys.hsm, hhart]) (by rw [Sys.domain, hhart]; rfl)
        (by rw [hhart])
    | unboot hplat =>
      rw [hpc] at hplat
      cases hplat
  | @answered hart target cont hpc hpoked =>
    cases cont with
    | trapExit => cases harmed
    | domainsStart d =>
      cases hpoked with
      | same =>
        refine hs.stay hhart (by simp [hpc]) (by simp [hpc]) ?_
        rw [hpc]
        exact harmed
      | boot hlock =>
        rw [hpc] at hlock
        cases hlock
      | unboot => cases harmed
  | moves _ hnext hlands =>
    cases hlands with
    | runs =>
      rcases hnext with rfl | ⟨rfl, -⟩
      · cases harmed
      · cases harmed
    | stops => cases harmed

theorem Sourced.poked (hi : i ≠ h) {hart : Hart x} (hp : Poked s h i hart)
    (hhart : t.hart i = hart) (harmed : (s.pc i).armed hart.hsm = true) :
    ∃ o, (w.see cfg s t h a).given i = some o ∧
      o.Backs cfg (t.domain i) (t.hart i).startAddr := by
  cases hp with
  | same =>
    refine hs.keep (Origins.see_keep ?_ (absurd · hi) (absurd · hi)) (by rw [Sys.domain, hhart]; rfl)
      (by rw [hhart]) harmed
    intro hold hnew
    rw [Sys.hsm, hhart] at hnew
    change s.hsm i = .startPending at hnew
    rw [hold] at hnew
    cases hnew
  | boot hlock hstopped =>
    exact hs.boot hlock hstopped (by rw [Sys.hsm, hhart]) (by rw [Sys.domain, hhart]; rfl)
      (by rw [hhart])
  | unboot _ hpending =>
    refine hs.keep (Origins.see_keep ?_ (absurd · hi) (absurd · hi)) (by rw [Sys.domain, hhart]; rfl)
      (by rw [hhart]) ?_
    · intro hold
      rw [hpending] at hold
      cases hold
    · -- a start that was called off is not waited for
      rw [hpending]
      exact Pc.armed_startPending harmed

end

theorem Sourced.asked_walk (hc : Contexts cfg s) (hw : Walk cfg s h a (t.hart h)) {target : Nat}
    (hpc : t.pc h = .bootLock target addr arg mode cont) :
    (∃ o, (w.see cfg s t h a).asks h = some o ∧ o.Backs cfg (s.domain target) addr) ∧
      t.domain h = s.domain h := by
  change (t.hart h).pc = _ at hpc
  change _ ∧ (t.hart h).domain = _
  generalize t.hart h = hart at hw hpc
  cases hw with
  | goes hgo => exact ⟨hgo.asked hc rfl hpc, rfl⟩
  | sets hset =>
    have hnone := hset.not_asked
    dsimp only at hpc
    rw [hpc] at hnone
    cases hnone
  | sleeps | boots | asked => cases hpc
  | @answered _ _ cont => cases cont <;> cases hpc
  | moves _ hnext hlands =>
    cases hlands with
    | runs =>
      rcases hnext with rfl | ⟨rfl, -⟩
      · cases hpc
      · cases hpc
    | stops => cases hpc

theorem Sourced.suspending_walk (hw : Walk cfg s h a (t.hart h))
    (hpc : t.pc h = .suspending false platform addr arg) :
    cfg.entryOk (t.domain h) addr = true := by
  change (t.hart h).pc = _ at hpc
  change cfg.entryOk (t.hart h).domain addr = true
  generalize t.hart h = hart at hw hpc
  cases hw with
  | goes hgo => exact (hgo.not_suspends hpc).elim
  | sets hset => exact hset.suspended hpc
  | sleeps | boots | asked => cases hpc
  | @answered _ _ cont => cases cont <;> cases hpc
  | moves _ hnext hlands =>
    cases hlands with
    | runs =>
      rcases hnext with rfl | ⟨rfl, -⟩
      · cases hpc
      · cases hpc
    | stops => cases hpc

theorem Sourced.step (hc : Contexts cfg s) (hs : Sourced cfg s w)
    (hsettled : StartsSettled cfg s (h, a)) (hstep : step cfg s h a = some t) :
    Sourced cfg t (w.see cfg s t h a) := by
  have he := hc.step_effect hstep
  have hwalk := step_walk (hc.cur_not_calling h) hstep
  have hother : ∀ i, i ≠ h → t.domain i = s.domain i := fun i hi => (he.other hi).domain
  constructor
  · intro g target addr arg mode cont hpc
    by_cases hg : g = h
    · subst hg
      obtain ⟨hask, hdomain⟩ := Sourced.asked_walk (w := w) hc hwalk hpc
      refine ⟨(step_hart hstep).1, ?_⟩
      have hsame : t.domain target = s.domain target := by
        by_cases htarget : target = g
        · rw [htarget]
          exact hdomain
        · exact hother target htarget
      rw [hsame]
      exact hask
    · rw [he.pc_other hg] at hpc
      obtain ⟨hlt, o, hasks, hbacks⟩ := hs.asked g target addr arg mode cont hpc
      refine ⟨hlt, o, (Origins.see_asks hg).trans hasks, ?_⟩
      have hsame : t.domain target = s.domain target := by
        by_cases htarget : target = h
        · -- the start is not settled yet, so the hart stays where it is
          rw [htarget]
          rcases hsettled t hstep with hstays | hfree
          · exact hstays
          · exact absurd (by rw [hpc, htarget]; rfl) (hfree g hlt)
        · exact hother target htarget
      rw [hsame]
      exact hbacks
  · intro i platform addr arg hpc
    by_cases hi : i = h
    · subst hi
      exact Sourced.suspending_walk hwalk hpc
    · rw [he.pc_other hi] at hpc
      rw [hother i hi]
      exact hs.suspending i platform addr arg hpc
  · intro i harmed
    by_cases hi : i = h
    · subst hi
      exact hs.walk hwalk rfl harmed
    · rw [he.pc_other hi] at harmed
      exact hs.poked hi (he.other hi) rfl harmed

/-- What holds of the harts and of what the observer has noted, at the end of a run
    in which the starts are settled. -/
theorem run_sourced (cfg : Config x) (hroot : ∀ h < cfg.harts, h ∈ (cfg.domain 0).possible)
    (cpus : CpuNodes) (bootHart : Nat) {es : List (Nat × Act x)} {s : Sys x}
    (halong : Runs.Along (fun s e => Lifecycle.step cfg s e.1 e.2) (StartsSettled cfg)
      (boot cfg cpus bootHart) es)
    (hrun : run cfg (boot cfg cpus bootHart) es = some s) :
    Contexts cfg s ∧ Possible cfg s ∧ Sourced cfg s (origins cfg (boot cfg cpus bootHart) es) := by
  obtain ⟨home, hboot, hpossible⟩ := boot_eq_init cfg hroot cpus bootHart
  rw [hboot] at halong hrun ⊢
  refine halong.watch_invariant
    (J := fun s w => Contexts cfg s ∧ Possible cfg s ∧ Sourced cfg s w) ?_
    ⟨init_contexts cfg home bootHart, ⟨hpossible, fun _ _ hran => absurd rfl hran⟩,
      init_sourced cfg home bootHart⟩ hrun
  intro s w e t hi hsettled hstep
  have hnote : Origins.note cfg w s e = w.see cfg s t e.1 e.2 := by rw [Origins.note, hstep]; rfl
  rw [hnote]
  exact ⟨hi.1.step hstep, hi.2.1.step hi.1 hstep, hi.2.2.step hi.1 hsettled hstep⟩

end Steps

end RiscvMonitor.Lifecycle
