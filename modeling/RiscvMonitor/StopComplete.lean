import RiscvMonitor.HartWalk
import RiscvMonitor.PendingCalls

/-!
# Stopping a domain

`domain_stop()` marks the domain, drops the contexts that wait, and waits for the harts
in the domain, which stop or go back to the domain they came from.  Nothing looks after
one that is STOPPED: it keeps its context, and its caller waits on.  Where every STOPPED
hart of the domain is settled, the stop is complete.
-/

namespace RiscvMonitor.Lifecycle

open Sys

variable {x : Xlen}

/-- In the wait loop or on the way there, with no context in the domain it is in
    and nobody who waits for it. -/
def Settled (s : Sys x) (i : Nat) : Prop :=
  (s.pc i).waiting = true ∧ (s.cur i).state = .none ∧ s.callerWaits (s.domain i) i = false

instance (s : Sys x) (i : Nat) : Decidable (Settled s i) :=
  inferInstanceAs (Decidable (_ ∧ _ ∧ _))

/-- The harts of a domain that is stopped, or about to be, are settled where they
    are STOPPED, and a hart does not go back to its caller out of a call. -/
def StopsCleanly (cfg : Config x) (s : Sys x) (e : Nat × Act x) : Prop :=
  match s.pc e.1, e.2 with
  | .stopSection d, _ =>
    ∀ i < cfg.harts, cfg.present i = true → s.domain i = d → s.hsm i = .stopped → Settled s i
  | .park, _ =>
    s.stopping (s.domain e.1) = true →
      (s.cur e.1).state = .none ∧ s.callerWaits (s.domain e.1) e.1 = false
  | .bootPlat target _, .platform false =>
    cfg.platformStart = true → s.stopping (s.domain target) = true →
      s.hsm target = .startPending → Settled s target
  | .stopSelf true, _ =>
    s.stopping (s.domain e.1) = true → s.callerWaits (s.domain e.1) e.1 = false
  | _, _ => True

instance (cfg : Config x) (s : Sys x) (e : Nat × Act x) : Decidable (StopsCleanly cfg s e) := by
  unfold StopsCleanly
  split <;> infer_instance

/-! ### One stop at a time -/

structure StopLocked (s : Sys x) : Prop where
  free : s.stopLock = false → ∀ h, (s.pc h).stops = none
  alone : ∀ h i, (s.pc h).stops ≠ none → (s.pc i).stops ≠ none → h = i
  marked : ∀ d, s.stopping d = true ↔ ∃ h, (s.pc h).marks = some d

theorem init_stopLocked (home : Nat → Nat) (bootHart : Nat) :
    StopLocked (init home bootHart : Sys x) := by
  have hpc : ∀ h, ((init home bootHart : Sys x).pc h).stops = none := by
    intro h
    rcases init_pc home bootHart h with heq | heq <;> rw [heq] <;> rfl
  refine ⟨fun _ => hpc, fun h _ hs => absurd (hpc h) hs, fun d => ⟨nofun, ?_⟩⟩
  rintro ⟨h, hm⟩
  rw [Pc.marks_of_stops (hpc h)] at hm
  cases hm

variable {pc : Pc x}

theorem Pc.stops_of_marks {d : Nat} (hm : pc.marks = some d) : pc.stops = some d := by
  cases pc <;> first | exact hm | cases hm

theorem Pc.marks_of_scanned {cfg : Config x} {d n : Nat} (hs : pc.scanned cfg = some (d, n)) :
    pc.marks = some d := by
  cases pc with
  | stopScan d' i busy => cases busy <;> simp_all [Pc.scanned, Pc.marks]
  | stopCheck d' i busy => cases busy <;> simp_all [Pc.scanned, Pc.marks]
  | stopDone d' => simp_all [Pc.scanned, Pc.marks]
  | _ => cases hs

variable {w : Farewell}

section Lock

variable {cfg : Config x} {s t : Sys x} {h : Nat} {a : Act x}

section

variable (hl : StopLocked s) (hlock : t.stopLock = s.stopLock) (hstopping : t.stopping = s.stopping)
include hl hlock hstopping

theorem StopLocked.aside (hstops : ∀ i, (t.pc i).stops = (s.pc i).stops)
    (hmarks : ∀ i, (t.pc i).marks = (s.pc i).marks) : StopLocked t where
  free hfree i := by
    rw [hstops]
    exact hl.free (hlock ▸ hfree) i
  alone i j := by
    rw [hstops, hstops]
    exact hl.alone i j
  marked d := by
    rw [hstopping, hl.marked]
    exact exists_congr fun i => by rw [hmarks]

theorem StopLocked.aside_of_none (hold : (s.pc h).stops = none) (hnew : (t.pc h).stops = none)
    (hother : ∀ i, i ≠ h → t.pc i = s.pc i) : StopLocked t := by
  refine hl.aside hlock hstopping ?_ ?_
  · intro i
    by_cases hi : i = h
    · rw [hi, hold, hnew]
    · rw [hother i hi]
  · intro i
    by_cases hi : i = h
    · rw [hi, Pc.marks_of_stops hold, Pc.marks_of_stops hnew]
    · rw [hother i hi]

end

section

variable (hl : StopLocked s)
include hl

theorem StopLocked.moved {d : Nat} (hm : Moved s t h d w)
    (hold : (s.pc h).stops = none) : StopLocked t := by
  refine hl.aside_of_none hm.stopLock hm.stopping hold ?_ fun i hi => congrArg Hart.pc (hm.hart i hi)
  rcases hm.pc with hpc | hpc | hpc <;> rw [hpc] <;> rfl

theorem StopLocked.others (hold : (s.pc h).stops ≠ none) {i : Nat} (hi : i ≠ h) :
    (s.pc i).stops = none := by
  by_contra hs
  exact hi (hl.alone i h hs hold)

theorem StopLocked.held (hold : (s.pc h).stops ≠ none)
    (hother : ∀ i, i ≠ h → t.pc i = s.pc i) (hlock : t.stopLock = s.stopLock)
    (hmarked : ∀ d, t.stopping d = true ↔ (t.pc h).marks = some d) : StopLocked t := by
  have halone : ∀ i, i ≠ h → (t.pc i).stops = none := by
    intro i hi
    rw [hother i hi]
    exact hl.others hold hi
  refine ⟨?_, ?_, ?_⟩
  · intro hfree
    exact absurd (hl.free (hlock ▸ hfree) h) hold
  · intro i j hi hj
    by_cases hih : i = h
    · by_cases hjh : j = h
      · rw [hih, hjh]
      · exact absurd (halone j hjh) hj
    · exact absurd (halone i hih) hi
  · intro d
    rw [hmarked]
    refine ⟨fun hm => ⟨h, hm⟩, ?_⟩
    rintro ⟨i, hm⟩
    by_cases hi : i = h
    · rw [← hi]
      exact hm
    · rw [Pc.marks_of_stops (halone i hi)] at hm
      cases hm

theorem StopLocked.owner {d i : Nat} (hstops : (s.pc h).stops ≠ none)
    (hmarks : (s.pc i).marks = some d) : i = h := by
  refine hl.alone i h ?_ hstops
  rw [Pc.stops_of_marks hmarks]
  nofun

theorem StopLocked.none_marked {d : Nat} (hstops : (s.pc h).stops ≠ none)
    (hmarks : (s.pc h).marks ≠ some d) : s.stopping d = false := by
  by_contra hs
  obtain ⟨i, hi⟩ := (hl.marked d).mp (Bool.not_eq_false _ ▸ hs)
  exact hmarks (hl.owner hstops hi ▸ hi)

theorem StopLocked.locked (hfree : s.stopLock = false)
    (hlock : t.stopLock = true) (hstopping : t.stopping = s.stopping)
    (hmarks : (t.pc h).marks = none) (hother : ∀ i, i ≠ h → t.pc i = s.pc i) : StopLocked t where
  free hnot := by
    rw [hlock] at hnot
    cases hnot
  alone i j hi hj := by
    have hmine : ∀ k, (t.pc k).stops ≠ none → k = h := by
      intro k hk
      by_contra hkh
      rw [hother k hkh] at hk
      exact hk (hl.free hfree k)
    rw [hmine i hi, hmine j hj]
  marked d := by
    rw [hstopping, hl.marked]
    refine exists_congr fun i => ?_
    by_cases hi : i = h
    · rw [hi, hmarks, Pc.marks_of_stops (hl.free hfree h)]
    · rw [hother i hi]

theorem StopLocked.unlocked {d : Nat} (hpc : s.pc h = .stopUnlock d)
    (hstopping : t.stopping = s.stopping) (hnew : (t.pc h).stops = none)
    (hother : ∀ i, i ≠ h → t.pc i = s.pc i) : StopLocked t := by
  have hstops : (s.pc h).stops ≠ none := by simp [hpc, Pc.stops]
  have hnone : ∀ i, (t.pc i).stops = none := by
    intro i
    by_cases hi : i = h
    · rw [hi, hnew]
    · rw [hother i hi]
      exact hl.others hstops hi
  refine ⟨fun _ => hnone, fun i _ hi => absurd (hnone i) hi, ?_⟩
  intro d'
  rw [hstopping, hl.none_marked hstops (by simp [hpc, Pc.marks])]
  refine iff_of_false Bool.false_ne_true ?_
  rintro ⟨i, hi⟩
  rw [Pc.marks_of_stops (hnone i)] at hi
  cases hi

theorem StopLocked.stopSection {d : Nat} (hpc : s.pc h = .stopSection d) :
    StopLocked (stopSection s h d) := by
  have hstops : (s.pc h).stops ≠ none := by simp [hpc, Pc.stops]
  refine hl.held hstops (fun i hi => goto_pc_of_ne _ _ hi _) rfl ?_
  · intro d'
    have hmarks : ((Lifecycle.stopSection s h d).pc h).marks = some d := by
      rw [Lifecycle.stopSection, goto_pc_self]
      rfl
    rw [hmarks, Option.some.injEq]
    by_cases hd : d' = d
    · simp [Lifecycle.stopSection, goto, hd]
    · have hnone : s.stopping d' = false := hl.none_marked hstops (by simp [hpc, Pc.marks])
      simp [Lifecycle.stopSection, goto, hd, hnone, Ne.symm hd]

theorem StopLocked.cleared {d : Nat} (hpc : s.pc h = .stopDone d) :
    StopLocked ({ s with
      stopping := Function.update s.stopping d false }.goto h (.stopUnlock d)) := by
  have hstops : (s.pc h).stops ≠ none := by
    rw [hpc]
    nofun
  refine hl.held hstops (fun i hi => goto_pc_of_ne _ _ hi _) rfl ?_
  · intro d'
    rw [goto_pc_self]
    refine iff_of_false ?_ nofun
    by_cases hd : d' = d
    · simp [goto, hd]
    · have hnone : s.stopping d' = false := by
        refine hl.none_marked hstops ?_
        rw [hpc]
        intro heq
        exact hd (Option.some.inj heq).symm
      simp [goto, hd, hnone]

theorem StopLocked.effect (he : Effect cfg s h a t) : StopLocked t := by
  have hother : ∀ i, i ≠ h → t.pc i = s.pc i := fun i => he.pc_other
  cases he with
  | own hmove =>
    refine hl.aside rfl rfl ?_ ?_
    · intro i
      rw [setHart_pc]
      split
      · next hi => rw [hi, hmove.stops]
      · rfl
    · intro i
      rw [setHart_pc]
      split
      · next hi => rw [hi, hmove.marks]
      · rfl
  | boot hpc =>
    refine hl.aside_of_none rfl rfl (by rw [hpc]; rfl) ?_ hother
    rw [goto_pc_self]
    rfl
  | @unboot _ cont hpc =>
    refine hl.aside_of_none rfl rfl (by rw [hpc]; rfl) ?_ hother
    rw [goto_pc_self]
    exact cont.stops_pc
  | started hpc =>
    refine hl.aside_of_none rfl rfl (by rw [hpc]; rfl) ?_ hother
    rw [contextStarted, goto_pc_self]
    rfl
  | entered hact _ _ hm => exact hl.moved hm hact.away.stops
  | left hpc _ _ _ _ hm =>
    refine hl.moved hm ?_
    rcases hpc with hpc | ⟨_, hpc⟩ <;> rw [hpc] <;> rfl
  | refused hold _ hnew | domainStart hold _ hnew =>
    refine hl.aside_of_none rfl rfl hold ?_ hother
    rwa [goto_pc_self]
  | returned hpc _ _ hm => exact hl.moved hm (by rw [hpc]; rfl)
  | halted hpc =>
    refine hl.aside_of_none rfl rfl (by rw [hpc]; rfl) ?_ hother
    rw [goto_pc_self]
    rfl
  | lock _ hfree =>
    refine hl.locked hfree rfl rfl ?_ hother
    rw [goto_pc_self]
    rfl
  | stopSection hpc => exact hl.stopSection hpc
  | cleared hpc => exact hl.cleared hpc
  | unlocked hpc hnew =>
    refine hl.unlocked hpc rfl ?_ hother
    rwa [goto_pc_self]

end

end Lock

/-! ### A hart while a domain is stopped -/

/-- The hart went back to domain `c`, and the call it waited in failed unless it
    was a bridge's. -/
def WentBack (s : Sys x) (i c : Nat) : Prop :=
  ∃ back, s.back i = some back ∧ back.domain = c ∧
    (back.quiet = false → back.ret = some (.failed, 0))

structure Visiting (s : Sys x) (d i c : Nat) : Prop where
  here : s.domain i = d
  caller : (s.ctx d i).caller = some c
  waits : (s.ctx c i).state = .calling
  notBack : s.back i = none

structure HartStopping (cfg : Config x) (s : Sys x) (d i : Nat) : Prop where
  dropped : ¬ (s.ctx d i).state.kept
  settled : i < cfg.harts ∧ cfg.present i = true → s.domain i = d → s.hsm i = .stopped → Settled s i
  visitor : ∀ c, s.visitor i = some c → WentBack s i c ∨ Visiting s d i c

/-- What the wait of `domain_stop()` looks for. -/
def OutOrStopped (s : Sys x) (d i : Nat) : Prop := s.domain i ≠ d ∨ s.hsm i = .stopped

structure Carried (cfg : Config x) (s t : Sys x) (d i : Nat) : Prop where
  stopping : HartStopping cfg t d i
  outOrStopped : OutOrStopped s d i → OutOrStopped t d i

variable {c : Nat}

section Harts

variable {cfg : Config x} {s t : Sys x} {d h i : Nat} {a : Act x}

section

variable (hs : HartStopping cfg s d i)
include hs

theorem HartStopping.not_stopped (hreal : i < cfg.harts ∧ cfg.present i = true)
    (hwait : (s.pc i).waiting = false) (hdomain : s.domain i = d) : s.hsm i ≠ .stopped := by
  intro hstopped
  have hw := (hs.settled hreal hdomain hstopped).1
  rw [hwait] at hw
  cases hw

theorem Carried.same (hhart : t.hart i = s.hart i) (hctx : t.ctx d i = s.ctx d i)
    (hcalling : ∀ c, (t.ctx c i).state = .calling ↔ (s.ctx c i).state = .calling)
    (hvisitor : t.visitor i = s.visitor i) (hback : t.back i = s.back i) : Carried cfg s t d i := by
  have hdomain : t.domain i = s.domain i := congrArg Hart.domain hhart
  have hhsm : t.hsm i = s.hsm i := congrArg Hart.hsm hhart
  refine ⟨⟨?_, ?_, ?_⟩, ?_⟩
  · rw [hctx]
    exact hs.dropped
  · intro hreal hd hstopped
    rw [hdomain] at hd
    rw [hhsm] at hstopped
    obtain ⟨hw, hnone, hcaller⟩ := hs.settled hreal hd hstopped
    have hcur : t.ctx (t.domain i) i = s.ctx (s.domain i) i := by rw [hdomain, hd, hctx]
    refine ⟨?_, ?_, ?_⟩
    · rw [Sys.pc, hhart]
      exact hw
    · rw [cur, hcur]
      exact hnone
    · by_contra hyes
      obtain ⟨c, hc, hcw⟩ := callerWaits_iff.mp (Bool.not_eq_false _ ▸ hyes)
      rw [hcur] at hc
      have := callerWaits_iff.mpr ⟨c, hc, (hcalling c).mp hcw⟩
      rw [hcaller] at this
      cases this
  · intro c hc
    rw [hvisitor] at hc
    refine (hs.visitor c hc).imp ?_ ?_
    · rw [WentBack, WentBack, hback]
      exact id
    · intro hv
      exact ⟨hdomain.trans hv.here, hctx ▸ hv.caller, (hcalling c).mpr hv.waits,
        hback.trans hv.notBack⟩
  · rw [OutOrStopped, OutOrStopped, hdomain, hhsm]
    exact id

theorem Carried.busy (hreal : i < cfg.harts ∧ cfg.present i = true)
    (hwait : (s.pc i).waiting = false) (hdomain : t.domain i = s.domain i)
    (hhsm : t.hsm i = .stopped → s.hsm i = .stopped) (hdropped : ¬ (t.ctx d i).state.kept)
    (hvisiting : ∀ c, Visiting s d i c → Visiting t d i c) (hvisitor : t.visitor i = s.visitor i)
    (hback : t.back i = s.back i) : Carried cfg s t d i := by
  have hbusy : s.domain i = d → s.hsm i ≠ .stopped := hs.not_stopped hreal hwait
  refine ⟨⟨hdropped, ?_, ?_⟩, ?_⟩
  · intro _ hd hstopped
    exact absurd (hhsm hstopped) (hbusy (hdomain ▸ hd))
  · intro c hc
    rw [hvisitor] at hc
    refine (hs.visitor c hc).imp ?_ (hvisiting c)
    rw [WentBack, WentBack, hback]
    exact id
  · intro hout
    refine .inl ?_
    rw [hdomain]
    intro hd
    exact hout.elim (fun hne => hne hd) (hbusy hd)

theorem Carried.busy_same (hreal : i < cfg.harts ∧ cfg.present i = true)
    (hwait : (s.pc i).waiting = false) (hdomain : t.domain i = s.domain i)
    (hhsm : t.hsm i = .stopped → s.hsm i = .stopped) (hctx : t.ctx = s.ctx)
    (hvisitor : t.visitor = s.visitor) (hback : t.back = s.back) : Carried cfg s t d i := by
  refine Carried.busy hs hreal hwait hdomain hhsm ?_ ?_ (by rw [hvisitor]) (by rw [hback])
  · rw [hctx]
    exact hs.dropped
  · intro c hv
    exact ⟨hdomain.trans hv.here, hctx ▸ hv.caller, hctx ▸ hv.waits, by rw [hback]; exact hv.notBack⟩

end

theorem Carried.moved (hs : HartStopping cfg s d h) (hm : Moved s t h c w) (hne : c ≠ d)
    (hstate : s.domain h = d → ¬ w.state.kept)
    (hvisitor : ∀ c, s.visitor h = some c → WentBack t h c) : Carried cfg s t d h := by
  have hout : t.domain h ≠ d := by
    rw [hm.domain]
    exact hne
  refine ⟨⟨?_, fun _ hd => absurd hd hout, ?_⟩, fun _ => .inl hout⟩
  · rw [hm.state, if_neg hne.symm]
    split
    · next hd => exact hstate hd.symm
    · exact hs.dropped
  · intro c hc
    rw [hm.visitor] at hc
    exact .inl (hvisitor c hc)

theorem Carried.other (hs : HartStopping cfg s d i) (hm : Moved s t h c w)
    (hback : t.back i = s.back i) (hi : i ≠ h) : Carried cfg s t d i :=
  Carried.same hs (hm.hart i hi) (hm.other d i hi) (fun c => by rw [hm.other c i hi])
    (by rw [hm.visitor]) hback

theorem Carried.out (hs : HartStopping cfg s d i) (hdomain : t.domain i = s.domain i)
    (hne : s.domain i ≠ d) (hctx : t.ctx = s.ctx) (hvisitor : t.visitor = s.visitor)
    (hback : t.back = s.back) : Carried cfg s t d i := by
  have hout : t.domain i ≠ d := by
    rw [hdomain]
    exact hne
  refine ⟨⟨?_, fun _ hd => absurd hd hout, ?_⟩, fun _ => .inl hout⟩
  · rw [hctx]
    exact hs.dropped
  · intro c hc
    rw [hvisitor] at hc
    rcases hs.visitor c hc with hwent | hv
    · refine .inl ?_
      rw [WentBack, hback]
      exact hwent
    · exact absurd hv.here hne

theorem Walk.stays {hart : Hart x} (hwalk : Walk cfg s h a hart) (hwait : (s.pc h).waiting = true)
    (hstopped : s.hsm h = .stopped ∨ hart.hsm = .stopped) :
    hart.hsm = .stopped ∧ hart.pc.waiting = true := by
  cases hwalk with
  | goes hgo =>
    have hhsm : s.hsm h = .stopped := hstopped.elim id id
    generalize s.pc h = p at hgo hwait
    cases hgo with
    | arrives | parks | powersDown => exact ⟨hhsm, rfl⟩
    | resets hother | wakes hother =>
      rw [hhsm] at hother
      cases hother
    | giveUp hpc => rcases hpc with rfl | rfl | rfl <;> cases hwait
    | starts hpc => rcases hpc with ⟨rfl, -⟩ | ⟨rfl, -⟩ <;> cases hwait
    | stopping hold => cases p <;> first | (cases hwait; done) | cases hold
    | _ => cases hwait
  | sets hset =>
    generalize s.pc h = p at hset hwait
    cases hset with
    | parked => exact ⟨rfl, rfl⟩
    | resumes hpc => rcases hpc with rfl | rfl <;> cases hwait
    | _ => cases hwait
  | sleeps hpc | boots hpc | asked hpc | answered hpc =>
    rw [hpc] at hwait
    cases hwait
  | moves hway =>
    cases hway with
    | enters hpc | switches hpc | chains hpc | yields hpc | goesBack hpc =>
      rw [hpc] at hwait
      cases hwait
    | leaves hpc => rcases hpc with hpc | ⟨_, hpc⟩ <;> rw [hpc] at hwait <;> cases hwait

theorem Walk.scan {hart : Hart x} {n j : Nat} (hwalk : Walk cfg s h a hart)
    (hn : hart.pc.scanned cfg = some (d, n)) (hj : j < n) (hji : j ≠ h)
    (hpresent : cfg.present j = true) : s.assigned d j = false ∨ s.hsm j = .stopped ∨
      ∃ m, (s.pc h).scanned cfg = some (d, m) ∧ j < m := by
  cases hwalk with
  | goes hgo =>
    generalize s.pc h = p at hgo
    cases hgo with
    | stopping _ _ hscan => exact hscan d n hn j hj hji hpresent
    | @unasked _ _ _ _ cont => cases cont <;> cases hn
    | unlocks hpc => rcases hpc with rfl | rfl <;> cases hn
    | _ => cases hn
  | sets hset =>
    generalize s.pc h = p at hset
    cases hset <;> cases hn
  | sleeps | boots | asked => cases hn
  | @answered _ _ cont => cases cont <;> cases hn
  | moves _ hnext hlands =>
    cases hlands with
    | runs => rcases hnext with rfl | ⟨rfl, -⟩ <;> cases hn
    | stops => cases hn

theorem Carried.own {hart : Hart x} (hs : HartStopping cfg s d h)
    (hreal : h < cfg.harts ∧ cfg.present h = true) (hd : s.stopping d = true)
    (hk : StopsCleanly cfg s (h, a)) (hmove : OwnMove s h hart) (hwalk : Walk cfg s h a hart) :
    Carried cfg s (s.setHart h hart) d h := by
  have hdomain : (s.setHart h hart).domain h = s.domain h := hmove.domain_eq h
  have hhsm : (s.setHart h hart).hsm h = hart.hsm := by rw [setHart_hsm, if_pos rfl]
  have hpc : (s.setHart h hart).pc h = hart.pc := by rw [setHart_pc, if_pos rfl]
  have hsettled : hart.pc.waiting = true → (s.cur h).state = .none →
      s.callerWaits (s.domain h) h = false → Settled (s.setHart h hart) h := by
    intro hw hnone hcaller
    rw [Settled, hpc, cur, hdomain]
    exact ⟨hw, hnone, hcaller⟩
  refine ⟨⟨hs.dropped, ?_, ?_⟩, ?_⟩
  · intro _ hin hstopped
    rw [hdomain] at hin
    rw [hhsm] at hstopped
    rcases hmove.becomes hstopped with hwas | hpark
    · obtain ⟨hw, hnone, hcaller⟩ := hs.settled hreal hin hwas
      exact hsettled (hwalk.stays hw (.inl hwas)).2 hnone hcaller
    · simp only [StopsCleanly, hpark] at hk
      obtain ⟨hnone, hcaller⟩ := hk (hin ▸ hd)
      exact hsettled (hwalk.stays (hpark ▸ rfl) (.inr hstopped)).2 hnone hcaller
  · intro c hc
    refine (hs.visitor c hc).imp_right ?_
    intro hv
    exact ⟨hdomain.trans hv.here, hv.caller, hv.waits, hv.notBack⟩
  · intro hout
    rw [OutOrStopped, hdomain, hhsm]
    by_cases hin : s.domain h = d
    · have hwas := hout.resolve_left (not_not_intro hin)
      exact .inr (hwalk.stays (hs.settled hreal hin hwas).1 (.inl hwas)).1
    · exact .inl hin

section

variable (hall : ∀ i, HartStopping cfg s d i) (hreal : h < cfg.harts ∧ cfg.present h = true)
include hall

theorem Carried.left (hm : Moved s t h c w) (hback : t.back = s.back) (hcur : s.domain h ≠ d)
    (hne : c ≠ d) : Carried cfg s t d i := by
  by_cases hi : i = h
  · subst hi
    refine Carried.moved (hall i) hm hne (fun hin => absurd hin hcur) ?_
    intro c hv
    rw [WentBack, hback]
    exact ((hall i).visitor c hv).resolve_right fun hv => hcur hv.here
  · exact Carried.other (hall i) hm (by rw [hback]) hi

include hreal

theorem Carried.setCtx {d' : Nat} {c : Ctx x} (hwait : (s.pc h).waiting = false)
    (hold : (s.ctx d' h).state ≠ .calling) (hnew : d' = d → ¬ c.state.kept)
    (hcaller : d' = d → ∀ b, Visiting s d h b → c.caller = some b) :
    Carried cfg s ((s.setCtx d' h c).goto h pc) d i := by
  have hctx : ∀ d'' i, ((s.setCtx d' h c).goto h pc).ctx d'' i =
      if d'' = d' ∧ i = h then c else s.ctx d'' i := by
    intro d'' i
    simp [goto, update_update_apply]
  by_cases hi : i = h
  · subst hi
    refine Carried.busy (hall i) hreal hwait (by simp) (by rw [goto_hsm]; exact id) ?_ ?_ rfl rfl
    · rw [hctx]
      split
      · next heq => exact hnew heq.1.symm
      · exact (hall i).dropped
    · intro b hv
      refine ⟨by simpa using hv.here, ?_, ?_, hv.notBack⟩
      · rw [hctx]
        split
        · next heq => exact hcaller heq.1.symm b hv
        · exact hv.caller
      · rw [hctx, if_neg]
        · exact hv.waits
        · rintro ⟨rfl, -⟩
          exact hold hv.waits
  · refine Carried.same (hall i) ?_ ?_ ?_ rfl rfl
    · simp [goto, hi]
    · rw [hctx, if_neg fun heq => hi heq.2]
    · intro b
      rw [hctx, if_neg fun heq => hi heq.2]

theorem Carried.goto {u : Sys x} (hwait : (s.pc h).waiting = false)
    (hhart : u.hart = s.hart) (hctx : u.ctx = s.ctx) (hvisitor : u.visitor = s.visitor)
    (hback : u.back = s.back) : Carried cfg s (u.goto h pc) d i := by
  by_cases hi : i = h
  · subst hi
    refine Carried.busy_same (hall i) hreal hwait ?_ ?_ hctx hvisitor hback
    · rw [goto_domain, Sys.domain, hhart]
      rfl
    · rw [goto_hsm, Sys.hsm, hhart]
      exact id
  · refine Carried.same (hall i) ?_ (by rw [← hctx]; rfl) (fun c => by rw [← hctx]; rfl)
      (by rw [← hvisitor]; rfl) (by rw [← hback]; rfl)
    simp [Sys.goto, hi, hhart]

theorem Carried.boot {target : Nat} {addr arg : Word x} {mode : NextMode} {cont : Cont}
    (hpc : s.pc h = .bootLock target addr arg mode cont) (hne : s.domain target ≠ d) :
    Carried cfg s (((s.setStart target addr arg mode).setHsm target .startPending).goto h
      (.bootPlat target cont)) d i := by
  by_cases hi : i = target
  · subst hi
    exact Carried.out (hall i) (by simp) hne rfl rfl rfl
  · rw [setStart_setHsm]
    by_cases hih : i = h
    · subst hih
      refine Carried.busy_same (hall i) hreal (by rw [hpc]; rfl) ?_ ?_ rfl rfl rfl
      · simp [hi]
      · simp [hi]
    · refine Carried.same (hall i) ?_ rfl (fun _ => Iff.rfl) rfl rfl
      simp [Sys.goto, hi, hih]

theorem Carried.unboot {target : Nat} {cont : Cont} (hpc : s.pc h = .bootPlat target cont)
    (hsettled : s.domain target = d → Settled s target) :
    Carried cfg s ((s.setHsm target .stopped).goto h cont.pc) d i := by
  by_cases hi : i = target
  · subst hi
    by_cases hin : s.domain i = d
    · have hset := hsettled hin
      have hih : i ≠ h := by
        rintro rfl
        have hw := hset.1
        rw [hpc] at hw
        cases hw
      refine ⟨⟨(hall i).dropped, ?_, ?_⟩, fun _ => .inr (by simp)⟩
      · intro _ _ _
        rw [Settled, goto_pc, if_neg hih, setHsm_pc, cur, goto_domain, setHsm_domain]
        exact hset
      · intro c hc
        refine ((hall i).visitor c hc).imp_right ?_
        intro hv
        exact ⟨by simpa using hv.here, hv.caller, hv.waits, hv.notBack⟩
    · exact Carried.out (hall i) (by simp) hin rfl rfl rfl
  · by_cases hih : i = h
    · subst hih
      refine Carried.busy_same (hall i) hreal (by rw [hpc]; rfl) (by simp) ?_ rfl rfl rfl
      simp [hi]
    · refine Carried.same (hall i) ?_ rfl (fun _ => Iff.rfl) rfl rfl
      simp [Sys.goto, Sys.setHsm, hi, hih]

theorem Carried.domainStart {d' : Nat} (hc : Contexts cfg s) (hwait : (s.pc h).waiting = false)
    (hok : domainStartCheck cfg s d' = .success) (hne : d ≠ d') :
    Carried cfg s ({ s with
      ctx := Function.update s.ctx d' fun i => { s.ctx d' i with state := .none } }.goto h pc)
      d i := by
  have hcalling : ∀ b, (({ s with ctx := Function.update s.ctx d' fun i =>
      { s.ctx d' i with state := .none } }.goto h pc).ctx b i).state = .calling ↔
        (s.ctx b i).state = .calling := by
    intro b
    by_cases hb : b = d'
    · subst hb
      refine iff_of_false (by simp [Sys.goto]) ?_
      exact fun hcall => hc.domainStart_none hok i (.inl hcall)
    · simp [Sys.goto, hb]
  have hctx : ({ s with ctx := Function.update s.ctx d' fun i =>
      { s.ctx d' i with state := .none } }.goto h pc).ctx d i = s.ctx d i := by
    simp [Sys.goto, hne]
  by_cases hi : i = h
  · subst hi
    refine Carried.busy (hall i) hreal hwait (by rw [goto_domain]; rfl)
      (by rw [goto_hsm]; exact id) ?_ ?_ rfl rfl
    · rw [hctx]
      exact (hall i).dropped
    · intro b hv
      refine ⟨?_, hctx ▸ hv.caller, (hcalling b).mpr hv.waits, hv.notBack⟩
      rw [goto_domain]
      exact hv.here
  · refine Carried.same (hall i) ?_ hctx hcalling rfl rfl
    simp [Sys.goto, hi]

omit hreal in
theorem Carried.returned {inCall : Bool} {back : Back x} (hd : s.stopping d = true)
    (hk : StopsCleanly cfg s (h, a)) (hpc : s.pc h = .stopSelf inCall)
    (hcaller : (s.cur h).caller = some c) (hstate : (s.ctx c h).state = .calling)
    (hm : Moved s t h c ⟨.none, none, s.parked (s.domain h) h, (s.ctx c h).caller⟩)
    (hback : t.back = Function.update s.back h (s.back h <|> some back))
    (hdomain : back.domain = c)
    (hret : inCall = false → back.quiet = false → back.ret = some (.failed, 0)) :
    Carried cfg s t d i := by
  by_cases hi : i = h
  · subst hi
    have hne : c ≠ d := by
      rintro rfl
      exact (hall i).dropped (.inl hstate)
    refine Carried.moved (hall i) hm hne (fun _ => by simp [CtxState.kept]) ?_
    intro b hb
    rcases (hall i).visitor b hb with ⟨back', hb', hrest⟩ | hv
    · refine ⟨back', ?_, hrest⟩
      simp [hback, hb']
    · have hcb : c = b := by
        have hlink := hv.caller
        rw [← hv.here] at hlink
        rw [cur, hlink] at hcaller
        exact (Option.some.inj hcaller).symm
      have hcall : inCall = false := by
        cases hin : inCall with
        | false => rfl
        | true =>
          -- the condition: out of the call no caller is left waiting
          rw [hin] at hpc
          simp only [StopsCleanly, hpc] at hk
          have hwaits := callerWaits_iff.mpr ⟨c, hcaller, hstate⟩
          rw [hk (hv.here ▸ hd)] at hwaits
          cases hwaits
      refine ⟨back, ?_, hdomain.trans hcb, hret hcall⟩
      simp [hback, hv.notBack]
  · refine Carried.other (hall i) hm ?_ hi
    simp [hback, hi]

theorem Carried.effect (hc : Contexts cfg s) (hd : s.stopping d = true)
    (hk : StopsCleanly cfg s (h, a)) (he : Effect cfg s h a t)
    (hsection : ∀ d', s.pc h = .stopSection d' → t ≠ stopSection s h d') (i : Nat) :
    Carried cfg s t d i := by
  have hout : ∀ {c}, s.stopping c = false → c ≠ d := by
    rintro c hs rfl
    rw [hd] at hs
    cases hs
  cases he with
  | @own hart hmove hwalk =>
    by_cases hi : i = h
    · subst hi
      exact Carried.own (hall i) hreal hd hk hmove hwalk
    · refine Carried.same (hall i) ?_ rfl (fun _ => Iff.rfl) rfl rfl
      simp [hi]
  | boot hpc hstop => exact Carried.boot hall hreal hpc (hout hstop)
  | unboot hpc hact hplatform hhsm =>
    subst hact
    refine Carried.unboot hall hreal hpc ?_
    intro hin
    simp only [StopsCleanly, hpc] at hk
    exact hk hplatform (hin ▸ hd) hhsm
  | started hpc =>
    refine Carried.setCtx hall hreal (by rw [hpc]; rfl) (hc.cur_not_calling h) ?_ ?_
    · simp [CtxState.kept]
    · intro hin b hv
      rw [← hv.caller, ← hin]
      rfl
  | entered hact hok hback hm =>
    obtain ⟨-, htarget, hcur, -, -⟩ := enterCheck_success hok
    exact Carried.left hall hm hback (hout hcur) (hout htarget)
  | left _ hstop _ hwhere hback hm =>
    refine Carried.left hall hm hback (hout hstop) ?_
    rcases hwhere with ⟨-, hcalling, -⟩ | ⟨-, hs, -, -⟩
    · rintro rfl
      exact (hall h).dropped (.inl hcalling)
    · exact hout hs
  | refused _ hwait _ hne hstate =>
    refine Carried.setCtx hall hreal hwait ?_ ?_ ?_
    · simp [hstate]
    · simp [hstate, CtxState.kept]
    · rintro rfl b hv
      exact absurd hv.here hne.symm
  | returned hpc hcaller hstate hm hback hdomain hret =>
    exact Carried.returned hall hd hk hpc hcaller hstate hm hback hdomain hret
  | halted hpc hwaits =>
    refine Carried.setCtx hall hreal (by rw [hpc]; rfl) (hc.cur_not_calling h) ?_ ?_
    · simp [CtxState.kept]
    · intro hin b hv
      have hyes := callerWaits_iff.mpr ⟨b, hv.caller, hv.waits⟩
      rw [← hin, hwaits] at hyes
      cases hyes
  | domainStart _ hwait _ hok =>
    have hne := hout (domainStartCheck_success hok).1
    exact Carried.domainStart hall hreal hc hwait hok hne.symm
  | lock hpc => exact Carried.goto hall hreal (by rw [hpc]; rfl) rfl rfl rfl rfl
  | stopSection hpc => exact absurd rfl (hsection _ hpc)
  | cleared hpc => exact Carried.goto hall hreal (by rw [hpc]; rfl) rfl rfl rfl rfl
  | unlocked hpc => exact Carried.goto hall hreal (by rw [hpc]; rfl) rfl rfl rfl rfl

end

theorem HartStopping.begin (hc : Contexts cfg s) (hpc : s.pc h = .stopSection d)
    (hk : StopsCleanly cfg s (h, a)) (i : Nat) : HartStopping cfg (stopSection s h d) d i := by
  simp only [StopsCleanly, hpc] at hk
  have hdomain : (stopSection s h d).domain i = s.domain i := stopSection_domain s h d i
  have hcur : s.domain i = d → (stopSection s h d).ctx d i = s.ctx d i := by
    intro hin
    rw [stopSection_ctx, if_pos rfl]
    rcases dropWaiting_state (s.ctx d i) with ⟨heq, -⟩ | ⟨-, -, hkept⟩
    · exact heq
    · subst hin
      exact absurd hkept (hc.cur_not_kept i)
  constructor
  · rw [stopSection_ctx, if_pos rfl]
    rcases dropWaiting_state (s.ctx d i) with ⟨heq, hkept⟩ | ⟨heq, -, -⟩
    · rwa [heq]
    · rw [heq]
      simp [CtxState.kept]
  · intro hreal hin hstopped
    rw [hdomain] at hin
    have hhsm : s.hsm i = .stopped := by
      rw [stopSection, goto_hsm] at hstopped
      exact hstopped
    obtain ⟨hw, hnone, hcaller⟩ := hk i hreal.1 hreal.2 hin hhsm
    have hih : i ≠ h := by
      rintro rfl
      rw [hpc] at hw
      cases hw
    refine ⟨?_, ?_, ?_⟩
    · rw [stopSection, goto_pc_of_ne _ _ hih]
      exact hw
    · rw [cur, hdomain, hin, hcur hin, ← hin]
      exact hnone
    · by_contra hyes
      obtain ⟨c, hcc, hcw⟩ := callerWaits_iff.mp (Bool.not_eq_false _ ▸ hyes)
      rw [hdomain, hin, hcur hin, ← hin] at hcc
      have hcd : c ≠ d := by
        rintro rfl
        exact hc.notSelf _ _ (hin ▸ hcc)
      rw [stopSection_ctx, if_neg hcd] at hcw
      have hold := callerWaits_iff.mpr ⟨c, hcc, hcw⟩
      rw [hcaller] at hold
      cases hold
  · intro c hv
    change (if s.domain i = d ∧ s.callerWaits d i = true then (s.ctx d i).caller else none) = _ at hv
    split at hv
    · next hvisits =>
      obtain ⟨hin, hwaits⟩ := hvisits
      obtain ⟨b, hb, hcalling⟩ := callerWaits_iff.mp hwaits
      have hcb : c = b := Option.some.inj (hv.symm.trans hb)
      have hcd : c ≠ d := by
        rintro rfl
        exact hc.notSelf _ _ hv
      refine .inr ⟨hdomain.trans hin, ?_, ?_, rfl⟩
      · rw [hcur hin]
        exact hv
      · rw [stopSection_ctx, if_neg hcd, hcb]
        exact hcalling
    · cases hv

end Harts

structure StopInv (cfg : Config x) (s : Sys x) : Prop where
  contexts : Contexts cfg s
  locked : StopLocked s
  stopping : ∀ d, s.stopping d = true → ∀ i, HartStopping cfg s d i
  scanned : ∀ h d n, (s.pc h).scanned cfg = some (d, n) → ∀ j < n, j ≠ h → cfg.present j = true →
    OutOrStopped s d j

theorem init_stopInv (cfg : Config x) (home : Nat → Nat) (bootHart : Nat) :
    StopInv cfg (init home bootHart) where
  contexts := init_contexts cfg home bootHart
  locked := init_stopLocked home bootHart
  stopping _ hs := by cases hs
  scanned h d n hn := by
    have hmarked := (init_stopLocked (x := x) home bootHart).marked d
    have hs := hmarked.mpr ⟨h, Pc.marks_of_scanned hn⟩
    cases hs

section Inv

variable {cfg : Config x} {s t : Sys x} {h : Nat} {a : Act x}

theorem step_scan (hc : Contexts cfg s) (hstep : step cfg s h a = some t) {i d n j : Nat}
    (hn : (t.pc i).scanned cfg = some (d, n)) (hj : j < n) (hji : j ≠ i)
    (hpresent : cfg.present j = true) : s.assigned d j = false ∨ s.hsm j = .stopped ∨
      ∃ m, (s.pc i).scanned cfg = some (d, m) ∧ j < m := by
  by_cases hi : i = h
  · subst hi
    exact (step_walk (hc.cur_not_calling i) hstep).scan hn hj hji hpresent
  · rw [(hc.step_effect hstep).pc_other hi] at hn
    exact .inr (.inr ⟨n, hn, hj⟩)

theorem Effect.stopping_of_ne {d : Nat} (he : Effect cfg s h a t)
    (hsection : ∀ d', s.pc h = .stopSection d' → t ≠ Lifecycle.stopSection s h d')
    (hd : t.stopping d = true) : s.stopping d = true := by
  cases he with
  | entered _ _ _ hm | left _ _ _ _ _ hm | returned _ _ _ hm => exact hm.stopping ▸ hd
  | stopSection hpc => exact absurd rfl (hsection _ hpc)
  | @cleared d' =>
    change Function.update s.stopping d' false d = true at hd
    by_cases hdd : d = d'
    · simp [hdd] at hd
    · simpa [hdd] using hd
  | own | boot | unboot | started | refused | halted | domainStart | lock | unlocked => exact hd

theorem StopInv.step (hinv : StopInv cfg s) (hk : StopsCleanly cfg s (h, a))
    (hstep : step cfg s h a = some t) : StopInv cfg t := by
  have he := hinv.contexts.step_effect hstep
  have hlocked := hinv.locked.effect he
  have hreal := step_hart hstep
  have hbarrier : ∀ {d}, s.pc h = .stopSection d → (stopSection s h d).pc h = .stopBarrier d := by
    intro d _
    rw [stopSection, goto_pc_self]
  refine ⟨hinv.contexts.step hstep, hlocked, ?_, ?_⟩
  · intro d hd i
    by_cases hsection : ∀ d', s.pc h = .stopSection d' → t ≠ stopSection s h d'
    · have hs := he.stopping_of_ne hsection hd
      exact (Carried.effect (hinv.stopping d hs) hreal hinv.contexts hs hk he hsection i).stopping
    · push Not at hsection
      obtain ⟨d', hpc, rfl⟩ := hsection
      have hdd : d = d' := by
        obtain ⟨j, hj⟩ := (hlocked.marked d).mp hd
        rw [hlocked.owner (by rw [hbarrier hpc]; exact Option.some_ne_none _) hj,
          hbarrier hpc] at hj
        exact (Option.some.inj hj).symm
      subst hdd
      exact HartStopping.begin hinv.contexts hpc hk i
  · intro i d n hn j hj hji hpresent
    by_cases hsection : ∀ d', s.pc h = .stopSection d' → t ≠ stopSection s h d'
    · have hs := he.stopping_of_ne hsection
        ((hlocked.marked d).mpr ⟨i, Pc.marks_of_scanned hn⟩)
      apply (Carried.effect (hinv.stopping d hs) hreal hinv.contexts hs hk he hsection j).outOrStopped
      rcases step_scan hinv.contexts hstep hn hj hji hpresent with hfree | hstopped | ⟨m, hm, hjm⟩
      · refine .inl fun hin => ?_
        rw [(hinv.contexts.assigned d j).mpr hin] at hfree
        cases hfree
      · exact .inr hstopped
      · exact hinv.scanned i d m hm j hjm hji hpresent
    · push Not at hsection
      obtain ⟨d', hpc, rfl⟩ := hsection
      rw [hlocked.owner (by rw [hbarrier hpc]; exact Option.some_ne_none _)
        (Pc.marks_of_scanned hn), hbarrier hpc] at hn
      cases hn

end Inv

/-- Hart 0 is in domain 2 on a visit from 1 when domain 2 is stopped; it goes back
    while hart 1 waits. -/
def relayStop : List (Nat × Act .rv64) :=
  relayBoot ++
    [(0, .call (.enter 2 0)), (0, .go), (1, .call (.domainStop 2)), (1, .go), (1, .go),
     (0, .go), (0, .go), (0, .go), (1, .go), (1, .go), (1, .go)]

/-- Hart 0 is stopped by S-mode in domain 2, on a visit from 1, and then domain 2 is
    stopped. -/
def relayStopStopped : List (Nat × Act .rv64) :=
  relayBoot ++
    [(0, .call (.enter 2 0)), (0, .go), (0, .call .hartStop), (0, .go), (0, .go),
     (1, .call (.domainStop 2)), (1, .go), (1, .go), (1, .go), (1, .go), (1, .go), (1, .go)]

end RiscvMonitor.Lifecycle
