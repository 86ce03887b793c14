import RiscvMonitor.LifecycleSteps

/-!
# The contexts of a hart and the masks

What the records of `domain_context.c` say of each other, in every state of every
run: the parked mask has the contexts that wait or idle, the assigned mask the
harts in the domain, and only the domain a hart is in has a running context for
it.  Nothing is assumed of the steps.
-/

namespace RiscvMonitor.Lifecycle

open Sys

variable {x : Xlen}

structure Contexts (cfg : Config x) (s : Sys x) : Prop where
  parked : ∀ d h, s.parked d h = true ↔ (s.ctx d h).state.kept
  away : ∀ d h, s.parked d h = true → s.domain h ≠ d
  ran : ∀ d h, (s.ctx d h).state ≠ .none → h < cfg.harts ∧ cfg.present h = true
  assigned : ∀ d h, s.assigned d h = true ↔ s.domain h = d
  running : ∀ d h, (s.ctx d h).state = .running → s.domain h = d
  notSelf : ∀ d h, (s.ctx d h).caller ≠ some d

theorem init_pc (home : Nat → Nat) (bootHart h : Nat) :
    (init home bootHart : Sys x).pc h = .domainsStart 0 ∨
      (init home bootHart : Sys x).pc h = .arrive := by
  simp only [init, Sys.pc]
  exact ite_eq_or_eq ..

theorem init_contexts (cfg : Config x) (home : Nat → Nat) (bootHart : Nat) :
    Contexts cfg (init home bootHart) where
  parked _ _ := by simp [init, CtxState.kept]
  away _ _ hp := by simp [init] at hp
  ran _ _ hne := by simp [init] at hne
  assigned d h := by simp [init, Sys.domain]
  running _ _ hr := by simp [init] at hr
  notSelf _ _ := by simp [init]

variable {d : Nat}

section Kept

variable {cfg : Config x} {s t : Sys x} {h : Nat} {a : Act x}

theorem Contexts.cur_not_kept (hc : Contexts cfg s) (h : Nat) : ¬ (s.cur h).state.kept :=
  fun hk => hc.away _ _ ((hc.parked (s.domain h) h).mpr hk) rfl

theorem Contexts.cur_not_calling (hc : Contexts cfg s) (h : Nat) : (s.cur h).state ≠ .calling :=
  fun hk => hc.cur_not_kept h (.inl hk)

section

variable (hc : Contexts cfg s) (hdomain : ∀ i, t.domain i = s.domain i)
  (hassigned : t.assigned = s.assigned)
include hc hdomain hassigned

theorem Contexts.still (hparked : ∀ d i, t.parked d i = true ↔ (t.ctx d i).state.kept)
    (hfewer : ∀ d i, t.parked d i = true → s.parked d i = true)
    (hrunning : ∀ d i, (t.ctx d i).state = .running → (s.ctx d i).state = .running ∨
      s.domain i = d ∧ i < cfg.harts ∧ cfg.present i = true)
    (hcaller : ∀ d i, (t.ctx d i).caller = (s.ctx d i).caller ∨ (t.ctx d i).caller = none) :
    Contexts cfg t where
  parked := hparked
  away d i hp := by
    rw [hdomain]
    exact hc.away d i (hfewer d i hp)
  ran d i hne := by
    by_cases hk : (t.ctx d i).state.kept
    · have hold := (hc.parked d i).mp (hfewer d i ((hparked d i).mpr hk))
      exact hc.ran d i hold.ne_none
    · rcases hrunning d i (CtxState.running_of_not_kept hne hk) with hr | hr
      · exact hc.ran d i (hr ▸ nofun)
      · exact hr.2
  assigned d i := by
    rw [hassigned, hdomain]
    exact hc.assigned d i
  running d i hr := by
    rw [hdomain]
    exact (hrunning d i hr).elim (hc.running d i) (·.1)
  notSelf d i := by
    rcases hcaller d i with heq | hnone
    · rw [heq]
      exact hc.notSelf d i
    · rw [hnone]
      nofun

theorem Contexts.same (hparked : t.parked = s.parked) (hctx : t.ctx = s.ctx) : Contexts cfg t := by
  refine hc.still hdomain hassigned ?_ ?_ ?_ ?_
  · rw [hparked, hctx]
    exact hc.parked
  · rw [hparked]
    exact fun _ _ => id
  · rw [hctx]
    exact fun _ _ => .inl
  · rw [hctx]
    exact fun _ _ => .inl rfl

end

theorem Contexts.moved {w : Farewell} (hc : Contexts cfg s) (hm : Moved s t h d w)
    (hh : h < cfg.harts ∧ cfg.present h = true) (hne : d ≠ s.domain h)
    (hkept : w.parked = true ↔ w.state.kept) (hstate : w.state ≠ .running)
    (hcaller : w.caller ≠ some (s.domain h)) (hlink : w.link ≠ some d) : Contexts cfg t := by
  have hdomain : ∀ i, i ≠ h → t.domain i = s.domain i :=
    fun i hi => congrArg Hart.domain (hm.hart i hi)
  constructor
  · intro d' i
    by_cases hi : i = h
    · subst hi
      rw [hm.parked, hm.state]
      by_cases hd : d' = d
      · simp [hd, CtxState.kept]
      · by_cases hcur : d' = s.domain i
        · simpa [hcur, hne.symm] using hkept
        · simpa [hd, hcur] using hc.parked d' i
    · rw [hm.parked, hm.other d' i hi]
      simpa [hi] using hc.parked d' i
  · intro d' i hp
    rw [hm.parked] at hp
    by_cases hi : i = h
    · subst hi
      rw [hm.domain]
      rintro rfl
      simp at hp
    · rw [hdomain i hi]
      simp only [hi, and_false, if_false] at hp
      exact hc.away d' i hp
  · intro d' i hran
    by_cases hi : i = h
    · rw [hi]
      exact hh
    · rw [hm.other d' i hi] at hran
      exact hc.ran d' i hran
  · intro d' i
    rw [hm.assigned]
    by_cases hi : i = h
    · subst hi
      rw [hm.domain]
      by_cases hd : d' = d
      · simp [hd]
      · have hold := hc.assigned d' i
        by_cases hcur : d' = s.domain i
        · simp [hcur, hne.symm, hne]
        · simp only [hd, false_and, if_false, hcur, hold]
          exact ⟨fun heq => absurd heq.symm hcur, fun heq => absurd heq.symm hd⟩
    · rw [hdomain i hi]
      simpa [hi] using hc.assigned d' i
  · intro d' i hr
    by_cases hi : i = h
    · subst hi
      rw [hm.domain]
      rw [hm.state] at hr
      by_contra hd
      rw [if_neg (Ne.symm hd)] at hr
      split at hr
      · exact hstate hr
      · next hcur => exact hcur (hc.running d' i hr).symm
    · rw [hdomain i hi]
      rw [hm.other d' i hi] at hr
      exact hc.running d' i hr
  · intro d' i
    by_cases hi : i = h
    · subst hi
      rw [hm.caller]
      split
      · next hd =>
        rw [hd]
        exact hlink
      · split
        · next hcur =>
          rw [hcur]
          exact hcaller
        · exact hc.notSelf d' i
    · rw [hm.other d' i hi]
      exact hc.notSelf d' i

theorem domainStartCheck_success (hok : domainStartCheck cfg s d = .success) :
    s.stopping d = false ∧ ∀ i < cfg.harts, s.parked d i = false := by
  unfold domainStartCheck at hok
  split_ifs at hok with hstop hrun
  refine ⟨Bool.not_eq_true _ ▸ hstop, ?_⟩
  intro i hi
  by_contra hp
  apply hrun
  rw [domainRunning, List.any_eq_true]
  exact ⟨i, List.mem_range.mpr hi, by simp [Bool.not_eq_false _ ▸ hp]⟩

theorem Contexts.domainStart_none (hc : Contexts cfg s)
    (hok : domainStartCheck cfg s d = .success) (i : Nat) : ¬ (s.ctx d i).state.kept := by
  intro hk
  have hp := (hc.parked d i).mpr hk
  have hnot := (domainStartCheck_success hok).2 i (hc.ran d i hk.ne_none).1
  rw [hp] at hnot
  cases hnot

theorem dropWaiting_state (c : Ctx x) :
    (dropWaiting c = c ∧ ¬ c.state.kept) ∨
      ((dropWaiting c).state = .none ∧ (dropWaiting c).caller = none ∧ c.state.kept) := by
  unfold dropWaiting
  split
  · next hk => exact .inr ⟨rfl, rfl, hk⟩
  · next hk => exact .inl ⟨rfl, hk⟩

theorem stopSection_ctx (s : Sys x) (h d d' i : Nat) :
    (stopSection s h d).ctx d' i = if d' = d then dropWaiting (s.ctx d i) else s.ctx d' i := by
  by_cases hd : d' = d
  · simp [stopSection, goto, hd]
  · simp [stopSection, goto, hd]

theorem stopSection_domain (s : Sys x) (h d i : Nat) :
    (stopSection s h d).domain i = s.domain i := by
  rw [stopSection, goto_domain]
  rfl

theorem Contexts.stopSection_parked (hc : Contexts cfg s) (h d d' i : Nat) :
    (stopSection s h d).parked d' i = true ↔ s.parked d' i = true ∧ d' ≠ d := by
  by_cases hd : d' = d
  · subst hd
    simp only [stopSection, goto, setHart_parked, Function.update_self, ne_eq,
      not_true_eq_false, and_false, iff_false]
    split
    · exact Bool.false_ne_true
    · next hk => exact fun hp => hk ((hc.parked d' i).mp hp)
  · simp [stopSection, goto, hd]

theorem Contexts.stopSection (hc : Contexts cfg s) :
    Contexts cfg (stopSection s h d) := by
  refine hc.still (stopSection_domain s h d) rfl ?_
    (fun d' i hp => ((hc.stopSection_parked h d d' i).mp hp).1) ?_ ?_
  · intro d' i
    rw [hc.stopSection_parked, stopSection_ctx]
    split
    · next hd =>
      rcases dropWaiting_state (s.ctx d i) with ⟨heq, hk⟩ | ⟨heq, -, -⟩
      · simp [hd, heq, hk]
      · simp [hd, heq, CtxState.kept]
    · next hd => rw [hc.parked, and_iff_left hd]
  · intro d' i hr
    rw [stopSection_ctx] at hr
    split at hr
    · next hd =>
      rw [hd]
      rcases dropWaiting_state (s.ctx d i) with ⟨heq, -⟩ | ⟨heq, -, -⟩
      · exact .inl (heq ▸ hr)
      · rw [heq] at hr
        cases hr
    · exact .inl hr
  · intro d' i
    rw [stopSection_ctx]
    split
    · next hd =>
      rw [hd]
      exact (dropWaiting_state (s.ctx d i)).imp (fun hs => by rw [hs.1]) fun hs => hs.2.1
    · exact .inl rfl

theorem Contexts.setCtx {c : Ctx x} {pc : Pc x} (hc : Contexts cfg s)
    (hold : ¬ (s.ctx d h).state.kept) (hnew : ¬ c.state.kept)
    (hrunning : c.state = .running → s.domain h = d ∧ h < cfg.harts ∧ cfg.present h = true)
    (hcaller : c.caller = (s.ctx d h).caller ∨ c.caller = none) :
    Contexts cfg ((s.setCtx d h c).goto h pc) := by
  have hctx : ∀ d' i, ((s.setCtx d h c).goto h pc).ctx d' i =
      if d' = d ∧ i = h then c else s.ctx d' i := by
    intro d' i
    simp [goto, update_update_apply]
  refine hc.still (fun i => by simp) rfl ?_ (fun _ _ => id) ?_ ?_
  · intro d' i
    change s.parked d' i = true ↔ _
    rw [hctx, hc.parked]
    split
    · next heq =>
      rw [heq.1, heq.2]
      exact iff_of_false hold hnew
    · exact Iff.rfl
  · intro d' i hr
    rw [hctx] at hr
    split at hr
    · next heq =>
      rw [heq.1, heq.2]
      exact .inr (hrunning hr)
    · exact .inl hr
  · intro d' i
    rw [hctx]
    split
    · next heq =>
      rw [heq.1, heq.2]
      exact hcaller
    · exact .inl rfl

theorem Contexts.domainStart {pc : Pc x} (hc : Contexts cfg s)
    (hok : domainStartCheck cfg s d = .success) :
    Contexts cfg ({ s with
      ctx := Function.update s.ctx d fun i => { s.ctx d i with state := .none } }.goto h pc) := by
  refine hc.still (fun i => by rw [goto_domain]; rfl) rfl ?_ (fun _ _ => id) ?_ ?_
  · intro d' i
    change s.parked d' i = true ↔ _
    rw [hc.parked]
    by_cases hd : d' = d
    · subst hd
      refine iff_of_false (hc.domainStart_none hok i) ?_
      simp [goto, CtxState.kept]
    · simp [goto, hd]
  · intro d' i hr
    by_cases hd : d' = d
    · simp [goto, hd] at hr
    · exact .inl (by simpa [goto, hd] using hr)
  · intro d' i
    refine .inl ?_
    by_cases hd : d' = d
    · simp [goto, hd]
    · simp [goto, hd]

theorem Contexts.effect (hc : Contexts cfg s) (hh : h < cfg.harts ∧ cfg.present h = true)
    (he : Effect cfg s h a t) :
    Contexts cfg t := by
  cases he with
  | own hmove => exact hc.same hmove.domain_eq rfl rfl rfl
  | boot | unboot => exact hc.same (fun i => by simp) rfl rfl rfl
  | started =>
    refine hc.setCtx (hc.cur_not_kept h) ?_ (fun _ => ⟨rfl, hh⟩) (.inl rfl)
    simp [CtxState.kept]
  | entered _ hok _ hm =>
    obtain ⟨hne, -, -, -, -⟩ := enterCheck_success hok
    refine hc.moved hm hh hne (by simp [CtxState.kept]) nofun (hc.notSelf _ _) ?_
    simpa using hne.symm
  | left _ _ hne hwhere _ hm =>
    refine hc.moved hm hh hne (by simp [CtxState.kept]) nofun nofun ?_
    rcases hwhere with ⟨-, -, hlink⟩ | ⟨-, -, -, hlink⟩
    · rw [hlink]
      exact hc.notSelf _ _
    · rw [hlink]
      nofun
  | refused _ _ _ hne hstate =>
    refine hc.setCtx ?_ ?_ ?_ (.inr rfl)
    · simp [hstate, CtxState.kept]
    · simp [hstate, CtxState.kept]
    · intro hr
      rw [hstate] at hr
      cases hr
  | @returned _ d _ _ _ _ hstate hm =>
    have hne : d ≠ s.domain h := by
      rintro rfl
      exact hc.cur_not_calling h hstate
    refine hc.moved hm hh hne ?_ nofun nofun (hc.notSelf _ _)
    simpa [CtxState.kept] using hc.cur_not_kept h ∘ (hc.parked (s.domain h) h).mp
  | halted =>
    refine hc.setCtx (hc.cur_not_kept h) ?_ nofun (.inr rfl)
    simp [CtxState.kept]
  | domainStart _ _ _ hok => exact hc.domainStart hok
  | lock | cleared | unlocked => exact hc.same (fun i => by rw [goto_domain]; rfl) rfl rfl rfl
  | stopSection => exact hc.stopSection

end Kept

variable {cfg : Config x} {s t : Sys x} {h : Nat} {a : Act x}

theorem step_hart (hstep : step cfg s h a = some t) : h < cfg.harts ∧ cfg.present h = true := by
  unfold step at hstep
  split at hstep
  · assumption
  · cases hstep

theorem Contexts.step_effect (hc : Contexts cfg s) (hstep : step cfg s h a = some t) :
    Effect cfg s h a t :=
  Lifecycle.step_effect (hc.cur_not_calling h) hstep

theorem Contexts.step (hc : Contexts cfg s) (hstep : step cfg s h a = some t) : Contexts cfg t :=
  hc.effect (step_hart hstep) (hc.step_effect hstep)

end RiscvMonitor.Lifecycle
