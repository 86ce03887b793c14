import RiscvMonitor.StopComplete

/-!
# While a domain is being stopped

No other domain is being stopped then, nothing of this one waits on any hart, and no
hart comes into it, whatever S-mode and the platform do.
-/

namespace RiscvMonitor.Lifecycle

open Sys

variable {x : Xlen} {cfg : Config x} {s t : Sys x} {h d i : Nat} {a : Act x} {w : Farewell}

theorem dropWaiting_not_kept (c : Ctx x) : ¬ (dropWaiting c).state.kept := by
  rcases dropWaiting_state c with ⟨heq, hnot⟩ | ⟨hnone, -, -⟩
  · rwa [heq]
  · simp [hnone, CtxState.kept]

theorem Moved.kept {e : Nat} (hm : Moved s t h e w)
    (hcur : w.state.kept → s.stopping (s.domain h) = false) (hk : (t.ctx d i).state.kept) :
    (s.ctx d i).state.kept ∨ s.stopping d = false := by
  by_cases hi : i = h
  · subst hi
    rw [hm.state] at hk
    split_ifs at hk with hthere hhere
    · simp [CtxState.kept] at hk
    · exact .inr (hhere ▸ hcur hk)
    · exact .inl hk
  · rw [hm.other d i hi] at hk
    exact .inl hk

/-- A context is only left behind, to come back to, in a domain that is not being stopped. -/
theorem Effect.kept (he : Effect cfg s h a t) (hk : (t.ctx d i).state.kept) :
    (s.ctx d i).state.kept ∨ s.stopping d = false := by
  cases he with
  | own | boot | unboot | lock | cleared | unlocked => exact .inl hk
  | entered _ hok _ hm => exact hm.kept (fun _ => (enterCheck_success hok).2.2.1) hk
  | left _ hstop _ _ _ hm => exact hm.kept (fun _ => hstop) hk
  | returned _ _ _ hm => exact hm.kept (by simp [CtxState.kept]) hk
  | started | halted =>
    change ((s.setCtx _ _ _).ctx d i).state.kept at hk
    rw [setCtx_ctx, update_update_apply] at hk
    split_ifs at hk
    · simp [CtxState.kept] at hk
    · exact .inl hk
  | refused =>
    change ((s.setCtx _ _ _).ctx d i).state.kept at hk
    rw [setCtx_ctx, update_update_apply] at hk
    split_ifs at hk with heq
    · exact .inl (heq.1 ▸ heq.2 ▸ hk)
    · exact .inl hk
  | @domainStart e _ _ _ _ hok =>
    by_cases hd : d = e
    · exact .inr (hd ▸ (domainStartCheck_success hok).1)
    · exact .inl (by simpa [goto, hd] using hk)
  | stopSection =>
    rw [stopSection_ctx] at hk
    split_ifs at hk
    · exact absurd hk (dropWaiting_not_kept _)
    · exact .inl hk

/-- A hart comes into a domain that is not being stopped, or back to where it is waited for. -/
theorem Effect.arrives (he : Effect cfg s h a t) (hin : t.domain i = d) (hout : s.domain i ≠ d) :
    s.stopping d = false ∨ (s.ctx d i).state.kept := by
  have hmover : ∀ {e w}, Moved s t h e w → i = h ∧ d = e := by
    intro e w hm
    by_cases hi : i = h
    · exact ⟨hi, hin.symm.trans (hi ▸ hm.domain)⟩
    · refine absurd ?_ hout
      rw [← hin]
      exact congrArg Hart.domain (hm.hart i hi).symm
  cases he with
  | own hmove => exact absurd ((hmove.domain_eq i).symm.trans hin) hout
  | boot | unboot => exact absurd (by simpa using hin) hout
  | entered _ hok _ hm =>
    obtain ⟨rfl, rfl⟩ := hmover hm
    exact .inl (enterCheck_success hok).2.1
  | left _ _ _ hwhere _ hm =>
    obtain ⟨rfl, rfl⟩ := hmover hm
    rcases hwhere with ⟨-, hcalling, -⟩ | ⟨-, hstop, -⟩
    · exact .inr (.inl hcalling)
    · exact .inl hstop
  | returned _ _ hcalling hm =>
    obtain ⟨rfl, rfl⟩ := hmover hm
    exact .inr (.inl hcalling)
  | stopSection => exact absurd ((stopSection_domain ..).symm.trans hin) hout
  | started | refused | halted | domainStart | lock | cleared | unlocked =>
    refine absurd ?_ hout
    rw [← hin]
    exact (goto_domain ..).symm

structure Drains (cfg : Config x) (s : Sys x) : Prop where
  contexts : Contexts cfg s
  locked : StopLocked s
  dropped : ∀ d, s.stopping d = true → ∀ i, ¬ (s.ctx d i).state.kept

theorem Drains.step (hdrains : Drains cfg s) (hstep : step cfg s h a = some t) : Drains cfg t := by
  have he := hdrains.contexts.step_effect hstep
  refine ⟨hdrains.contexts.step hstep, hdrains.locked.effect he, ?_⟩
  intro d hd i hk
  by_cases hs : s.stopping d = true
  · rcases he.kept hk with hkept | hnot
    · exact hdrains.dropped d hs i hkept
    · simp [hs] at hnot
  · -- the domain has just been marked, and its contexts dropped with that
    have hsection : ¬ ∀ d', s.pc h = .stopSection d' → t ≠ stopSection s h d' :=
      fun hne => hs (he.stopping_of_ne hne hd)
    push Not at hsection
    obtain ⟨d', -, rfl⟩ := hsection
    by_cases hdd : d = d'
    · rw [stopSection_ctx, if_pos hdd] at hk
      exact dropWaiting_not_kept _ hk
    · exact hs (by simpa [stopSection, goto, hdd] using hd)

theorem init_drains (cfg : Config x) (home : Nat → Nat) (bootHart : Nat) :
    Drains cfg (init home bootHart) :=
  ⟨init_contexts cfg home bootHart, init_stopLocked home bootHart, fun _ hd => by cases hd⟩

/-- In every state of every run: a domain that is being stopped is the only one, and one
    hart does it; nothing is left parked in it, and no step brings a hart into it. -/
theorem stopping_domain_drains (cfg : Config x) (home : Nat → Nat) (bootHart : Nat)
    (es : List (Nat × Act x)) (s : Sys x) (hrun : run cfg (init home bootHart) es = some s)
    (d : Nat) (hd : s.stopping d = true) :
    (∃ h, (s.pc h).stops = some d ∧ ∀ i, (s.pc i).stops ≠ none → i = h) ∧
      (∀ e, s.stopping e = true → e = d) ∧ (∀ i, s.parked d i = false) ∧
      ∀ h a t, step cfg s h a = some t → ∀ i, t.assigned d i = true → s.assigned d i = true := by
  have hdrains : Drains cfg s :=
    (Runs.along_true (fun s e => step cfg s e.1 e.2) _ es).invariant
      (fun _ _ _ hp _ hstep => hp.step hstep) (init_drains cfg home bootHart) hrun
  obtain ⟨h, hmarks⟩ := (hdrains.locked.marked d).mp hd
  have hstops := Pc.stops_of_marks hmarks
  have hin : (s.pc h).stops ≠ none := hstops ▸ Option.some_ne_none d
  refine ⟨⟨h, hstops, fun i hi => hdrains.locked.alone i h hi hin⟩, ?_, ?_, ?_⟩
  · intro e he
    obtain ⟨i, hi⟩ := (hdrains.locked.marked e).mp he
    rw [hdrains.locked.owner hin hi, hmarks] at hi
    exact (Option.some.inj hi).symm
  · intro i
    by_contra hparked
    exact hdrains.dropped d hd i ((hdrains.contexts.parked d i).mp (Bool.not_eq_false _ ▸ hparked))
  · intro g a t hstep i hassigned
    have hthere := ((hdrains.contexts.step hstep).assigned d i).mp hassigned
    rw [hdrains.contexts.assigned]
    by_contra hout
    rcases (hdrains.contexts.step_effect hstep).arrives hthere hout with hnot | hkept
    · simp [hd] at hnot
    · exact hdrains.dropped d hd i hkept

theorem stopping_domain_drains_relay :
    ∃ s, run relay (init relayHome 0) relayStop = some s ∧ s.stopping 2 = true ∧
      (∀ e, s.stopping e = true → e = 2) ∧ ∀ i, s.parked 2 i = false := by
  have hview : ∃ s ∈ run relay (init relayHome 0) relayStop, s.stopping 2 = true := by
    decide +kernel
  obtain ⟨s, hs, hd⟩ := hview
  obtain ⟨-, hone, hparked, -⟩ := stopping_domain_drains relay relayHome 0 relayStop s hs 2 hd
  exact ⟨s, hs, hd, hone, hparked⟩

end RiscvMonitor.Lifecycle
