import RiscvMonitor.IpiProgress
import RiscvMonitor.Outstanding

/-!
# Fences that are out

A hart's queue, with the fence it executes in front, is a line of orders, and the
count of a requester is that of its orders in all the lines.
-/

namespace RiscvMonitor.Delivery

open Function (update update_of_ne update_self)
open Outstanding
open Sys

variable {x : Xlen}

def Pc.inHand : Pc x → Option (Entry x)
  | .fencing e _ => some e
  | _ => none

def Sys.toServe (s : Sys x) (h : Nat) : List (Entry x) :=
  (s.pc h).inHand.toList ++ (s.hart h).queue

def Counted (cfg : Config) (s : Sys x) : Prop :=
  Balanced Entry.requester cfg.harts s.toServe fun g => (s.hart g).out

/-! ### The harts of a mask -/

def Ret.targets : Ret x → List Nat
  | .enqueue _ targets rest => targets ++ rest
  | .smode | .asleep | .await _ => []

def Serve.targets : Serve x → List Nat
  | .ipi _ ret => ret.targets
  | .await _ => []

def Pc.targets : Pc x → List Nat
  | .readAssigned _ _ running | .check _ _ running | .checkParked _ _ _ running => running
  | .readState _ i running => i :: running
  | .enqueue _ targets rest => targets ++ rest
  | .fenceOr _ targets i rest _ | .fenceRaise _ targets i rest _ => targets ++ i :: rest
  | .ipiClear after | .ipiSwap after => after.targets
  | .serve site | .fencing _ site => site.targets
  | _ => []

theorem Ret.pc_targets (ret : Ret x) : ret.pc.targets = ret.targets := by
  cases ret <;> rfl

variable {u : Sys x} {e : Entry x}

section Steps

variable {cfg : Config} {s t : Sys x} {h i : Nat} {a : Act x}

theorem send_targets {rq : Request x} {running : List Nat}
    (hi : i ∈ (send cfg rq running).targets) : i ∈ running := by
  unfold send at hi
  split at hi
  · cases hi
  · split at hi
    · cases hi
    · rcases List.mem_append.mp hi with hi | hi <;> exact (List.mem_filter.mp hi).1

theorem Moves.targets {pc : Pc x} (hmove : Moves cfg s h a pc) (hi : i ∈ pc.targets) :
    i ∈ (s.pc h).targets ∨ i < cfg.harts := by
  cases hmove with
  | call =>
    unfold ecall at hi
    split at hi <;> cases hi
  | readAssigned hpc =>
    rw [hpc]
    unfold Delivery.readAssigned at hi
    split at hi
    · next hn =>
      split at hi
      · rcases List.mem_cons.mp hi with rfl | hi
        · exact .inr hn
        · exact .inl hi
      · exact .inl hi
    · split at hi
      · exact .inl (send_targets hi)
      · split at hi
        · exact .inl (send_targets hi)
        · exact .inl hi
  | readState hpc =>
    rw [hpc]
    unfold Delivery.readState Pc.targets at hi
    dsimp only at hi
    split at hi
    · refine .inl ?_
      rcases List.mem_append.mp hi with hi | hi
      · exact List.mem_cons_of_mem _ hi
      · exact List.mem_singleton.mp hi ▸ List.mem_cons_self
    · exact .inl (List.mem_cons_of_mem _ hi)
  | check hpc =>
    rw [hpc]
    unfold Delivery.check at hi
    split at hi
    · exact .inl (send_targets hi)
    · cases hi
    · split at hi
      · cases hi
      · split at hi <;> exact .inl hi
  | checkParked hpc =>
    rw [hpc]
    split at hi
    · exact .inl hi
    · cases hi
  | parkedAny =>
    unfold Delivery.parkedAny at hi
    split at hi
    · split at hi <;> cases hi
    · cases hi
  | parkedScan =>
    unfold Delivery.parkedScan at hi
    split at hi
    · split at hi <;> cases hi
    · cases hi
  | posted | enqueued | await => split at hi <;> cases hi
  | enqueueSelf hpc =>
    rw [hpc]
    refine .inl ?_
    rcases List.mem_append.mp hi with hi | hi
    · exact List.mem_append_left _ hi
    · exact List.mem_append_right _ (List.mem_cons_of_mem _ hi)
  | enqueueFull hpc =>
    rw [hpc]
    exact .inl hi
  | fenceNone hpc =>
    rw [hpc]
    split at hi
    · exact .inl hi
    · refine .inl ?_
      rcases List.mem_append.mp hi with hi | hi
      · exact List.mem_append_left _ hi
      · exact List.mem_append_right _ (List.mem_cons_of_mem _ hi)
  | ipiNone hpc =>
    rw [hpc]
    rw [Ret.pc_targets] at hi
    exact .inl hi
  | trap | switch | postNone | parkedGone | fenceSelf | ret | served | asleepTrap | wake => cases hi

theorem Effect.targets (he : Effect cfg s h a t) (hi : i ∈ (t.pc h).targets) :
    i ∈ (s.pc h).targets ∨ i < cfg.harts := by
  cases he with
  | move hmove =>
    rw [goto_pc_self] at hi
    exact hmove.targets hi
  | run =>
    rw [Sys.pc, setHart_hart_self] at hi
    exact .inl hi
  | ipiSmode hpc | served hpc =>
    rw [Sys.pc, setHart_hart_self, Ret.pc_targets] at hi
    rw [hpc]
    exact .inl hi
  | enqueue hpc =>
    rw [Sys.pc, setHart_hart_self] at hi
    rw [hpc]
    exact .inl hi
  | ipiClear hpc | ipiFences hpc | pop hpc =>
    rw [Sys.pc, setHart_hart_self] at hi
    rw [hpc]
    exact .inl hi
  | fenceOr hpc =>
    rw [goto_pc_self] at hi
    rw [hpc]
    exact .inl hi
  | fencing hpc =>
    rw [Delivery.fencing, goto_pc_self] at hi
    rw [hpc]
    exact .inl hi
  | fenceRaise hpc =>
    rw [goto_pc_self] at hi
    rw [hpc]
    refine .inl ?_
    split at hi
    · exact hi
    · rcases List.mem_append.mp hi with hi | hi
      · exact List.mem_append_left _ hi
      · exact List.mem_append_right _ (List.mem_cons_of_mem _ hi)
  | @platform ok =>
    rw [Sys.pc, setHart_hart_self] at hi
    cases ok <;> cases hi
  | suspend | woken | resumed | restore | arrive =>
    simp [Sys.pc, contextRestore, contextArrive, Pc.targets] at hi
  | post | raise | parkedPost | parkedKeep | parkedRaise | park | unpark | assign =>
    simp [contextPark, Pc.targets] at hi

/-! ### The counts -/

theorem Pc.inHand_of_inCall {pc : Pc x} (hc : pc.inCall = true) : pc.inHand = none := by
  cases pc with
  | fencing => cases hc
  | _ => rfl

theorem Ret.pc_inHand (ret : Ret x) : ret.pc.inHand = none := by
  cases ret <;> rfl

theorem Moves.inHand {pc : Pc x} (hmove : Moves cfg s h a pc) :
    (s.pc h).inHand = none ∧ pc.inHand = none := by
  cases hmove with
  | call hpc => exact ⟨by rw [hpc]; rfl, Pc.inHand_of_inCall (ecall_inCall ..)⟩
  | readAssigned hpc => exact ⟨by rw [hpc]; rfl, Pc.inHand_of_inCall (readAssigned_inCall ..)⟩
  | check hpc => exact ⟨by rw [hpc]; rfl, Pc.inHand_of_inCall (check_inCall ..)⟩
  | parkedAny hpc => exact ⟨by rw [hpc]; rfl, Pc.inHand_of_inCall (parkedAny_inCall ..)⟩
  | parkedScan hpc => exact ⟨by rw [hpc]; rfl, Pc.inHand_of_inCall (parkedScan_inCall ..)⟩
  | ipiNone hpc => exact ⟨by rw [hpc]; rfl, Ret.pc_inHand _⟩
  | checkParked hpc | posted hpc | enqueued hpc | fenceNone hpc | await hpc =>
    refine ⟨by rw [hpc]; rfl, ?_⟩
    split <;> rfl
  | trap hpc | switch hpc | readState hpc | postNone hpc | parkedGone hpc | enqueueSelf hpc
  | enqueueFull hpc | fenceSelf hpc | ret hpc | served hpc | asleepTrap hpc | wake hpc =>
    exact ⟨by rw [hpc]; rfl, rfl⟩

structure SameLine (s t : Sys x) (i : Nat) : Prop where
  inHand : (t.pc i).inHand = (s.pc i).inHand
  queue : (t.hart i).queue = (s.hart i).queue
  out : (t.hart i).out = (s.hart i).out

theorem Counted.same (hc : Counted cfg s) (hsame : ∀ i, SameLine s t i) : Counted cfg t := by
  have hline : t.toServe = s.toServe := by
    funext i
    rw [toServe, toServe, (hsame i).inHand, (hsame i).queue]
  intro g
  rw [hline]
  exact (hsame g).out.trans (hc g)

theorem SameLine.goto {pc : Pc x} (hu : u.hart = s.hart) (hold : (s.pc h).inHand = none)
    (hnew : pc.inHand = none) (i : Nat) : SameLine s (u.goto h pc) i := by
  refine ⟨?_, ?_, ?_⟩
  · rw [goto_pc]
    split
    · next hi => rw [hi, hold, hnew]
    · rw [Sys.pc, hu]
      rfl
  · rw [goto_field _ _ Hart.queue (fun _ _ => rfl), hu]
  · rw [goto_field _ _ Hart.out (fun _ _ => rfl), hu]

theorem SameLine.setHart {hart : Hart x} (hu : u.hart = s.hart) (hold : (s.pc h).inHand = none)
    (hnew : hart.pc.inHand = none) (hqueue : hart.queue = (s.hart h).queue)
    (hout : hart.out = (s.hart h).out) (i : Nat) :
    SameLine s (u.setHart h hart) i := by
  refine ⟨?_, ?_, ?_⟩
  · rw [Sys.pc, setHart_hart]
    split
    · next hi => rw [hi, hold, hnew]
    · rw [hu]
      rfl
  · rw [setHart_hart]
    split
    · next hi => rw [hi, hqueue]
    · rw [hu]
  · rw [setHart_hart]
    split
    · next hi => rw [hi, hout]
    · rw [hu]

theorem SameLine.tell {j : Nat} {hart : Hart x} {pc : Pc x} (hu : u.hart = s.hart)
    (hpc : hart.pc = s.pc j) (hqueue : hart.queue = (s.hart j).queue)
    (hout : hart.out = (s.hart j).out) (hold : (s.pc h).inHand = none) (hnew : pc.inHand = none)
    (i : Nat) : SameLine s ((u.setHart j hart).goto h pc) i := by
  refine ⟨?_, ?_, ?_⟩
  · rw [tell_pc _ _ (hpc.trans (by rw [Sys.pc, Sys.pc, hu]))]
    split
    · next hi => rw [hi, hold, hnew]
    · rw [Sys.pc, hu]
      rfl
  · rw [tell_field _ _ Hart.queue (fun _ _ => rfl)]
    split
    · next hi => rw [hi, hqueue]
    · rw [hu]
  · rw [tell_field _ _ Hart.out (fun _ _ => rfl)]
    split
    · next hi => rw [hi, hout]
    · rw [hu]

section Enqueue

variable {req : FenceReq x} {pc : Pc x}

/-- A hart with an entry of `h` more in its queue, and hart `h` on its way to `pc`. -/
def Sys.enqueued (s : Sys x) (h i : Nat) (req : FenceReq x) (pc : Pc x) : Sys x :=
  (s.setHart i { s.hart i with queue := (s.hart i).queue ++ [⟨req, h⟩] }).setHart h
    { s.hart h with out := (s.hart h).out + 1, pc := pc }

theorem enqueued_hart (j : Nat) : (s.enqueued h i req pc).hart j =
    if j = h then { s.hart h with out := (s.hart h).out + 1, pc := pc }
    else if j = i then { s.hart i with queue := (s.hart i).queue ++ [⟨req, h⟩] } else s.hart j := by
  rw [Sys.enqueued, setHart_hart, setHart_hart]

theorem enqueued_toServe (hne : i ≠ h) (hold : (s.pc h).inHand = none) (hnew : pc.inHand = none) :
    (s.enqueued h i req pc).toServe = update s.toServe i (s.toServe i ++ [⟨req, h⟩]) := by
  funext j
  simp only [toServe, Sys.pc, enqueued_hart]
  by_cases hj : j = h
  · subst hj
    rw [update_of_ne (Ne.symm hne), if_pos rfl]
    simp only [toServe, hold, hnew]
  · by_cases hi : j = i
    · subst hi
      rw [update_self, if_neg hj, if_pos rfl]
      exact (List.append_assoc _ _ _).symm
    · rw [update_of_ne hi, if_neg hj, if_neg hi]
      rfl

theorem Counted.enqueued (hc : Counted cfg s) (hlt : i < cfg.harts) (hne : i ≠ h)
    (hold : (s.pc h).inHand = none) (hnew : pc.inHand = none) :
    Counted cfg (s.enqueued h i req pc) := by
  have hout : (fun g => ((s.enqueued h i req pc).hart g).out) =
      update (fun g => (s.hart g).out) h ((s.hart h).out + 1) := by
    funext g
    rw [enqueued_hart]
    by_cases hg : g = h
    · rw [hg, if_pos rfl, update_self]
    · rw [update_of_ne hg, if_neg hg]
      split
      · next hi => rw [hi]
      · rfl
  unfold Counted
  rw [enqueued_toServe hne hold hnew, hout]
  exact Balanced.push hc hlt (⟨req, h⟩ : Entry x)

end Enqueue

theorem pop_toServe {queue : List (Entry x)} {pc : Pc x} (hold : (s.pc h).inHand = none)
    (hqueue : (s.hart h).queue = e :: queue) (hnew : pc.inHand = some e) :
    (s.setHart h { s.hart h with queue := queue, pc := pc }).toServe = s.toServe := by
  funext j
  simp only [toServe, Sys.pc, setHart_hart]
  split
  · next hj =>
    subst hj
    rw [hnew, show (s.hart j).pc.inHand = none from hold, hqueue]
    rfl
  · rfl

theorem fencing_toServe (s : Sys x) (h : Nat) (e : Entry x) (site : Serve x) :
    (fencing s h e site).toServe = update s.toServe h (s.hart h).queue := by
  funext j
  unfold Delivery.fencing toServe
  rw [tell_pc _ _ (by rfl), tell_field _ _ Hart.queue (fun _ _ => rfl)]
  by_cases hj : j = h
  · subst hj
    rw [update_self, if_pos rfl]
    split
    · next hr => rw [← hr]; rfl
    · rfl
  · rw [update_of_ne hj, if_neg hj]
    split
    · next hr => rw [← hr]
    · rfl

theorem toServe_of_fencing {site : Serve x} (hpc : s.pc h = .fencing e site) :
    s.toServe h = e :: (s.hart h).queue := by
  rw [toServe, hpc]
  rfl

theorem Counted.fencing {site : Serve x} (hc : Counted cfg s) (hlt : h < cfg.harts)
    (hpc : s.pc h = .fencing e site) : Counted cfg (fencing s h e site) := by
  have hout : (fun g => ((Delivery.fencing s h e site).hart g).out) =
      update (fun g => (s.hart g).out) e.requester ((s.hart e.requester).out - 1) := by
    funext g
    unfold Delivery.fencing
    rw [tell_field _ _ Hart.out (fun _ _ => rfl)]
    split
    · next hg => rw [hg, update_self]
    · next hg => rw [update_of_ne hg]
  unfold Counted
  rw [fencing_toServe, hout]
  exact Balanced.done hc hlt (toServe_of_fencing hpc)

inductive Lines (s : Sys x) (h : Nat) : Sys x → Prop
  | same {t : Sys x} (hsame : ∀ i, SameLine s t i) : Lines s h t
  | enqueue {rq : Request x} {req : FenceReq x} {targets : List Nat} {i : Nat} {rest : List Nat}
      (hpc : s.pc h = .enqueue rq targets (i :: rest)) (hreq : rq.fence = some req) (hi : i ≠ h) :
      Lines s h (s.enqueued h i req (.fenceOr rq targets i rest false))
  | pop {e : Entry x} {queue : List (Entry x)} {site : Serve x} (hpc : s.pc h = .serve site)
      (hqueue : (s.hart h).queue = e :: queue) :
      Lines s h (s.setHart h { s.hart h with queue := queue, pc := .fencing e site })
  | fencing {e : Entry x} {site : Serve x} (hpc : s.pc h = .fencing e site) :
      Lines s h (fencing s h e site)

theorem Effect.lines (he : Effect cfg s h a t) : Lines s h t := by
  cases he with
  | move hmove => exact .same (SameLine.goto rfl hmove.inHand.1 hmove.inHand.2)
  | run hpc =>
    have hnone : (s.pc h).inHand = none := by rw [hpc]; rfl
    exact .same (SameLine.setHart rfl hnone hnone rfl rfl)
  | suspend hpc | woken hpc | resumed hpc | ipiClear hpc | ipiFences hpc | arrive hpc | restore hpc =>
    exact .same (SameLine.setHart rfl (by rw [hpc]; rfl) rfl rfl rfl)
  | @platform ok hpc =>
    exact .same (SameLine.setHart rfl (by rw [hpc]; rfl) (by cases ok <;> rfl) rfl rfl)
  | ipiSmode hpc | served hpc =>
    exact .same (SameLine.setHart rfl (by rw [hpc]; rfl) (Ret.pc_inHand _) rfl rfl)
  | parkedKeep hpc | park hpc | unpark hpc | assign hpc =>
    exact .same (SameLine.goto rfl (by rw [hpc]; rfl) rfl)
  | post hpc | raise hpc | parkedPost hpc | parkedRaise hpc | fenceOr hpc =>
    exact .same (SameLine.tell rfl rfl rfl rfl (by rw [hpc]; rfl) rfl)
  | fenceRaise hpc =>
    exact .same (SameLine.tell rfl rfl rfl rfl (by rw [hpc]; rfl) (by split <;> rfl))
  | enqueue hpc hreq hi => exact .enqueue hpc hreq hi
  | pop hpc hqueue => exact .pop hpc hqueue
  | fencing hpc => exact .fencing hpc

theorem Counted.effect (hc : Counted cfg s) (hh : h < cfg.harts)
    (htargets : ∀ i ∈ (s.pc h).targets, i < cfg.harts) (he : Effect cfg s h a t) :
    Counted cfg t := by
  cases he.lines with
  | same hsame => exact hc.same hsame
  | @enqueue _ _ _ i _ hpc _ hi =>
    refine hc.enqueued (htargets i ?_) hi (by rw [hpc]; rfl) rfl
    rw [hpc]
    exact List.mem_append_right _ List.mem_cons_self
  | pop hpc hqueue =>
    intro g
    rw [pop_toServe (by rw [hpc]; rfl) hqueue rfl, ← hc g]
    dsimp only
    rw [setHart_hart]
    split
    · next hg => rw [hg]
    · rfl
  | fencing hpc => exact hc.fencing hh hpc

theorem Effect.toServe_mem (he : Effect cfg s h a t) (hmem : e ∈ s.toServe i) :
    e ∈ t.toServe i ∨ (i = h ∧ ∃ site, s.pc h = .fencing e site) := by
  cases he.lines with
  | same hsame =>
    rw [toServe, (hsame i).inHand, (hsame i).queue]
    exact .inl hmem
  | @enqueue _ _ _ j _ hpc _ hj =>
    refine .inl ?_
    rw [enqueued_toServe hj (by rw [hpc]; rfl) rfl]
    by_cases hi : i = j
    · subst hi
      rw [update_self]
      exact List.mem_append_left _ hmem
    · rwa [update_of_ne hi]
  | pop hpc hqueue =>
    rw [pop_toServe (by rw [hpc]; rfl) hqueue rfl]
    exact .inl hmem
  | @fencing e' site hpc =>
    rw [fencing_toServe]
    by_cases hi : i = h
    · subst hi
      rw [toServe_of_fencing hpc] at hmem
      rw [update_self]
      rcases List.mem_cons.mp hmem with rfl | hmem
      · exact .inr ⟨rfl, site, hpc⟩
      · exact .inl hmem
    · rw [update_of_ne hi]
      exact .inl hmem

end Steps

structure CountInv (cfg : Config) (s : Sys x) : Prop where
  counted : Counted cfg s
  targets : ∀ h, ∀ i ∈ (s.pc h).targets, i < cfg.harts

theorem init_countInv (cfg : Config) (home : Nat → Nat) (up : Nat → Bool) :
    CountInv cfg (init home up : Sys x) := by
  have hpc : ∀ h, ((init home up : Sys x).pc h).inHand = none ∧
      ((init home up : Sys x).pc h).targets = [] := by
    intro h
    simp only [init, Sys.pc]
    cases up h <;> exact ⟨rfl, rfl⟩
  refine ⟨fun g => ?_, fun h i hi => ?_⟩
  · refine (Finset.sum_eq_zero fun h _ => ?_).symm
    rw [toServe, (hpc h).1]
    rfl
  · rw [(hpc h).2] at hi
    cases hi

theorem CountInv.step {cfg : Config} {s t : Sys x} {h : Nat} {a : Act x} (hinv : CountInv cfg s)
    (hstep : step cfg s h a = some t) : CountInv cfg t := by
  have he := step_effect hstep
  refine ⟨hinv.counted.effect (step_hart hstep).1 (hinv.targets h) he, fun g i hi => ?_⟩
  by_cases hg : g = h
  · subst hg
    exact (he.targets hi).elim (hinv.targets g i) id
  · rw [he.pc_other hg] at hi
    exact hinv.targets g i hi

end RiscvMonitor.Delivery
