import RiscvMonitor.CallChain
import RiscvMonitor.HartContexts

/-!
# Pending calls between domains

On each hart the contexts that wait are to form one chain, along the caller links,
from the domain the hart is in: then every call can still return.  Two things break
it.  `domain_stop()` drops a context that waits even if it is in the middle.  And
where it drops the last one, the context above keeps its link; once the stopped
domain has the hart again and calls another, the link closes a cycle.
-/

namespace RiscvMonitor.Lifecycle

open Sys CallChain

variable {x : Xlen}

def Sys.waits (s : Sys x) (h d : Nat) : Prop := (s.ctx d h).state = .calling

def Sys.callerOf (s : Sys x) (h d : Nat) : Option Nat := (s.ctx d h).caller

def CallsInOrder (s : Sys x) (h : Nat) : Prop := InOrder (s.waits h) (s.callerOf h) (s.domain h)

/-- No context that waits has a link to the domain that is about to wait. -/
def EntersInOrder (cfg : Config x) (s : Sys x) (h target : Nat) (quiet : Bool) : Prop :=
  enterCheck cfg s h target quiet = .success →
    ∀ d, s.waits h d → s.callerOf h d ≠ some (s.domain h)

/-- The step neither drops a context that has a caller waiting nor calls into a
    cycle. -/
def KeepsCallers (cfg : Config x) (s : Sys x) (e : Nat × Act x) : Prop :=
  match s.pc e.1, e.2 with
  | .stopSection d, .go => ∀ i, s.waits i d → s.callerWaits d i = false
  | .smode, .call (.enter target _) => EntersInOrder cfg s e.1 target false
  | .switchTo target, .go => EntersInOrder cfg s e.1 target true
  | _, _ => True

variable {d : Nat} {w : Farewell} {pc : Pc x}

section Steps

variable {cfg : Config x} {s t : Sys x} {h i : Nat} {a : Act x}

theorem KeepsCallers.entersInOrder {target : Nat} {quiet : Bool}
    (hk : KeepsCallers cfg s (h, a)) (hact : Enters s h a target quiet) :
    EntersInOrder cfg s h target quiet := by
  rcases hact with ⟨rfl, hpc, arg, rfl⟩ | ⟨rfl, hpc, rfl⟩
  · simpa only [KeepsCallers, hpc] using hk
  · simpa only [KeepsCallers, hpc] using hk

theorem CallsInOrder.same (ho : CallsInOrder s i) (hdomain : t.domain i = s.domain i)
    (hwaits : ∀ d, t.waits i d ↔ s.waits i d)
    (hcaller : ∀ d, d = s.domain i ∨ s.waits i d → t.callerOf i d = s.callerOf i d) :
    CallsInOrder t i := by
  unfold CallsInOrder
  rw [hdomain]
  exact InOrder.congr ho hwaits hcaller

theorem CallsInOrder.same_ctx (ho : CallsInOrder s i) (hdomain : t.domain i = s.domain i)
    (hctx : ∀ d, t.ctx d i = s.ctx d i) : CallsInOrder t i := by
  refine ho.same hdomain ?_ ?_
  · intro d
    rw [Sys.waits, hctx, Sys.waits]
  · intro d _
    rw [callerOf, hctx, callerOf]

theorem CallsInOrder.other (ho : CallsInOrder s i) (hm : Moved s t h d w) (hi : i ≠ h) :
    CallsInOrder t i :=
  ho.same_ctx (congrArg Hart.domain (hm.hart i hi)) fun d' => hm.other d' i hi

theorem CallsInOrder.entered {target : Nat} {quiet : Bool} (ho : CallsInOrder s h)
    (hc : Contexts cfg s) (hfree : EntersInOrder cfg s h target quiet)
    (hok : enterCheck cfg s h target quiet = .success)
    (hm : Moved s t h target ⟨.calling, (s.cur h).caller, true, some (s.domain h)⟩) :
    CallsInOrder t h := by
  obtain ⟨hne, -, -, -, hstate⟩ := enterCheck_success hok
  unfold CallsInOrder
  rw [hm.domain]
  refine InOrder.call ho hstate hne (hc.notSelf _ _) (hfree hok) ?_ ?_ ?_
  · intro d
    unfold Sys.waits
    rw [hm.state]
    split
    · next hd =>
      rw [hd]
      simp [hne, hstate]
    · split
      · next hcur => simp [hcur]
      · next hcur => simp [hcur]
  · intro d hd
    unfold callerOf
    rw [hm.caller, if_neg hd]
    split
    · next hcur =>
      rw [hcur]
      rfl
    · rfl
  · unfold callerOf
    rw [hm.caller, if_pos rfl]

theorem CallsInOrder.back (ho : CallsInOrder s h) (hc : Contexts cfg s)
    (hcaller : (s.cur h).caller = some d) (hwaits : s.waits h d) (hm : Moved s t h d w)
    (hstate : w.state ≠ .calling) (hlink : w.link = s.callerOf h d) : CallsInOrder t h := by
  unfold CallsInOrder
  rw [hm.domain]
  refine InOrder.ret ho (hc.cur_not_calling h) hcaller hwaits ?_ ?_
  · intro d'
    unfold Sys.waits
    rw [hm.state]
    split
    · next hd => simp [hd]
    · next hd =>
      split
      · next hcur =>
        rw [hcur]
        exact iff_of_false hstate fun hw => hc.cur_not_calling h hw.1
      · exact (and_iff_left hd).symm
  · intro d' hd'
    unfold callerOf
    rw [hm.caller, if_neg hd']
    split
    · next hd => rw [hd, hlink, callerOf]
    · rfl

theorem CallsInOrder.none_waits (ho : CallsInOrder s h)
    (hwaits : s.callerWaits (s.domain h) h = false) (d : Nat) : ¬ s.waits h d := by
  refine InOrder.none_waits ho ?_ d
  intro c hc hw
  have hyes := callerWaits_iff.mpr ⟨c, hc, hw⟩
  rw [hwaits] at hyes
  cases hyes

theorem CallsInOrder.away (ho : CallsInOrder s h) (hwaits : s.callerWaits (s.domain h) h = false)
    (hm : Moved s t h d w) (hstate : w.state ≠ .calling) : CallsInOrder t h := by
  refine inOrder_of_none_waits _ ?_
  intro d' hw
  unfold Sys.waits at hw
  rw [hm.state] at hw
  split_ifs at hw
  · exact hstate hw
  · exact ho.none_waits hwaits d' hw

theorem CallsInOrder.stopSection (ho : CallsInOrder s i) (hc : Contexts cfg s)
    (hlast : s.waits i d → s.callerWaits d i = false) : CallsInOrder (stopSection s h d) i := by
  have hcaller : ∀ d', d' ≠ d → (Lifecycle.stopSection s h d).callerOf i d' = s.callerOf i d' := by
    intro d' hd
    rw [callerOf, stopSection_ctx, if_neg hd, callerOf]
  rcases dropWaiting_state (s.ctx d i) with ⟨hsame, -⟩ | ⟨hstate, -, hk⟩
  · refine ho.same_ctx (stopSection_domain s h d i) ?_
    intro d'
    rw [stopSection_ctx]
    split
    · next hd => rw [hd, hsame]
    · rfl
  · have hwaits : ∀ d', (Lifecycle.stopSection s h d).waits i d' ↔ s.waits i d' ∧ d' ≠ d := by
      intro d'
      unfold Sys.waits
      rw [stopSection_ctx]
      split
      · next hd => simp [hd, hstate]
      · next hd => exact (and_iff_left hd).symm
    have hcur : d ≠ s.domain i := by
      rintro rfl
      exact hc.cur_not_kept i hk
    by_cases hw : s.waits i d
    · unfold CallsInOrder
      rw [stopSection_domain]
      refine InOrder.drop ho hcur ?_ hwaits hcaller
      intro c hcd hcw
      have hyes := callerWaits_iff.mpr ⟨c, hcd, hcw⟩
      rw [hlast hw] at hyes
      cases hyes
    · -- an idle context was on no chain
      refine ho.same (stopSection_domain s h d i) ?_ ?_
      · intro d'
        rw [hwaits, and_iff_left_of_imp]
        rintro hw' rfl
        exact hw hw'
      · intro d' hd'
        apply hcaller
        rintro rfl
        exact hd'.elim hcur hw

theorem CallsInOrder.domainStart (ho : CallsInOrder s i) (hc : Contexts cfg s)
    (hok : domainStartCheck cfg s d = .success) :
    CallsInOrder ({ s with
      ctx := Function.update s.ctx d fun i => { s.ctx d i with state := .none } }.goto h pc) i := by
  refine ho.same (by rw [goto_domain]; rfl) ?_ ?_
  · intro d'
    unfold Sys.waits
    by_cases hd : d' = d
    · subst hd
      refine iff_of_false (by simp [goto]) ?_
      exact fun hw => hc.domainStart_none hok i (.inl hw)
    · simp [goto, hd]
  · intro d' _
    unfold callerOf
    by_cases hd : d' = d
    · simp [goto, hd]
    · simp [goto, hd]

theorem CallsInOrder.setCtx {c : Ctx x} (ho : CallsInOrder s i) (hold : ¬ s.waits h d)
    (hnew : c.state ≠ .calling) (hcaller : c.caller = s.callerOf h d ∨ d ≠ s.domain h) :
    CallsInOrder ((s.setCtx d h c).goto h pc) i := by
  have hctx : ∀ d', ((s.setCtx d h c).goto h pc).ctx d' i =
      if d' = d ∧ i = h then c else s.ctx d' i := by
    intro d'
    simp [goto, update_update_apply]
  refine ho.same (by simp) ?_ ?_
  · intro d'
    unfold Sys.waits
    rw [hctx]
    split
    · next heq =>
      rw [heq.1, heq.2]
      exact iff_of_false hnew hold
    · exact Iff.rfl
  · intro d' hd'
    unfold callerOf
    rw [hctx]
    split
    · next heq =>
      obtain ⟨rfl, rfl⟩ := heq
      exact hcaller.resolve_right fun hne => hd'.elim hne hold
    · rfl

theorem CallsInOrder.halted {c : Ctx x} (ho : CallsInOrder s i) (hall : CallsInOrder s h)
    (hwaits : s.callerWaits (s.domain h) h = false) (hnew : c.state ≠ .calling) :
    CallsInOrder ((s.setCtx (s.domain h) h c).goto h pc) i := by
  by_cases hi : i = h
  · subst hi
    refine inOrder_of_none_waits _ ?_
    intro d' hw
    unfold Sys.waits at hw
    simp only [goto, setHart_ctx, setCtx_ctx, update_update_apply] at hw
    split at hw
    · exact hnew hw
    · exact hall.none_waits hwaits d' hw
  · refine ho.same_ctx (by simp) ?_
    intro d'
    simp [goto, update_update_apply, hi]

structure PendingCalls (cfg : Config x) (s : Sys x) : Prop where
  contexts : Contexts cfg s
  inOrder : ∀ h, CallsInOrder s h

theorem init_pendingCalls (cfg : Config x) (home : Nat → Nat) (bootHart : Nat) :
    PendingCalls cfg (init home bootHart) where
  contexts := init_contexts cfg home bootHart
  inOrder _ := inOrder_of_none_waits _ fun _ hw => by simp [Sys.waits, init] at hw

theorem CallsInOrder.effect (hc : Contexts cfg s) (hall : ∀ i, CallsInOrder s i)
    (hk : KeepsCallers cfg s (h, a)) (he : Effect cfg s h a t) (i : Nat) : CallsInOrder t i := by
  cases he with
  | own hmove => exact (hall i).same_ctx (hmove.domain_eq i) fun _ => rfl
  | boot | unboot => exact (hall i).same_ctx (by simp) fun _ => rfl
  | started => exact (hall i).setCtx (hc.cur_not_calling h) nofun (.inl rfl)
  | entered hact hok _ hm =>
    by_cases hi : i = h
    · subst hi
      exact (hall i).entered hc (hk.entersInOrder hact) hok hm
    · exact (hall i).other hm hi
  | left _ _ hne hwhere _ hm =>
    by_cases hi : i = h
    · subst hi
      rcases hwhere with ⟨hcaller, hstate, hlink⟩ | ⟨hwaits, -, -, -⟩
      · exact (hall i).back hc hcaller hstate hm nofun hlink
      · exact (hall i).away hwaits hm nofun
    · exact (hall i).other hm hi
  | refused _ _ _ hne hstate =>
    refine (hall i).setCtx ?_ ?_ (.inr hne)
    · simp [Sys.waits, hstate]
    · simp [hstate]
  | returned _ hcaller hstate hm =>
    by_cases hi : i = h
    · subst hi
      exact (hall i).back hc hcaller hstate hm nofun rfl
    · exact (hall i).other hm hi
  | halted _ hwaits => exact (hall i).halted (hall h) hwaits nofun
  | domainStart _ _ _ hok => exact (hall i).domainStart hc hok
  | lock | cleared | unlocked =>
    exact (hall i).same_ctx (by rw [goto_domain]; rfl) fun _ => rfl
  | stopSection hpc hact =>
    subst hact
    simp only [KeepsCallers, hpc] at hk
    exact (hall i).stopSection hc (hk i)

theorem PendingCalls.step (hp : PendingCalls cfg s) (hk : KeepsCallers cfg s (h, a))
    (hstep : step cfg s h a = some t) : PendingCalls cfg t where
  contexts := hp.contexts.step hstep
  inOrder := CallsInOrder.effect hp.contexts hp.inOrder hk (hp.contexts.step_effect hstep)

end Steps

/-- Every context of a hart that waits is on the chain of callers of the domain the
    hart is in, and the chain has no cycle. -/
theorem pending_calls_in_order (cfg : Config x) (home : Nat → Nat) (bootHart : Nat)
    (es : List (Nat × Act x)) (s : Sys x)
    (halong : Runs.Along (fun s e => step cfg s e.1 e.2) (KeepsCallers cfg) (init home bootHart) es)
    (hrun : run cfg (init home bootHart) es = some s) (h : Nat) :
    ∃ callers, Chain (s.waits h) (s.callerOf h) (s.domain h) callers ∧ callers.Nodup ∧
      ∀ d, s.waits h d → d ∈ callers := by
  have hpending : PendingCalls cfg s :=
    halong.invariant (fun _ _ _ hp hk hstep => hp.step hk hstep)
      (init_pendingCalls cfg home bootHart) hrun
  obtain ⟨callers, hchain, hall⟩ := hpending.inOrder h
  exact ⟨callers, hchain, hchain.nodup, hall⟩

/-- Hart 0 goes through the domains 1, 2 and 3; domain 4 has hart 1 and controls
    them. -/
def relay : Config .rv64 where
  harts := 2
  present := fun _ => true
  monitor := []
  domainCount := 5
  domain := fun d =>
    if d = 0 then rootDomain {0, 1} 0 0 .supervisor
    else if d = 4 then rootDomain {1} 1 0x80200000 .supervisor
    else rootDomain {0} 0 0x80200000 .supervisor
  entryFrom := fun _ _ => true
  bridge := fun _ _ => false
  ipiAvailable := true
  platformStart := false
  platformSuspend := false
  fdt := 0

def relayHome (h : Nat) : Nat := if h = 0 then 1 else 4

def relayBoot : List (Nat × Act .rv64) :=
  [(1, .go), (1, .go),
   (0, .go), (0, .go), (0, .go), (0, .go), (0, .go), (0, .go), (0, .platform true),
   (0, .go), (0, .go), (0, .go), (0, .go),
   (1, .go), (1, .go), (1, .go), (1, .go)]

def plainStep (s : Sys x) (e : Nat × Act x) : Bool :=
  match s.pc e.1, e.2 with
  | .stopSection _, .go | .smode, .call (.enter _ _) | .switchTo _, .go => false
  | _, _ => true

theorem KeepsCallers.of_plainStep {cfg : Config x} {s : Sys x} {e : Nat × Act x}
    (hplain : plainStep s e = true) : KeepsCallers cfg s e := by
  unfold plainStep at hplain
  unfold KeepsCallers
  split
  · next hpc hact => simp [hpc, hact] at hplain
  · next hpc hact => simp [hpc, hact] at hplain
  · next hpc hact => simp [hpc, hact] at hplain
  · trivial

theorem relayBoot_keepsCallers :
    Runs.Along (fun s e => step relay s e.1 e.2) (KeepsCallers relay) (init relayHome 0)
      relayBoot := by
  have hplain : Runs.Along (fun s e => step relay s e.1 e.2) (fun s e => plainStep s e = true)
      (init relayHome 0) relayBoot := by decide +kernel
  exact hplain.mono fun _ _ => KeepsCallers.of_plainStep

def relayEnters : List (Nat × Act .rv64) := relayBoot ++ [(0, .call (.enter 2 0))]

theorem relayEnters_keepsCallers :
    Runs.Along (fun s e => step relay s e.1 e.2) (KeepsCallers relay) (init relayHome 0)
      relayEnters := by
  refine relayBoot_keepsCallers.append ?_
  intro t ht
  have hpending : PendingCalls relay t :=
    relayBoot_keepsCallers.invariant (fun _ _ _ hp hk hstep => hp.step hk hstep)
      (init_pendingCalls relay relayHome 0) ht
  have hview : ((run relay (init relayHome 0) relayBoot).map
      fun s => s.callerWaits (s.domain 0) 0) = some false := by decide +kernel
  rw [run, ht, Option.map_some, Option.some.injEq] at hview
  refine ⟨?_, fun _ _ => trivial⟩
  unfold KeepsCallers
  split
  · trivial
  · exact fun _ d hd => absurd hd ((hpending.inOrder 0).none_waits hview d)
  · trivial
  · trivial

theorem pending_calls_in_order_relay :
    ∃ s, run relay (init relayHome 0) relayEnters = some s ∧
      s.waits 0 1 ∧ ∃ callers, Chain (s.waits 0) (s.callerOf 0) (s.domain 0) callers ∧
        callers.Nodup ∧ ∀ d, s.waits 0 d → d ∈ callers := by
  have hview : ∃ s ∈ run relay (init relayHome 0) relayEnters, (s.ctx 1 0).state = .calling := by
    decide +kernel
  obtain ⟨s, hs, hwaits⟩ := hview
  exact ⟨s, hs, hwaits,
    pending_calls_in_order relay relayHome 0 relayEnters s relayEnters_keepsCallers hs 0⟩

/-- Domain 1 calls 2, which calls 3; then domain 2 is stopped. -/
def stopInMiddle : List (Nat × Act .rv64) :=
  [(0, .call (.enter 2 0)), (0, .go), (0, .call (.enter 3 0)), (0, .go),
   (1, .call (.domainStop 2)), (1, .go)]

/-- Domain 1 calls 2 and is stopped; then 2 calls 1, which calls 3. -/
def callInCycle : List (Nat × Act .rv64) :=
  [(0, .call (.enter 2 0)), (0, .go),
   (1, .call (.domainStop 1)), (1, .go), (1, .go), (1, .go), (1, .go), (1, .go), (1, .go), (1, .go),
   (0, .call (.enter 1 0)), (0, .go), (0, .call (.enter 3 0)), (0, .go)]

theorem stop_breaks_chain :
    (∃ s, run relay (init relayHome 0) (relayBoot ++ stopInMiddle) = some s ∧ s.waits 0 1 ∧
      ¬ ∃ callers, Chain (s.waits 0) (s.callerOf 0) (s.domain 0) callers ∧ 1 ∈ callers) ∧
    ∃ s, run relay (init relayHome 0) (relayBoot ++ callInCycle) = some s ∧
      ¬ ∃ callers, Chain (s.waits 0) (s.callerOf 0) (s.domain 0) callers := by
  constructor
  · have hview : ∃ s ∈ run relay (init relayHome 0) (relayBoot ++ stopInMiddle),
        s.domain 0 = 3 ∧ s.callerOf 0 3 = some 2 ∧ (s.ctx 1 0).state = .calling ∧
        (s.ctx 2 0).state = .none := by decide +kernel
    obtain ⟨s, hs, hdomain, hcaller, hone, htwo⟩ := hview
    refine ⟨s, hs, hone, ?_⟩
    rintro ⟨callers, hchain, hmem⟩
    rw [hdomain] at hchain
    cases hchain with
    | done => exact absurd hmem List.not_mem_nil
    | link hlink hwaits _ =>
      rw [hcaller] at hlink
      cases hlink
      rw [Sys.waits, htwo] at hwaits
      cases hwaits
  · have hview : ∃ s ∈ run relay (init relayHome 0) (relayBoot ++ callInCycle),
        s.domain 0 = 3 ∧ s.callerOf 0 3 = some 1 ∧ s.callerOf 0 1 = some 2 ∧
        s.callerOf 0 2 = some 1 ∧ (s.ctx 1 0).state = .calling ∧ (s.ctx 2 0).state = .calling := by
      decide +kernel
    obtain ⟨s, hs, hdomain, hthree, hone, htwo, hone', htwo'⟩ := hview
    refine ⟨s, hs, ?_⟩
    rintro ⟨callers, hchain⟩
    rw [hdomain] at hchain
    have hmem : 1 ∈ callers := hchain.caller_mem (.inl rfl) hthree hone'
    obtain ⟨_, rest, -, hrest⟩ := hchain.after_of_mem hmem
    -- the chain of domain 1 comes back to it
    have hmem₂ : 2 ∈ rest := hrest.caller_mem (.inl rfl) hone htwo'
    have hmem₁ : 1 ∈ rest := hrest.caller_mem (.inr hmem₂) htwo hone'
    exact hrest.not_mem hmem₁

end RiscvMonitor.Lifecycle
