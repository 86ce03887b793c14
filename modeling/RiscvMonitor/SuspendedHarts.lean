import RiscvMonitor.FenceCounts
import RiscvMonitor.MissedFences

/-!
# Harts that are about to sleep, or to wake up

A call for an IPI or a fence goes to the harts that are STARTED or SUSPENDED when it
looks.  A hart on the way from one to the other is neither, and is left out.  Where no
hart is seen like that, the IPIs and the fences get there.
-/

namespace RiscvMonitor.Delivery

open Sys

variable {x : Xlen}

/-! ### How far a fence has got with a hart -/

inductive Ask where
  | out
  | unread
  | listed
  | self
  | sent
  | dropped
deriving DecidableEq

def Request.ask (rq : Request x) (req : FenceReq x) (i : Nat) (p : Ask) : Ask :=
  if rq.fence = some req ∧ rq.names i = true then p else .out

def queueing (g i : Nat) (targets rest : List Nat) : Ask :=
  if i ∉ targets then .dropped else if i = g then .self else if i ∈ rest then .listed else .sent

def Ret.ask (ret : Ret x) (req : FenceReq x) (g i : Nat) : Ask :=
  match ret with
  | .enqueue rq targets rest => rq.ask req i (queueing g i targets rest)
  | .await rq => rq.ask req i .sent
  | .smode | .asleep => .out

def Serve.ask (site : Serve x) (req : FenceReq x) (g i : Nat) : Ask :=
  match site with
  | .ipi _ ret => ret.ask req g i
  | .await rq => rq.ask req i .sent

/-- How far hart `g` has got with hart `i`, in a call for the fence `req`. -/
def Pc.ask (pc : Pc x) (req : FenceReq x) (g i : Nat) : Ask :=
  match pc with
  | .readAssigned rq n running | .readState rq n running =>
    rq.ask req i (if i ∈ running then .listed else if n ≤ i then .unread else .dropped)
  | .check rq _ running | .checkParked rq _ _ running =>
    rq.ask req i (if i ∈ running then .listed else .dropped)
  | .enqueue rq targets rest => rq.ask req i (queueing g i targets rest)
  | .fenceOr rq targets n rest full | .fenceRaise rq targets n rest full =>
    rq.ask req i (queueing g i targets (if full then n :: rest else rest))
  | .fenceSelf rq => rq.ask req i (if i = g then .self else .sent)
  | .await rq => rq.ask req i .sent
  | .ipiClear after | .ipiSwap after => after.ask req g i
  | .serve site | .fencing _ site => site.ask req g i
  | .ret .success rq => rq.ask req i .dropped
  | _ => .out

/-- What has to be so at each point, for hart `i` to execute the fence of hart `g`. -/
def AskOwes (s : Sys x) (g i : Nat) (req : FenceReq x) : Ask → Prop
  | .out | .listed | .self => True
  | .unread => Stays s (s.domain g) i
  | .sent => ⟨req, g⟩ ∈ s.toServe i
  | .dropped => False

/-! ### The observer -/

/-- What the harts have been asked to execute and have not since. -/
structure FenceWatch (x : Xlen) where
  asked : Nat → Nat → Option (FenceReq x)
  late : Bool

def FenceWatch.empty : FenceWatch x := ⟨fun _ _ => none, false⟩

/-- The fence that a call asks of hart `i`: it is named, it runs, and it is of the
    domain. -/
def Sys.asksFor (cfg : Config) (s : Sys x) (h : Nat) (rq : Request x) (i : Nat) :
    Option (FenceReq x) :=
  if rq.names i = true ∧ i < cfg.harts ∧ cfg.present i = true ∧ s.hsm i ≠ .stopped ∧
      s.assigned (s.domain h) i = true ∧ (s.pc i).leaving = false then rq.fence else none

/-- The next step of hart `h` executes the fence `req` for hart `g`. -/
def Sys.executes (s : Sys x) (h g : Nat) (req : FenceReq x) : Prop :=
  match s.pc h with
  | .fencing e _ => e = ⟨req, g⟩
  | .fenceSelf rq => g = h ∧ rq.fence = some req
  | _ => False

instance (s : Sys x) (h g : Nat) (req : FenceReq x) : Decidable (s.executes h g req) := by
  unfold Sys.executes
  split <;> infer_instance

/-- A hart that leaves the domain is not of the domain any more. -/
def Sys.leaves (s : Sys x) (h : Nat) : Bool :=
  match s.pc h with
  | .switchLock _ _ => true
  | _ => false

def Sys.returnsLate (cfg : Config) (s : Sys x) (h : Nat)
    (asked : Nat → Nat → Option (FenceReq x)) : Prop :=
  match s.pc h with
  | .ret .success rq =>
    rq.fence ≠ none ∧ ∃ i < cfg.harts, rq.names i = true ∧ asked h i = rq.fence
  | _ => False

instance (cfg : Config) (s : Sys x) (h : Nat) (asked : Nat → Nat → Option (FenceReq x)) :
    Decidable (s.returnsLate cfg h asked) := by
  unfold Sys.returnsLate
  split <;> infer_instance

def FenceWatch.note (cfg : Config) (w : FenceWatch x) (s : Sys x) (e : Nat × Act x) : FenceWatch x :=
  let h := e.1
  let kept := fun g i =>
    if i = h ∧ s.leaves h = true ∧ s.domain g = s.domain h then none
    else (w.asked g i).filter fun req => decide ¬ (i = h ∧ s.executes h g req)
  { asked := fun g i =>
      match e.2 with
      | .call rq => if g = h then s.asksFor cfg h rq i else kept g i
      | _ => kept g i
    late := w.late || decide (s.returnsLate cfg h w.asked) }

/-- No call sees a hart that it names on the way into a suspend or out of it. -/
def SeesSettled (cfg : Config) (s : Sys x) (h : Nat) : Prop :=
  KeepsIpis cfg s h ∧
    match s.pc h with
    | .readState rq i _ =>
      rq.names i = true → s.hsm i = .started ∨ s.hsm i = .suspended ∨ s.hsm i = .stopped
    | _ => True

instance (cfg : Config) (s : Sys x) (h : Nat) : Decidable (SeesSettled cfg s h) := by
  unfold SeesSettled
  refine @instDecidableAnd _ _ _ ?_
  split <;> infer_instance

variable {rq : Request x} {running : List Nat} {n : Nat}

section Steps

variable {cfg : Config} {s t : Sys x} {w : FenceWatch x} {h g i : Nat} {a : Act x} {req : FenceReq x}

theorem AskOwes.map_ask {p q : Ask}
    (hpq : rq.fence = some req → rq.names i = true → AskOwes s g i req p → AskOwes s g i req q)
    (ho : AskOwes s g i req (rq.ask req i p)) : AskOwes s g i req (rq.ask req i q) := by
  unfold Request.ask at ho ⊢
  split at ho
  · next hrq =>
    rw [if_pos hrq]
    exact hpq hrq.1 hrq.2 ho
  · next hrq =>
    rw [if_neg hrq]
    trivial

theorem Ret.pc_ask (ret : Ret x) (req : FenceReq x) (g i : Nat) :
    ret.pc.ask req g i = ret.ask req g i := by
  cases ret <;> rfl

/-! ### Steps of others -/

theorem AskOwes.effect {p : Ask} (hm : Masks s) (he : Effect cfg s h a t)
    (hdomain : t.domain g = s.domain g) (ho : AskOwes s g i req p)
    (hleave : ¬ (i = h ∧ s.leaves h = true ∧ s.domain g = s.domain h))
    (hexec : ¬ (i = h ∧ s.executes h g req)) : AskOwes t g i req p := by
  cases p with
  | out | listed | self => trivial
  | dropped => exact ho.elim
  | unread =>
    have hs : Stays s (s.domain g) i := ho
    change Stays t (t.domain g) i
    rw [hdomain]
    refine he.stays hs ?_
    by_cases hi : i = h
    · subst hi
      refine .inr fun target state hpc => hleave ⟨rfl, ?_, ?_⟩
      · rw [Sys.leaves, hpc]
      · exact (((hm.hart i).stays_iff (by rw [hpc]; rfl)).mp hs).symm
    · exact .inl hi
  | sent =>
    refine (he.toServe_mem ho).resolve_right ?_
    rintro ⟨rfl, site, hpc⟩
    refine hexec ⟨rfl, ?_⟩
    rw [Sys.executes, hpc]

/-! ### Steps of the call -/

theorem send_asks
    (ho : AskOwes s g i req (rq.ask req i (if i ∈ running then .listed else .dropped))) :
    AskOwes s g i req ((send cfg rq running).ask req g i) := by
  unfold send
  dsimp only
  split
  · trivial
  · split
    · trivial
    · refine ho.map_ask fun _ hnames ho => ?_
      split at ho
      · next hrunning =>
        rw [queueing, if_neg (not_not_intro (List.mem_filter.mpr ⟨hrunning, hnames⟩))]
        split
        · trivial
        · rw [if_pos (List.mem_filter.mpr ⟨hrunning, hnames⟩)]
          trivial
      · exact ho.elim

theorem readAssigned_asks (hlt : i < cfg.harts) (hpresent : cfg.present i = true)
    (ho : AskOwes s h i req ((Pc.readAssigned rq n running).ask req h i)) :
    AskOwes s h i req ((readAssigned cfg s h rq n running).ask req h i) := by
  unfold readAssigned
  split
  · split
    · exact ho
    · next hread =>
      refine ho.map_ask fun _ _ ho => ?_
      by_cases hr : i ∈ running
      · rw [if_pos hr]
        trivial
      · rw [if_neg hr] at ho ⊢
        by_cases hi : i = n
        · subst hi
          rw [if_pos le_rfl] at ho
          exact absurd ⟨hpresent, ho.1⟩ hread
        · simp only [show n + 1 ≤ i ↔ n ≤ i by omega]
          exact ho
  · next hn =>
    have hdone : AskOwes s h i req (rq.ask req i (if i ∈ running then .listed else .dropped)) := by
      refine ho.map_ask fun _ _ ho => ?_
      split
      · trivial
      · next hr =>
        rw [if_neg hr, if_neg (Nat.not_le.mpr (hlt.trans_le (Nat.not_lt.mp hn)))] at ho
        exact ho
    split
    · exact send_asks hdone
    · split
      · exact send_asks hdone
      · exact hdone

theorem readState_asks (hm : HartMasks s i) (hpc : s.pc h = .readState rq n running)
    (hk : SeesSettled cfg s h) (hup : s.pc i ≠ .stopped)
    (ho : AskOwes s h i req ((Pc.readState rq n running).ask req h i)) :
    AskOwes s h i req ((readState s rq n running).ask req h i) := by
  have hsettled := hk.2
  simp only [hpc] at hsettled
  unfold readState
  refine ho.map_ask fun _ hnames ho => ?_
  by_cases hi : i = n
  · subst hi
    have hstate : s.hsm i = .started ∨ s.hsm i = .suspended := by
      rcases hsettled hnames with hs | hs | hs
      · exact .inl hs
      · exact .inr hs
      · exact absurd (hm.stopped.mp hs) hup
    rw [if_pos hstate, if_pos (List.mem_append_right _ (List.mem_singleton_self i))]
    trivial
  · have hmem : (i ∈ if s.hsm n = .started ∨ s.hsm n = .suspended then running ++ [n] else running) ↔
        i ∈ running := by
      split <;> simp [hi]
    simp only [hmem, show n + 1 ≤ i ↔ n ≤ i by omega]
    exact ho

theorem check_asks {rest : List (Option Nat)}
    (ho : AskOwes s h i req ((Pc.check rq rest running).ask req h i)) :
    AskOwes s h i req ((check cfg s h rq rest running).ask req h i) := by
  unfold check
  split
  · exact send_asks ho
  · trivial
  · split
    · trivial
    · split <;> exact ho

theorem Counted.none_sent (hc : Counted cfg s) (hlt : i < cfg.harts) (hout : (s.hart g).out = 0) :
    ⟨req, g⟩ ∉ s.toServe i :=
  fun hmem => Outstanding.not_mem_of_outstanding_eq_zero ((hc g).symm.trans hout) hlt hmem rfl

theorem ret_asks (hf : rq.fence = none) :
    AskOwes s g i req ((Pc.ret .success rq).ask req g i) := by
  have hout : (Pc.ret .success rq).ask req g i = .out := if_neg fun hrq => by
    rw [hf] at hrq
    cases hrq.1
  rw [hout]
  trivial

theorem Moves.asks {pc : Pc x} (hmove : Moves cfg s h a pc) (hm : HartMasks s i)
    (hsends : (s.pc h).Sends) (hc : Counted cfg s) (hk : SeesSettled cfg s h) (hlt : i < cfg.harts)
    (hpresent : cfg.present i = true) (hup : s.pc i ≠ .stopped)
    (hexec : ¬ (i = h ∧ s.executes h h req)) (hcall : ∀ rq, a ≠ .call rq)
    (ho : AskOwes s h i req ((s.pc h).ask req h i)) : AskOwes s h i req (pc.ask req h i) := by
  cases hmove with
  | call => exact absurd rfl (hcall _)
  | readAssigned hpc =>
    rw [hpc] at ho
    exact readAssigned_asks hlt hpresent ho
  | readState hpc =>
    rw [hpc] at ho
    exact readState_asks hm hpc hk hup ho
  | check hpc =>
    rw [hpc] at ho
    exact check_asks ho
  | checkParked hpc =>
    rw [hpc] at ho
    split
    · exact ho
    · trivial
  | parkedAny hpc =>
    rw [hpc] at hsends
    unfold Delivery.parkedAny
    split
    · split <;> trivial
    · exact ret_asks hsends
  | parkedScan hpc =>
    rw [hpc] at hsends
    unfold Delivery.parkedScan
    split
    · split <;> trivial
    · exact ret_asks hsends
  | posted hpc =>
    rw [hpc] at hsends
    split
    · exact ret_asks hsends.1.1
    · trivial
  | @enqueued rq targets hpc =>
    rw [hpc] at ho
    split
    · refine ho.map_ask fun _ _ ho => ?_
      unfold queueing at ho
      split
      · trivial
      · next hi =>
        rw [if_neg hi, if_neg List.not_mem_nil] at ho
        split at ho
        · exact ho.elim
        · exact ho
    · next hself =>
      refine ho.map_ask fun _ _ ho => ?_
      unfold queueing at ho
      split at ho
      · exact ho.elim
      · next hmem =>
        rw [if_neg (fun heq : i = h => hself (heq ▸ not_not.mp hmem)), if_neg List.not_mem_nil] at ho
        exact ho
  | enqueueSelf hpc =>
    rw [hpc] at ho
    refine ho.map_ask fun _ _ ho => ?_
    unfold queueing at ho ⊢
    by_cases hi : i = h
    · rw [if_pos hi] at ho ⊢
      exact ho
    · rw [if_neg hi] at ho ⊢
      simp only [List.mem_cons, hi, false_or] at ho
      exact ho
  | enqueueFull hpc =>
    rw [hpc] at ho
    exact ho
  | @fenceNone _ _ _ _ full hpc =>
    rw [hpc] at ho
    cases full <;> exact ho
  | @fenceSelf rq hpc =>
    rw [hpc] at ho
    refine ho.map_ask fun hf _ ho => ?_
    split at ho
    · next hi =>
      refine absurd ⟨hi, ?_⟩ hexec
      rw [Sys.executes, hpc]
      exact ⟨rfl, hf⟩
    · exact ho
  | await hpc =>
    rw [hpc] at ho
    split
    · next hout =>
      have hnone : ¬ AskOwes s h i req .sent := hc.none_sent hlt hout
      exact ho.map_ask fun _ _ ho => hnone ho
    · exact ho
  | ipiNone hpc =>
    rw [hpc] at ho
    rw [Ret.pc_ask]
    exact ho
  | served hpc =>
    rw [hpc] at ho
    exact ho
  | trap | switch | postNone | parkedGone | ret | asleepTrap | wake => trivial

end Steps

/-! ### What holds in every state -/

structure AskInv (cfg : Config) (s : Sys x) (w : FenceWatch x) : Prop where
  masks : Masks s
  sends : ∀ h, (s.pc h).Sends
  counts : CountInv cfg s
  up : ∀ g i, w.asked g i ≠ none → i < cfg.harts ∧ cfg.present i = true ∧ s.pc i ≠ .stopped
  owes : ∀ g i req, w.asked g i = some req → AskOwes s g i req ((s.pc g).ask req g i)
  late : w.late = false

theorem init_askInv (cfg : Config) (home : Nat → Nat) (up : Nat → Bool) :
    AskInv cfg (init home up : Sys x) .empty := by
  refine ⟨init_masks home up, fun h => ?_, init_countInv cfg home up, ?_, nofun, rfl⟩
  · simp only [init, Sys.pc]
    cases up h <;> trivial
  · exact fun _ _ hne => absurd rfl hne

section Steps

variable {cfg : Config} {s t : Sys x} {w : FenceWatch x} {h g i : Nat} {a : Act x} {req : FenceReq x}

theorem FenceWatch.note_asked (hw : (w.note cfg s (h, a)).asked g i = some req) :
    (∃ rq, a = .call rq ∧ g = h ∧ s.asksFor cfg h rq i = some req) ∨
      ((g = h → ∀ rq, a ≠ .call rq) ∧ w.asked g i = some req ∧
        ¬ (i = h ∧ s.leaves h = true ∧ s.domain g = s.domain h) ∧
        ¬ (i = h ∧ s.executes h g req)) := by
  have hkept : (if i = h ∧ s.leaves h = true ∧ s.domain g = s.domain h then none
      else (w.asked g i).filter fun req => decide ¬ (i = h ∧ s.executes h g req)) = some req →
      w.asked g i = some req ∧ ¬ (i = h ∧ s.leaves h = true ∧ s.domain g = s.domain h) ∧
        ¬ (i = h ∧ s.executes h g req) := by
    intro hw
    split at hw
    · cases hw
    · next hleave =>
      obtain ⟨hasked, hexec⟩ := Option.filter_eq_some_iff.mp hw
      exact ⟨hasked, hleave, of_decide_eq_true hexec⟩
  cases a with
  | call rq =>
    simp only [FenceWatch.note] at hw
    split at hw
    · next hg => exact .inl ⟨rq, rfl, hg, hw⟩
    · next hg => exact .inr ⟨fun heq => absurd heq hg, hkept hw⟩
  | run | switch | suspend | go | wake | platform => exact .inr ⟨nofun, hkept hw⟩

theorem enqueued_asks {targets rest : List Nat} (hn : n ≠ h)
    (hpc : s.pc h = .enqueue rq targets (n :: rest)) (hcarry : ∀ {p}, AskOwes s h i req p →
      AskOwes (s.enqueued h n req (.fenceOr rq targets n rest false)) h i req p)
    (ho : AskOwes s h i req (queueing h i targets (n :: rest))) :
    AskOwes (s.enqueued h n req (.fenceOr rq targets n rest false)) h i req
      (queueing h i targets rest) := by
  by_cases hi : i = n
  · subst hi
    unfold queueing at ho ⊢
    split at ho
    · exact ho.elim
    · next hmem =>
      rw [if_neg hmem, if_neg hn]
      split
      · trivial
      · change _ ∈ toServe _ i
        rw [enqueued_toServe hn (by rw [hpc]; rfl) rfl, Function.update_self]
        exact List.mem_append_right _ (List.mem_singleton_self _)
  · refine hcarry ?_
    unfold queueing at ho ⊢
    simpa only [List.mem_cons, hi, false_or] using ho

theorem AskInv.own (hinv : AskInv cfg s w) (hk : SeesSettled cfg s h) (he : Effect cfg s h a t)
    (hdomain : t.domain h = s.domain h) (hcall : ∀ rq, a ≠ .call rq)
    (hw : w.asked h i = some req)
    (hleave : ¬ (i = h ∧ s.leaves h = true ∧ s.domain h = s.domain h))
    (hexec : ¬ (i = h ∧ s.executes h h req)) : AskOwes t h i req ((t.pc h).ask req h i) := by
  obtain ⟨hlt, hpresent, hup⟩ := hinv.up h i (by rw [hw]; nofun)
  have ho := hinv.owes h i req hw
  have hcarry : ∀ {p}, AskOwes s h i req p → AskOwes t h i req p :=
    fun ho => ho.effect hinv.masks he hdomain hleave hexec
  cases he with
  | move hmove =>
    rw [goto_pc_self]
    exact hcarry (hmove.asks (hinv.masks.hart i) (hinv.sends h) hinv.counts.counted hk hlt hpresent
      hup hexec hcall ho)
  | @enqueue rq req' targets n rest hpc hreq hn =>
    rw [hpc] at ho
    have hnew : ((s.enqueued h n req' (.fenceOr rq targets n rest false)).pc h) =
        .fenceOr rq targets n rest false := by
      rw [Sys.pc, enqueued_hart, if_pos rfl]
    change AskOwes (s.enqueued h n req' (.fenceOr rq targets n rest false)) h i req
      (((s.enqueued h n req' (.fenceOr rq targets n rest false)).pc h).ask req h i)
    rw [hnew]
    simp only [Pc.ask, Request.ask, Bool.false_eq_true, if_false] at ho ⊢
    split
    · next hrq =>
      rw [if_pos hrq] at ho
      cases hreq.symm.trans hrq.1
      exact enqueued_asks hn hpc hcarry ho
    · trivial
  | ipiClear hpc | ipiFences hpc | pop hpc =>
    rw [Sys.pc, setHart_hart_self]
    rw [hpc] at ho
    exact hcarry ho
  | ipiSmode hpc | served hpc =>
    rw [Sys.pc, setHart_hart_self, Ret.pc_ask]
    rw [hpc] at ho
    exact hcarry ho
  | fenceOr hpc =>
    rw [goto_pc_self]
    rw [hpc] at ho
    exact hcarry ho
  | @fenceRaise _ _ _ _ full hpc =>
    rw [goto_pc_self]
    rw [hpc] at ho
    cases full <;> exact hcarry ho
  | fencing hpc =>
    rw [Delivery.fencing, goto_pc_self]
    rw [hpc] at ho
    exact hcarry ho
  | run hpc =>
    rw [Sys.pc, setHart_hart_self]
    exact hcarry ho
  | @platform ok =>
    rw [Sys.pc, setHart_hart_self]
    cases ok <;> trivial
  | suspend | woken | resumed | restore | arrive =>
    simp only [Sys.pc, contextRestore, contextArrive, setHart_hart_self, Pc.ask, AskOwes]
  | post | raise | parkedPost | parkedKeep | parkedRaise | park | unpark | assign =>
    simp only [contextPark, goto_pc_self, Pc.ask, AskOwes]

theorem AskInv.step_owes (hinv : AskInv cfg s w) (hk : SeesSettled cfg s h)
    (he : Effect cfg s h a t) (hw : (w.note cfg s (h, a)).asked g i = some req) :
    AskOwes t g i req ((t.pc g).ask req g i) := by
  rcases FenceWatch.note_asked hw with ⟨rq, rfl, rfl, hasks⟩ | ⟨hcall, hold, hleave, hexec⟩
  · obtain ⟨hpc, ht⟩ := he.call
    have hnew : t.pc g = ecall cfg rq := by rw [ht, goto_pc_self]
    unfold Sys.asksFor at hasks
    split at hasks
    · next hwho =>
      have ho : AskOwes s g i req .unread := hwho.2.2.2.2
      have hunread : AskOwes t g i req .unread := by
        refine ho.effect hinv.masks he (he.domain_eq g (.inr (by rw [hpc]; nofun))) ?_ ?_
        · rintro ⟨-, hleaves, -⟩
          simp [Sys.leaves, hpc] at hleaves
        · rintro ⟨-, hexec⟩
          simp [Sys.executes, hpc] at hexec
      rw [hnew]
      unfold ecall
      cases callCheck cfg rq with
      | success =>
        have hask : (Pc.readAssigned rq 0 []).ask req g i = .unread := by
          simp [Pc.ask, Request.ask, hasks, hwho.1]
        dsimp only
        rw [hask]
        exact hunread
      | _ => trivial
    · cases hasks
  · by_cases hg : g = h
    · subst hg
      rcases he.domain_or_smode with heq | hsmode
      · exact hinv.own hk he heq (hcall rfl) hold hleave hexec
      · rw [hsmode]
        trivial
    · rw [he.pc_other hg]
      exact (hinv.owes g i req hold).effect hinv.masks he (he.domain_eq g (.inl hg)) hleave hexec

theorem AskInv.not_late (hinv : AskInv cfg s w) : (w.note cfg s (h, a)).late = false := by
  simp only [FenceWatch.note, hinv.late, Bool.false_or, decide_eq_false_iff_not]
  intro hlate
  unfold Sys.returnsLate at hlate
  split at hlate
  · next rq hpc =>
    obtain ⟨hsome, i, -, hnames, hasked⟩ := hlate
    obtain ⟨req, hreq⟩ := Option.ne_none_iff_exists'.mp hsome
    have ho := hinv.owes h i req (hasked.trans hreq)
    rw [hpc] at ho
    simp only [Pc.ask, Request.ask, if_pos (show rq.fence = some req ∧ rq.names i = true from
      ⟨hreq, hnames⟩)] at ho
    exact ho
  · exact hlate

theorem AskInv.step (hinv : AskInv cfg s w) (hk : SeesSettled cfg s h)
    (hstep : step cfg s h a = some t) : AskInv cfg t (w.note cfg s (h, a)) := by
  have he := step_effect hstep
  refine ⟨hinv.masks.effect he, fun i => ?_, hinv.counts.step hstep, fun g i hne => ?_,
    fun g i req => hinv.step_owes hk he, hinv.not_late⟩
  · by_cases hi : i = h
    · subst hi
      exact he.sends (hinv.sends i)
    · rw [he.pc_other hi]
      exact hinv.sends i
  · obtain ⟨req, hreq⟩ := Option.ne_none_iff_exists'.mp hne
    rcases FenceWatch.note_asked hreq with ⟨rq, -, -, hasks⟩ | ⟨-, hold, -⟩
    · unfold Sys.asksFor at hasks
      split at hasks
      · next hwho =>
        obtain ⟨-, hlt, hpresent, hup, -⟩ := hwho
        refine ⟨hlt, hpresent, he.not_stopped fun hstopped => hup ?_⟩
        exact (hinv.masks.hart i).stopped.mpr hstopped
      · cases hasks
    · obtain ⟨hlt, hpresent, hup⟩ := hinv.up g i (by rw [hold]; nofun)
      exact ⟨hlt, hpresent, he.not_stopped hup⟩

end Steps

def fenceWatch (cfg : Config) (s : Sys x) (es : List (Nat × Act x)) : FenceWatch x :=
  Runs.watch (fun s e => step cfg s e.1 e.2) (FenceWatch.note cfg) .empty s es

abbrev SeesSettledAlong (cfg : Config) : Sys x → List (Nat × Act x) → Prop :=
  Runs.Along (fun s e => step cfg s e.1 e.2) fun s e => SeesSettled cfg s e.1

/-- Where no call sees a hart between STARTED and SUSPENDED, a hart has every IPI of
    its domain before S-mode runs on it, and has executed every fence that has
    returned. -/
theorem calls_reach_suspending (cfg : Config) (home : Nat → Nat) (up : Nat → Bool)
    (es : List (Nat × Act x)) (t : Sys x) (hipi : cfg.ipiAvailable = true)
    (halong : SeesSettledAlong cfg (init home up) es)
    (hrun : run cfg (init home up) es = some t) :
    (∀ h, t.pc h = .smode → t.line h = false →
      (watch cfg (init home up) es).owed (t.domain h) h = false) ∧
    (∀ d h, (watch cfg (init home up) es).owed d h = true → Due t d h) ∧
    (fenceWatch cfg (init home up) es).late = false := by
  have hipis := run_ipiInv hipi (halong.mono fun _ _ hk => hk.1) hrun
  have hasks : AskInv cfg t (fenceWatch cfg (init home up) es) :=
    halong.watch_invariant (fun _ _ _ _ hinv hk hstep => hinv.step hk hstep)
      (init_askInv cfg home up) hrun
  exact ⟨fun h => hipis.not_owed, hipis.owed, hasks.late⟩

/-- Hart 0 is asleep when hart 1 sends it an IPI and asks it for a fence, and then
    wakes up. -/
def callsWhileAsleep : List (Nat × Act .rv64) :=
  [(0, .suspend), (0, .platform true), (1, .call (ipiTo0 false))] ++ goes 1 14 ++ goes 0 3 ++
    (1, .call (fenceFor0 .sfenceVma)) :: goes 1 11 ++ goes 0 6 ++ goes 1 2 ++
    [(0, .wake), (0, .go), (0, .go)]

theorem calls_reach_suspending_asleep :
    ∃ t, run pair pairStart callsWhileAsleep = some t ∧ t.pc 1 = .smode ∧ t.pc 0 = .smode ∧
      (t.hart 0).ssip = true ∧ (watch pair pairStart callsWhileAsleep).owed 1 0 = false ∧
      (fenceWatch pair pairStart callsWhileAsleep).late = false := by
  have hview : ∃ t ∈ run pair pairStart callsWhileAsleep, t.pc 1 = .smode ∧ t.pc 0 = .smode ∧
      t.domain 0 = 1 ∧ (t.hart 0).ssip = true ∧ t.line 0 = false := by decide +kernel
  obtain ⟨t, ht, hpc, hpc', hdomain, hssip, hline⟩ := hview
  have hall := calls_reach_suspending pair (fun _ => 1) (fun h => h < 2) callsWhileAsleep t rfl
    (by decide +kernel) ht
  exact ⟨t, ht, hpc, hpc', hssip, hdomain ▸ hall.1 0 hpc' hline, hall.2.2⟩

/-- The same calls while hart 0 is on its way into a suspend, which the platform then
    refuses. -/
def callsWhileSuspending : List (Nat × Act .rv64) :=
  [(0, .suspend), (1, .call (ipiTo0 false))] ++ goes 1 12 ++
    (1, .call (fenceFor0 .sfenceVma)) :: goes 1 10 ++ [(0, .platform false)]

theorem calls_miss_suspending :
    ∃ t, run pair pairStart callsWhileSuspending = some t ∧ t.pc 1 = .smode ∧ t.pc 0 = .smode ∧
      t.line 0 = false ∧ t.domain 0 = 1 ∧ (t.hart 0).ssip = false ∧ (t.hart 0).queue = [] ∧
      (watch pair pairStart callsWhileSuspending).owed 1 0 = true ∧
      (fenceWatch pair pairStart callsWhileSuspending).late = true :=
  Runs.exists_end (by decide +kernel)

end RiscvMonitor.Delivery
