import RiscvMonitor.Outstanding
import RiscvMonitor.RemoteFenceSteps

/-!
# Every fence is executed once

A request is in a stage: the harts of its mask before some index have it in their
queue.  For every requester and every hart the fences executed, with those still
queued or being served, are one if the stage has reached that hart and none
otherwise.
-/

namespace RiscvMonitor.RemoteFences

open Function (update update_eq_self update_of_ne update_self)
open Delivery (FenceReq Entry rfenceQueueLen)
open Outstanding

variable {x : Xlen}

/-! ### Stages of a request -/

structure Stage (x : Xlen) where
  req : FenceReq x
  mask : List Nat
  reached : Nat
  /-- The requester has done its own part. -/
  own : Bool

/-- Hart `i` has had the request of hart `g`, or has it in its queue. -/
def Stage.handed (stage : Stage x) (g i : Nat) : Bool :=
  decide (i ∈ stage.mask) && if i = g then stage.own else decide (i < stage.reached)

def Ret.stage (n : Nat) : Ret x → Option (Stage x)
  | .enqueue req mask i => some ⟨req, mask, i, false⟩
  | .await req mask => some ⟨req, mask, n, true⟩
  | .smode | .wait | .asleep _ => none

def Serve.stage (n : Nat) : Serve x → Option (Stage x)
  | .ipi after => after.stage n
  | .await req mask => some ⟨req, mask, n, true⟩
  | .wait => none

/-- How far the request has got that a hart is in, of `n` harts. -/
def Pc.stage (n : Nat) : Pc x → Option (Stage x)
  | .enqueue req mask i => some ⟨req, mask, i, false⟩
  | .sendOr req mask i full | .sendRaise req mask i full =>
    some ⟨req, mask, if full then i else i + 1, false⟩
  | .fenceSelf req mask => some ⟨req, mask, n, false⟩
  | .await req mask | .ret req mask => some ⟨req, mask, n, true⟩
  | .ipiClear after | .ipiSwap after => after.stage n
  | .serve site | .fencing _ site => site.stage n
  | .smode | .bootPlat _ | .kick _ | .arrive | .park | .resumeReset | .waitClear | .waitZero
  | .wait | .enterClear | .enterZero | .begin | .suspending _ | .asleep _ | .woken _ | .resumed
  | .off => none

/-- The fences of hart `g` that hart `i` has to have executed or to serve. -/
def Pc.owed (n : Nat) (pc : Pc x) (g i : Nat) : Nat :=
  (pc.stage n).elim 0 fun stage => (stage.handed g i).toNat

def Pc.asks (n : Nat) (pc : Pc x) : Option (FenceReq x) := (pc.stage n).map Stage.req

def Pc.inHand : Pc x → Option (Entry x)
  | .fencing e _ => some e
  | _ => none

/-- `rfence_request()` has succeeded. -/
def Pc.returned : Pc x → Bool
  | .ret _ _ => true
  | _ => false

def Sys.toServe (s : Sys x) (h : Nat) : List (Entry x) :=
  (s.pc h).inHand.toList ++ (s.queue h).contents

/-! ### What is noted -/

structure Log (x : Xlen) where
  /-- How often hart `i` has executed the fence of the request hart `g` is in. -/
  done : Nat → Nat → Nat
  /-- What went into the queue of a hart and what it has executed of that, in order. -/
  pushed : Nat → List (Entry x)
  served : Nat → List (Entry x)
  touched : Bool

def Log.start : Log x := ⟨fun _ _ => 0, fun _ => [], fun _ => [], false⟩

def Log.executed (w : Log x) (g i : Nat) : Log x :=
  { w with done := update w.done g (update (w.done g) i (w.done g i + 1)) }

def Log.noteAt (cfg : Config) (w : Log x) (s : Sys x) (h : Nat) : Pc x → Log x
  | .enqueue req mask i =>
    if i < cfg.harts ∧ (i ∈ mask ∧ i ≠ h) ∧ ((s.queue i).push ⟨req, h⟩).isSome then
      { w with pushed := update w.pushed i (w.pushed i ++ [⟨req, h⟩]) }
    else w
  | .fencing e _ =>
    { w.executed e.requester h with
      served := update w.served h (w.served h ++ [e])
      touched := w.touched || ((s.pc e.requester).stage cfg.harts).isNone }
  | .fenceSelf _ mask => if h ∈ mask then w.executed h h else w
  -- the request is over
  | .ret _ _ => { w with done := update w.done h fun _ => 0 }
  | _ => w

def Log.note (cfg : Config) (w : Log x) (s : Sys x) (e : Nat × Act x) : Log x :=
  w.noteAt cfg s e.1 (s.pc e.1)

structure ServiceInv (cfg : Config) (s : Sys x) (w : Log x) : Prop where
  counts : Balanced Entry.requester cfg.harts s.toServe s.out
  once : ∀ g i, i < cfg.harts →
    w.done g i + (s.toServe i).countP (fun e => e.requester == g) = (s.pc g).owed cfg.harts g i
  asked : ∀ i < cfg.harts, ∀ e ∈ s.toServe i, (s.pc e.requester).asks cfg.harts = some e.req
  returned : ∀ g, (s.pc g).returned = true → s.out g = 0
  fifo : ∀ i, w.pushed i = w.served i ++ s.toServe i
  untouched : w.touched = false

/-! ### The stage over a step -/

variable {i k : Nat} {req : FenceReq x} {mask : List Nat} {e : Entry x} {site : Serve x}

section Steps

variable {cfg : Config} {s t : Sys x} {w : Log x} {h : Nat} {n : Nat} {p q : Pc x}

theorem Ret.pc_stage (after : Ret x) : after.pc.stage n = after.stage n := by
  cases after <;> rfl

theorem Ret.pc_inHand (after : Ret x) : after.pc.inHand = none := by
  cases after <;> rfl

theorem Ret.pc_returned (after : Ret x) : after.pc.returned = false := by
  cases after <;> rfl

/-- The hart goes on and stands as before: it owes the same, and no count is left if its request
    has succeeded. -/
structure Steady (n : Nat) (s : Sys x) (h : Nat) (p q : Pc x) : Prop where
  owed : ∀ i < n, q.owed n h i = p.owed n h i
  asks : q.asks n = p.asks n
  inHand : p.inHand = none ∧ q.inHand = none
  ret : q.returned = true → s.out h = 0

theorem Steady.of_stage (hstage : q.stage n = p.stage n) (hp : p.inHand = none)
    (hq : q.inHand = none) (hret : q.returned = false) : Steady n s h p q where
  owed := by
    intro i _
    rw [Pc.owed, hstage, Pc.owed]
  asks := by rw [Pc.asks, hstage, Pc.asks]
  inHand := ⟨hp, hq⟩
  ret := by
    intro htrue
    rw [hret] at htrue
    cases htrue

theorem Life.steady (hlife : Life s h p q) : Steady n s h p q := by
  cases hlife <;> exact .of_stage rfl rfl rfl rfl

theorem Raises.steady (hraise : Raises i p q) : Steady n s h p q := by
  cases hraise <;> exact .of_stage rfl rfl rfl rfl

theorem Lowers.steady (hlower : Lowers p q) : Steady n s h p q := by
  cases hlower <;> exact .of_stage rfl rfl rfl rfl

theorem Zeroes.steady (hzero : Zeroes s h p q) : Steady n s h p q := by
  cases hzero with
  | nothing => exact .of_stage (Ret.pc_stage _) rfl (Ret.pc_inHand _) (Ret.pc_returned _)
  | fences => exact .of_stage rfl rfl rfl rfl
  | wait => exact .of_stage rfl rfl rfl rfl
  | enter => exact .of_stage rfl rfl rfl rfl

theorem Serve.steady (site : Serve x) : Steady n s h (.serve site) site.pc := by
  cases site with
  | ipi after => exact .of_stage (Ret.pc_stage _) rfl (Ret.pc_inHand _) (Ret.pc_returned _)
  | await => exact .of_stage rfl rfl rfl rfl
  | wait => exact .of_stage rfl rfl rfl rfl

theorem handed_skip (hnot : ¬ (k ∈ mask ∧ k ≠ h)) (i : Nat) :
    Stage.handed ⟨req, mask, k + 1, false⟩ h i = Stage.handed ⟨req, mask, k, false⟩ h i := by
  unfold Stage.handed
  dsimp only
  by_cases hi : i = h
  · rw [if_pos hi, if_pos hi]
  · rw [if_neg hi, if_neg hi]
    by_cases hk : i = k
    · have hout : i ∉ mask := fun hmem => hnot ⟨hk ▸ hmem, hk ▸ hi⟩
      simp [hout]
    · have hlt : i < k + 1 ↔ i < k := by omega
      simp [hlt]

theorem handed_end (hk : ¬ k < n) (hi : i < n) :
    Stage.handed ⟨req, mask, n, false⟩ h i = Stage.handed ⟨req, mask, k, false⟩ h i := by
  have hik : i < k := by omega
  unfold Stage.handed
  simp [hi, hik]

theorem Steady.skip (hnot : ¬ (k ∈ mask ∧ k ≠ h)) :
    Steady n s h (.enqueue req mask k) (.enqueue req mask (k + 1)) where
  owed i _ := congrArg Bool.toNat (handed_skip hnot i)
  asks := rfl
  inHand := ⟨rfl, rfl⟩
  ret := Bool.noConfusion

theorem Steady.queued (hk : ¬ k < n) :
    Steady n s h (.enqueue req mask k) (.fenceSelf req mask) where
  owed _ hi := congrArg Bool.toNat (handed_end hk hi)
  asks := rfl
  inHand := ⟨rfl, rfl⟩
  ret := Bool.noConfusion

theorem Steady.done (hout : s.out h = 0) :
    Steady n s h (.await req mask) (.ret req mask) where
  owed _ _ := rfl
  asks := rfl
  inHand := ⟨rfl, rfl⟩
  ret _ := hout

theorem Log.executed_done (g i g' i' : Nat) :
    (w.executed g i).done g' i' = w.done g' i' + if g = g' ∧ i = i' then 1 else 0 := by
  unfold Log.executed
  by_cases hg : g' = g
  · by_cases hi : i' = i
    · simp [hg, hi]
    · simp [hg, hi, Ne.symm hi]
  · simp [hg, Ne.symm hg]

theorem Life.noteAt (hlife : Life s h p q) : w.noteAt cfg s h p = w := by
  cases hlife <;> rfl

theorem Raises.noteAt (hraise : Raises i p q) : w.noteAt cfg s h p = w := by
  cases hraise <;> rfl

theorem Lowers.noteAt (hlower : Lowers p q) : w.noteAt cfg s h p = w := by
  cases hlower <;> rfl

theorem Zeroes.noteAt (hzero : Zeroes s h p q) : w.noteAt cfg s h p = w := by
  cases hzero <;> rfl

/-! ### The invariant over a step -/

theorem toServe_moved (hpc : t.pc = update s.pc h q) (hqueue : t.queue = s.queue)
    (hhand : (s.pc h).inHand = none ∧ q.inHand = none) : t.toServe = s.toServe := by
  funext i
  unfold Sys.toServe
  rw [hpc, hqueue]
  by_cases hi : i = h
  · rw [hi, update_self, hhand.1, hhand.2]
  · rw [update_of_ne hi]

/-- Nothing is queued, served or counted: what the hart owes and asks is all that
    changes. -/
theorem ServiceInv.moved {w' : Log x} (hinv : ServiceInv cfg s w)
    (hhand : (s.pc h).inHand = none ∧ q.inHand = none)
    (honce : ∀ i < cfg.harts, w'.done h i + (s.toServe i).countP (fun e => e.requester == h) =
      q.owed cfg.harts h i)
    (hasked : ∀ i < cfg.harts, ∀ e ∈ s.toServe i, e.requester = h → q.asks cfg.harts = some e.req)
    (hret : q.returned = true → s.out h = 0) (hdone : ∀ g ≠ h, w'.done g = w.done g)
    (hlog : w'.pushed = w.pushed ∧ w'.served = w.served ∧ w'.touched = w.touched)
    (hpc : t.pc = update s.pc h q) (hqueue : t.queue = s.queue) (hout : t.out = s.out) :
    ServiceInv cfg t w' := by
  have hserve : t.toServe = s.toServe := toServe_moved hpc hqueue hhand
  constructor
  case counts =>
    rw [hserve, hout]
    exact hinv.counts
  case once =>
    intro g i hi
    rw [hserve, hpc]
    by_cases hg : g = h
    · rw [hg, update_self]
      exact honce i hi
    · rw [update_of_ne hg, hdone g hg]
      exact hinv.once g i hi
  case asked =>
    intro i hi e he
    rw [hserve] at he
    rw [hpc]
    by_cases hg : e.requester = h
    · rw [hg, update_self]
      exact hasked i hi e he hg
    · rw [update_of_ne hg]
      exact hinv.asked i hi e he
  case returned =>
    intro g hg
    rw [hout]
    rw [hpc] at hg
    by_cases heq : g = h
    · rw [heq, update_self] at hg
      exact heq ▸ hret hg
    · rw [update_of_ne heq] at hg
      exact hinv.returned g hg
  case fifo =>
    rw [hlog.1, hlog.2.1, hserve]
    exact hinv.fifo
  case untouched => exact hlog.2.2.trans hinv.untouched

theorem ServiceInv.steady (hinv : ServiceInv cfg s w)
    (hsteady : Steady cfg.harts s h (s.pc h) q) (hpc : t.pc = update s.pc h q)
    (hqueue : t.queue = s.queue) (hout : t.out = s.out) : ServiceInv cfg t w := by
  refine hinv.moved hsteady.inHand ?_ ?_ hsteady.ret (fun _ _ => rfl) ⟨rfl, rfl, rfl⟩ hpc hqueue hout
  · intro i hi
    rw [hsteady.owed i hi]
    exact hinv.once h i hi
  · intro i hi e he heq
    rw [hsteady.asks, ← heq]
    exact hinv.asked i hi e he

theorem ServiceInv.not_asked (hinv : ServiceInv cfg s w)
    (hstage : (s.pc h).stage cfg.harts = none) (hi : i < cfg.harts) (he : e ∈ s.toServe i) :
    e.requester ≠ h := by
  intro heq
  have hasks := hinv.asked i hi e he
  rw [heq, Pc.asks, hstage] at hasks
  cases hasks

theorem ServiceInv.count_eq_zero (hnone : ∀ i < cfg.harts, ∀ e ∈ s.toServe i, e.requester ≠ h)
    (hi : i < cfg.harts) : (s.toServe i).countP (fun e => e.requester == h) = 0 := by
  rw [List.countP_eq_zero]
  intro e he heq
  exact hnone i hi e he (beq_iff_eq.mp heq)

section

variable (hinv : ServiceInv cfg s w)
include hinv

theorem ServiceInv.out_eq_zero (hstage : (s.pc h).stage cfg.harts = none) : s.out h = 0 := by
  rw [hinv.counts h]
  refine Finset.sum_eq_zero fun i hi => ?_
  exact count_eq_zero (fun i hi e he => hinv.not_asked hstage hi he) (Finset.mem_range.mp hi)

theorem ServiceInv.request (hpc : s.pc h = .smode) (req : FenceReq x) (mask : List Nat) :
    ServiceInv cfg ((s.setOut h 0).goto h (.enqueue req mask 0)) w := by
  have hstage : (s.pc h).stage cfg.harts = none := by rw [hpc]; rfl
  have hout : update s.out h 0 = s.out := by
    have hzero := hinv.out_eq_zero hstage
    exact hzero ▸ update_eq_self h s.out
  refine hinv.moved ⟨by rw [hpc]; rfl, rfl⟩ ?_ ?_ Bool.noConfusion (fun _ _ => rfl)
    ⟨rfl, rfl, rfl⟩ rfl rfl hout
  · intro i hi
    rw [hinv.once h i hi, Pc.owed, hstage]
    simp [Pc.owed, Pc.stage, Stage.handed]
  · intro i hi e he heq
    exact absurd heq (hinv.not_asked hstage hi he)

theorem ServiceInv.ret (hpc : s.pc h = .ret req mask) :
    ServiceInv cfg (s.goto h .smode) { w with done := update w.done h fun _ => 0 } := by
  have hout : outstanding Entry.requester cfg.harts s.toServe h = 0 := by
    rw [← hinv.counts h]
    exact hinv.returned h (by rw [hpc]; rfl)
  have hnone : ∀ i < cfg.harts, ∀ e ∈ s.toServe i, e.requester ≠ h :=
    fun i hi e he => not_mem_of_outstanding_eq_zero hout hi he
  refine hinv.moved ⟨by rw [hpc]; rfl, rfl⟩ ?_ ?_ Bool.noConfusion ?_ ⟨rfl, rfl, rfl⟩ rfl rfl rfl
  · intro i hi
    dsimp only
    rw [count_eq_zero hnone hi, update_self]
    rfl
  · intro i hi e he heq
    exact absurd heq (hnone i hi e he)
  · intro g hg
    exact update_of_ne hg _ _

/-- With the requester's own part done, all that is owed was handed out. -/
theorem ServiceInv.self (hpc : s.pc h = .fenceSelf req mask) :
    ServiceInv cfg (s.goto h (.await req mask)) (if h ∈ mask then w.executed h h else w) := by
  have hhand : (s.pc h).inHand = none ∧ (Pc.await req mask).inHand = none := ⟨by rw [hpc]; rfl, rfl⟩
  have hasked : ∀ i < cfg.harts, ∀ e ∈ s.toServe i, e.requester = h → some req = some e.req := by
    intro i hi e he heq
    have hasks := hinv.asked i hi e he
    rwa [heq, hpc] at hasks
  have hbefore : ∀ i < cfg.harts, w.done h i + (s.toServe i).countP (fun e => e.requester == h) =
      (Stage.handed ⟨req, mask, cfg.harts, false⟩ h i).toNat := by
    intro i hi
    rw [hinv.once h i hi, hpc]
    rfl
  split
  case isTrue hmask =>
    refine hinv.moved hhand ?_ hasked Bool.noConfusion ?_ ⟨rfl, rfl, rfl⟩ rfl rfl rfl
    · intro i hi
      rw [Log.executed_done, Nat.add_right_comm, hbefore i hi]
      by_cases heq : h = i
      · simp [Pc.owed, Pc.stage, Stage.handed, ← heq, hmask]
      · simp [Pc.owed, Pc.stage, Stage.handed, heq, Ne.symm heq]
    · intro g hg
      exact update_of_ne hg _ _
  case isFalse hmask =>
    refine hinv.moved hhand ?_ hasked Bool.noConfusion (fun _ _ => rfl) ⟨rfl, rfl, rfl⟩ rfl rfl rfl
    intro i hi
    rw [hbefore i hi]
    by_cases heq : i = h
    · simp [Pc.owed, Pc.stage, Stage.handed, heq, hmask]
    · simp [Pc.owed, Pc.stage, Stage.handed, heq]

end

theorem toServe_push {ring : Ring (Entry x) rfenceQueueLen} (hhand : (s.pc h).inHand = none)
    (hne : i ≠ h) (hpush : (s.queue i).push ⟨req, h⟩ = some ring) (n : Nat) :
    (((s.setQueue i ring).setOut h n).goto h (.sendOr req mask i false)).toServe =
      update s.toServe i (s.toServe i ++ [⟨req, h⟩]) := by
  funext k
  unfold Sys.toServe
  by_cases hk : k = i
  · subst hk
    rw [update_self, List.append_assoc, ← Ring.contents_push hpush]
    simp only [Sys.goto, Sys.setOut, Sys.setQueue, update_self, update_of_ne hne]
  · rw [update_of_ne hk]
    simp only [Sys.goto, Sys.setOut, Sys.setQueue, update_of_ne hk]
    by_cases hkh : k = h
    · rw [hkh, update_self, hhand]
      rfl
    · rw [update_of_ne hkh]

theorem handed_push (hmask : k ∈ mask) (hne : k ≠ h) (i : Nat) :
    (Stage.handed ⟨req, mask, k + 1, false⟩ h i).toNat =
      (Stage.handed ⟨req, mask, k, false⟩ h i).toNat + if i = k then 1 else 0 := by
  by_cases hik : i = k
  · simp [Stage.handed, hik, hmask, hne]
  · have hlt : i < k + 1 ↔ i < k := by omega
    simp [Stage.handed, hik, hlt]

theorem ServiceInv.push {ring : Ring (Entry x) rfenceQueueLen} (hinv : ServiceInv cfg s w)
    (hpc : s.pc h = .enqueue req mask i) (hi : i < cfg.harts) (hmask : i ∈ mask) (hne : i ≠ h)
    (hpush : (s.queue i).push ⟨req, h⟩ = some ring)
    (ht : t = ((s.setQueue i ring).setOut h (s.out h + 1)).goto h (.sendOr req mask i false)) :
    ServiceInv cfg t { w with pushed := update w.pushed i (w.pushed i ++ [⟨req, h⟩]) } := by
  have hserve : t.toServe = update s.toServe i (s.toServe i ++ [⟨req, h⟩]) :=
    ht ▸ toServe_push (by rw [hpc]; rfl) hne hpush _
  have hself : t.pc h = .sendOr req mask i false := ht ▸ update_self ..
  have hother : ∀ g ≠ h, t.pc g = s.pc g := fun g hg => ht ▸ update_of_ne hg ..
  have hout : t.out = update s.out h (s.out h + 1) := ht ▸ rfl
  constructor
  case counts =>
    rw [hserve, hout]
    exact Balanced.push hinv.counts hi ⟨req, h⟩
  case once =>
    intro g k hk
    have hcount : (t.toServe k).countP (fun e => e.requester == g) =
        (s.toServe k).countP (fun e => e.requester == g) + if k = i ∧ h = g then 1 else 0 := by
      rw [hserve]
      by_cases hki : k = i
      · rw [hki, update_self, List.countP_append]
        simp [List.countP_singleton]
      · rw [update_of_ne hki, if_neg fun hand => hki hand.1]
        rfl
    rw [hcount, ← Nat.add_assoc, hinv.once g k hk]
    by_cases hg : g = h
    · subst hg
      rw [hself, hpc]
      refine Eq.trans ?_ (handed_push hmask hne k).symm
      simp [Pc.owed, Pc.stage]
    · rw [hother g hg, if_neg fun hand => hg hand.2.symm]
      rfl
  case asked =>
    intro k hk e he
    have hmem : e ∈ s.toServe k ∨ e = ⟨req, h⟩ := by
      rw [hserve] at he
      by_cases hki : k = i
      · rw [hki, update_self] at he
        rw [hki]
        simpa using he
      · rw [update_of_ne hki] at he
        exact .inl he
    rcases hmem with hmem | rfl
    · have hasks := hinv.asked k hk e hmem
      by_cases hg : e.requester = h
      · rw [hg, hpc] at hasks
        rw [hg, hself]
        exact hasks
      · rwa [hother _ hg]
    · rw [hself]
      rfl
  case returned =>
    intro g hret
    by_cases hg : g = h
    · rw [hg, hself] at hret
      cases hret
    · rw [hother g hg] at hret
      rw [hout, update_of_ne hg]
      exact hinv.returned g hret
  case fifo =>
    intro k
    dsimp only
    rw [hserve]
    by_cases hki : k = i
    · rw [hki, update_self, update_self, hinv.fifo i, List.append_assoc]
    · rw [update_of_ne hki, update_of_ne hki, hinv.fifo k]
  case untouched => exact hinv.untouched

theorem ServiceInv.pop {ring : Ring (Entry x) rfenceQueueLen} (hinv : ServiceInv cfg s w)
    (hpc : s.pc h = .serve site) (hpop : (s.queue h).pop = some (e, ring))
    (ht : t = (s.setQueue h ring).goto h (.fencing e site)) :
    ServiceInv cfg t w := by
  have hstage : ∀ g, (t.pc g).stage cfg.harts = (s.pc g).stage cfg.harts := by
    intro g
    rw [ht]
    by_cases hg : g = h
    · rw [hg, hpc]
      simp only [Sys.goto, update_self, Pc.stage]
    · simp only [Sys.goto, Sys.setQueue, update_of_ne hg]
  have hreturned : ∀ g, (t.pc g).returned = true → (s.pc g).returned = true := by
    intro g hret
    rw [ht] at hret
    by_cases hg : g = h
    · rw [hg] at hret
      simp [Sys.goto, Pc.returned] at hret
    · simpa only [Sys.goto, Sys.setQueue, update_of_ne hg] using hret
  have hserve : t.toServe = s.toServe := by
    funext k
    unfold Sys.toServe
    rw [ht]
    by_cases hk : k = h
    · subst hk
      rw [Ring.contents_pop hpop, hpc]
      simp [Sys.goto, Sys.setQueue, Pc.inHand]
    · simp only [Sys.goto, Sys.setQueue, update_of_ne hk]
  constructor
  case counts =>
    have hout : t.out = s.out := ht ▸ rfl
    rw [hserve, hout]
    exact hinv.counts
  case once =>
    intro g i hi
    rw [hserve, Pc.owed, hstage]
    exact hinv.once g i hi
  case asked =>
    intro i hi e he
    rw [hserve] at he
    rw [Pc.asks, hstage]
    exact hinv.asked i hi e he
  case returned =>
    intro g hret
    have hout : t.out = s.out := ht ▸ rfl
    rw [hout]
    exact hinv.returned g (hreturned g hret)
  case fifo =>
    rw [hserve]
    exact hinv.fifo
  case untouched => exact hinv.untouched

theorem toServe_fenced (hpc : s.pc h = .fencing e site) (g n : Nat) :
    ((s.setOut g n).goto h (.serve site)).toServe =
      update s.toServe h (s.queue h).contents := by
  funext k
  unfold Sys.toServe
  by_cases hk : k = h
  · subst hk
    simp [Sys.goto, Sys.setOut, Pc.inHand]
  · simp only [Sys.goto, Sys.setOut, update_of_ne hk]

theorem ServiceInv.fenced (hinv : ServiceInv cfg s w) (hh : h < cfg.harts)
    (hpc : s.pc h = .fencing e site)
    (ht : t = (s.setOut e.requester (s.out e.requester - 1)).goto h (.serve site)) :
    ServiceInv cfg t { w.executed e.requester h with
      served := update w.served h (w.served h ++ [e])
      touched := w.touched || ((s.pc e.requester).stage cfg.harts).isNone } := by
  have hline : s.toServe h = e :: (s.queue h).contents := by
    rw [Sys.toServe, hpc]
    rfl
  have hserve : t.toServe = update s.toServe h (s.queue h).contents :=
    ht ▸ toServe_fenced hpc _ _
  have hout : t.out = update s.out e.requester (s.out e.requester - 1) := ht ▸ rfl
  have hstage : ∀ g, (t.pc g).stage cfg.harts = (s.pc g).stage cfg.harts := by
    intro g
    rw [ht]
    by_cases hg : g = h
    · rw [hg, hpc]
      simp only [Sys.goto, update_self, Pc.stage]
    · simp only [Sys.goto, Sys.setOut, update_of_ne hg]
  constructor
  case counts =>
    rw [hserve, hout]
    exact Balanced.done hinv.counts hh hline
  case once =>
    intro g i hi
    have hcount : (s.toServe i).countP (fun e => e.requester == g) =
        (t.toServe i).countP (fun e => e.requester == g) +
          if e.requester = g ∧ h = i then 1 else 0 := by
      rw [hserve]
      by_cases hih : i = h
      · rw [hih, update_self, hline, List.countP_cons]
        simp
      · rw [update_of_ne hih, if_neg fun hand => hih hand.2.symm]
        rfl
    have honce := hinv.once g i hi
    rw [hcount] at honce
    have hdone : (w.executed e.requester h).done g i = _ := Log.executed_done ..
    dsimp only
    rw [hdone, Pc.owed, hstage, ← Pc.owed]
    omega
  case asked =>
    intro i hi e' he
    have hmem : e' ∈ s.toServe i := by
      rw [hserve] at he
      by_cases hih : i = h
      · rw [hih, update_self] at he
        rw [hih, hline]
        exact List.mem_cons_of_mem _ he
      · rwa [update_of_ne hih] at he
    rw [Pc.asks, hstage]
    exact hinv.asked i hi e' hmem
  case returned =>
    intro g hret
    have hbefore : s.out g = 0 := by
      apply hinv.returned
      rw [ht] at hret
      by_cases hg : g = h
      · rw [hg] at hret
        simp [Sys.goto, Pc.returned] at hret
      · simpa only [Sys.goto, Sys.setOut, update_of_ne hg] using hret
    rw [hout]
    by_cases hg : g = e.requester
    · rw [hg, update_self, ← hg, hbefore]
    · rw [update_of_ne hg, hbefore]
  case fifo =>
    intro k
    have hfifo := hinv.fifo k
    dsimp only [Log.executed]
    rw [hserve]
    by_cases hk : k = h
    · subst hk
      rw [update_self, update_self, hfifo, hline, List.append_assoc]
      rfl
    · rw [update_of_ne hk, update_of_ne hk, hfifo]
  case untouched =>
    have hasks := hinv.asked h hh e (hline ▸ List.mem_cons_self)
    unfold Pc.asks at hasks
    dsimp only
    rw [hinv.untouched]
    cases hst : (s.pc e.requester).stage cfg.harts with
    | none =>
      rw [hst] at hasks
      cases hasks
    | some st => rfl

theorem Moves.serviceInv (hinv : ServiceInv cfg s w) (hmove : Moves cfg s h (s.pc h) q) :
    ServiceInv cfg (s.goto h q) (w.noteAt cfg s h (s.pc h)) := by
  generalize hpc : s.pc h = p at hmove
  cases hmove with
  | skip hi hnot =>
    have hnote : w.noteAt cfg s h (s.pc h) = w := by
      rw [hpc]
      exact if_neg fun hand => hnot hand.2.1
    rw [← hpc, hnote]
    exact hinv.steady (hpc ▸ .skip hnot) rfl rfl rfl
  | full hi hfull =>
    have hnote : w.noteAt cfg s h (s.pc h) = w := by
      rw [hpc]
      refine if_neg ?_
      rintro ⟨-, -, hsome⟩
      rw [hfull] at hsome
      cases hsome
    rw [← hpc, hnote]
    exact hinv.steady (hpc ▸ .of_stage rfl rfl rfl rfl) rfl rfl rfl
  | queued hi =>
    have hnote : w.noteAt cfg s h (s.pc h) = w := by
      rw [hpc]
      exact if_neg fun hand => hi hand.1
    rw [← hpc, hnote]
    exact hinv.steady (hpc ▸ .queued hi) rfl rfl rfl
  | self => exact hinv.self hpc
  | await => exact hinv.steady (hpc ▸ .of_stage rfl rfl rfl rfl) rfl rfl rfl
  | done hout => exact hinv.steady (hpc ▸ .done hout) rfl rfl rfl
  | ret => exact hinv.ret hpc
  | served => exact hinv.steady (hpc ▸ Serve.steady _) rfl rfl rfl

theorem Effect.serviceInv (hinv : ServiceInv cfg s w) (hh : h < cfg.harts)
    (heff : Effect cfg s h t) : ServiceInv cfg t (w.noteAt cfg s h (s.pc h)) := by
  cases heff with
  | idle hpc =>
    rw [hpc]
    exact hinv
  | life hsm hlife =>
    rw [hlife.noteAt]
    exact hinv.steady hlife.steady rfl rfl rfl
  | move hmove => exact hmove.serviceInv hinv
  | request req mask hpc =>
    rw [hpc]
    exact hinv.request hpc req mask
  | push hpc hi hmask hne hpush =>
    rw [hpc, Log.noteAt, if_pos ⟨hi, ⟨hmask, hne⟩, by rw [hpush]; rfl⟩]
    exact hinv.push hpc hi hmask hne hpush rfl
  | sendOr hpc =>
    rw [hpc]
    exact hinv.steady (hpc ▸ .of_stage rfl rfl rfl rfl) rfl rfl rfl
  | raise hraise =>
    rw [hraise.noteAt]
    exact hinv.steady hraise.steady rfl rfl rfl
  | lower hlower =>
    rw [hlower.noteAt]
    exact hinv.steady hlower.steady rfl rfl rfl
  | zero hzero =>
    rw [hzero.noteAt]
    exact hinv.steady hzero.steady rfl rfl rfl
  | pop hpc hpop =>
    rw [hpc]
    exact hinv.pop hpc hpop rfl
  | fenced hpc =>
    rw [hpc]
    exact hinv.fenced hh hpc rfl

end Steps

theorem init_pc (up : Nat → Bool) (h : Nat) :
    (init up : Sys x).pc h = .smode ∨ (init up : Sys x).pc h = .arrive := by
  by_cases hup : up h = true
  · exact .inl (if_pos hup)
  · exact .inr (if_neg hup)

theorem init_serviceInv (cfg : Config) (up : Nat → Bool) :
    ServiceInv cfg (init up) (Log.start : Log x) := by
  have hserve : ∀ i, (init up : Sys x).toServe i = [] := by
    intro i
    unfold Sys.toServe
    rcases init_pc up i with hpc | hpc <;> rw [hpc] <;> rfl
  have hempty : ∀ g, outstanding Entry.requester cfg.harts (init up : Sys x).toServe g = 0 := by
    intro g
    refine Finset.sum_eq_zero fun i _ => ?_
    rw [hserve]
    rfl
  constructor
  case counts =>
    intro g
    exact (hempty g).symm
  case once =>
    intro g i _
    rw [hserve]
    rcases init_pc up g with hpc | hpc <;> rw [hpc] <;> rfl
  case asked =>
    intro i _ e he
    rw [hserve] at he
    cases he
  case returned => exact fun _ _ => rfl
  case fifo =>
    intro i
    rw [hserve]
    rfl
  case untouched => rfl

def watched (cfg : Config) (s : Sys x) (es : List (Nat × Act x)) : Log x :=
  Runs.watch (step cfg) (Log.note cfg) .start s es

theorem run_serviceInv {cfg : Config} {up : Nat → Bool} {es : List (Nat × Act x)} {t : Sys x}
    (hrun : run cfg (init up) es = some t) : ServiceInv cfg t (watched cfg (init up) es) := by
  have halong : Runs.Along (step cfg) (fun _ _ => True) (init up) es := Runs.along_true ..
  refine halong.watch_invariant ?_ (init_serviceInv cfg up) hrun
  intro s w e u hinv _ hstep
  obtain ⟨hh, heff⟩ := step_effect hstep
  exact heff.serviceInv hinv hh

/-- Whenever a request has succeeded, every hart of its mask, and no other, has executed the
    fence once for it.  In every state the count of a hart is the number of its entries that are
    queued or being served.  A hart executes what is put into its queue in that order, and the
    queue has at most eight entries. -/
theorem fences_executed_once (cfg : Config) (up : Nat → Bool) (es : List (Nat × Act x)) (t : Sys x)
    (hrun : run cfg (init up) es = some t) :
    let w := watched cfg (init up) es
    (∀ g req mask, t.pc g = .ret req mask →
      ∀ i < cfg.harts, w.done g i = if i ∈ mask then 1 else 0) ∧
    (∀ g, t.out g = outstanding Entry.requester cfg.harts t.toServe g) ∧
    (∀ i < cfg.harts, ∀ e ∈ t.toServe i, (t.pc e.requester).asks cfg.harts = some e.req) ∧
    w.touched = false ∧
    ∀ i, w.pushed i = w.served i ++ t.toServe i ∧ (t.queue i).contents.length ≤ 8 := by
  intro w
  have hinv : ServiceInv cfg t w := run_serviceInv hrun
  refine ⟨?_, hinv.counts, hinv.asked, hinv.untouched, ?_⟩
  · intro g req mask hpc i hi
    have hout : outstanding Entry.requester cfg.harts t.toServe g = 0 := by
      rw [← hinv.counts g]
      exact hinv.returned g (by rw [hpc]; rfl)
    have honce := hinv.once g i hi
    rw [ServiceInv.count_eq_zero (fun i hi e he => not_mem_of_outstanding_eq_zero hout hi he) hi,
      hpc] at honce
    refine honce.trans ?_
    by_cases hmask : i ∈ mask <;> simp [Pc.owed, Pc.stage, Stage.handed, hmask, hi]
  · intro i
    refine ⟨hinv.fifo i, ?_⟩
    rw [Ring.length_contents]
    exact (t.queue i).count_le

def pair : Config := ⟨2, fun h => h < 2, false⟩

def fenceI : FenceReq .rv64 := ⟨.fenceI, 0, 0, 0⟩

/-- Hart 0 asks for a fence on both, and hart 1 executes it. -/
def bothFence : List (Nat × Act .rv64) :=
  (0, .request fenceI [0, 1]) :: List.replicate 6 (0, .go) ++ List.replicate 5 (1, .go) ++ [(0, .go)]

theorem fences_executed_once_pair :
    ∃ t, run pair (init fun _ => true) bothFence = some t ∧ t.pc 0 = .ret fenceI [0, 1] ∧
      ∀ i < 2, (watched pair (init fun _ => true) bothFence).done 0 i = 1 := by
  have hend : ∃ t ∈ run pair (init fun _ => true) bothFence, t.pc 0 = .ret fenceI [0, 1] := by
    decide +kernel
  obtain ⟨t, hrun, hret⟩ := hend
  refine ⟨t, hrun, hret, ?_⟩
  intro i hi
  rw [(fences_executed_once pair _ _ t hrun).1 0 _ _ hret i hi, if_pos]
  interval_cases i <;> decide

end RiscvMonitor.RemoteFences
