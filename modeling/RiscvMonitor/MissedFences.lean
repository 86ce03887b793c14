import RiscvMonitor.IpiDelivery

/-!
# Fences a parked hart missed

A remote fence skips the harts of the domain that are away: they flush on the way
back, the guests' translations when the state of the hypervisor extension is put
back, and the others when the PMP is set for the domain.
-/

namespace RiscvMonitor.Delivery

open Lifecycle (CtxState)
open Sys

variable {x : Xlen}

/-! ### The observer -/

abbrev Missed (x : Xlen) := Nat → Nat → List (FenceReq x)

/-- The request the next step of hart `h` leaves hart `i` of domain `d` out of. -/
def Sys.skips (cfg : Config) (s : Sys x) (h d i : Nat) : Option (FenceReq x) :=
  match s.pc h with
  | .readAssigned rq n _ =>
    if n = i ∧ d = s.domain h ∧ i < cfg.harts ∧ rq.names i = true ∧ s.assigned d i = false ∧
        s.parked d i = true then
      rq.fence.filter fun req => !req.type.guest || cfg.hyp
    else none
  | _ => none

/-- An executed request covers itself, and all of FENCE.I is the same fence. -/
def FenceReq.covers (done req : FenceReq x) : Bool :=
  done == req || (done.type == .fenceI && req.type == .fenceI)

/-- The next step of hart `h` executes a fence that covers the request in domain `d`. -/
def Sys.flushes (cfg : Config) (s : Sys x) (h d : Nat) (req : FenceReq x) : Bool :=
  match s.pc h with
  | .restore target => target == d && cfg.hyp && req.type.guest
  | .arrive target => target == d && cfg.pmp && req.type != .fenceI && !req.type.guest
  | .fencing e _ => s.domain h == d && e.req.covers req
  | .fenceSelf rq => s.domain h == d && rq.fence.any (·.covers req)
  | _ => false

def Missed.note (cfg : Config) (w : Missed x) (s : Sys x) (e : Nat × Act x) : Missed x :=
  fun d i =>
    let left := w d i ++ (s.skips cfg e.1 d i).toList
    if i = e.1 then left.filter fun req => !s.flushes cfg e.1 d req else left

/-- A hart that is parked is only left out of fences that it makes up for: no FENCE.I,
    and no fence for guests once theirs is behind it. -/
def SkipsMadeUp (cfg : Config) (s : Sys x) (h : Nat) : Prop :=
  match s.pc h with
  | .readAssigned _ i _ =>
    ∀ req ∈ s.skips cfg h (s.domain h) i, req.type ≠ .fenceI ∧
      (req.type.guest = false → cfg.pmp = true) ∧
      (req.type.guest = true → s.pc i ≠ .unpark (s.domain h))
  | _ => True

instance (cfg : Config) (s : Sys x) (h : Nat) : Decidable (SkipsMadeUp cfg s h) := by
  unfold SkipsMadeUp
  induction s.pc h using Pc.casesOn <;> infer_instance

/-! ### What holds in every state -/

/-- The hart is still to execute a fence that covers the request, on its way back. -/
structure ToFlush (cfg : Config) (s : Sys x) (d h : Nat) (req : FenceReq x) : Prop where
  type : req.type ≠ .fenceI
  away : (s.ctx d h).state.kept
  pmp : req.type.guest = false → cfg.pmp = true
  guest : req.type.guest = true → cfg.hyp = true ∧ (s.pc h).restored ≠ some d

structure MissedInv (cfg : Config) (s : Sys x) (w : Missed x) : Prop where
  masks : Masks s
  missed : ∀ d h, ∀ req ∈ w d h, ToFlush cfg s d h req

section Steps

variable {cfg : Config} {s t : Sys x} {w : Missed x} {h i d : Nat} {a : Act x} {req : FenceReq x}

theorem ToFlush.effect (hf : ToFlush cfg s d i req) (hm : Masks s) (he : Effect cfg s h a t)
    (hnot : i = h → s.flushes cfg h d req = false) : ToFlush cfg t d i req := by
  refine ⟨hf.type, (he.kept hm hf.away).resolve_right ?_, hf.pmp, ?_⟩
  · -- a fence for guests is behind the hart by then, and any other comes now
    rintro ⟨rfl, hpc⟩
    cases hguest : req.type.guest with
    | true =>
      refine (hf.guest hguest).2 ?_
      rw [hpc]
      rfl
    | false =>
      have hflush := hnot rfl
      simp [Sys.flushes, hpc, hf.pmp hguest, hf.type, hguest] at hflush
  · intro hguest
    obtain ⟨hhyp, hrestored⟩ := hf.guest hguest
    refine ⟨hhyp, (he.restored_ne hrestored).resolve_right ?_⟩
    rintro ⟨rfl, hpc⟩
    have hflush := hnot rfl
    simp [Sys.flushes, hpc, hhyp, hguest] at hflush

theorem skips_spec (hs : s.skips cfg h d i = some req) :
    d = s.domain h ∧ s.parked d i = true ∧ s.assigned d i = false ∧
      (∃ rq running, s.pc h = .readAssigned rq i running) ∧
      (req.type.guest = true → cfg.hyp = true) := by
  unfold Sys.skips at hs
  split at hs
  · next rq n running hpc =>
    split at hs
    · next hwho =>
      obtain ⟨rfl, hd, -, -, hassigned, hparked⟩ := hwho
      obtain ⟨-, hsupported⟩ := Option.filter_eq_some_iff.mp hs
      refine ⟨hd, hparked, hassigned, ⟨rq, running, hpc⟩, fun hguest => ?_⟩
      simpa [hguest] using hsupported
    · cases hs
  · cases hs

theorem ToFlush.of_skips (hm : Masks s) (hk : SkipsMadeUp cfg s h)
    (hs : s.skips cfg h d i = some req) : ToFlush cfg s d i req := by
  obtain ⟨rfl, hparked, hassigned, ⟨rq, running, hpc⟩, hhyp⟩ := skips_spec hs
  simp only [SkipsMadeUp, hpc] at hk
  obtain ⟨htype, hpmp, hguest⟩ := hk req hs
  have hkept := ((hm.hart i).parked _).mp hparked
  refine ⟨htype, hkept.1, hpmp, fun hg => ⟨hhyp hg, ?_⟩⟩
  have hnot := hguest hg
  intro hrestored
  cases hpci : s.pc i with
  | unpark target =>
    rw [hpci] at hrestored
    exact hnot (hpci.trans (congrArg _ (Option.some.inj hrestored)))
  | assign target | arrive target =>
    rw [hpci] at hrestored
    exact hkept.2 (by rw [hpci]; exact hrestored)
  | _ => rw [hpci] at hrestored; cases hrestored

theorem MissedInv.step (hinv : MissedInv cfg s w) (hk : SkipsMadeUp cfg s h)
    (hstep : step cfg s h a = some t) : MissedInv cfg t (w.note cfg s (h, a)) := by
  have he := step_effect hstep
  refine ⟨hinv.masks.effect he, fun d i req hreq => ?_⟩
  have hleft : ∀ req ∈ w d i ++ (s.skips cfg h d i).toList, ToFlush cfg s d i req := by
    intro req hreq
    rcases List.mem_append.mp hreq with hold | hnew
    · exact hinv.missed d i req hold
    · exact .of_skips hinv.masks hk (Option.mem_toList.mp hnew)
  unfold Missed.note at hreq
  dsimp only at hreq
  split at hreq
  · next hi =>
    obtain ⟨hmem, hflush⟩ := List.mem_filter.mp hreq
    exact (hleft req hmem).effect hinv.masks he fun _ => by simpa using hflush
  · next hi => exact (hleft req hreq).effect hinv.masks he fun heq => absurd heq hi

end Steps

def missedIn (cfg : Config) (s : Sys x) (es : List (Nat × Act x)) : Missed x :=
  Runs.watch (fun s e => step cfg s e.1 e.2) (Missed.note cfg) (fun _ _ => []) s es

abbrev SkipsMadeUpAlong (cfg : Config) : Sys x → List (Nat × Act x) → Prop :=
  Runs.Along (fun s e => step cfg s e.1 e.2) fun s e => SkipsMadeUp cfg s e.1

/-- Hart 1 of domain 1 asks hart 0 for a fence while that is in domain 2. -/
def fenceFor0 (type : FenceType) : Request .rv64 := ⟨false, some [some 0], some ⟨type, 0, 0, 0⟩⟩

def fenceWhileAway (type : FenceType) : List (Nat × Act .rv64) :=
  away ++ (1, .call (fenceFor0 type)) :: goes 1 10

end RiscvMonitor.Delivery
