import RiscvMonitor.DeliveryMasks

/-!
# What keeps an interrupt alive

An IPI on its way is somewhere: an event that is pending with the interrupt raised, an
event in hand in `ipi_process()`, or a mark in the context of a hart that is away.  Each
is kept by every step but the hart's own switch, and the steps that set SSIP.
-/

namespace RiscvMonitor.Delivery

open Lifecycle (CtxState update_update_apply)
open Sys

variable {x : Xlen}

def Pc.leaving : Pc x → Bool
  | .restore _ => true
  | _ => false

def Serve.smode : Serve x → Bool
  | .ipi smode _ => smode
  | .await _ => false

/-- `ipi_process()` has read the events, and S-mode's is among them. -/
def Pc.serving : Pc x → Bool
  | .serve site | .fencing _ site => site.smode
  | _ => false

/-- `ipi_process()` has cleared the interrupt and not read the events yet. -/
def Pc.swapping : Pc x → Bool
  | .ipiSwap _ => true
  | _ => false

/-- The pending interrupt of the domain the switch goes to is in the CSR. -/
def Pc.restored : Pc x → Option Nat
  | .unpark target | .assign target | .arrive target => some target
  | _ => none

/-- Hart `h` runs domain `d` and has not begun to leave it. -/
def Stays (s : Sys x) (d h : Nat) : Prop := s.assigned d h = true ∧ (s.pc h).leaving = false

def Sent (s : Sys x) (h : Nat) : Prop := (s.hart h).smode = true ∨ (s.pc h).serving = true

def Raised (s : Sys x) (h : Nat) : Prop :=
  ((s.hart h).smode = true ∧ (s.line h = true ∨ (s.pc h).swapping = true)) ∨
    (s.pc h).serving = true

def Marked (s : Sys x) (d h : Nat) : Prop :=
  (s.ctx d h).ipi = true ∧ (s.ctx d h).state.kept ∧ (s.pc h).restored ≠ some d

/-- SSIP is to be set on hart `h` in domain `d`: at once, or when the hart is back. -/
def Due (s : Sys x) (d h : Nat) : Prop := (Stays s d h ∧ Raised s h) ∨ Marked s d h

/-- The domain in which the next step of hart `h` sets SSIP for an IPI. -/
def Sys.delivers (s : Sys x) (h : Nat) : Option Nat :=
  match s.pc h with
  | .ipiSwap _ =>
    if (s.hart h).rfence = false ∧ (s.hart h).smode = true then some (s.domain h) else none
  | .serve site =>
    if site.smode = true ∧ (s.hart h).queue = [] then some (s.domain h) else none
  | .restore target =>
    if (s.ctx target h).state ≠ .none ∧ (s.ctx target h).ipi = true then some target else none
  | _ => none

section Steps

variable {cfg : Config} {s t : Sys x} {h i d : Nat} {a : Act x}

/-! ### Fields that only grow -/

theorem Effect.smode_mono (he : Effect cfg s h a t) (hs : (s.hart i).smode = true)
    (hne : i ≠ h ∨ (s.pc h).swapping = false) : (t.hart i).smode = true := by
  have hself : ∀ {u : Sys x} {hart : Hart x}, u.hart = s.hart → hart.smode = (s.hart h).smode →
      ((u.setHart h hart).hart i).smode = true := by
    intro u hart hu heq
    rw [setHart_hart, hu]
    split
    · next hi => rw [heq, ← hi, hs]
    · exact hs
  cases he with
  | move | parkedKeep | park | unpark | assign =>
    exact (goto_field _ _ Hart.smode (fun _ _ => rfl) _ _).trans hs
  | run | suspend | platform | woken | resumed | ipiClear | pop | served | restore | arrive =>
    exact hself rfl rfl
  | post | raise | parkedPost | parkedRaise | fenceOr | fenceRaise | fencing =>
    refine (tell_field _ _ Hart.smode (fun _ _ => rfl) _ _ _ _).trans ?_
    split
    · next hj => first | rfl | exact hj ▸ hs
    · exact hs
  | @enqueue _ _ _ j =>
    rw [setHart_hart, setHart_hart]
    split_ifs with hi hj
    · exact hi ▸ hs
    · exact hj ▸ hs
    · exact hs
  | ipiFences hpc | ipiSmode hpc =>
    rw [hpc] at hne
    rcases hne with hi | hswap
    · rw [setHart_hart_of_ne _ _ hi]
      exact hs
    · cases hswap

theorem Effect.line_mono (he : Effect cfg s h a t) (hl : s.line i = true) :
    t.line i = true ∨ (i = h ∧ (t.pc h).swapping = true) := by
  have hself : ∀ {u : Sys x} {hart : Hart x}, u.hart = s.hart → hart.line = (s.hart h).line →
      (u.setHart h hart).line i = true := by
    intro u hart hu heq
    rw [Sys.line, setHart_hart, hu]
    split
    · next hi => rw [heq, ← hi]; exact hl
    · exact hl
  cases he with
  | move | parkedKeep | park | unpark | assign =>
    exact .inl ((goto_field _ _ Hart.line (fun _ _ => rfl) _ _).trans hl)
  | run | suspend | platform | woken | resumed | ipiFences | ipiSmode | pop | served | restore
  | arrive => exact .inl (hself rfl rfl)
  | post | raise | parkedPost | parkedRaise | fenceOr | fenceRaise | fencing =>
    refine .inl ((tell_field _ _ Hart.line (fun _ _ => rfl) _ _ _ _).trans ?_)
    split
    · next hj => first | rfl | exact hj ▸ hl
    · exact hl
  | @enqueue _ _ _ j =>
    refine .inl ?_
    rw [Sys.line, setHart_hart, setHart_hart]
    split_ifs with hi hj
    · exact hi ▸ hl
    · exact hj ▸ hl
    · exact hl
  | ipiClear =>
    by_cases hi : i = h
    · exact .inr ⟨hi, congrArg Pc.swapping (congrArg Hart.pc (setHart_hart_self _ _ _))⟩
    · refine .inl ?_
      rw [Sys.line, setHart_hart_of_ne _ _ hi]
      exact hl

theorem Effect.ipi_mono (he : Effect cfg s h a t) (hipi : (s.ctx d i).ipi = true)
    (hne : i ≠ h ∨ s.pc h ≠ .restore d) : (t.ctx d i).ipi = true := by
  cases he with
  | parkedKeep =>
    simp only [goto, setHart_ctx, setCtx_ctx, update_update_apply]
    split
    · rfl
    · exact hipi
  | park =>
    simp only [contextPark, goto, setHart_ctx, setParked_ctx, setCtx_ctx, update_update_apply]
    split
    · next heq =>
      rw [← heq.1, ← heq.2]
      exact hipi
    · exact hipi
  | restore hpc =>
    simp only [contextRestore, setHart_ctx, setAssigned_ctx, setCtx_ctx, update_update_apply]
    split
    · next heq =>
      rw [hpc] at hne
      rcases hne with hi | hd
      · exact absurd heq.2 hi
      · exact absurd (congrArg _ heq.1.symm) hd
    · exact hipi
  | arrive =>
    simp only [contextArrive, setHart_ctx, setCtx_ctx, update_update_apply]
    split
    · next heq =>
      rw [← heq.1, ← heq.2]
      exact hipi
    · exact hipi
  | _ => exact hipi

theorem Effect.ran_mono (he : Effect cfg s h a t) (hm : HartMasks s h)
    (hran : (s.ctx d i).state ≠ .none) : (t.ctx d i).state ≠ .none := by
  by_cases hi : i = h
  · subst hi
    cases he with
    | parkedKeep =>
      simp only [goto, setHart_ctx, setCtx_ctx, update_update_apply]
      split
      · next heq =>
        rw [← heq.1, ← heq.2]
        exact hran
      · exact hran
    | park hpc =>
      simp only [contextPark, goto, setHart_ctx, setParked_ctx, setCtx_ctx, update_update_apply]
      split
      · exact (hm.lockTarget _ _ hpc).2.ne_none
      · exact hran
    | restore hpc =>
      simp only [contextRestore, setHart_ctx, setAssigned_ctx, setCtx_ctx, update_update_apply]
      split
      · next heq =>
        rw [← heq.1]
        exact hran
      · exact hran
    | arrive =>
      simp only [contextArrive, setHart_ctx, setCtx_ctx, update_update_apply]
      split
      · rintro ⟨⟩
      · exact hran
    | _ => exact hran
  · rw [(he.other hi).state]
    exact hran

/-! ### Where the hart is -/

theorem Effect.stays (he : Effect cfg s h a t) (hs : Stays s d i)
    (hne : i ≠ h ∨ ∀ target state, s.pc h ≠ .switchLock target state) : Stays t d i := by
  by_cases hi : i = h
  · subst hi
    have hnot := hne.resolve_left (· rfl)
    refine ⟨?_, ?_⟩
    · cases he with
      | restore hpc =>
        have hleaving := hs.2
        rw [hpc] at hleaving
        cases hleaving
      | assign =>
        simp only [goto, setHart_assigned, setAssigned_assigned, update_update_apply]
        split
        · rfl
        · exact hs.1
      | _ => exact hs.1
    · cases he.path with
      | plain _ hnew =>
        cases hpc : t.pc i with
        | restore => rw [hpc] at hnew; cases hnew
        | _ => rfl
      | park hold => exact absurd hold (hnot _ _)
      | lock _ hnew | parkedPost _ hnew | parkedRaise _ hnew | restore _ hnew | unpark _ hnew
      | assign _ hnew | arrive _ hnew => rw [hnew]; rfl
  · have hsame := he.other hi
    refine ⟨?_, ?_⟩
    · rw [hsame.assigned]
      exact hs.1
    · rw [hsame.pc]
      exact hs.2

theorem Effect.parked_mono (he : Effect cfg s h a t) (hp : s.parked d i = true)
    (hne : i ≠ h ∨ s.pc h ≠ .unpark d) : t.parked d i = true := by
  cases he with
  | park =>
    simp only [contextPark, goto, setHart_parked, setParked_parked, update_update_apply]
    split
    · rfl
    · exact hp
  | unpark hpc =>
    simp only [goto, setHart_parked, setParked_parked, update_update_apply]
    split
    · next heq =>
      rw [hpc] at hne
      rcases hne with hi | hd
      · exact absurd heq.2 hi
      · exact absurd (congrArg _ heq.1.symm) hd
    · exact hp
  | _ => exact hp

theorem HartMasks.stays_iff (hm : HartMasks s h) (hs : (s.pc h).switching = none) :
    Stays s d h ↔ s.domain h = d := by
  have hto : (s.pc h).assignedTo (s.domain h) = some (s.domain h) ∧ (s.pc h).leaving = false := by
    cases hpc : s.pc h with
    | restore | unpark | assign | arrive => rw [hpc] at hs; cases hs
    | _ => exact ⟨rfl, rfl⟩
  unfold Stays
  rw [hm.assigned, hto.1, hto.2, and_iff_left rfl]
  exact ⟨Option.some.inj, congrArg some⟩

/-! ### Events -/

theorem Moves.no_event {pc : Pc x} (hm : Moves cfg s h a pc) :
    (s.pc h).serving = false ∧ (s.pc h).swapping = false ∧ (s.pc h).switching = none := by
  cases hm with
  | trap hpc | call hpc | switch hpc | readAssigned hpc | readState hpc | check hpc
  | checkParked hpc | postNone hpc | posted hpc | parkedAny hpc | parkedScan hpc | parkedGone hpc
  | enqueued hpc | enqueueSelf hpc | enqueueFull hpc | fenceNone hpc | fenceSelf hpc | await hpc
  | ret hpc | ipiNone hpc | served hpc | asleepTrap hpc | wake hpc =>
    rw [hpc]
    exact ⟨rfl, rfl, rfl⟩

section

variable (he : Effect cfg s h a t)
include he

theorem Effect.serving (hs : (s.pc h).serving = true) :
    (t.pc h).serving = true ∨ s.delivers h = some (s.domain h) := by
  cases he with
  | move hmove =>
    rw [hmove.no_event.1] at hs
    cases hs
  | pop hpc =>
    rw [hpc] at hs
    refine .inl ((congrArg Pc.serving (congrArg Hart.pc (setHart_hart_self _ _ _))).trans ?_)
    exact hs
  | served hpc hempty =>
    rw [hpc] at hs
    exact .inr (by rw [Sys.delivers, hpc]; exact if_pos ⟨hs, hempty⟩)
  | fencing hpc =>
    rw [hpc] at hs
    rw [Delivery.fencing, goto_pc_self]
    exact .inl hs
  | run hpc | suspend hpc | platform hpc | woken hpc | resumed hpc | post hpc | raise hpc
  | parkedPost hpc | parkedKeep hpc | parkedRaise hpc | enqueue hpc | fenceOr hpc | fenceRaise hpc
  | ipiClear hpc | ipiFences hpc | ipiSmode hpc | park hpc | restore hpc | unpark hpc | assign hpc
  | arrive hpc =>
    rw [hpc] at hs
    cases hs

theorem Effect.swapped (hs : (s.pc h).swapping = true) (hsmode : (s.hart h).smode = true) :
    (t.pc h).serving = true ∨ s.delivers h = some (s.domain h) := by
  cases he with
  | move hmove =>
    rw [hmove.no_event.2.1] at hs
    cases hs
  | ipiFences hpc =>
    exact .inl ((congrArg Pc.serving (congrArg Hart.pc (setHart_hart_self _ _ _))).trans hsmode)
  | ipiSmode hpc hfences => exact .inr (by rw [Sys.delivers, hpc]; exact if_pos ⟨hfences, hsmode⟩)
  | run hpc | suspend hpc | platform hpc | woken hpc | resumed hpc | post hpc | raise hpc
  | parkedPost hpc | parkedKeep hpc | parkedRaise hpc | enqueue hpc | fenceOr hpc | fenceRaise hpc
  | ipiClear hpc | pop hpc | served hpc | fencing hpc | park hpc | restore hpc | unpark hpc
  | assign hpc | arrive hpc =>
    rw [hpc] at hs
    cases hs

theorem Effect.sent (hs : Sent s i) : Sent t i ∨ (i = h ∧ s.delivers h = some (s.domain h)) := by
  by_cases hi : i = h
  · subst hi
    rcases hs with hsmode | hserving
    · cases hswap : (s.pc i).swapping with
      | false => exact .inl (.inl (he.smode_mono hsmode (.inr hswap)))
      | true => exact (he.swapped hswap hsmode).imp .inr fun hd => ⟨rfl, hd⟩
    · exact (he.serving hserving).imp .inr fun hd => ⟨rfl, hd⟩
  · refine .inl ?_
    unfold Sent
    rw [he.pc_other hi]
    exact hs.imp_left fun hsmode => he.smode_mono hsmode (.inl hi)

theorem Effect.raised (hr : Raised s i) :
    Raised t i ∨ (i = h ∧ s.delivers h = some (s.domain h)) := by
  by_cases hi : i = h
  · subst hi
    rcases hr with ⟨hsmode, hline⟩ | hserving
    · cases hswap : (s.pc i).swapping with
      | true => exact (he.swapped hswap hsmode).imp .inr fun hd => ⟨rfl, hd⟩
      | false =>
        rw [hswap] at hline
        refine .inl (.inl ⟨he.smode_mono hsmode (.inr hswap), ?_⟩)
        exact (he.line_mono (hline.resolve_right nofun)).imp_right And.right
    · exact (he.serving hserving).imp .inr fun hd => ⟨rfl, hd⟩
  · refine .inl ?_
    unfold Raised
    rw [he.pc_other hi]
    exact hr.imp_left fun hr => ⟨he.smode_mono hr.1 (.inl hi),
      hr.2.imp_left fun hl => (he.line_mono hl).resolve_right fun hself => hi hself.1⟩

theorem Effect.kept (hm : Masks s) (hk : (s.ctx d i).state.kept) :
    (t.ctx d i).state.kept ∨ (i = h ∧ s.pc h = .arrive d) := by
  by_cases hi : i = h
  · subst hi
    cases he with
    | parkedKeep =>
      refine .inl ?_
      simp only [goto, setHart_ctx, setCtx_ctx, update_update_apply]
      split
      · next heq =>
        rw [← heq.1, ← heq.2]
        exact hk
      · exact hk
    | park hpc =>
      refine .inl ?_
      simp only [contextPark, goto, setHart_ctx, setParked_ctx, setCtx_ctx, update_update_apply]
      split
      · exact ((hm.hart i).lockTarget _ _ hpc).2
      · exact hk
    | restore hpc =>
      refine .inl ?_
      simp only [contextRestore, setHart_ctx, setAssigned_ctx, setCtx_ctx, update_update_apply]
      split
      · next heq =>
        rw [← heq.1]
        exact hk
      · exact hk
    | arrive hpc =>
      simp only [contextArrive, setHart_ctx, setCtx_ctx, update_update_apply]
      split
      · next heq => exact .inr ⟨trivial, hpc.trans (congrArg _ heq.1.symm)⟩
      · exact .inl hk
    | _ => exact .inl hk
  · rw [(he.other hi).state]
    exact .inl hk

theorem Effect.restored_ne (hnot : (s.pc i).restored ≠ some d) :
    (t.pc i).restored ≠ some d ∨ (i = h ∧ s.pc h = .restore d) := by
  by_cases hi : i = h
  · subst hi
    cases he.path with
    | plain _ hnew =>
      refine .inl ?_
      cases hpc : t.pc i with
      | unpark | assign | arrive => rw [hpc] at hnew; cases hnew
      | _ => nofun
    | @restore target hold hnew =>
      rw [hnew]
      by_cases hd : target = d
      · exact .inr ⟨rfl, hd ▸ hold⟩
      · exact .inl fun heq => hd (Option.some.inj heq)
    | unpark hold hnew | assign hold hnew =>
      rw [hold] at hnot
      rw [hnew]
      exact .inl hnot
    | lock _ hnew | parkedPost _ hnew | parkedRaise _ hnew | park _ hnew | arrive _ hnew =>
      rw [hnew]
      exact .inl nofun
  · rw [he.pc_other hi]
    exact .inl hnot

theorem Effect.marked (hm : Masks s) (hk : Marked s d i) :
    Marked t d i ∨ (i = h ∧ s.delivers h = some d) := by
  obtain ⟨hipi, hkept, hnot⟩ := hk
  by_cases hrestore : i = h ∧ s.pc h = .restore d
  · obtain ⟨rfl, hpc⟩ := hrestore
    exact .inr ⟨rfl, by rw [Sys.delivers, hpc]; exact if_pos ⟨hkept.ne_none, hipi⟩⟩
  · refine .inl ⟨he.ipi_mono hipi ?_, (he.kept hm hkept).resolve_right ?_,
      (he.restored_ne hnot).resolve_right hrestore⟩
    · by_cases hi : i = h
      · exact .inr fun hpc => hrestore ⟨hi, hpc⟩
      · exact .inl hi
    · rintro ⟨rfl, hpc⟩
      rw [hpc] at hnot
      exact hnot rfl

end

end Steps

end RiscvMonitor.Delivery
