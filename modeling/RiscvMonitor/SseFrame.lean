import RiscvMonitor.Sse

/-!
# What a call leaves alone

A call of a domain does nothing to a hart that is not the domain's, and nothing to the
events of another domain, with one exception: a global event names a hart in an
attribute that S-mode writes, and nobody checks whose hart it is.
-/

namespace RiscvMonitor.Sse

open Function (update update_of_ne update_self)
open HartStart (Args)
open Delivery (FenceReq)

variable {x : Xlen}

/-- Nothing happened to a hart outside of `own`, or to the events, the masks and the
    contexts of a domain other than `d`. -/
structure Undisturbed (own : Nat → Prop) (d : Nat) (s t : Sys x) : Prop where
  sent : ∀ h, ¬ own h → t.sent h = s.sent h
  kick : ∀ h, ¬ own h → t.kick h = s.kick h
  hsm : ∀ h, ¬ own h → t.hsm h = s.hsm h
  args : ∀ h, ¬ own h → t.args h = s.args h
  ctxIpi : ∀ d', d' ≠ d → t.ctxIpi d' = s.ctxIpi d'
  globals : ∀ d', d' ≠ d → t.globals d' = s.globals d'
  locals : ∀ d', d' ≠ d → t.locals d' = s.locals d'
  unmasked : ∀ d', d' ≠ d → t.unmasked d' = s.unmasked d'

structure Frame (own : Nat → Prop) (d : Nat) (s t : Sys x) : Prop extends
    Undisturbed own d s t where
  domain : t.domain = s.domain
  assigned : t.assigned = s.assigned
  parked : t.parked = s.parked
  ran : t.ran = s.ran
  stopping : t.stopping = s.stopping
  globalsReady : t.globalsReady = s.globalsReady
  sameGlobal : ∀ d' i, (t.globals d' i).id = (s.globals d' i).id
  sameLocal : ∀ d' h i, (t.locals d' h i).id = (s.locals d' h i).id ∧
    (t.locals d' h i).hart = (s.locals d' h i).hart

structure Signalled (own : Nat → Prop) (d : Nat) (s t : Sys x) : Prop extends Frame own d s t where
  events : (t.globals, t.locals, t.unmasked, t.kick) = (s.globals, s.locals, s.unmasked, s.kick)

variable {i : Nat}

section Frames

variable {own : Nat → Prop} {d : Nat} {cfg : Config x} {s t u : Sys x}

theorem Undisturbed.refl (s : Sys x) : Undisturbed own d s s := by
  constructor <;> exact fun _ _ => rfl

theorem Frame.refl (s : Sys x) : Frame own d s s :=
  { Undisturbed.refl s with
    domain := rfl
    assigned := rfl
    parked := rfl
    ran := rfl
    stopping := rfl
    globalsReady := rfl
    sameGlobal := fun _ _ => rfl
    sameLocal := fun _ _ _ => ⟨rfl, rfl⟩ }

theorem Frame.trans (hst : Frame own d s t) (htu : Frame own d t u) : Frame own d s u where
  domain := htu.domain.trans hst.domain
  assigned := htu.assigned.trans hst.assigned
  parked := htu.parked.trans hst.parked
  ran := htu.ran.trans hst.ran
  stopping := htu.stopping.trans hst.stopping
  globalsReady := htu.globalsReady.trans hst.globalsReady
  sent h hh := (htu.sent h hh).trans (hst.sent h hh)
  kick h hh := (htu.kick h hh).trans (hst.kick h hh)
  hsm h hh := (htu.hsm h hh).trans (hst.hsm h hh)
  args h hh := (htu.args h hh).trans (hst.args h hh)
  ctxIpi d' hd := (htu.ctxIpi d' hd).trans (hst.ctxIpi d' hd)
  globals d' hd := (htu.globals d' hd).trans (hst.globals d' hd)
  locals d' hd := (htu.locals d' hd).trans (hst.locals d' hd)
  unmasked d' hd := (htu.unmasked d' hd).trans (hst.unmasked d' hd)
  sameGlobal d' i := (htu.sameGlobal d' i).trans (hst.sameGlobal d' i)
  sameLocal d' h i := ⟨(htu.sameLocal d' h i).1.trans (hst.sameLocal d' h i).1,
    (htu.sameLocal d' h i).2.trans (hst.sameLocal d' h i).2⟩

theorem Signalled.refl (s : Sys x) : Signalled own d s s := { Frame.refl s with events := rfl }

theorem Signalled.trans (hst : Signalled own d s t) (htu : Signalled own d t u) :
    Signalled own d s u :=
  { hst.toFrame.trans htu.toFrame with events := htu.events.trans hst.events }

theorem update_outside {α : Type*} {f : Nat → α} {h : Nat} {v : α} (hi : own i) (hh : ¬ own h) :
    update f i v h = f h := by
  apply update_of_ne
  rintro rfl
  exact hh hi

/-! ### The operations -/

theorem send_signalled {signal : Signal x} (hi : own i) : Signalled own d s (s.send i signal) :=
  { Signalled.refl s with sent := fun _ hh => update_outside hi hh }

theorem setHsm_signalled {hsm : HsmState} (hi : own i) : Signalled own d s (s.setHsm i hsm) :=
  { Signalled.refl s with hsm := fun _ hh => update_outside hi hh }

theorem setArgs_signalled {args : Args x} (hi : own i) : Signalled own d s (s.setArgs i args) :=
  { Signalled.refl s with args := fun _ hh => update_outside hi hh }

theorem ipiSend_signalled {event : IpiEvent} (hi : own i) :
    Signalled own d s (ipiSend cfg s i event) := by
  unfold ipiSend
  split
  · exact send_signalled hi
  · exact .refl s

theorem ipiKick_signalled (hi : own i) : Signalled own d s (ipiKick cfg s i) := by
  unfold ipiKick
  split
  · exact send_signalled hi
  · exact .refl s

theorem setKick_frame (hi : own i) : Frame own d s (s.setKick i) :=
  { Frame.refl s with
    sent := fun _ hh => update_outside hi hh
    kick := fun _ hh => update_outside hi hh }

theorem setEvent_frame {slot : Slot} {e : Event x} (hid : e.id = (s.event d slot).id)
    (hhart : ∀ h i, slot = .onHart h i → e.hart = (s.locals d h i).hart) :
    Frame own d s (s.setEvent d slot e) := by
  cases slot with
  | global i =>
    refine { Frame.refl s with
      globals := fun d' hd => update_of_ne hd _ _
      sameGlobal := ?_ }
    intro d' j
    by_cases hd : d' = d
    · subst hd
      by_cases hj : j = i
      · subst hj
        simpa [Sys.setEvent, Sys.event] using hid
      · simp [Sys.setEvent, hj]
    · simp [Sys.setEvent, hd]
  | onHart h i =>
    refine { Frame.refl s with
      locals := fun d' hd => update_of_ne hd _ _
      sameLocal := ?_ }
    intro d' h' j
    by_cases hat : d' = d ∧ h' = h ∧ j = i
    · obtain ⟨rfl, rfl, rfl⟩ := hat
      simp only [Sys.setEvent, update_self]
      exact ⟨hid, hhart h' j rfl⟩
    · have hsame : (s.setEvent d (.onHart h i) e).locals d' h' j = s.locals d' h' j := by
        by_cases hd : d' = d
        · subst hd
          by_cases hh : h' = h
          · subst hh
            have hj : j ≠ i := fun heq => hat ⟨rfl, rfl, heq⟩
            simp [Sys.setEvent, hj]
          · simp [Sys.setEvent, hh]
        · simp [Sys.setEvent, hd]
      rw [hsame]
      exact ⟨rfl, rfl⟩

theorem forEachHart_signalled {mask : Nat → Bool} {f : Sys x → Nat → Sys x}
    (hf : ∀ t i, Signalled own d s t → mask i = true → Signalled own d t (f t i)) :
    Signalled own d s (forEachHart cfg mask f s) := by
  refine List.foldlRecOn _ _ (.refl s) fun t ht i _ => ?_
  split
  · next hmask => exact ht.trans (hf t i ht hmask)
  · exact ht

end Frames

/-! ### The masks -/

theorem foldlM_ok {α β : Type*} {P : β → Prop} {f : β → α → Except SbiError β}
    (hf : ∀ b a b', P b → f b a = .ok b' → P b') {l : List α} {b b' : β} (hb : P b)
    (hfold : l.foldlM f b = .ok b') : P b' := by
  induction l generalizing b with
  | nil =>
    cases hfold
    exact hb
  | cons a l ih =>
    rw [List.foldlM_cons] at hfold
    cases hstep : f b a with
    | error e =>
      rw [hstep] at hfold
      cases hfold
    | ok c =>
      rw [hstep] at hfold
      exact ih (hf b a c hb hstep) hfold

variable {hmask hbase : Word x}

theorem sbiHartmask_interruptible {cfg : Config x} {s : Sys x} {self : Nat} {out : Nat → Bool}
    (hok : sbiHartmask cfg s self hmask hbase = .ok out) (i : Nat) (hi : out i = true) :
    interruptible cfg s (s.domain self) i = true := by
  unfold sbiHartmask at hok
  dsimp only at hok
  split at hok
  · cases hok
    exact hi
  · refine foldlM_ok (P := fun out => ∀ i, out i = true →
      interruptible cfg s (s.domain self) i = true) ?_ (fun _ hno => absurd hno Bool.false_ne_true)
      hok i hi
    intro out n out' hold hstep j hj
    split at hstep
    · cases hstep
      exact hold j hj
    · split at hstep
      · cases hstep
      · next i _ =>
        split at hstep
        · cases hstep
        · split at hstep
          · next hrunning =>
            cases hstep
            by_cases hji : j = i
            · rw [hji]
              exact hrunning
            · rw [update_of_ne hji] at hj
              exact hold j hj
          · cases hstep
            exact hold j hj

theorem legacyHartmask_interruptible {cfg : Config x} {s : Sys x} {self : Nat}
    {mask : LegacyMask x} {out : Nat → Bool} (hok : legacyHartmask cfg s self mask = some out)
    (i : Nat) (hi : out i = true) : interruptible cfg s (s.domain self) i = true := by
  cases mask with
  | all =>
    cases hok
    exact hi
  | word hmask =>
    cases hok
    simp only [Bool.and_eq_true] at hi
    exact hi.1.1
  | fault => cases hok

variable {d : Nat}

theorem interruptible_member {cfg : Config x} {s : Sys x} (hi : interruptible cfg s d i = true) :
    s.member d i = true := by
  simp only [interruptible, Bool.and_eq_true] at hi
  rw [Sys.member, hi.1.2]
  rfl

/-! ### The calls of the HSM, IPI and RFENCE extensions -/

variable {ok : Bool}

section Calls

variable {own : Nat → Prop} {cfg : Config x} {s : Sys x} {self : Nat}

theorem hsmHartBoot_signalled {args : Args x} (hi : own i) :
    Signalled own d s (hsmHartBoot cfg s i args ok).1 := by
  unfold hsmHartBoot
  split
  · exact .refl s
  split
  · exact .refl s
  split
  · exact .refl s
  split
  · exact .refl s
  · exact .refl s
  · split
    · exact setArgs_signalled hi
    · exact ((setArgs_signalled hi).trans (setHsm_signalled hi)).trans (ipiKick_signalled hi)
  · exact .refl s

theorem domainIpiParked_signalled (hd : s.domain self = d) (hi : own i) :
    Signalled own d s (domainIpiParked cfg s self i) := by
  unfold domainIpiParked
  dsimp only
  rw [hd]
  split
  · exact ipiSend_signalled hi
  · split
    · exact { Signalled.refl s with ctxIpi := fun d' hne => update_of_ne hne _ _ }
    · exact .refl s

theorem hsmHartStop_signalled (hself : own self) :
    Signalled own d s (hsmHartStop s self).1 := by
  unfold hsmHartStop
  split
  · exact setHsm_signalled hself
  · exact .refl s

theorem hartSuspend_signalled {type addr arg : Word x} (hself : own self) :
    Signalled own d s (hartSuspend cfg s self type addr arg ok).1 := by
  unfold hartSuspend
  split
  · exact .refl s
  · split_ifs
    · exact .refl s
    · exact .refl s
    · exact .refl s
    · exact setHsm_signalled hself
    · exact (setArgs_signalled hself).trans (setHsm_signalled hself)

variable (hown : ∀ h, s.member (s.domain self) h = true → own h)
include hown

theorem hsmHartStart_signalled {hartid entry arg : Word x} :
    Signalled own (s.domain self) s (hsmHartStart cfg s self hartid entry arg ok).1 := by
  unfold hsmHartStart
  split
  · exact .refl s
  · next i _ =>
    split
    · exact .refl s
    · next hnamed =>
      have hmember : s.member (s.domain self) i = true := by
        by_contra hno
        exact hnamed (Or.inr (Bool.not_eq_true _ ▸ hno))
      split_ifs
      · exact .refl s
      · exact .refl s
      · exact hsmHartBoot_signalled (hown i hmember)

theorem ipiSend_targets_signalled {targets : Nat → Bool} {event : IpiEvent}
    (htargets : ∀ i, targets i = true → interruptible cfg s (s.domain self) i = true) :
    Signalled own (s.domain self) s (forEachHart cfg targets (fun s i => ipiSend cfg s i event) s) := by
  apply forEachHart_signalled
  intro t i _ hi
  exact ipiSend_signalled (hown i (interruptible_member (htargets i hi)))

theorem rfenceRequest_signalled {targets : Nat → Bool} {req : FenceReq x}
    (htargets : ∀ i, targets i = true → interruptible cfg s (s.domain self) i = true) :
    Signalled own (s.domain self) s (rfenceRequest cfg s self targets req).1 := by
  unfold rfenceRequest
  split
  · exact .refl s
  · apply forEachHart_signalled
    intro t i _ hi
    rw [Bool.and_eq_true] at hi
    have hi := hown i (interruptible_member (htargets i hi.1))
    exact (send_signalled hi).trans (ipiSend_signalled hi)

theorem sendIpi_signalled :
    Signalled own (s.domain self) s (sendIpi cfg s self hmask hbase).1 := by
  unfold sendIpi
  split
  · exact .refl s
  · split
    · exact .refl s
    · next targets htargets =>
      have hsent : Signalled own (s.domain self) s
          (forEachHart cfg targets (fun s i => ipiSend cfg s i .smode) s) :=
        ipiSend_targets_signalled hown (sbiHartmask_interruptible htargets)
      refine hsent.trans ?_
      unfold ipiParkedHarts
      apply forEachHart_signalled
      intro u i hu hi
      rw [Bool.and_eq_true, hsent.domain, hsent.parked] at hi
      have hmember : s.member (s.domain self) i = true := by rw [Sys.member, hi.1, Bool.or_true]
      have hd : u.domain self = s.domain self := by rw [hu.domain, hsent.domain]
      exact domainIpiParked_signalled hd (hown i hmember)

theorem remoteFence_signalled {req : FenceReq x} :
    Signalled own (s.domain self) s (remoteFence cfg s self req hmask hbase).1 := by
  unfold remoteFence
  split_ifs
  · exact .refl s
  · exact .refl s
  · split
    · exact .refl s
    · next targets htargets =>
      exact rfenceRequest_signalled hown (sbiHartmask_interruptible htargets)

end Calls

end RiscvMonitor.Sse
