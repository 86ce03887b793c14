import RiscvMonitor.EventNames

/-!
# What the SSE calls of a hart are answered from

Two states agree for a hart if they differ in nothing that its calls look at; of
another hart's events a call can see all but whether they are pending.  Calls keep the
agreement, and are answered the same.
-/

namespace RiscvMonitor.Sse

variable {x : Xlen}

def Event.unpended (e : Event x) : Event x := { e with pending := false }

structure Agree (cfg : Config x) (hart d : Nat) (s t : Sys x) : Prop where
  here : s.domain hart = d
  there : t.domain hart = d
  hsm : s.hsm = t.hsm
  assigned : s.assigned d = t.assigned d
  parked : s.parked d = t.parked d
  ready : s.globalsReady d = t.globalsReady d
  seen : ∀ slot ∈ cfg.slots hart, s.event d slot = t.event d slot
  other : ∀ h, ∀ slot ∈ cfg.slots h, (s.event d slot).unpended = (t.event d slot).unpended
  unmasked : s.unmasked d = t.unmasked d
  kick : s.kick hart = t.kick hart

namespace Agree

variable {cfg : Config x} {self d : Nat} {s t : Sys x}

/-! ### What is read -/

section

variable (h : Agree cfg self d s t)
include h

theorem listens (i : Nat) : Sse.listens cfg s d i = Sse.listens cfg t d i := by
  simp [Sse.listens, interruptible, h.hsm, h.assigned, h.unmasked]

theorem member (i : Nat) : s.member d i = t.member d i := by
  simp [Sys.member, h.assigned, h.parked]

theorem globalTarget (e : Event x) :
    Sse.globalTarget cfg s self d e = Sse.globalTarget cfg t self d e := by
  have hlistens : Sse.listens cfg s d = Sse.listens cfg t d := funext h.listens
  simp only [Sse.globalTarget, hlistens, h.here, h.there]

theorem aimedAt {e e' : Event x} (he : e.unpended = e'.unpended) :
    Sse.aimedAt cfg s self d e = Sse.aimedAt cfg t self d e' := by
  have hs : Sse.aimedAt cfg s self d e = Sse.aimedAt cfg s self d e.unpended := rfl
  have ht : Sse.aimedAt cfg t self d e' = Sse.aimedAt cfg t self d e'.unpended := rfl
  rw [hs, ht, he, Sse.aimedAt, Sse.aimedAt, h.globalTarget]

theorem topEvent (state : EventState) :
    Sse.topEvent cfg s self state = Sse.topEvent cfg t self state := by
  rw [topEvent_eq_best, topEvent_eq_best]
  apply Scan.best_congr
  · intro slot hslot
    simp only [candidate, h.here, h.there, h.seen slot hslot]
  · intro a ha b hb
    simp only [h.here, h.there, h.seen a ha, h.seen b hb]

theorem injectSlot (eventId hartid : Word x) :
    Sse.injectSlot cfg s self eventId hartid = Sse.injectSlot cfg t self eventId hartid := by
  have hmember : (s.member d : Nat → Bool) = t.member d := funext h.member
  unfold Sse.injectSlot
  simp only [h.here, h.there, hmember]
  split
  · rfl
  split
  · rfl
  split
  · rfl
  · next i _ _ slot hfind =>
    have hunpended := congrArg Event.id (h.other i slot (eventFind_mem_slots hfind))
    have hid : (s.event d slot).id = (t.event d slot).id := hunpended
    rw [hid]

theorem attrsCheck (eventId base count addr : Word x) :
    Sse.attrsCheck cfg s self eventId base count addr =
      Sse.attrsCheck cfg t self eventId base count addr := by
  simp only [Sse.attrsCheck, h.here, h.there]

end

/-! ### What is written -/

section

variable (h : Agree cfg self d s t)
include h

theorem setEvent (slot : Slot) (e : Event x) :
    Agree cfg self d (s.setEvent d slot e) (t.setEvent d slot e) := by
  have hseen : ∀ slot' ∈ cfg.slots self,
      (s.setEvent d slot e).event d slot' = (t.setEvent d slot e).event d slot' := by
    intro slot' hslot'
    rw [event_setEvent_eq, event_setEvent_eq, h.seen slot' hslot']
  have hother : ∀ i, ∀ slot' ∈ cfg.slots i, ((s.setEvent d slot e).event d slot').unpended =
      ((t.setEvent d slot e).event d slot').unpended := by
    intro i slot' hslot'
    rw [event_setEvent_eq, event_setEvent_eq]
    split
    · rfl
    · exact h.other i slot' hslot'
  cases slot <;> exact { h with seen := hseen, other := hother }

theorem setKick (i : Nat) : Agree cfg self d (s.setKick i) (t.setKick i) := by
  refine { h with kick := ?_ }
  by_cases hi : self = i
  · simp [hi]
  · simp [hi, h.kick]

theorem ipiSend (i : Nat) (event : IpiEvent) :
    Agree cfg self d (Sse.ipiSend cfg s i event) (Sse.ipiSend cfg t i event) := by
  unfold Sse.ipiSend
  split
  · exact { h with }
  · exact h

theorem makePending {i : Nat} {slot : Slot} (hslot : slot ∈ cfg.slots i) :
    Agree cfg self d (Sse.makePending cfg s self d slot) (Sse.makePending cfg t self d slot) := by
  have he := h.other i slot hslot
  have haimed := h.aimedAt he
  -- once it is pending, nothing is left in which the event could differ
  have hevent : ({ s.event d slot with
        pending := true, hart := Sse.aimedAt cfg s self d (s.event d slot) } : Event x) =
      { t.event d slot with
        pending := true, hart := Sse.aimedAt cfg t self d (t.event d slot) } := by
    rw [haimed]
    exact congrArg (fun e : Event x =>
      { e with pending := true, hart := Sse.aimedAt cfg t self d (t.event d slot) }) he
  unfold Sse.makePending
  dsimp only
  rw [hevent, haimed]
  split
  · exact ((h.setEvent slot _).setKick _).ipiSend _ _
  · exact (h.setEvent slot _).setKick _

theorem setUnmasked (on : Bool) :
    Agree cfg self d
      { s with
        unmasked := Function.update s.unmasked d (Function.update (s.unmasked d) self on) }
      { t with
        unmasked := Function.update t.unmasked d (Function.update (t.unmasked d) self on) } := by
  refine { h with unmasked := ?_ }
  simp [h.unmasked]

end

section

variable (h : Agree cfg self d s t)
include h

theorem sseInject (eventId hartid : Word x) :
    (Sse.sseInject cfg s self eventId hartid).2 = (Sse.sseInject cfg t self eventId hartid).2 ∧
      Agree cfg self d (Sse.sseInject cfg s self eventId hartid).1
        (Sse.sseInject cfg t self eventId hartid).1 := by
  unfold Sse.sseInject
  rw [h.injectSlot]
  split
  · exact ⟨rfl, h⟩
  · next slot hslot =>
    obtain ⟨i, hmem⟩ : ∃ i, slot ∈ cfg.slots i := by
      unfold Sse.injectSlot at hslot
      split at hslot
      · cases hslot
      dsimp only at hslot
      split at hslot
      · cases hslot
      · next i _ =>
        split at hslot
        · cases hslot
        · next hfind =>
          split_ifs at hslot
          cases hslot
          exact ⟨i, eventFind_mem_slots hfind⟩
    rw [h.here, h.there]
    exact ⟨rfl, h.makePending hmem⟩

theorem transition (eventId : Word x) (source target : EventState) :
    (Sse.transition cfg s self eventId source target).2 =
        (Sse.transition cfg t self eventId source target).2 ∧
      Agree cfg self d (Sse.transition cfg s self eventId source target).1
        (Sse.transition cfg t self eventId source target).1 := by
  unfold Sse.transition
  simp only [h.here, h.there]
  split
  · exact ⟨rfl, h⟩
  · next slot hfind =>
    have hmem := eventFind_mem_slots hfind
    rw [h.seen slot hmem]
    split
    · exact ⟨rfl, h⟩
    split
    · exact ⟨rfl, (h.setEvent slot _).makePending hmem⟩
    split
    · exact ⟨rfl, (h.setEvent slot _).setEvent slot _⟩
    · exact ⟨rfl, h.setEvent slot _⟩

theorem sseRegister (eventId entryPc entryArg : Word x) :
    (Sse.sseRegister cfg s self eventId entryPc entryArg).2 =
        (Sse.sseRegister cfg t self eventId entryPc entryArg).2 ∧
      Agree cfg self d (Sse.sseRegister cfg s self eventId entryPc entryArg).1
        (Sse.sseRegister cfg t self eventId entryPc entryArg).1 := by
  unfold Sse.sseRegister
  simp only [h.here, h.there]
  split
  · exact ⟨rfl, h⟩
  · next slot hfind =>
    rw [h.seen slot (eventFind_mem_slots hfind)]
    split
    · exact ⟨rfl, h⟩
    split
    · exact ⟨rfl, h⟩
    · exact ⟨rfl, h.setEvent slot _⟩

theorem sseHartUnmask :
    (Sse.sseHartUnmask s self).2 = (Sse.sseHartUnmask t self).2 ∧
      Agree cfg self d (Sse.sseHartUnmask s self).1 (Sse.sseHartUnmask t self).1 := by
  have hmasked : s.unmasked d self = t.unmasked d self := congrFun h.unmasked self
  simp only [Sse.sseHartUnmask, h.here, h.there, hmasked]
  split
  · exact ⟨rfl, h⟩
  · exact ⟨rfl, (h.setUnmasked true).setKick self⟩

theorem sseHartMask :
    (Sse.sseHartMask s self).2 = (Sse.sseHartMask t self).2 ∧
      Agree cfg self d (Sse.sseHartMask s self).1 (Sse.sseHartMask t self).1 := by
  have hmasked : s.unmasked d self = t.unmasked d self := congrFun h.unmasked self
  simp only [Sse.sseHartMask, h.here, h.there, hmasked]
  split
  · exact ⟨rfl, h⟩
  · exact ⟨rfl, h.setUnmasked false⟩

end

theorem sseReadAttrs (h : Agree cfg self d s t) (eventId base count addr : Word x) :
    Sse.sseReadAttrs cfg s self eventId base count addr =
      Sse.sseReadAttrs cfg t self eventId base count addr := by
  unfold Sse.sseReadAttrs
  rw [h.attrsCheck]
  split
  · rfl
  · next slot hok =>
    rw [h.here, h.there, h.seen slot (attrsCheck_mem hok)]

theorem sseWriteAttrs (h : Agree cfg self d s t) (eventId base count addr : Word x)
    (vals : List (Word x)) :
    (Sse.sseWriteAttrs cfg s self eventId base count addr vals).2 =
        (Sse.sseWriteAttrs cfg t self eventId base count addr vals).2 ∧
      Agree cfg self d (Sse.sseWriteAttrs cfg s self eventId base count addr vals).1
        (Sse.sseWriteAttrs cfg t self eventId base count addr vals).1 := by
  unfold Sse.sseWriteAttrs
  simp only [h.here, h.there, h.attrsCheck]
  split
  · exact ⟨rfl, h⟩
  · next slot hok =>
    rw [h.seen slot (attrsCheck_mem hok)]
    split
    · exact ⟨rfl, h⟩
    · exact ⟨rfl, h.setEvent slot _⟩

theorem sseComplete (h : Agree cfg self d s t) :
    (Sse.sseComplete cfg s self).2 = (Sse.sseComplete cfg t self).2 ∧
      Agree cfg self d (Sse.sseComplete cfg s self).1 (Sse.sseComplete cfg t self).1 := by
  unfold Sse.sseComplete
  simp only [h.here, h.there, h.topEvent]
  split
  · exact ⟨rfl, h⟩
  · next slot htop =>
    rw [h.seen slot (topEvent_mem htop).1]
    exact ⟨rfl, (h.setEvent slot _).setKick self⟩

/-! ### What else happens to the hart -/

theorem sseProcess (h : Agree cfg self d s t) (saved : Interrupted x) :
    Agree cfg self d (Sse.sseProcess cfg s self saved) (Sse.sseProcess cfg t self saved) := by
  unfold Sse.sseProcess
  simp only [h.here, h.there, h.kick, h.topEvent, congrFun h.unmasked self]
  split
  · exact h
  split
  · exact { h with kick := by simp }
  · next next htop =>
    have hnext := h.seen next (topEvent_mem htop).1
    have hfirst : (Sse.topEvent cfg t self .running).all
          (fun r => outranks (s.event d next) (s.event d r)) =
        (Sse.topEvent cfg t self .running).all
          (fun r => outranks (t.event d next) (t.event d r)) := by
      cases hrunning : Sse.topEvent cfg t self .running with
      | none => rfl
      | some r => simp [hnext, h.seen r (topEvent_mem hrunning).1]
    rw [hfirst]
    split
    · rw [hnext]
      exact h.setEvent next _
    · exact h

theorem sseRaiseLocal (h : Agree cfg self d s t) (id : Word x) :
    Agree cfg self d (Sse.sseRaiseLocal cfg s self id).1 (Sse.sseRaiseLocal cfg t self id).1 := by
  unfold Sse.sseRaiseLocal
  simp only [h.here, h.there]
  split
  · exact h
  · next slot hfind =>
    have hmem := eventFind_mem_slots hfind
    rw [h.seen slot hmem]
    split
    · exact h.makePending hmem
    · exact h

theorem sseRaiseGlobal (h : Agree cfg self d s t) (id : Nat) :
    Agree cfg self d (Sse.sseRaiseGlobal cfg s self id d) (Sse.sseRaiseGlobal cfg t self id d) := by
  unfold Sse.sseRaiseGlobal
  rw [h.ready]
  split
  · have hloop : ∀ (l : List Nat), (∀ i ∈ l, i < cfg.globalIds.length) →
        ∀ s t : Sys x, Agree cfg self d s t →
        Agree cfg self d
          (l.foldl (fun s i =>
            if cfg.globalIds.getD i 0 = id ∧ (s.globals d i).state ≠ .unused then
              Sse.makePending cfg s self d (.global i)
            else s) s)
          (l.foldl (fun s i =>
            if cfg.globalIds.getD i 0 = id ∧ (s.globals d i).state ≠ .unused then
              Sse.makePending cfg s self d (.global i)
            else s) t) := by
      intro l
      induction l with
      | nil => exact fun _ _ _ hst => hst
      | cons i l ih =>
        intro hl s t hst
        have hi := hl i List.mem_cons_self
        have hmem : Slot.global i ∈ cfg.slots self := mem_slots_iff.mpr (Or.inr ⟨i, hi, rfl⟩)
        have hsame : s.globals d i = t.globals d i := hst.seen _ hmem
        simp only [List.foldl_cons]
        apply ih (fun j hj => hl j (List.mem_cons_of_mem i hj))
        rw [hsame]
        split
        · exact hst.makePending hmem
        · exact hst
    exact hloop _ (fun i hi => List.mem_range.mp hi) s t h
  · exact h

end Agree

end RiscvMonitor.Sse
