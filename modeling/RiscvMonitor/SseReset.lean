import RiscvMonitor.SseAgree

/-!
# Events after the stop of a domain

What a hart's calls do to the events of other harts comes down to making some of them
pending.  All the rest starts over when the domain was stopped: the local events and the
mask with the hart's fresh context, the global events with the first one of the domain.
-/

namespace RiscvMonitor.Sse

open Function (update update_apply update_self)

variable {x : Xlen}

/-! ### What a hart's calls do elsewhere -/

/-- The other harts' masks, and their events but for what is pending, are the same. -/
structure Elsewhere (hart d : Nat) (s t : Sys x) : Prop where
  domain : t.domain = s.domain
  unmasked : ∀ h, h ≠ hart → t.unmasked d h = s.unmasked d h
  others : ∀ h, h ≠ hart → ∀ i, (t.locals d h i).unpended = (s.locals d h i).unpended

def LocalNames (hart d : Nat) (s : Sys x) : Prop :=
  ∀ h, h ≠ hart → ∀ i, isGlobal (s.locals d h i).id = false

section Elsewhere

variable {cfg : Config x} {self d : Nat} {s t u : Sys x}

theorem Elsewhere.refl (s : Sys x) : Elsewhere self d s s :=
  ⟨rfl, fun _ _ => rfl, fun _ _ _ => rfl⟩

theorem Elsewhere.trans (hst : Elsewhere self d s t) (htu : Elsewhere self d t u) :
    Elsewhere self d s u where
  domain := htu.domain.trans hst.domain
  unmasked h hh := (htu.unmasked h hh).trans (hst.unmasked h hh)
  others h hh i := (htu.others h hh i).trans (hst.others h hh i)

theorem Elsewhere.localNames (hst : Elsewhere self d s t) (hs : LocalNames self d s) :
    LocalNames self d t := by
  intro h hh i
  have hid := congrArg Event.id (hst.others h hh i)
  have hsame : (t.locals d h i).id = (s.locals d h i).id := hid
  rw [hsame, hs h hh i]

theorem setEvent_elsewhere {slot : Slot} {e : Event x}
    (hother : ∀ h i, slot = .onHart h i → h ≠ self → e.unpended = (s.locals d h i).unpended) :
    Elsewhere self d s (s.setEvent d slot e) := by
  refine ⟨(setEvent_stays s d slot e).domain, ?_, ?_⟩
  · cases slot <;> exact fun _ _ => rfl
  · intro h hh i
    have hevent : (s.setEvent d slot e).locals d h i =
        if d = d ∧ Slot.onHart h i = slot then e else s.locals d h i :=
      event_setEvent_eq s d slot e d (.onHart h i)
    rw [hevent]
    split
    · next hat => exact hother h i hat.2.symm hh
    · rfl

theorem setEvent_elsewhere_of_mem {slot : Slot} (e : Event x) (hslot : slot ∈ cfg.slots self) :
    Elsewhere self d s (s.setEvent d slot e) := by
  apply setEvent_elsewhere
  rintro h i rfl hh
  rcases mem_slots_iff.mp hslot with ⟨j, -, heq⟩ | ⟨j, -, heq⟩
  · cases heq
    exact absurd rfl hh
  · cases heq

theorem setKick_elsewhere (i : Nat) : Elsewhere self d s (s.setKick i) :=
  ⟨rfl, fun _ _ => rfl, fun _ _ _ => rfl⟩

theorem Signalled.elsewhere {own : Nat → Prop} {d' : Nat} (h : Signalled own d' s t) :
    Elsewhere self d s t := by
  have hevents := h.events
  simp only [Prod.mk.injEq] at hevents
  obtain ⟨-, hlocals, hmasks, -⟩ := hevents
  exact ⟨h.domain, fun _ _ => by rw [hmasks], fun _ _ _ => by rw [hlocals]⟩

theorem ipiSend_elsewhere {i : Nat} {event : IpiEvent} :
    Elsewhere self d s (ipiSend cfg s i event) := by
  have hsent : Signalled (fun _ => True) d s (ipiSend cfg s i event) := ipiSend_signalled trivial
  exact hsent.elsewhere

theorem makePending_elsewhere (hs : LocalNames self d s) (slot : Slot) :
    Elsewhere self d s (makePending cfg s self d slot) := by
  have hset : Elsewhere self d s (s.setEvent d slot { s.event d slot with
      pending := true, hart := aimedAt cfg s self d (s.event d slot) }) := by
    apply setEvent_elsewhere
    rintro h i rfl hh
    have haimed : aimedAt cfg s self d (s.event d (.onHart h i)) = (s.locals d h i).hart :=
      aimedAt_local (hs h hh i)
    rw [haimed]
    rfl
  have hkick := hset.trans (setKick_elsewhere (aimedAt cfg s self d (s.event d slot)))
  unfold makePending
  dsimp only
  split
  · exact hkick.trans ipiSend_elsewhere
  · exact hkick

theorem setUnmasked_elsewhere (on : Bool) :
    Elsewhere self d s { s with
      unmasked := update s.unmasked d (update (s.unmasked d) self on) } := by
  refine ⟨rfl, ?_, fun _ _ _ => rfl⟩
  intro h hh
  simp [hh]

section

variable (hd : s.domain self = d)
include hd

theorem sseProcess_elsewhere (saved : Interrupted x) :
    Elsewhere self d s (sseProcess cfg s self saved) := by
  unfold sseProcess
  simp only [hd]
  split
  · exact .refl s
  split
  · exact ⟨rfl, fun _ _ => rfl, fun _ _ _ => rfl⟩
  · next next htop =>
    split
    · exact setEvent_elsewhere_of_mem _ (topEvent_mem htop).1
    · exact .refl s

theorem sseRaiseLocal_elsewhere (hs : LocalNames self d s) (id : Word x) :
    Elsewhere self d s (sseRaiseLocal cfg s self id).1 := by
  rcases sseRaiseLocal_cases cfg s self id with hsame | ⟨slot, hraised⟩
  · rw [hsame]
    exact .refl s
  · rw [hraised, hd]
    exact makePending_elsewhere hs slot

theorem ecall_elsewhere (hs : LocalNames self d s) (c : Call x) :
    Elsewhere self d s (ecall cfg s self c) := by
  have hdoes := ecall_does cfg s self c
  generalize ecall cfg s self c = t at hdoes ⊢
  subst hd
  cases hdoes with
  | signals hsignalled => exact (hsignalled (fun _ => True) trivial fun _ _ => trivial).elsewhere
  | writes hslot => exact setEvent_elsewhere_of_mem _ hslot
  | completes htop =>
    exact (setEvent_elsewhere_of_mem _ (topEvent_mem htop).1).trans (setKick_elsewhere self)
  | @enables _ slot _ hfind =>
    have hset := setEvent_elsewhere_of_mem (s := s) (d := s.domain self)
      { s.event (s.domain self) slot with state := .enabled } (eventFind_mem_slots hfind)
    exact hset.trans (makePending_elsewhere (hset.localNames hs) slot)
  | injects => exact makePending_elsewhere hs _
  | unmasks => exact (setUnmasked_elsewhere true).trans (setKick_elsewhere self)
  | masks => exact setUnmasked_elsewhere false

end

theorem sseRaiseGlobal_elsewhere (hs : LocalNames self d s) (id : Nat) :
    Elsewhere self d s (sseRaiseGlobal cfg s self id d) :=
  sseRaiseGlobal_rule (.refl s) fun _ _ ht =>
    ht.trans (makePending_elsewhere (ht.localNames hs) _)

end Elsewhere

/-! ### Fresh contexts -/

/-- Once the domain has run again: which harts take interrupts, and which contexts of the domain
    were fresh before. -/
structure World where
  hsm : Nat → HsmState
  assigned : Nat → Nat → Bool
  parked : Nat → Nat → Bool
  before : List Nat

/-- `sse_hart_init()` on hart `h`, which is in domain `d`. -/
def comesUp (cfg : Config x) (d : Nat) (s : Sys x) (h : Nat) : Sys x :=
  { sseHartInit cfg { s with domain := update s.domain h d } h with domain := s.domain }

/-- The stop of the hart's domain, and all that follows until `sse_hart_switch_in()` has
    made its context fresh. -/
def sseRestart (cfg : Config x) (w : World) (s : Sys x) (self : Nat) : Sys x :=
  let d := s.domain self
  let s := { sseDomainReset s d with
    hsm := w.hsm
    assigned := w.assigned
    parked := w.parked }
  (comesUp cfg d (w.before.foldl (comesUp cfg d) s) self).setKick self

section Fresh

variable {cfg : Config x} {self d : Nat} {s t : Sys x}

theorem comesUp_locals (h : Nat) (h' i : Nat) :
    (comesUp cfg d s h).locals d h' i =
      if h' = h ∧ i < localIds.length then eventReset cfg (localIds.getD i 0) h
      else s.locals d h' i := by
  have hinit := @sseHartInit_locals x cfg { s with domain := update s.domain h d } h d h' i
  simpa [comesUp] using hinit

theorem comesUp_unmasked (h h' : Nat) :
    (comesUp cfg d s h).unmasked d h' = if h' = h then false else s.unmasked d h' := by
  have hmask : (comesUp cfg d s h).unmasked =
      update s.unmasked d (update (s.unmasked d) h false) := by
    unfold comesUp sseHartInit
    simp only [update_self]
    split <;> rfl
  rw [hmask, update_self, update_apply]

theorem comesUp_ready (h : Nat) : (comesUp cfg d s h).globalsReady d = true := by
  unfold comesUp sseHartInit
  simp only [update_self]
  split
  · next hready => exact hready
  · exact update_self ..

theorem comesUp_globals (h : Nat) {i : Nat} (hi : i < cfg.globalIds.length) :
    (comesUp cfg d s h).globals d i =
      if s.globalsReady d then s.globals d i else eventReset cfg (cfg.globalIds.getD i 0) h := by
  unfold comesUp sseHartInit
  simp only [update_self]
  split
  · rfl
  · simp [hi]

theorem comesUp_rest (cfg : Config x) (d : Nat) (s : Sys x) (h : Nat) :
    (comesUp cfg d s h).domain = s.domain ∧ (comesUp cfg d s h).hsm = s.hsm ∧
      (comesUp cfg d s h).assigned = s.assigned ∧ (comesUp cfg d s h).parked = s.parked ∧
      (comesUp cfg d s h).kick = s.kick := by
  unfold comesUp sseHartInit
  dsimp only
  split <;> exact ⟨rfl, rfl, rfl, rfl, rfl⟩

/-- Two states of the domain between its stop and the hart's fresh context, that differ
    in what the hart did before. -/
structure Behind (cfg : Config x) (hart d : Nat) (s t : Sys x) : Prop where
  here : s.domain hart = d
  there : t.domain hart = d
  hsm : s.hsm = t.hsm
  assigned : s.assigned d = t.assigned d
  parked : s.parked d = t.parked d
  ready : s.globalsReady d = t.globalsReady d
  globals : s.globalsReady d = true →
    ∀ i < cfg.globalIds.length, s.globals d i = t.globals d i
  unmasked : ∀ h, h ≠ hart → s.unmasked d h = t.unmasked d h
  others : ∀ h, h ≠ hart → ∀ i, (s.locals d h i).unpended = (t.locals d h i).unpended

section

variable (h : Behind cfg self d s t)
include h

theorem Behind.comesUp_globals (h' : Nat) {i : Nat} (hi : i < cfg.globalIds.length) :
    (comesUp cfg d s h').globals d i = (comesUp cfg d t h').globals d i := by
  rw [Sse.comesUp_globals h' hi, Sse.comesUp_globals h' hi, ← h.ready]
  split
  · next hready => exact h.globals hready i hi
  · rfl

theorem Behind.comesUp (h' : Nat) :
    Behind cfg self d (comesUp cfg d s h') (comesUp cfg d t h') := by
  obtain ⟨hdom, hhsm, hassigned, hparked, -⟩ := comesUp_rest cfg d s h'
  obtain ⟨hdom', hhsm', hassigned', hparked', -⟩ := comesUp_rest cfg d t h'
  constructor
  · rw [hdom, h.here]
  · rw [hdom', h.there]
  · rw [hhsm, hhsm', h.hsm]
  · rw [hassigned, hassigned', h.assigned]
  · rw [hparked, hparked', h.parked]
  · rw [comesUp_ready, comesUp_ready]
  · intro _ i hi
    exact h.comesUp_globals h' hi
  · intro i hi
    rw [comesUp_unmasked, comesUp_unmasked, h.unmasked i hi]
  · intro i hi j
    rw [comesUp_locals, comesUp_locals]
    split
    · rfl
    · exact h.others i hi j

theorem Behind.comesUp_all (hs : List Nat) :
    Behind cfg self d (hs.foldl (Sse.comesUp cfg d) s) (hs.foldl (Sse.comesUp cfg d) t) := by
  induction hs generalizing s t with
  | nil => exact h
  | cons i hs ih => exact ih (h.comesUp i)

/-- With its own context fresh, the hart finds no difference. -/
theorem Behind.agree :
    Agree cfg self d ((Sse.comesUp cfg d s self).setKick self)
      ((Sse.comesUp cfg d t self).setKick self) := by
  have hbehind := h.comesUp self
  have hseen : ∀ slot ∈ cfg.slots self,
      (Sse.comesUp cfg d s self).event d slot = (Sse.comesUp cfg d t self).event d slot := by
    intro slot hslot
    rcases mem_slots_iff.mp hslot with ⟨i, hi, rfl⟩ | ⟨i, hi, rfl⟩
    · rw [Sys.event, Sys.event, comesUp_locals, comesUp_locals, if_pos ⟨rfl, hi⟩,
        if_pos ⟨rfl, hi⟩]
    · exact h.comesUp_globals self hi
  have hother : ∀ i, ∀ slot ∈ cfg.slots i, ((Sse.comesUp cfg d s self).event d slot).unpended =
      ((Sse.comesUp cfg d t self).event d slot).unpended := by
    intro i slot hslot
    by_cases hi : i = self
    · subst hi
      rw [hseen slot hslot]
    · rcases mem_slots_iff.mp hslot with ⟨j, -, rfl⟩ | ⟨j, hj, rfl⟩
      · exact hbehind.others i hi j
      · exact congrArg Event.unpended (h.comesUp_globals self hj)
  refine { hbehind with seen := hseen, other := hother, unmasked := ?_, kick := ?_ }
  · funext i
    by_cases hi : i = self
    · simp [hi, comesUp_unmasked]
    · exact hbehind.unmasked i hi
  · simp

end

theorem sseRestart_agree {u : Sys x} (hd : u.domain self = d) (hs : Elsewhere self d u s)
    (ht : Elsewhere self d u t) (w : World) :
    Agree cfg self d (sseRestart cfg w s self) (sseRestart cfg w t self) := by
  have hsd : s.domain self = d := by rw [hs.domain, hd]
  have htd : t.domain self = d := by rw [ht.domain, hd]
  simp only [sseRestart, hsd, htd]
  apply Behind.agree
  apply Behind.comesUp_all
  constructor
  · exact hsd
  · exact htd
  · rfl
  · rfl
  · rfl
  · simp [sseDomainReset]
  · intro hready
    simp [sseDomainReset] at hready
  · intro h hh
    exact (hs.unmasked h hh).trans (ht.unmasked h hh).symm
  · intro h hh i
    exact (hs.others h hh i).trans (ht.others h hh i).symm

end Fresh

end RiscvMonitor.Sse
