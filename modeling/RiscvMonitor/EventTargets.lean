import RiscvMonitor.SseCalls

/-!
# Whom an event is for

`make_pending()` sets the flag of the hart that an event is for, and sends it an IPI
if it is another one.  A local event is for its hart.  For a global event
`global_target()` looks for a hart of the domain that takes events; if there is none
it is the hart in `PREFERRED_HART`, any valid one of whatever domain.  A running
event stays with the hart that runs its handler.
-/

namespace RiscvMonitor.Sse

variable {x : Xlen}

/-- What `sse_hart_init()` makes of the tables of a domain and a hart that the hart has run in.
    -/
structure Inited (cfg : Config x) (s : Sys x) : Prop where
  assigned : ∀ h, s.assigned (s.domain h) h = true
  onHart : ∀ d h i, isGlobal (s.locals d h i).id = false ∧
    ((s.locals d h i).id = localSoftware → (s.locals d h i).hart = h)
  locals : ∀ d h, s.ran d h = true → ∀ i < localIds.length, (s.locals d h i).hart = h
  globals : ∀ d, (s.globalsReady d = true ∨ ∃ h, s.ran d h = true) →
    ∀ i < cfg.globalIds.length, (s.globals d i).id = cfg.globalIds.getD i 0

variable {i : Nat}

theorem isGlobal_globalIds (cfg : Config x) (hi : i < cfg.globalIds.length) :
    isGlobal (cfg.globalIds.getD i 0) = true := by
  have hmpxy : ∀ n < 64, isGlobal (0x0010c000 + n) = true := by decide
  have hmem : cfg.globalIds.getD i 0 ∈ cfg.globalIds := by
    rw [List.getD_eq_getElem?_getD, List.getElem?_eq_getElem hi, Option.getD_some]
    exact List.getElem_mem hi
  generalize cfg.globalIds.getD i 0 = id at hmem
  rw [Config.globalIds, List.mem_append] at hmem
  rcases hmem with hmem | hmem
  · simp only [List.mem_cons, List.not_mem_nil, or_false] at hmem
    rcases hmem with rfl | rfl | rfl <;> decide
  · obtain ⟨n, hn, rfl⟩ := List.mem_map.mp hmem
    have hlt : n < cfg.mpxyEvents.val := List.mem_range.mp hn
    have hle := cfg.mpxyEvents.isLt
    exact hmpxy n (by omega)

variable {eventId : Word x} {h : Nat} {slot : Slot} {e : Event x}

section Events

variable {own : Nat → Prop} {cfg : Config x} {s t : Sys x} {self d : Nat}

/-- Someone of the domain listens, or the hart that the event prefers is one of `own`. -/
def NamesOwn (own : Nat → Prop) (cfg : Config x) (s : Sys x) (d : Nat) (e : Event x) : Prop :=
  (∃ i, listens cfg s d i = true) ∨
    ∀ p, cfg.hartIndex (e.attr .preferredHart) = some p → own p

theorem listens_lt (hi : listens cfg s d i = true) : i < cfg.harts := by
  simp only [listens, interruptible, Config.indexValid, Bool.and_eq_true, decide_eq_true_eq] at hi
  exact hi.2.1.1.1

theorem listens_member (hi : listens cfg s d i = true) : s.member d i = true := by
  rw [listens, Bool.and_eq_true] at hi
  exact interruptible_member hi.2

theorem globalTarget_listens (hi : listens cfg s d i = true) :
    listens cfg s d (globalTarget cfg s self d e) = true := by
  unfold globalTarget
  dsimp only
  split
  · next p hp => exact (Option.filter_eq_some_iff.mp hp).2
  · split
    · next hself => exact hself
    · split
      · next h hh => exact List.find?_some hh
      · next hnone =>
        have hno := List.find?_eq_none.mp hnone i (List.mem_range.mpr (listens_lt hi))
        exact absurd hi hno

theorem globalTarget_none (hd : d = s.domain self) (hnone : ∀ i, listens cfg s d i = false) :
    globalTarget cfg s self d e = (cfg.hartIndex (e.attr .preferredHart)).getD self := by
  have hfilter : (cfg.hartIndex (e.attr .preferredHart)).filter (listens cfg s d) = none := by
    rw [Option.filter_eq_none_iff]
    intro p _
    rw [hnone p]
    exact Bool.false_ne_true
  have hfind : (List.range cfg.harts).find? (listens cfg s d) = none := by
    rw [List.find?_eq_none]
    intro p _
    rw [hnone p]
    exact Bool.false_ne_true
  unfold globalTarget
  dsimp only
  rw [hfilter, hfind]
  dsimp only
  rw [if_neg (by rw [hnone self]; exact Bool.false_ne_true), if_pos hd]

theorem own_globalTarget_iff (hd : d = s.domain self) (hown : ∀ h, s.member d h = true → own h)
    (hself : own self) :
    own (globalTarget cfg s self d e) ↔ NamesOwn own cfg s d e := by
  by_cases hsome : ∃ i, listens cfg s d i = true
  · obtain ⟨i, hi⟩ := hsome
    exact iff_of_true (hown _ (listens_member (globalTarget_listens hi))) (.inl ⟨i, hi⟩)
  · have hnone : ∀ i, listens cfg s d i = false := by
      intro i
      by_contra hi
      exact hsome ⟨i, Bool.not_eq_false _ ▸ hi⟩
    rw [globalTarget_none hd hnone, NamesOwn, or_iff_right hsome]
    cases cfg.hartIndex (e.attr .preferredHart) with
    | none => simpa using hself
    | some p => simp

theorem makePending_frame (haims : own (aimedAt cfg s self d (s.event d slot)))
    (hlocal : ∀ h i, slot = .onHart h i → isGlobal (s.locals d h i).id = false) :
    Frame own d s (makePending cfg s self d slot) := by
  have hset : Frame own d s (s.setEvent d slot { s.event d slot with
      pending := true, hart := aimedAt cfg s self d (s.event d slot) }) := by
    apply setEvent_frame
    · rfl
    · rintro h i rfl
      simp [aimedAt, Sys.event, hlocal h i rfl]
  unfold makePending
  dsimp only
  split
  · exact (hset.trans (setKick_frame haims)).trans (ipiSend_signalled haims).toFrame
  · exact hset.trans (setKick_frame haims)

theorem makePending_sent (cfg : Config x) (s : Sys x) (self d : Nat) (slot : Slot) :
    (makePending cfg s self d slot).sent (aimedAt cfg s self d (s.event d slot)) ≠
      s.sent (aimedAt cfg s self d (s.event d slot)) := by
  intro heq
  have hlength := congrArg List.length heq
  unfold makePending at hlength
  dsimp only at hlength
  split at hlength
  · unfold ipiSend at hlength
    split at hlength
    · simp [setEvent_sent] at hlength
      omega
    · simp [setEvent_sent] at hlength
  · simp [setEvent_sent] at hlength

/-! ### The calls of the SSE extension -/

theorem aimedAt_setEvent {e' : Event x} :
    aimedAt cfg (s.setEvent d slot e') self d e = aimedAt cfg s self d e := by
  cases slot <;> rfl

theorem setEvent_same_frame (hid : e.id = (s.event d slot).id)
    (hhart : e.hart = (s.event d slot).hart) : Frame own d s (s.setEvent d slot e) := by
  apply setEvent_frame hid
  rintro h i rfl
  exact hhart

theorem setUnmasked_frame {m : Nat → Bool} :
    Frame own d s { s with unmasked := Function.update s.unmasked d m } :=
  { Frame.refl s with unmasked := fun _ hd => Function.update_of_ne hd _ _ }

theorem sseProcess_frame (hself : own self) {saved : Interrupted x} :
    Frame own (s.domain self) s (sseProcess cfg s self saved) := by
  unfold sseProcess
  dsimp only
  split
  · exact .refl s
  · split
    · exact { Frame.refl s with kick := fun _ hh => update_outside hself hh }
    · split
      · exact setEvent_same_frame rfl rfl
      · exact .refl s

end Events

/-! ### Calls that stay within the domain -/

/-- What keeps a call from reaching harts that are not of `own`. -/
def Contained (own : Nat → Prop) (cfg : Config x) (s : Sys x) (self : Nat) : Call x → Prop
  | .sseInject eventId hartid => ∀ slot, injectSlot cfg s self eventId hartid = .ok slot →
      let e := s.event (s.domain self) slot
      isGlobal e.id = true →
        if e.state = .running then own e.hart else NamesOwn own cfg s (s.domain self) e
  | .sseEnable eventId => ∀ slot, eventFind cfg self eventId self = .ok slot →
      let e := s.event (s.domain self) slot
      e.state = .registered → e.pending = true → isGlobal e.id = true →
        NamesOwn own cfg s (s.domain self) e
  | _ => True

variable {d : Nat}

section Contained

variable {own : Nat → Prop} {cfg : Config x} {s t : Sys x} {self : Nat}

theorem Inited.member_self (hin : Inited cfg s) : s.member (s.domain self) self = true := by
  rw [Sys.member, hin.assigned self]
  rfl

theorem Inited.isGlobal_global (hin : Inited cfg s) (hran : s.ran d h = true)
    (hi : i < cfg.globalIds.length) : isGlobal (s.globals d i).id = true := by
  rw [hin.globals d (.inr ⟨h, hran⟩) i hi]
  exact isGlobal_globalIds cfg hi

theorem Inited.injectable_hart (hin : Inited cfg s)
    (hinjectable : eventInjectable (s.locals d h i).id = true) : (s.locals d h i).hart = h := by
  obtain ⟨hlocal, hhart⟩ := hin.onHart d h i
  rw [eventInjectable, Bool.or_eq_true, beq_iff_eq, beq_iff_eq] at hinjectable
  rcases hinjectable with hid | hid
  · exact hhart hid
  · rw [hid] at hlocal
    exact absurd hlocal (by decide)

theorem aimedAt_local (hlocal : isGlobal e.id = false) :
    aimedAt cfg s self d e = e.hart := by
  rw [aimedAt, if_neg]
  rintro ⟨hglobal, -⟩
  exact absurd (hlocal.symm.trans hglobal) Bool.false_ne_true

section Run

variable (hin : Inited cfg s) (hran : s.ran (s.domain self) self = true)
  (hown : ∀ h, s.member (s.domain self) h = true → own h)
include hin hown

theorem own_aimedAt_iff (hglobal : isGlobal e.id = true) :
    own (aimedAt cfg s self (s.domain self) e) ↔
      if e.state = .running then own e.hart else NamesOwn own cfg s (s.domain self) e := by
  by_cases hrunning : e.state = .running
  · rw [aimedAt, if_neg (fun hno => hno.2 hrunning), if_pos hrunning]
  · rw [aimedAt, if_pos ⟨hglobal, hrunning⟩, if_neg hrunning]
    exact own_globalTarget_iff rfl hown (hown self hin.member_self)

include hran

theorem inject_frame {hartid : Word x} (hslot : injectSlot cfg s self eventId hartid = .ok slot)
    (hcontained : Contained own cfg s self (.sseInject eventId hartid)) :
    Frame own (s.domain self) s (makePending cfg s self (s.domain self) slot) := by
  apply makePending_frame
  · obtain ⟨hinjectable, h, hmember, hfind⟩ := injectSlot_spec hslot
    rcases mem_slots_iff.mp (eventFind_mem_slots hfind) with ⟨i, -, rfl⟩ | ⟨i, hi, rfl⟩
    · have haims : aimedAt cfg s self (s.domain self)
          (s.event (s.domain self) (.onHart h i)) = h :=
        (aimedAt_local (hin.onHart _ h i).1).trans (hin.injectable_hart hinjectable)
      rw [haims]
      rcases hmember with rfl | hmember
      · exact hown h hin.member_self
      · exact hown h hmember
    · have hglobal := hin.isGlobal_global hran hi
      exact (own_aimedAt_iff hin hown hglobal).mpr (hcontained _ hslot hglobal)
  · intro h i _
    exact (hin.onHart _ h i).1

/-- The state of an event that is not running does not matter for where it goes. -/
theorem own_aimedAt_enabled (hfind : eventFind cfg self eventId self = .ok slot) :
    own (aimedAt cfg s self (s.domain self)
        { s.event (s.domain self) slot with state := .enabled }) ↔
      (isGlobal (s.event (s.domain self) slot).id = true →
        NamesOwn own cfg s (s.domain self) (s.event (s.domain self) slot)) := by
  rcases mem_slots_iff.mp (eventFind_mem_slots hfind) with ⟨i, hi, rfl⟩ | ⟨i, hi, rfl⟩
  · have hlocal := (hin.onHart (s.domain self) self i).1
    rw [aimedAt_local (e := { s.event (s.domain self) (.onHart self i) with
      state := .enabled }) hlocal]
    apply iff_of_true
    · exact (hin.locals _ _ hran i hi).symm ▸ hown self hin.member_self
    · intro hglobal
      exact absurd (hlocal.symm.trans hglobal) Bool.false_ne_true
  · have hglobal := hin.isGlobal_global hran hi
    rw [own_aimedAt_iff hin hown (e := { s.event (s.domain self) (.global i) with
      state := .enabled }) hglobal, if_neg nofun]
    exact ⟨fun hnames _ => hnames, fun hnames => hnames hglobal⟩

theorem enable_frame (hfind : eventFind cfg self eventId self = .ok slot)
    (hnames : isGlobal (s.event (s.domain self) slot).id = true →
      NamesOwn own cfg s (s.domain self) (s.event (s.domain self) slot)) :
    Frame own (s.domain self) s (makePending cfg (s.setEvent (s.domain self) slot
      { s.event (s.domain self) slot with state := .enabled }) self (s.domain self) slot) := by
  have hset : Frame own (s.domain self) s (s.setEvent (s.domain self) slot
      { s.event (s.domain self) slot with state := .enabled }) := setEvent_same_frame rfl rfl
  refine hset.trans (makePending_frame ?_ ?_)
  · rwa [event_setEvent, aimedAt_setEvent, own_aimedAt_enabled hin hran hown hfind]
  · intro h i _
    rw [(hset.sameLocal _ h i).1]
    exact (hin.onHart _ h i).1

theorem ecall_frame {c : Call x} (hcontained : Contained own cfg s self c) :
    Frame own (s.domain self) s (ecall cfg s self c) := by
  have hself : own self := hown self hin.member_self
  have hdoes := ecall_does cfg s self c
  generalize ecall cfg s self c = t at hdoes ⊢
  cases hdoes with
  | signals hsignalled => exact (hsignalled own hself hown).toFrame
  | writes _ hid hhart => exact setEvent_same_frame hid hhart
  | completes =>
    refine Frame.trans ?_ (setKick_frame hself)
    exact setEvent_same_frame rfl rfl
  | enables hcall hfind hstate hpending =>
    subst hcall
    exact enable_frame hin hran hown hfind (hcontained _ hfind hstate hpending)
  | injects hcall hslot =>
    subst hcall
    exact inject_frame hin hran hown hslot hcontained
  | unmasks => exact setUnmasked_frame.trans (setKick_frame hself)
  | masks => exact setUnmasked_frame

theorem contained_of_undisturbed {c : Call x} (hleft : Undisturbed own d s (ecall cfg s self c)) :
    Contained own cfg s self c := by
  cases c with
  | sseInject eventId hartid =>
    intro slot hslot e hglobal
    rw [← own_aimedAt_iff hin hown hglobal]
    by_contra hno
    have hsent := hleft.sent _ hno
    simp only [ecall, sseInject, hslot] at hsent
    exact makePending_sent cfg s self _ slot hsent
  | sseEnable eventId =>
    intro slot hslot e hregistered hpending
    rw [← own_aimedAt_enabled hin hran hown hslot]
    by_contra hno
    have hsent := hleft.sent _ hno
    have htold := makePending_sent cfg (s.setEvent (s.domain self) slot
      { e with state := .enabled }) self (s.domain self) slot
    rw [event_setEvent, aimedAt_setEvent, setEvent_sent] at htold
    apply htold
    rw [← hsent]
    simp only [ecall, transition, hslot]
    rw [if_neg (not_not.mpr hregistered), if_pos ⟨trivial, hpending⟩]
  | _ => trivial

end Run

end Contained

end RiscvMonitor.Sse
