import RiscvMonitor.DomainReach
import RiscvMonitor.SseMachine

/-!
# The life of an event

The calls, the sources of events and the starts of harts do to an event what `Life` says.
Apart from it stand the two steps that put an event to use: it is registered by its own
hart, and delivered by the hart it is for.
-/

namespace RiscvMonitor.Sse

open Function (update update_of_ne update_self)

variable {x : Xlen}

/-- What the events of two states, and the flags, have to do with each other if nothing is
    delivered and only events in `P` are registered. -/
structure Lives (cfg : Config x) (P : Nat → Slot → Prop) (s t : Sys x) : Prop where
  kick : ∀ h, s.kick h = true → t.kick h = true
  life : ∀ d slot, Life t.kick (cfg.nameOf slot) (s.event d slot) (t.event d slot) ∨
    P d slot ∧ Registers (s.event d slot) (t.event d slot)

theorem Lives.of_same {cfg : Config x} {P : Nat → Slot → Prop} {s t : Sys x}
    (hglobals : t.globals = s.globals) (hlocals : t.locals = s.locals) (hkick : t.kick = s.kick) :
    Lives cfg P s t where
  kick h hh := by rwa [hkick]
  life d slot := by
    have hevent : t.event d slot = s.event d slot := by
      cases slot with
      | global i => rw [Sys.event, Sys.event, hglobals]
      | onHart h i => rw [Sys.event, Sys.event, hlocals]
    rw [hevent]
    exact .inl .same

theorem Lives.refl {cfg : Config x} {P : Nat → Slot → Prop} (s : Sys x) : Lives cfg P s s :=
  .of_same rfl rfl rfl

variable {e e' : Event x} {u : Sys x} {i h : Nat} {ok : Bool} {eventId : Word x}
  {state : EventState} {kicked : Nat → Bool}

section Operations

variable {cfg : Config x} {P : Nat → Slot → Prop} {s t : Sys x} {self d : Nat} {slot : Slot}

theorem Lives.setEvent (d : Nat) (slot : Slot) (hkick : ∀ h, s.kick h = true → t.kick h = true)
    (hlife : Life t.kick (cfg.nameOf slot) (s.event d slot) e)
    (hevent : ∀ d' slot', t.event d' slot' = (s.setEvent d slot e).event d' slot') :
    Lives cfg P s t where
  kick := hkick
  life d' slot' := by
    rw [hevent, event_setEvent_eq]
    left
    split
    · next hat =>
      obtain ⟨rfl, rfl⟩ := hat
      exact hlife
    · exact .same

/-- Nothing of what `sse.c` looks at is different, but for the masks that it reads. -/
structure Untouched (s t : Sys x) : Prop where
  domain : t.domain = s.domain
  ran : t.ran = s.ran
  globals : t.globals = s.globals
  locals : t.locals = s.locals
  ready : t.globalsReady = s.globalsReady
  kick : t.kick = s.kick

theorem Untouched.lives (hsame : Untouched s t) : Lives cfg P s t :=
  .of_same hsame.globals hsame.locals hsame.kick

structure Stays (s t : Sys x) : Prop where
  domain : t.domain = s.domain
  ran : t.ran = s.ran
  ready : t.globalsReady = s.globalsReady

theorem Stays.refl (s : Sys x) : Stays s s := ⟨rfl, rfl, rfl⟩

theorem Stays.trans (hst : Stays s t) (htu : Stays t u) : Stays s u :=
  ⟨htu.domain.trans hst.domain, htu.ran.trans hst.ran, htu.ready.trans hst.ready⟩

theorem Untouched.stays (hsame : Untouched s t) : Stays s t :=
  ⟨hsame.domain, hsame.ran, hsame.ready⟩

theorem setEvent_stays (s : Sys x) (d : Nat) (slot : Slot) (e : Event x) :
    Stays s (s.setEvent d slot e) := by
  cases slot <;> exact ⟨rfl, rfl, rfl⟩

theorem setKick_stays (s : Sys x) (i : Nat) : Stays s (s.setKick i) := ⟨rfl, rfl, rfl⟩

theorem Signalled.untouched {own : Nat → Prop} (h : Signalled own d s t) : Untouched s t := by
  have hevents := h.events
  simp only [Prod.mk.injEq] at hevents
  exact ⟨h.domain, h.ran, hevents.1, hevents.2.1, h.globalsReady, hevents.2.2.2⟩

theorem ipiSend_stays {event : IpiEvent} : Stays s (ipiSend cfg s i event) := by
  have hsent : Signalled (fun _ => True) 0 s (ipiSend cfg s i event) := ipiSend_signalled trivial
  exact hsent.untouched.stays

/-! ### What the calls do to the events -/

theorem aimedAt_running (hrunning : e.state = .running) :
    aimedAt cfg s self d e = e.hart := by
  rw [aimedAt, if_neg]
  exact fun hno => hno.2 hrunning

theorem makePending_event (cfg : Config x) (s : Sys x) (self d : Nat) (slot : Slot) (d' : Nat)
    (slot' : Slot) : (makePending cfg s self d slot).event d' slot' =
      (s.setEvent d slot { s.event d slot with
        pending := true, hart := aimedAt cfg s self d (s.event d slot) }).event d' slot' := by
  unfold makePending ipiSend
  dsimp only
  split
  · split
    · cases slot' <;> rfl
    · rw [setKick_event]
  · rw [setKick_event]

theorem makePending_kick (cfg : Config x) (s : Sys x) (self d : Nat) (slot : Slot) :
    (makePending cfg s self d slot).kick =
      update s.kick (aimedAt cfg s self d (s.event d slot)) true := by
  unfold makePending ipiSend
  dsimp only
  split
  · split <;> cases slot <;> rfl
  · cases slot <;> rfl

theorem makePending_stays : Stays s (makePending cfg s self d slot) := by
  have hset := setEvent_stays s d slot { s.event d slot with
    pending := true, hart := aimedAt cfg s self d (s.event d slot) }
  unfold makePending
  dsimp only
  split
  · exact (hset.trans (setKick_stays _ _)).trans ipiSend_stays
  · exact hset.trans (setKick_stays _ _)

theorem update_true {f : Nat → Bool} (hh : f h = true) :
    update f i true h = true := by
  by_cases hi : h = i
  · rw [hi, update_self]
  · rwa [update_of_ne hi]

theorem makePending_lives : Lives cfg P s (makePending cfg s self d slot) := by
  refine .setEvent d slot ?_ (.raised _ ?_ ?_) (makePending_event cfg s self d slot)
  · intro h hh
    rw [makePending_kick]
    exact update_true hh
  · exact fun hrunning => aimedAt_running hrunning
  · rw [makePending_kick, update_self]

theorem Lives.setEvent_same_kick (hlife : Life s.kick (cfg.nameOf slot) (s.event d slot) e) :
    Lives cfg P s (s.setEvent d slot e) := by
  refine .setEvent d slot ?_ ?_ fun _ _ => rfl
  · intro h hh
    rwa [setEvent_kick]
  · rwa [setEvent_kick]

theorem enable_lives (hstate : (s.event d slot).state = .registered)
    (hpending : (s.event d slot).pending = true) :
    Lives cfg P s (makePending cfg
      (s.setEvent d slot { s.event d slot with state := .enabled }) self d slot) := by
  have hevent := makePending_event cfg
    (s.setEvent d slot { s.event d slot with state := .enabled }) self d slot
  have hkick := makePending_kick cfg
    (s.setEvent d slot { s.event d slot with state := .enabled }) self d slot
  simp only [setEvent_setEvent, event_setEvent, setEvent_kick] at hevent hkick
  generalize aimedAt cfg _ self d _ = hart at hevent hkick
  refine .setEvent d slot ?_ (.enabled hart hstate ?_) ?_
  · intro h hh
    rw [hkick]
    exact update_true hh
  · intro _
    rw [hkick, update_self]
  · simpa only [hpending] using hevent

theorem ecall_lives (cfg : Config x) (s : Sys x) (self : Nat) (c : Call x) :
    Lives cfg (fun d slot => d = s.domain self ∧ slot ∈ cfg.slots self) s
      (ecall cfg s self c) := by
  have hdoes := ecall_does cfg s self c
  generalize ecall cfg s self c = t at hdoes ⊢
  cases hdoes with
  | signals hsignalled =>
    exact (hsignalled (fun _ => True) trivial fun _ _ => trivial).untouched.lives
  | writes hslot _ _ hlife =>
    rcases hlife with hlife | hregisters
    · exact .setEvent_same_kick hlife
    · refine ⟨fun h hh => by rwa [setEvent_kick], fun d' slot' => ?_⟩
      rw [event_setEvent_eq]
      split
      · next hat =>
        obtain ⟨rfl, rfl⟩ := hat
        exact .inr ⟨⟨rfl, hslot⟩, hregisters⟩
      · exact .inl .same
  | completes htop hnext =>
    obtain ⟨hstate, hhart, -⟩ := candidate_iff.mp (topEvent_mem htop).2
    refine .setEvent (s.domain self) _ ?_ (.completed _ hstate hnext ?_) (setKick_event _ self)
    · intro h hh
      rw [Sys.setKick_kick, setEvent_kick]
      exact update_true hh
    · rw [hhart, Sys.setKick_kick, setEvent_kick, update_self]
  | enables _ _ hstate hpending => exact enable_lives hstate hpending
  | injects => exact makePending_lives
  | unmasks =>
    refine ⟨fun h hh => ?_, fun d slot => ?_⟩
    · rw [Sys.setKick_kick]
      exact update_true hh
    · rw [setKick_event]
      cases slot <;> exact .inl .same
  | masks => exact .of_same rfl rfl rfl

theorem ecall_stays (cfg : Config x) (s : Sys x) (self : Nat) (c : Call x) :
    Stays s (ecall cfg s self c) := by
  have hdoes := ecall_does cfg s self c
  generalize ecall cfg s self c = t at hdoes ⊢
  cases hdoes with
  | signals hsignalled =>
    exact (hsignalled (fun _ => True) trivial fun _ _ => trivial).untouched.stays
  | writes => exact setEvent_stays ..
  | completes => exact (setEvent_stays ..).trans (setKick_stays ..)
  | enables => exact (setEvent_stays ..).trans makePending_stays
  | injects => exact makePending_stays
  | unmasks | masks => exact ⟨rfl, rfl, rfl⟩

/-! ### What else happens to them -/

theorem sseRaiseLocal_lives {id : Word x} : Lives cfg P s (sseRaiseLocal cfg s self id).1 := by
  rcases sseRaiseLocal_cases cfg s self id with hsame | ⟨slot, hraised⟩
  · rw [hsame]
    exact .refl s
  · rw [hraised]
    exact makePending_lives

theorem sseRaiseLocal_stays {id : Word x} : Stays s (sseRaiseLocal cfg s self id).1 := by
  rcases sseRaiseLocal_cases cfg s self id with hsame | ⟨slot, hraised⟩
  · rw [hsame]
    exact .refl s
  · rw [hraised]
    exact makePending_stays

def Raised (kicked : Nat → Bool) (e e' : Event x) : Prop :=
  e' = e ∨ ∃ h, (e.state = .running → h = e.hart) ∧ kicked h = true ∧
    e' = { e with pending := true, hart := h }

theorem Raised.life {name : Nat} (hraised : Raised kicked e e') : Life kicked name e e' := by
  rcases hraised with rfl | ⟨h, hrunning, hkick, rfl⟩
  · exact .same
  · exact .raised h hrunning hkick

theorem Raised.mono {kicked' : Nat → Bool} (hmono : ∀ h, kicked h = true → kicked' h = true)
    (hraised : Raised kicked e e') :
    Raised kicked' e e' := by
  rcases hraised with rfl | ⟨h, hrunning, hkick, rfl⟩
  · exact .inl rfl
  · exact .inr ⟨h, hrunning, hmono h hkick, rfl⟩

theorem Raised.trans {e'' : Event x} (hfirst : Raised kicked e e')
    (hsecond : Raised kicked e' e'') : Raised kicked e e'' := by
  rcases hsecond with rfl | ⟨h, hrunning, hkick, rfl⟩
  · exact hfirst
  · rcases hfirst with rfl | ⟨h', hrunning', hkick', rfl⟩
    · exact .inr ⟨h, hrunning, hkick, rfl⟩
    · exact .inr ⟨h, fun hstate => (hrunning hstate).trans (hrunning' hstate), hkick, rfl⟩

theorem makePending_raised (d' : Nat) (slot' : Slot) :
    Raised (makePending cfg s self d slot).kick (s.event d' slot')
      ((makePending cfg s self d slot).event d' slot') := by
  rw [makePending_event, event_setEvent_eq, makePending_kick]
  split
  · next hat =>
    obtain ⟨rfl, rfl⟩ := hat
    exact .inr ⟨_, aimedAt_running, update_self _ _ _, rfl⟩
  · exact .inl rfl

theorem sseRaiseGlobal_lives {id : Nat} : Lives cfg P s (sseRaiseGlobal cfg s self id d) := by
  -- every flag stays, and every event is only raised
  let I (t : Sys x) := (∀ h, s.kick h = true → t.kick h = true) ∧
    ∀ d' slot', Raised t.kick (s.event d' slot') (t.event d' slot')
  have hs : I s := ⟨fun _ hh => hh, fun _ _ => .inl rfl⟩
  have hI : I (sseRaiseGlobal cfg s self id d) :=
    sseRaiseGlobal_rule hs fun t i ⟨hkick, hraised⟩ => by
      have hmono : ∀ h, t.kick h = true →
          (makePending cfg t self d (.global i)).kick h = true := by
        intro h hh
        rw [makePending_kick]
        exact update_true hh
      exact ⟨fun h hh => hmono h (hkick h hh), fun d' slot' =>
        ((hraised d' slot').mono hmono).trans (makePending_raised d' slot')⟩
  exact ⟨hI.1, fun d' slot' => .inl (hI.2 d' slot').life⟩

theorem sseRaiseGlobal_stays {id : Nat} : Stays s (sseRaiseGlobal cfg s self id d) :=
  sseRaiseGlobal_rule (.refl s) fun _ _ ht => ht.trans makePending_stays

theorem sseHartInit_kick : (sseHartInit cfg s self).kick = s.kick := by
  unfold sseHartInit
  dsimp only
  split <;> rfl

/-- The global events of the domain start over with the first hart, and only then. -/
theorem sseHartInit_globals_eq (d i : Nat) :
    (sseHartInit cfg s self).globals d i =
      if d = s.domain self ∧ s.globalsReady d = false ∧ i < cfg.globalIds.length then
        eventReset cfg (cfg.globalIds.getD i 0) self
      else s.globals d i := by
  unfold sseHartInit
  dsimp only
  by_cases hd : d = s.domain self
  · subst hd
    cases hready : s.globalsReady (s.domain self) with
    | true => simp
    | false => simp
  · split
    · simp [hd]
    · simp [hd]

theorem sseHartInit_lives : Lives cfg P s (sseHartInit cfg s self) where
  kick h hh := by rwa [sseHartInit_kick]
  life d slot := by
    left
    cases slot with
    | global i =>
      rw [Sys.event, Sys.event, sseHartInit_globals_eq]
      split
      · exact .reset _ rfl (.inr rfl)
      · exact .same
    | onHart h i =>
      rw [Sys.event, Sys.event, sseHartInit_locals]
      split
      · exact .reset _ rfl (.inr rfl)
      · exact .same

/-! ### `sse_process()` -/

theorem injects_spec (hinjects : injects cfg s self = some slot) :
    topEvent cfg s self .enabled = some slot ∧ s.unmasked (s.domain self) self = true ∧
      ∀ r, topEvent cfg s self .running = some r →
        outranks (s.event (s.domain self) slot) (s.event (s.domain self) r) = true := by
  unfold injects at hinjects
  split at hinjects
  · cases hinjects
  · next next htop =>
    split at hinjects
    · next hfirst =>
      cases hinjects
      refine ⟨htop, hfirst.1, ?_⟩
      intro r hr
      have hall := hfirst.2
      rw [hr] at hall
      exact hall
    · cases hinjects

theorem sseProcessLocked_stays (saved : Interrupted x) :
    Stays s (sseProcessLocked cfg s self saved) := by
  unfold sseProcessLocked
  split
  · exact setEvent_stays ..
  · split <;> exact ⟨rfl, rfl, rfl⟩

theorem sseProcessLocked_event (saved : Interrupted x) (d : Nat) (slot : Slot) :
    (sseProcessLocked cfg s self saved).event d slot =
      if d = s.domain self ∧ injects cfg s self = some slot then inject (s.event d slot) saved
      else s.event d slot := by
  rw [sseProcessLocked]
  cases injects cfg s self with
  | some next =>
    dsimp only
    rw [event_setEvent_eq]
    by_cases hat : d = s.domain self ∧ slot = next
    · obtain ⟨rfl, rfl⟩ := hat
      simp
    · rw [if_neg hat, if_neg]
      rintro ⟨hd, hslot⟩
      cases hslot
      exact hat ⟨hd, rfl⟩
  | none =>
    have hno : ¬ (d = s.domain self ∧ none = some slot) := fun hno => nomatch hno.2
    rw [if_neg hno]
    dsimp only
    split
    · cases slot <;> rfl
    · rfl

theorem sseProcessLocked_kick (saved : Interrupted x) (hh : s.kick h = true) :
    (sseProcessLocked cfg s self saved).kick h = true ∨
      h = self ∧ topEvent cfg s self .enabled = none := by
  unfold sseProcessLocked
  split
  · left
    rwa [setEvent_kick]
  · split
    · next hnone =>
      by_cases hself : h = self
      · exact .inr ⟨hself, hnone⟩
      · left
        dsimp only
        rwa [update_of_ne hself]
    · exact .inl hh

end Operations

end RiscvMonitor.Sse
