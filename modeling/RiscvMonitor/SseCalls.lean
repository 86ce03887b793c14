import RiscvMonitor.Scan
import RiscvMonitor.SseFrame

/-!
# What a call does to the events

What can happen to one event is said once, by `Life`, and what a call does to the system
once, by `Does`: it signals to harts, or writes an event that the calling hart has to do
with, or makes one pending.
-/

namespace RiscvMonitor.Sse

open Function (update update_of_ne)

variable {x : Xlen}

def Config.nameOf (cfg : Config x) : Slot → Nat
  | .global i => cfg.globalIds.getD i 0
  | .onHart _ i => localIds.getD i 0

/-- What a step can do to an event of the given name, apart from registering and
    delivering it; `kicked` are the flags after it. -/
inductive Life (kicked : Nat → Bool) (name : Nat) (e : Event x) : Event x → Prop where
  | same : Life kicked name e e
  /-- `make_pending()` -/
  | raised (h : Nat) (hrunning : e.state = .running → h = e.hart) (hkick : kicked h = true) :
      Life kicked name e { e with pending := true, hart := h }
  /-- `sse_write_attrs()` -/
  | written (attr : Attr → Word x) (hidle : attr .priority = e.attr .priority ∨
      e.state = .unused ∨ e.state = .registered) : Life kicked name e { e with attr := attr }
  | enabled (h : Nat) (hstate : e.state = .registered)
      (hkick : e.pending = true → kicked h = true) :
      Life kicked name e { e with state := .enabled, hart := h }
  | disabled (hstate : e.state = .enabled) : Life kicked name e { e with state := .registered }
  | reset (e' : Event x) (hstate : e'.state = .unused) (hname : e'.id = e.id ∨ e'.id = name) :
      Life kicked name e e'
  | completed (state : EventState) (hstate : e.state = .running)
      (hnext : state = .registered ∨ state = .enabled) (hkick : kicked e.hart = true) :
      Life kicked name e { e with state := state }

def Registers (e e' : Event x) : Prop :=
  e.state = .unused ∧ ∃ attr, e' = { e with state := .registered, attr := attr }

variable {cfg : Config x} {s : Sys x} {self d h : Nat} {slot : Slot} {e : Event x}
  {eventId : Word x} {state : EventState}

/-! ### Finding an event -/

theorem mem_slots_iff : slot ∈ cfg.slots h ↔
    (∃ i < localIds.length, slot = .onHart h i) ∨ ∃ i < cfg.globalIds.length, slot = .global i := by
  simp only [Config.slots, List.mem_append, List.mem_map, List.mem_range, eq_comm]

theorem eventFind_mem_slots (hok : eventFind cfg self eventId h = .ok slot) :
    slot ∈ cfg.slots h := by
  rw [mem_slots_iff]
  unfold eventFind at hok
  dsimp only at hok
  split at hok
  · next hmem =>
    split_ifs at hok
    cases hok
    exact .inl ⟨_, List.idxOf_lt_length_iff.mpr hmem, rfl⟩
  · split at hok
    · next hmem =>
      split_ifs at hok
      cases hok
      exact .inr ⟨_, List.idxOf_lt_length_iff.mpr hmem, rfl⟩
    · split at hok <;> cases hok

theorem attrsCheck_mem {base count addr : Word x}
    (hok : attrsCheck cfg s self eventId base count addr = .ok slot) :
    slot ∈ cfg.slots self := by
  unfold attrsCheck at hok
  split at hok
  · cases hok
  · next hfind =>
    dsimp only at hok
    split at hok
    · cases hok
    split at hok
    · cases hok
    split_ifs at hok
    cases hok
    exact eventFind_mem_slots hfind

theorem injectSlot_spec {hartid : Word x} (hok : injectSlot cfg s self eventId hartid = .ok slot) :
    eventInjectable (s.event (s.domain self) slot).id = true ∧
      ∃ h, (h = self ∨ s.member (s.domain self) h = true) ∧
        eventFind cfg self eventId h = .ok slot := by
  unfold injectSlot at hok
  split at hok
  · cases hok
  · dsimp only at hok
    split at hok
    · cases hok
    · next h hh =>
      have hmember : h = self ∨ s.member (s.domain self) h = true := by
        split at hh
        · cases hh
          exact .inl rfl
        · have hfilter := (Option.filter_eq_some_iff.mp hh).2
          rw [Bool.and_eq_true] at hfilter
          exact .inr hfilter.2
      split at hok
      · cases hok
      · next slot' hfind =>
        split at hok
        · next hinjectable =>
          cases hok
          exact ⟨hinjectable, h, hmember, hfind⟩
        · cases hok

/-! ### Writing one -/

theorem event_setEvent_eq (s : Sys x) (d : Nat) (slot : Slot) (e : Event x) (d' : Nat)
    (slot' : Slot) : (s.setEvent d slot e).event d' slot' =
      if d' = d ∧ slot' = slot then e else s.event d' slot' := by
  cases slot with
  | global i =>
    cases slot' with
    | global j =>
      by_cases hd : d' = d
      · subst hd
        by_cases hj : j = i
        · subst hj
          simp [Sys.setEvent, Sys.event]
        · simp [Sys.setEvent, Sys.event, hj]
      · simp [Sys.setEvent, Sys.event, hd]
    | onHart h j => simp [Sys.setEvent, Sys.event]
  | onHart h i =>
    cases slot' with
    | global j => simp [Sys.setEvent, Sys.event]
    | onHart h' j =>
      by_cases hd : d' = d
      · subst hd
        by_cases hh : h' = h
        · subst hh
          by_cases hj : j = i
          · subst hj
            simp [Sys.setEvent, Sys.event]
          · simp [Sys.setEvent, Sys.event, hj]
        · simp [Sys.setEvent, Sys.event, hh]
      · simp [Sys.setEvent, Sys.event, hd]

@[simp] theorem event_setEvent (s : Sys x) (d : Nat) (slot : Slot) (e : Event x) :
    (s.setEvent d slot e).event d slot = e := by
  cases slot <;> simp [Sys.setEvent, Sys.event]

theorem setEvent_setEvent (s : Sys x) (d : Nat) (slot : Slot) (e e' : Event x) :
    (s.setEvent d slot e).setEvent d slot e' = s.setEvent d slot e' := by
  cases slot <;> simp [Sys.setEvent]

@[simp] theorem setEvent_kick (s : Sys x) (d : Nat) (slot : Slot) (e : Event x) :
    (s.setEvent d slot e).kick = s.kick := by
  cases slot <;> rfl

@[simp] theorem setKick_event (s : Sys x) (i d : Nat) (slot : Slot) :
    (s.setKick i).event d slot = s.event d slot := by
  cases slot <;> rfl

theorem setEvent_sent (s : Sys x) (d : Nat) (slot : Slot) (e : Event x) :
    (s.setEvent d slot e).sent = s.sent := by
  cases slot <;> rfl

theorem attrWriteCheck_priority {val : Word x}
    (hok : attrWriteCheck cfg self e .priority val = .success) :
    e.state = .unused ∨ e.state = .registered := by
  unfold attrWriteCheck at hok
  dsimp only at hok
  split at hok
  · cases hok
  · split at hok
    · next hidle =>
      rw [Bool.or_eq_true, beq_iff_eq, beq_iff_eq] at hidle
      exact hidle
    · cases hok

theorem foldl_update_other {writes : List (Attr × Word x)} {attr : Attr → Word x} {a : Attr}
    (hno : ∀ w ∈ writes, w.1 ≠ a) :
    writes.foldl (fun attr w => update attr w.1 w.2) attr a = attr a := by
  induction writes generalizing attr with
  | nil => rfl
  | cons w writes ih =>
    rw [List.foldl_cons, ih fun v hv => hno v (List.mem_cons_of_mem _ hv)]
    exact update_of_ne (hno w List.mem_cons_self).symm _ _

/-! ### `top_event()` -/

/-- The event is in the state, on the hart, and pending if it is to be delivered. -/
def candidate (s : Sys x) (self : Nat) (state : EventState) (slot : Slot) : Bool :=
  let e := s.event (s.domain self) slot
  e.state == state && e.hart == self && (state != .enabled || e.pending)

theorem candidate_iff : candidate s self state slot = true ↔
    (s.event (s.domain self) slot).state = state ∧ (s.event (s.domain self) slot).hart = self ∧
      (state = .enabled → (s.event (s.domain self) slot).pending = true) := by
  simp only [candidate, Bool.and_eq_true, beq_iff_eq, Bool.or_eq_true, bne_iff_ne, and_assoc,
    ne_eq, imp_iff_not_or]

theorem topEvent_eq_best (cfg : Config x) (s : Sys x) (self : Nat) (state : EventState) :
    topEvent cfg s self state = Scan.best (candidate s self state)
      (fun a b => outranks (s.event (s.domain self) a) (s.event (s.domain self) b))
      (cfg.slots self) := by
  unfold topEvent Scan.best
  dsimp only
  congr 1
  funext found slot
  rw [Scan.look.eq_def]
  by_cases hcand : candidate s self state slot = true
  · rw [if_pos hcand, if_neg]
    · cases found <;> rfl
    · rw [candidate_iff] at hcand
      rintro (hno | hno | ⟨henabled, hno⟩)
      · exact hno hcand.1
      · exact hno hcand.2.1
      · exact absurd (hno.symm.trans (hcand.2.2 henabled)) Bool.false_ne_true
  · rw [if_neg hcand, if_pos]
    by_contra hno
    rw [not_or, not_or, not_not, not_not, not_and, Bool.not_eq_false] at hno
    exact hcand (candidate_iff.mpr hno)

theorem topEvent_mem (htop : topEvent cfg s self state = some slot) :
    slot ∈ cfg.slots self ∧ candidate s self state slot = true := by
  rw [topEvent_eq_best] at htop
  exact Scan.best_mem htop

theorem topEvent_none (htop : topEvent cfg s self state = none) :
    ∀ slot ∈ cfg.slots self, candidate s self state slot = false := by
  rw [topEvent_eq_best] at htop
  exact Scan.best_eq_none htop

inductive Does (cfg : Config x) (s : Sys x) (self : Nat) (c : Call x) : Sys x → Prop
  | signals {t : Sys x} (hsignalled : ∀ own : Nat → Prop, own self →
      (∀ h, s.member (s.domain self) h = true → own h) → Signalled own (s.domain self) s t) :
      Does cfg s self c t
  | writes {slot : Slot} {e : Event x} (hslot : slot ∈ cfg.slots self)
      (hid : e.id = (s.event (s.domain self) slot).id)
      (hhart : e.hart = (s.event (s.domain self) slot).hart)
      (hlife : Life s.kick (cfg.nameOf slot) (s.event (s.domain self) slot) e ∨
        Registers (s.event (s.domain self) slot) e) :
      Does cfg s self c (s.setEvent (s.domain self) slot e)
  | completes {slot : Slot} {state : EventState} (htop : topEvent cfg s self .running = some slot)
      (hnext : state = .registered ∨ state = .enabled) :
      Does cfg s self c ((s.setEvent (s.domain self) slot
        { s.event (s.domain self) slot with state := state }).setKick self)
  | enables {eventId : Word x} {slot : Slot} (hcall : c = .sseEnable eventId)
      (hfind : eventFind cfg self eventId self = .ok slot)
      (hstate : (s.event (s.domain self) slot).state = .registered)
      (hpending : (s.event (s.domain self) slot).pending = true) :
      Does cfg s self c (makePending cfg (s.setEvent (s.domain self) slot
        { s.event (s.domain self) slot with state := .enabled }) self (s.domain self) slot)
  | injects {eventId hartid : Word x} {slot : Slot} (hcall : c = .sseInject eventId hartid)
      (hslot : injectSlot cfg s self eventId hartid = .ok slot) :
      Does cfg s self c (makePending cfg s self (s.domain self) slot)
  | unmasks : Does cfg s self c ({ s with
      unmasked := update s.unmasked (s.domain self)
        (update (s.unmasked (s.domain self)) self true) }.setKick self)
  | masks : Does cfg s self c { s with
      unmasked := update s.unmasked (s.domain self)
        (update (s.unmasked (s.domain self)) self false) }

variable {c : Call x}

theorem Does.refl : Does cfg s self c s := .signals fun _ _ _ => .refl s

theorem transition_does {source target : EventState}
    (hallowed : (source = .registered ∧ target = .enabled ∧ c = .sseEnable eventId) ∨
      (source = .enabled ∧ target = .registered) ∨ target = .unused) :
    Does cfg s self c (transition cfg s self eventId source target).1 := by
  unfold transition
  dsimp only
  split
  · exact .refl
  · next slot hfind =>
    have hslot := eventFind_mem_slots hfind
    split
    · exact .refl
    · next hsource =>
      have hsource := not_not.mp hsource
      rcases hallowed with ⟨rfl, rfl, hcall⟩ | ⟨rfl, rfl⟩ | rfl
      · split
        · next hdeliver => exact .enables hcall hfind hsource hdeliver.2
        · next hno =>
          refine .writes hslot rfl rfl (.inl (.enabled _ hsource fun hpending => ?_))
          exact absurd ⟨rfl, hpending⟩ hno
      · exact .writes hslot rfl rfl (.inl (.disabled hsource))
      · -- unregistered: the event starts over
        simp only [reduceCtorEq, false_and, if_false, if_true, setEvent_setEvent]
        exact .writes hslot rfl rfl (.inl (.reset _ rfl (.inl rfl)))

theorem sseRegister_does {entryPc entryArg : Word x} :
    Does cfg s self c (sseRegister cfg s self eventId entryPc entryArg).1 := by
  unfold sseRegister
  dsimp only
  split
  · exact .refl
  · next hfind =>
    split_ifs with _ hstate
    · exact .refl
    · exact .refl
    · exact .writes (eventFind_mem_slots hfind) rfl rfl (.inr ⟨not_not.mp hstate, _, rfl⟩)

theorem sseWriteAttrs_does {base count addr : Word x} {vals : List (Word x)} :
    Does cfg s self c (sseWriteAttrs cfg s self eventId base count addr vals).1 := by
  unfold sseWriteAttrs
  dsimp only
  split
  · exact .refl
  · next hok =>
    split
    · exact .refl
    · next hchecked =>
      rw [List.find?_eq_none] at hchecked
      refine .writes (attrsCheck_mem hok) rfl rfl (.inl (.written _ ?_))
      generalize ((Attr.all.drop base.toNat).take count.toNat).zip vals = writes at hchecked
      by_cases hwrites : ∃ w ∈ writes, w.1 = .priority
      · obtain ⟨w, hw, hattr⟩ := hwrites
        have hok := hchecked w hw
        rw [decide_eq_true_eq, not_not, hattr] at hok
        exact .inr (attrWriteCheck_priority hok)
      · exact .inl (foldl_update_other fun w hw hattr => hwrites ⟨w, hw, hattr⟩)

theorem ecall_does (cfg : Config x) (s : Sys x) (self : Nat) (c : Call x) :
    Does cfg s self c (ecall cfg s self c) := by
  cases c with
  | hartStart => exact .signals fun _ _ hown => hsmHartStart_signalled hown
  | hartStop => exact .signals fun _ hself _ => hsmHartStop_signalled hself
  | hartSuspend => exact .signals fun _ hself _ => hartSuspend_signalled hself
  | sendIpi => exact .signals fun _ _ hown => sendIpi_signalled hown
  | remoteFence => exact .signals fun _ _ hown => remoteFence_signalled hown
  | hartGetStatus | sseReadAttrs => exact .refl
  | legacySendIpi mask =>
    rw [ecall]
    split
    · exact .refl
    · next htargets =>
      exact .signals fun _ _ hown =>
        ipiSend_targets_signalled hown (legacyHartmask_interruptible htargets)
  | legacyFence req mask =>
    rw [ecall]
    split
    · exact .refl
    · next htargets =>
      exact .signals fun _ _ hown =>
        rfenceRequest_signalled hown (legacyHartmask_interruptible htargets)
  | sseWriteAttrs => exact sseWriteAttrs_does
  | sseRegister => exact sseRegister_does
  | sseUnregister => exact transition_does (.inr (.inr rfl))
  | sseEnable => exact transition_does (.inl ⟨rfl, rfl, rfl⟩)
  | sseDisable => exact transition_does (.inr (.inl ⟨rfl, rfl⟩))
  | sseComplete =>
    rw [ecall, sseComplete]
    split
    · exact .refl
    · next htop => exact .completes htop (by split <;> simp)
  | sseInject =>
    rw [ecall, sseInject]
    split
    · exact .refl
    · next hslot => exact .injects rfl hslot
  | sseHartUnmask =>
    simp only [ecall, sseHartUnmask]
    split
    · exact .refl
    · exact .unmasks
  | sseHartMask =>
    simp only [ecall, sseHartMask]
    split
    · exact .refl
    · exact .masks

/-! ### The sources of events -/

theorem sseRaiseLocal_cases (cfg : Config x) (s : Sys x) (self : Nat) (id : Word x) :
    (sseRaiseLocal cfg s self id).1 = s ∨
      ∃ slot, (sseRaiseLocal cfg s self id).1 = makePending cfg s self (s.domain self) slot := by
  unfold sseRaiseLocal
  dsimp only
  split
  · exact .inl rfl
  · split
    · exact .inr ⟨_, rfl⟩
    · exact .inl rfl

theorem sseRaiseGlobal_rule {I : Sys x → Prop} {id : Nat} (hs : I s)
    (hI : ∀ t i, I t → I (makePending cfg t self d (.global i))) :
    I (sseRaiseGlobal cfg s self id d) := by
  unfold sseRaiseGlobal
  split
  · refine List.foldlRecOn _ _ hs fun t ht i _ => ?_
    split
    · exact hI t i ht
    · exact ht
  · exact hs

end RiscvMonitor.Sse
