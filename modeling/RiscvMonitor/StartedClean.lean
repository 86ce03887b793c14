import RiscvMonitor.KickFlag

/-!
# What a start leaves of the events

A hart that is started begins with `sse_hart_init()`: its local events start over, and
the global events of the domain only with the first hart.  A hart that stops while it
handles one of them finds it running when it is started again: its next completion is
this event's, and until then no event gets through that the old one outranks.
-/

namespace RiscvMonitor.Sse.Machine

variable {x : Xlen} {cfg : Config x} {m m' : Machine x} {h : Nat} {a : Move x}

def begins (m : Machine x) (h : Nat) (a : Move x) : Bool :=
  match m.place h, a with
  | .outside, .starts => true
  | .between true, .arrives => true
  | _, _ => false

def delivers (cfg : Config x) (m : Machine x) (h : Nat) (a : Move x) : Bool :=
  match m.place h, a with
  | .looked, .takes _ => (injects cfg m.sys h).isSome
  | _, _ => false

/-- Of every domain and hart: no event was delivered since the hart began there. -/
def Untried := Nat → Nat → Bool

def Untried.note (cfg : Config x) (w : Untried) (m : Machine x) (e : Nat × Move x) : Untried :=
  fun d i =>
    if d = m.sys.domain e.1 ∧ i = e.1 then
      if begins m e.1 e.2 then true
      else if delivers cfg m e.1 e.2 then false
      else w d i
    else w d i

def untried (cfg : Config x) (home : Nat → Nat) (es : List (Nat × Move x)) : Untried :=
  Runs.watch (fun m e => step cfg m e.1 e.2) (Untried.note cfg) (fun _ _ => false) (init home) es

def NoneRunning (cfg : Config x) (s : Sys x) (d h : Nat) : Prop :=
  ∀ slot ∈ cfg.slots h, ¬ ((s.event d slot).state = .running ∧ (s.event d slot).hart = h)

/-- Where a hart begins and the global events of its domain are kept, none of them is
    running on it. -/
def BeginsIdle (cfg : Config x) (m : Machine x) (e : Nat × Move x) : Prop :=
  begins m e.1 e.2 = true → (step cfg m e.1 e.2).isSome = true →
    m.sys.globalsReady (m.sys.domain e.1) = true → ∀ i < cfg.globalIds.length,
      ¬ ((m.sys.globals (m.sys.domain e.1) i).state = .running ∧
        (m.sys.globals (m.sys.domain e.1) i).hart = e.1)

theorem running_before {d i : Nat} {slot : Slot} (hstep : step cfg m h a = some m')
    (hstate : (m'.sys.event d slot).state = .running)
    (hhart : (m'.sys.event d slot).hart = i) :
    (((m.sys.event d slot).state = .running ∧ (m.sys.event d slot).hart = i) ∧
      (m'.sys.event d slot).id = (m.sys.event d slot).id ∧
      (m'.sys.event d slot).attr .priority = (m.sys.event d slot).attr .priority ∧
      ¬ (delivers cfg m h a = true ∧ d = m.sys.domain h ∧ injects cfg m.sys h = some slot)) ∨
    (i = h ∧ d = m.sys.domain h ∧ delivers cfg m h a = true ∧ injects cfg m.sys h = some slot ∧
      ∃ saved, m'.sys.event d slot = inject (m.sys.event d slot) saved) := by
  -- an event that was running is none that is delivered
  have hother : (m.sys.event d slot).state = .running →
      ¬ (delivers cfg m h a = true ∧ d = m.sys.domain h ∧ injects cfg m.sys h = some slot) := by
    rintro hold ⟨-, rfl, hinjects⟩
    obtain ⟨henabled, -⟩ := candidate_iff.mp (topEvent_mem (injects_spec hinjects).1).2
    cases hold.symm.trans henabled
  rcases (step_effect hstep).life d slot with hlife | hregisters | hinjected
  · left
    generalize m'.sys.event d slot = e' at hlife hstate hhart
    cases hlife with
    | same => exact ⟨⟨hstate, hhart⟩, rfl, rfl, hother hstate⟩
    | raised j hold hkick =>
      exact ⟨⟨hstate, (hold hstate).symm.trans hhart⟩, rfl, rfl, hother hstate⟩
    | written attr hidle =>
      refine ⟨⟨hstate, hhart⟩, rfl, hidle.resolve_right ?_, hother hstate⟩
      rintro (hidle | hidle)
      · cases hidle.symm.trans hstate
      · cases hidle.symm.trans hstate
    | enabled j hold hkick => cases hstate
    | disabled hold => cases hstate
    | reset _ hunused => cases hstate.symm.trans hunused
    | completed state hold hnext hkick =>
      rcases hnext with rfl | rfl
      · cases hstate
      · cases hstate
  · obtain ⟨-, -, -, -, -, attr, heq⟩ := hregisters
    rw [heq] at hstate
    cases hstate
  · obtain ⟨saved, rfl, hlooked, hd, hinjects, heq⟩ := hinjected
    right
    refine ⟨?_, hd, ?_, hinjects, saved, heq⟩
    · obtain ⟨-, hself, -⟩ := candidate_iff.mp (topEvent_mem (injects_spec hinjects).1).2
      rw [heq, hd] at hhart
      exact hhart.symm.trans hself
    · simp only [delivers, hlooked, hinjects]
      rfl

theorem begins_sys (hbegins : begins m h a = true) (hstep : step cfg m h a = some m') :
    m'.sys.globals = (sseHartInit cfg m.sys h).globals ∧
      m'.sys.locals = (sseHartInit cfg m.sys h).locals := by
  unfold step at hstep
  split_ifs at hstep
  unfold begins at hbegins
  split at hbegins
  · next hplace =>
    rw [hplace] at hstep
    cases hstep
    exact ⟨rfl, rfl⟩
  · next hplace =>
    rw [hplace] at hstep
    cases hstep
    exact ⟨rfl, rfl⟩
  · cases hbegins

/-- Right after a start nothing is running exactly if no global event that is kept was. -/
theorem begins_noneRunning (hbegins : begins m h a = true) (hstep : step cfg m h a = some m') :
    NoneRunning cfg m'.sys (m.sys.domain h) h ↔ BeginsIdle cfg m (h, a) := by
  obtain ⟨hglobals, hlocals⟩ := begins_sys hbegins hstep
  constructor
  · intro hnone _ _ hready i hi
    have hslot : Slot.global i ∈ cfg.slots h :=
      List.mem_append_right _ (List.mem_map_of_mem (List.mem_range.mpr hi))
    have hno := hnone (.global i) hslot
    rw [Sys.event, hglobals, sseHartInit_globals_eq, if_neg] at hno
    · exact hno
    · exact fun hreset => absurd (hreset.2.1.symm.trans hready) Bool.false_ne_true
  · intro hidle slot hslot hrunning
    rw [Config.slots, List.mem_append, List.mem_map, List.mem_map] at hslot
    rcases hslot with ⟨i, hi, rfl⟩ | ⟨i, hi, rfl⟩
    · rw [Sys.event, hlocals, sseHartInit_locals, if_pos ⟨rfl, rfl, List.mem_range.mp hi⟩]
        at hrunning
      cases hrunning.1
    · rw [Sys.event, hglobals, sseHartInit_globals_eq] at hrunning
      split at hrunning
      · cases hrunning.1
      · next hkept =>
        have hready : m.sys.globalsReady (m.sys.domain h) = true := by
          by_contra hno
          exact hkept ⟨rfl, Bool.not_eq_true _ ▸ hno, List.mem_range.mp hi⟩
        have hsome : (step cfg m h a).isSome = true := by rw [hstep]; rfl
        exact hidle hbegins hsome hready i (List.mem_range.mp hi) hrunning

theorem step_untried {w : Untried} (hquiet : ∀ d i, w d i = true → NoneRunning cfg m.sys d i)
    (hidle : BeginsIdle cfg m (h, a)) (hstep : step cfg m h a = some m') :
    ∀ d i, w.note cfg m (h, a) d i = true → NoneRunning cfg m'.sys d i := by
  intro d i hnoted slot hslot hrunning
  have hbefore := running_before hstep hrunning.1 hrunning.2
  unfold Untried.note at hnoted
  split at hnoted
  · next hat =>
    obtain ⟨rfl, rfl⟩ := hat
    split at hnoted
    · next hbegins =>
      exact (begins_noneRunning hbegins hstep).mpr hidle slot hslot hrunning
    · split at hnoted
      · cases hnoted
      · next hdelivers =>
        rcases hbefore with ⟨hbefore, -⟩ | ⟨-, -, hyes, -⟩
        · exact hquiet _ _ hnoted slot hslot hbefore
        · exact hdelivers hyes
  · next hat =>
    rcases hbefore with ⟨hbefore, -⟩ | ⟨hi, hd, -⟩
    · exact hquiet d i hnoted slot hslot hbefore
    · exact hat ⟨hd, hi⟩

/-- The harts begin idle all along a run, exactly if in every state that it passes
    through no event is running on a hart to which none was delivered since it began. -/
theorem started_clean_iff (cfg : Config x) (home : Nat → Nat) (es : List (Nat × Move x)) :
    Runs.Along (fun m e => step cfg m e.1 e.2) (BeginsIdle cfg) (init home) es ↔
      ∀ fs gs m, es = fs ++ gs → run cfg (init home) fs = some m →
        ∀ d h, untried cfg home fs d h = true → NoneRunning cfg m.sys d h := by
  constructor
  · rintro halong fs gs m rfl hrun
    exact halong.of_append.1.watch_invariant
      (J := fun m (w : Untried) => ∀ d h, w d h = true → NoneRunning cfg m.sys d h)
      (fun _ _ _ _ hquiet hidle hstep => step_untried hquiet hidle hstep)
      (fun _ _ hno => absurd hno Bool.false_ne_true) hrun
  · intro hall
    apply Runs.along_of_forall
    rintro fs ⟨h, a⟩ gs m heq hrun hbegins hsome
    obtain ⟨m', hstep⟩ := Option.isSome_iff_exists.mp hsome
    have hnoted : untried cfg home (fs ++ [(h, a)]) (m.sys.domain h) h = true := by
      have hconcat : untried cfg home (fs ++ [(h, a)]) =
          (untried cfg home fs).note cfg m (h, a) := Runs.watch_concat hrun hstep
      rw [hconcat, Untried.note, if_pos ⟨rfl, rfl⟩, if_pos hbegins]
    have hnone := hall (fs ++ [(h, a)]) gs m' (by rw [heq, List.append_assoc]; rfl)
      (Runs.run_concat hrun hstep) _ _ hnoted
    exact (begins_noneRunning hbegins hstep).mp hnone hbegins hsome

/-- Two harts of a domain are started.  The global software event is delivered to hart 0,
    which stops in the handler and is started again by hart 1. -/
def restartInHandler : List (Nat × Move .rv64) :=
  [(0, .hsm .started), (0, .starts), (1, .hsm .started), (1, .starts),
   (0, .call (.sseRegister 0xffff8000 0x80200000 0)), (0, .call (.sseEnable 0xffff8000)),
   (0, .call .sseHartUnmask), (0, .flags), (0, .call (.sseInject 0xffff8000 0)),
   (0, .trapEnd), (0, .takes ⟨0, 0, 0, 0⟩), (0, .call .hartStop), (0, .hsm .stopped),
   (1, .call (.hartStart 0 0x80200000 0 true)), (0, .starts), (0, .hsm .started)]

/-- The event is running on the hart that has just been started, and a completion takes
    it for its own. -/
theorem started_with_stale_event :
    ∃ m, run twoDomains (init fun _ => 1) restartInHandler = some m ∧
      untried twoDomains (fun _ => 1) restartInHandler 1 0 = true ∧
      (m.sys.event 1 (.global 2)).state = .running ∧ (m.sys.event 1 (.global 2)).hart = 0 ∧
      (sseComplete twoDomains m.sys 0).2 = true :=
  Runs.exists_end (by decide +kernel)

end RiscvMonitor.Sse.Machine
