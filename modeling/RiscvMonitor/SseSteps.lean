import RiscvMonitor.EventLife

/-!
# What a step does to the events and the flags

Whatever a hart does, the events live on as `Life` has it, and a flag that was set stays
set, unless its own hart has seen that nothing is due.
-/

namespace RiscvMonitor.Sse

variable {x : Xlen}

namespace Machine

variable {cfg : Config x} {m m' : Machine x} {h : Nat} {a : Move x}

/-- No switch of the hart to another domain is under way. -/
def settled (m : Machine x) (h : Nat) : Prop := m.place h ≠ .arrived ∧ ∀ b, m.place h ≠ .between b

/-- What a step of hart `h` does to the events, and to the flags. -/
structure Effect (cfg : Config x) (m : Machine x) (h : Nat) (a : Move x) (m' : Machine x) :
    Prop where
  life : ∀ d slot,
    Life m'.sys.kick (cfg.nameOf slot) (m.sys.event d slot) (m'.sys.event d slot) ∨
    (d = m.sys.domain h ∧ slot ∈ cfg.slots h ∧ m.place h = .outside ∧
      m.sys.ran d h = true ∧ Registers (m.sys.event d slot) (m'.sys.event d slot)) ∨
    ∃ saved, a = .takes saved ∧ m.place h = .looked ∧ d = m.sys.domain h ∧
      injects cfg m.sys h = some slot ∧ m'.sys.event d slot = inject (m.sys.event d slot) saved
  kick : ∀ i, m.sys.kick i = true →
    m'.sys.kick i = true ∨ i = h ∧ topEvent cfg m.sys h .enabled = none
  other : ∀ i, i ≠ h → m'.place i = m.place i ∧ m'.sys.domain i = m.sys.domain i
  self : m'.settled h → m.settled h ∧ m'.sys.domain h = m.sys.domain h ∨ m'.sys.kick h = true

theorem Effect.of_lives {P : Nat → Slot → Prop} (hlives : Lives cfg P m.sys m'.sys)
    (hP : ∀ d slot, P d slot → d = m.sys.domain h ∧ slot ∈ cfg.slots h ∧
      m.place h = .outside ∧ m.sys.ran d h = true)
    (hplace : m'.place = m.place) (hdomain : m'.sys.domain = m.sys.domain) :
    Effect cfg m h a m' where
  life d slot := by
    rcases hlives.life d slot with hlife | ⟨hopen, hregisters⟩
    · exact .inl hlife
    · obtain ⟨hd, hslot, houtside, hran⟩ := hP d slot hopen
      exact .inr (.inl ⟨hd, hslot, houtside, hran, hregisters⟩)
  kick i hi := .inl (hlives.kick i hi)
  other i _ := ⟨congrFun hplace i, congrFun hdomain i⟩
  self hsettled := by
    rw [settled, hplace] at hsettled
    exact .inl ⟨hsettled, congrFun hdomain h⟩

theorem Effect.of_same (hglobals : m'.sys.globals = m.sys.globals)
    (hlocals : m'.sys.locals = m.sys.locals) (hkick : m'.sys.kick = m.sys.kick)
    (hother : ∀ i, i ≠ h → m'.place i = m.place i ∧ m'.sys.domain i = m.sys.domain i)
    (hself : m'.settled h → m.settled h ∧ m'.sys.domain h = m.sys.domain h) :
    Effect cfg m h a m' where
  life d slot := by
    have hlives : Lives cfg (fun _ _ => False) m.sys m'.sys := .of_same hglobals hlocals hkick
    exact .inl ((hlives.life d slot).resolve_right fun hno => hno.1)
  kick i hi := .inl (by rwa [hkick])
  other := hother
  self hsettled := .inl (hself hsettled)

theorem setPlace_other {p : Place} {i : Nat} (hi : i ≠ h) : (m.setPlace h p).place i = m.place i :=
  Function.update_of_ne hi _ _

theorem settled_of_outside (houtside : m.place h = .outside) : m.settled h := by
  rw [settled, houtside]
  exact ⟨nofun, nofun⟩

theorem outsideStep_effect (houtside : m.place h = .outside)
    (hstep : outsideStep cfg m h a = some m') : Effect cfg m h a m' := by
  have hsettled := settled_of_outside houtside
  unfold outsideStep at hstep
  split at hstep
  all_goals repeat' first | cases hstep | split at hstep
  · exact .of_same rfl rfl rfl (fun _ _ => ⟨rfl, rfl⟩) fun hs => ⟨hs, rfl⟩
  · exact .of_same rfl rfl rfl (fun _ hi => ⟨setPlace_other hi, rfl⟩) fun _ => ⟨hsettled, rfl⟩
  · next hran _ _ =>
    refine .of_lives (ecall_lives cfg m.sys h _) ?_ rfl (ecall_stays ..).domain
    rintro d slot ⟨rfl, hslot⟩
    exact ⟨rfl, hslot, houtside, hran⟩
  · split
    · exact .of_same rfl rfl rfl (fun _ hi => ⟨setPlace_other hi, rfl⟩) fun _ => ⟨hsettled, rfl⟩
    · exact .of_same rfl rfl rfl (fun _ _ => ⟨rfl, rfl⟩) fun hs => ⟨hs, rfl⟩
  · have hlives : Lives cfg (fun _ _ => False) m.sys (sseHartInit cfg m.sys h) :=
      sseHartInit_lives
    refine .of_lives (P := fun _ _ => False) ⟨hlives.kick, ?_⟩ nofun rfl sseHartInit_domain
    intro d slot
    have hlife := hlives.life d slot
    cases slot <;> exact hlife
  · refine .of_same rfl rfl rfl ?_ ?_
    · intro i hi
      exact ⟨setPlace_other hi, Function.update_of_ne hi _ _⟩
    · intro hno
      exact absurd (Function.update_self h _ m.place) (hno.2 _)
  · exact .of_same rfl rfl rfl (fun _ _ => ⟨rfl, rfl⟩) fun hs => ⟨hs, rfl⟩
  · exact .of_lives (P := fun _ _ => False) sseRaiseLocal_lives nofun rfl sseRaiseLocal_stays.domain
  · exact .of_lives (P := fun _ _ => False) sseRaiseGlobal_lives nofun rfl
      sseRaiseGlobal_stays.domain
  all_goals exact .of_same rfl rfl rfl (fun _ _ => ⟨rfl, rfl⟩) fun hs => ⟨hs, rfl⟩

theorem setKick_effect {p : Place} :
    Effect cfg m h a ({ m with sys := m.sys.setKick h }.setPlace h p) where
  life d slot := by
    left
    rw [setPlace_sys, setKick_event]
    exact .same
  kick i hi := by
    left
    rw [setPlace_sys, Sys.setKick_kick]
    exact update_true hi
  other i hi := ⟨setPlace_other hi, rfl⟩
  self _ := by
    right
    rw [setPlace_sys, Sys.setKick_kick, Function.update_self]

theorem step_effect (hstep : step cfg m h a = some m') : Effect cfg m h a m' := by
  unfold step at hstep
  split_ifs at hstep
  split at hstep
  · next houtside => exact outsideStep_effect houtside hstep
  · next saved hlooked =>
    cases hstep
    refine ⟨?_, ?_, ?_, ?_⟩
    · intro d slot
      rw [setPlace_sys, sseProcessLocked_event]
      split
      · next hat => exact .inr (.inr ⟨saved, rfl, hlooked, hat.1, hat.2, rfl⟩)
      · exact .inl .same
    · exact fun i hi => sseProcessLocked_kick saved hi
    · exact fun i hi => ⟨setPlace_other hi, congrFun (sseProcessLocked_stays saved).domain i⟩
    · intro _
      refine .inl ⟨?_, congrFun (sseProcessLocked_stays saved).domain h⟩
      rw [settled, hlooked]
      exact ⟨nofun, nofun⟩
  · cases hstep
    exact setKick_effect
  · next fresh _ =>
    cases hstep
    have hgone : ¬ ({ m with sys := if fresh = true then sseHartInit cfg m.sys h
        else m.sys }.setPlace h .arrived).settled h := fun hno =>
      hno.1 (Function.update_self h _ m.place)
    cases fresh with
    | true =>
      have hlives : Lives cfg (fun _ _ => False) m.sys (sseHartInit cfg m.sys h) :=
        sseHartInit_lives
      refine ⟨?_, ?_, ?_, fun hno => absurd hno hgone⟩
      · exact fun d slot => .inl ((hlives.life d slot).resolve_right fun hno => hno.1)
      · exact fun i hi => .inl (hlives.kick i hi)
      · exact fun i hi => ⟨setPlace_other hi, congrFun sseHartInit_domain i⟩
    | false =>
      exact .of_same rfl rfl rfl (fun _ hi => ⟨setPlace_other hi, rfl⟩)
        fun hno => absurd hno hgone
  · cases hstep
    exact setKick_effect
  · cases hstep

end Machine

end RiscvMonitor.Sse
