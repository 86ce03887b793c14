import RiscvMonitor.SseSteps

/-!
# No event that is due is overlooked

A hart takes the lock on its way back to S-mode only if its flag is set.  The flag is
one for all domains of a hart.  It is taken back by the hart alone, under the lock,
when nothing is due for the domain it runs; the switch to another domain sets it again.
In the middle of a switch a hart runs no domain.
-/

namespace RiscvMonitor.Sse.Machine

variable {x : Xlen} {cfg : Config x} {m m' : Machine x} {h : Nat} {a : Move x}

def runs (m : Machine x) (h : Nat) : Option Nat :=
  match m.place h with
  | .between _ | .arrived => none
  | .outside | .looked | .unmasking => some (m.sys.domain h)

theorem runs_eq_some {d : Nat} (hruns : m.runs h = some d) : m.settled h ∧ m.sys.domain h = d := by
  unfold runs at hruns
  unfold settled
  cases hplace : m.place h <;> rw [hplace] at hruns <;> cases hruns <;> exact ⟨⟨nofun, nofun⟩, rfl⟩

def Due (e : Event x) (h : Nat) : Prop := e.state = .enabled ∧ e.pending = true ∧ e.hart = h

theorem Due.before {kicked : Nat → Bool} {name : Nat} {e e' : Event x} (hdue : Due e' h)
    (hlife : Life kicked name e e') : Due e h ∨ kicked h = true := by
  obtain ⟨hstate, hpending, hhart⟩ := hdue
  cases hlife with
  | same => exact .inl ⟨hstate, hpending, hhart⟩
  | raised i hrunning hkick => exact .inr (hhart ▸ hkick)
  | written attr hidle => exact .inl ⟨hstate, hpending, hhart⟩
  | enabled i hold hkick => exact .inr (hhart ▸ hkick hpending)
  | disabled hold => cases hstate
  | reset _ hunused => cases hstate.symm.trans hunused
  | completed state hold hnext hkick => exact .inr (hhart ▸ hkick)

/-- The flag of a hart that is not between two domains covers what is due for it. -/
def Flagged (cfg : Config x) (m : Machine x) : Prop :=
  ∀ h, m.settled h → ∀ slot ∈ cfg.slots h, Due (m.sys.event (m.sys.domain h) slot) h →
    m.sys.kick h = true

theorem step_flagged (hflagged : Flagged cfg m) (hstep : step cfg m h a = some m') :
    Flagged cfg m' := by
  have heffect := step_effect hstep
  intro i hsettled slot hslot hdue
  -- the hart was settled in the same domain before, or the step has set its flag
  have hbefore : (m.settled i ∧ m'.sys.domain i = m.sys.domain i) ∨ m'.sys.kick i = true := by
    by_cases hi : i = h
    · subst hi
      exact heffect.self hsettled
    · obtain ⟨hplace, hdomain⟩ := heffect.other i hi
      rw [settled, hplace] at hsettled
      exact .inl ⟨hsettled, hdomain⟩
  rcases hbefore with ⟨hsettled, hdomain⟩ | hkick
  · rw [hdomain] at hdue
    have hlife : Life m'.sys.kick (cfg.nameOf slot) (m.sys.event (m.sys.domain i) slot)
        (m'.sys.event (m.sys.domain i) slot) := by
      rcases heffect.life (m.sys.domain i) slot with hlife | hregisters | hinjected
      · exact hlife
      · obtain ⟨-, -, -, -, -, attr, heq⟩ := hregisters
        rw [heq] at hdue
        cases hdue.1
      · obtain ⟨saved, -, -, -, -, heq⟩ := hinjected
        rw [heq] at hdue
        cases hdue.1
    rcases hdue.before hlife with hdueBefore | hkick
    · rcases heffect.kick i (hflagged i hsettled slot hslot hdueBefore) with hkick | ⟨rfl, hnone⟩
      · exact hkick
      · -- the flag is taken back only if a scan found nothing
        have hno := topEvent_none hnone slot hslot
        have hcand : candidate m.sys i .enabled slot = true :=
          candidate_iff.mpr ⟨hdueBefore.1, hdueBefore.2.2, fun _ => hdueBefore.2.1⟩
        exact absurd (hno.symm.trans hcand) Bool.false_ne_true
    · exact hkick
  · exact hkick

/-- In every state that the harts reach, in whatever order they take their steps, an event
    of the domain that a hart runs which is enabled, pending and for this hart has the
    hart's flag set. -/
theorem due_event_flagged (cfg : Config x) (home : Nat → Nat) (es : List (Nat × Move x))
    (m : Machine x) (hrun : run cfg (init home) es = some m) (h d : Nat)
    (hruns : m.runs h = some d) (slot : Slot) (hslot : slot ∈ cfg.slots h)
    (henabled : (m.sys.event d slot).state = .enabled)
    (hpending : (m.sys.event d slot).pending = true)
    (hhart : (m.sys.event d slot).hart = h) : m.sys.kick h = true := by
  have hinit : Flagged cfg (init home) := by
    intro i _ slot _ hdue
    cases slot <;> cases hdue.1
  have hflagged : Flagged cfg m := Runs.Along.invariant (I := Flagged cfg)
    (fun _ _ _ hold _ hstep => step_flagged hold hstep) hinit (Runs.along_true _ _ _) hrun
  obtain ⟨hsettled, rfl⟩ := runs_eq_some hruns
  exact hflagged h hsettled slot hslot ⟨henabled, hpending, hhart⟩

/-- Hart 1 raises an event for hart 0 of the same domain, which takes none just now. -/
theorem due_event_flagged_masked :
    ∃ m, run twoDomains (init fun _ => 1)
        [(0, .hsm .started), (0, .starts), (1, .hsm .started), (1, .starts),
         (0, .call (.sseRegister 0xffff0000 0x80200000 0)), (0, .call (.sseEnable 0xffff0000)),
         (1, .call (.sseInject 0xffff0000 0))] = some m ∧
      m.runs 0 = some 1 ∧ Due (m.sys.event 1 (.onHart 0 4)) 0 ∧ m.sys.kick 0 = true := by
  have hview : ∃ m ∈ run twoDomains (init fun _ => 1)
      [(0, .hsm .started), (0, .starts), (1, .hsm .started), (1, .starts),
       (0, .call (.sseRegister 0xffff0000 0x80200000 0)), (0, .call (.sseEnable 0xffff0000)),
       (1, .call (.sseInject 0xffff0000 0))],
      m.runs 0 = some 1 ∧ (m.sys.event 1 (.onHart 0 4)).state = .enabled ∧
        (m.sys.event 1 (.onHart 0 4)).pending = true ∧
        (m.sys.event 1 (.onHart 0 4)).hart = 0 := by decide +kernel
  obtain ⟨m, hm, hruns, henabled, hpending, hhart⟩ := hview
  exact ⟨m, hm, hruns, ⟨henabled, hpending, hhart⟩, due_event_flagged twoDomains _ _ m hm 0 1 hruns
    (.onHart 0 4) (by decide) henabled hpending hhart⟩

end RiscvMonitor.Sse.Machine
