import RiscvMonitor.StartedClean

/-!
# The names of the events

No two events of a domain that a hart looks at have the same name, and an event that is
in use has the one of its place in the tables.  So two of them are never of equal rank.
-/

namespace RiscvMonitor.Sse

open Function (forall_update_iff update_of_ne update_self)

variable {x : Xlen}

/-! ### The tables -/

theorem globalIds_nodup (cfg : Config x) : cfg.globalIds.Nodup := by
  have hmpxy : ∀ n < 64, 0x0010c000 + n ∉ [0x00008000, 0x00108000, globalSoftware] := by decide
  rw [Config.globalIds, List.nodup_append]
  refine ⟨by decide, ?_, ?_⟩
  · exact List.nodup_range.map fun i j hij => Nat.add_left_cancel hij
  · intro a ha b hb hab
    obtain ⟨n, hn, rfl⟩ := List.mem_map.mp hb
    have hlt : n < cfg.mpxyEvents.val := List.mem_range.mp hn
    have hle := cfg.mpxyEvents.isLt
    exact hmpxy n (by omega) (hab ▸ ha)

theorem nameOf_injective {cfg : Config x} {h : Nat} {p q : Slot} (hp : p ∈ cfg.slots h)
    (hq : q ∈ cfg.slots h) (hname : cfg.nameOf p = cfg.nameOf q) : p = q := by
  have hlocals : ∀ i < localIds.length, ∀ j < localIds.length,
      localIds.getD i 0 = localIds.getD j 0 → i = j := by decide
  rcases mem_slots_iff.mp hp with ⟨i, hi, rfl⟩ | ⟨i, hi, rfl⟩
  · rcases mem_slots_iff.mp hq with ⟨j, hj, rfl⟩ | ⟨j, hj, rfl⟩
    · rw [hlocals i hi j hj hname]
    · have hglobal := isGlobal_globalIds cfg hj
      rw [Config.nameOf, Config.nameOf] at hname
      rw [← hname, isGlobal_localIds i hi] at hglobal
      cases hglobal
  · rcases mem_slots_iff.mp hq with ⟨j, hj, rfl⟩ | ⟨j, hj, rfl⟩
    · have hglobal := isGlobal_globalIds cfg hi
      rw [Config.nameOf, Config.nameOf] at hname
      rw [hname, isGlobal_localIds j hj] at hglobal
      cases hglobal
    · rw [Config.nameOf, Config.nameOf, List.getD_eq_getElem?_getD, List.getD_eq_getElem?_getD,
        List.getElem?_eq_getElem hi, List.getElem?_eq_getElem hj, Option.getD_some,
        Option.getD_some, (globalIds_nodup cfg).getElem_inj_iff] at hname
      rw [hname]

namespace Machine

variable {cfg : Config x} {m m' : Machine x} {h : Nat} {a : Move x}

/-! ### Which tables are in use -/

def InUse (m : Machine x) (d h : Nat) : Prop :=
  m.sys.ran d h = true ∧ ¬ (m.sys.domain h = d ∧ m.place h = .between true)

structure Uses (m : Machine x) (h : Nat) (a : Move x) (m' : Machine x) : Prop where
  inUse : ∀ d i, m'.InUse d i → m.InUse d i ∨ begins m h a = true ∧ d = m.sys.domain h ∧ i = h
  ready : ∀ d, m'.sys.globalsReady d = true →
    m.sys.globalsReady d = true ∨ begins m h a = true ∧ d = m.sys.domain h

theorem Uses.of_stays (hdomain : m'.sys.domain = m.sys.domain)
    (hran : ∀ d i, m'.sys.ran d i = true → m.sys.ran d i = true)
    (hready : ∀ d, m'.sys.globalsReady d = true → m.sys.globalsReady d = true)
    (hplace : ∀ i, m.place i = .between true → m'.place i = .between true) : Uses m h a m' where
  inUse d i hin := by
    left
    refine ⟨hran d i hin.1, ?_⟩
    rintro ⟨hd, hfresh⟩
    exact hin.2 ⟨by rw [hdomain, hd], hplace i hfresh⟩
  ready d hset := .inl (hready d hset)

theorem Stays.uses (hstays : Stays m.sys m'.sys)
    (hplace : ∀ i, m.place i = .between true → m'.place i = .between true) : Uses m h a m' :=
  .of_stays hstays.domain (fun d i hran => by rwa [hstays.ran] at hran)
    (fun d hset => by rwa [hstays.ready] at hset) hplace

theorem sseHartInit_ready {s : Sys x} {d : Nat}
    (hready : (sseHartInit cfg s h).globalsReady d = true) :
    s.globalsReady d = true ∨ d = s.domain h := by
  unfold sseHartInit at hready
  dsimp only at hready
  split at hready
  · exact .inl hready
  · by_cases hd : d = s.domain h
    · exact .inr hd
    · dsimp only at hready
      rw [update_of_ne hd] at hready
      exact .inl hready

theorem setPlace_between {p : Place} (hp : m.place h ≠ .between true) (i : Nat)
    (hi : m.place i = .between true) : (m.setPlace h p).place i = .between true := by
  have hne : i ≠ h := by
    rintro rfl
    exact hp hi
  rw [setPlace_other hne]
  exact hi

theorem moves_uses {d : Nat} {keeps : Bool} (houtside : m.place h = .outside)
    (hran : m.sys.ran (m.sys.domain h) h = true) (hne : d ≠ m.sys.domain h) :
    Uses m h a ({ m with sys := m.sys.moveTo h d keeps }.setPlace h
      (.between (!m.sys.ran d h))) where
  inUse d' i hin := by
    left
    obtain ⟨hranAfter, hsettled⟩ := hin
    by_cases hi : i = h
    · subst hi
      refine ⟨?_, fun hno => by rw [houtside] at hno; cases hno.2⟩
      rcases moveTo_ran (.inr hran) hranAfter with ⟨rfl, -⟩ | hold
      · -- a context that is not fresh has run
        by_contra hfresh
        rw [Bool.not_eq_true] at hfresh
        apply hsettled
        refine ⟨update_self _ _ _, ?_⟩
        rw [setPlace_place, update_self, hfresh]
        rfl
      · exact hold
    · rcases moveTo_ran (.inr hran) hranAfter with ⟨-, hh⟩ | hold
      · exact absurd hh hi
      · refine ⟨hold, ?_⟩
        rintro ⟨hd, hfresh⟩
        apply hsettled
        refine ⟨?_, (setPlace_other hi).trans hfresh⟩
        rw [setPlace_sys]
        exact (update_of_ne hi _ _).trans hd
  ready _ hset := .inl hset

theorem Uses.of_begins (hbegins : begins m h a = true) (hdomain : m'.sys.domain = m.sys.domain)
    (hready : m'.sys.globalsReady = (sseHartInit cfg m.sys h).globalsReady)
    (hran : ∀ d i, m'.sys.ran d i = true → m.sys.ran d i = true ∨ d = m.sys.domain h ∧ i = h)
    (hplace : ∀ i ≠ h, m'.place i = m.place i) : Uses m h a m' where
  inUse d i hin := by
    by_cases hat : d = m.sys.domain h ∧ i = h
    · exact .inr ⟨hbegins, hat⟩
    · refine .inl ⟨(hran d i hin.1).resolve_right hat, ?_⟩
      rintro ⟨rfl, hfresh⟩
      have hi : i ≠ h := by
        rintro rfl
        exact hat ⟨rfl, rfl⟩
      exact hin.2 ⟨congrFun hdomain i, (hplace i hi).trans hfresh⟩
  ready d hset := by
    rw [hready] at hset
    exact (sseHartInit_ready hset).imp_right fun hd => ⟨hbegins, hd⟩

theorem outsideStep_uses (houtside : m.place h = .outside)
    (hstep : outsideStep cfg m h a = some m') : Uses m h a m' := by
  have hplace : ∀ p i, m.place i = .between true → (m.setPlace h p).place i = .between true :=
    fun p => setPlace_between (by simp [houtside])
  have hready : ∀ d e, (sseDomainReset m.sys d).globalsReady e = true →
      m.sys.globalsReady e = true := fun d =>
    (forall_update_iff m.sys.globalsReady fun e b => b = true → m.sys.globalsReady e = true).mpr
      ⟨by rintro ⟨⟩, fun _ _ => id⟩
  unfold outsideStep at hstep
  split at hstep
  all_goals repeat' first | cases hstep | split at hstep
  · exact Stays.uses (.refl _) fun _ hi => hi
  · exact Stays.uses ⟨rfl, rfl, rfl⟩ (hplace _)
  · exact Stays.uses (ecall_stays ..) fun _ hi => hi
  · split
    · exact Stays.uses (.refl _) (hplace _)
    · exact Stays.uses (.refl _) fun _ hi => hi
  · refine .of_begins (by simp only [begins, houtside]) sseHartInit_domain rfl ?_ fun _ _ => rfl
    refine (forall_update_iff m.sys.ran fun d ran => ∀ i, ran i = true →
      m.sys.ran d i = true ∨ d = m.sys.domain h ∧ i = h).mpr ⟨?_, fun _ _ _ => .inl⟩
    exact (forall_update_iff (m.sys.ran _) fun i b => b = true → _ ∨ _ ∧ i = h).mpr
      ⟨fun _ => .inr ⟨rfl, rfl⟩, fun _ _ => .inl⟩
  · next hfrom => exact moves_uses houtside hfrom.1 hfrom.2
  · exact Stays.uses ⟨rfl, rfl, rfl⟩ fun _ hi => hi
  · exact Stays.uses sseRaiseLocal_stays fun _ hi => hi
  · exact Stays.uses sseRaiseGlobal_stays fun _ hi => hi
  · refine .of_stays rfl ?_ (fun _ hset => hset) fun _ hi => hi
    exact (forall_update_iff m.sys.ran fun d ran => ∀ i, ran i = true → m.sys.ran d i = true).mpr
      ⟨fun i hran => (Bool.and_eq_true_iff.mp hran).1, fun _ _ _ => id⟩
  · exact .of_stays rfl (fun _ _ hran => hran) (hready _) fun _ hi => hi
  · refine .of_stays rfl ?_ (hready _) fun _ hi => hi
    exact (forall_update_iff m.sys.ran fun d ran => ∀ i, ran i = true → m.sys.ran d i = true).mpr
      ⟨by rintro _ ⟨⟩, fun _ _ _ => id⟩

theorem arrives_uses (hplace : m.place h = .between true) :
    Uses m h .arrives ({ m with sys := sseHartInit cfg m.sys h }.setPlace h .arrived) := by
  refine .of_begins (by simp only [begins, hplace]) sseHartInit_domain rfl ?_
    fun _ hi => setPlace_other hi
  intro d i hran
  rw [setPlace_sys, sseHartInit_ran] at hran
  exact .inl hran

theorem step_uses (hstep : step cfg m h a = some m') : Uses m h a m' := by
  unfold step at hstep
  split_ifs at hstep
  split at hstep
  · next houtside => exact outsideStep_uses houtside hstep
  · next saved hlooked =>
    cases hstep
    exact Stays.uses (sseProcessLocked_stays saved)
      (setPlace_between (m := { m with sys := _ }) (by rw [hlooked]; nofun))
  · next hplace =>
    cases hstep
    exact Stays.uses ⟨rfl, rfl, rfl⟩
      (setPlace_between (m := { m with sys := _ }) (by rw [hplace]; nofun))
  · next fresh hplace =>
    cases hstep
    cases fresh with
    | true => exact arrives_uses hplace
    | false =>
      exact Stays.uses (.refl _)
        (setPlace_between (m := { m with sys := m.sys }) (by rw [hplace]; nofun))
  · next hplace =>
    cases hstep
    exact Stays.uses ⟨rfl, rfl, rfl⟩
      (setPlace_between (m := { m with sys := _ }) (by rw [hplace]; nofun))
  · cases hstep

/-! ### Names -/

structure Named (cfg : Config x) (m : Machine x) : Prop where
  used : ∀ d slot, (m.sys.event d slot).state ≠ .unused →
    (m.sys.event d slot).id = cfg.nameOf slot
  inUse : ∀ d h, m.InUse d h → ∀ slot ∈ cfg.slots h,
    (m.sys.event d slot).id = cfg.nameOf slot
  ready : ∀ d, m.sys.globalsReady d = true → ∀ i < cfg.globalIds.length,
    (m.sys.globals d i).id = cfg.globalIds.getD i 0

theorem step_id (hstep : step cfg m h a = some m') (d : Nat) (slot : Slot) :
    (m'.sys.event d slot).id = (m.sys.event d slot).id ∨
      (m'.sys.event d slot).id = cfg.nameOf slot := by
  rcases (step_effect hstep).life d slot with hlife | hregisters | hinjected
  · generalize m'.sys.event d slot = e' at hlife
    cases hlife with
    | reset _ _ hname => exact hname
    | _ => exact .inl rfl
  · obtain ⟨-, -, -, -, -, attr, heq⟩ := hregisters
    rw [heq]
    exact .inl rfl
  · obtain ⟨saved, -, -, -, -, heq⟩ := hinjected
    rw [heq]
    exact .inl rfl

theorem begins_named (hnamed : Named cfg m) (hbegins : begins m h a = true)
    (hstep : step cfg m h a = some m') :
    ∀ slot ∈ cfg.slots h, (m'.sys.event (m.sys.domain h) slot).id = cfg.nameOf slot := by
  obtain ⟨hglobals, hlocals⟩ := begins_sys hbegins hstep
  intro slot hslot
  rcases mem_slots_iff.mp hslot with ⟨i, hi, rfl⟩ | ⟨i, hi, rfl⟩
  · rw [Sys.event, hlocals, sseHartInit_locals, if_pos ⟨rfl, rfl, hi⟩]
    rfl
  · rw [Sys.event, hglobals, sseHartInit_globals_eq]
    split
    · rfl
    · next hkept =>
      have hready : m.sys.globalsReady (m.sys.domain h) = true := by
        by_contra hno
        exact hkept ⟨rfl, Bool.not_eq_true _ ▸ hno, hi⟩
      exact hnamed.ready _ hready i hi

theorem step_named (hnamed : Named cfg m) (hstep : step cfg m h a = some m') : Named cfg m' := by
  have huses := step_uses hstep
  have hkeeps : ∀ d slot, (m.sys.event d slot).id = cfg.nameOf slot →
      (m'.sys.event d slot).id = cfg.nameOf slot := by
    intro d slot hname
    rcases step_id hstep d slot with hid | hid
    · exact hid.trans hname
    · exact hid
  constructor
  case used =>
    intro d slot hstate
    apply hkeeps
    rcases (step_effect hstep).life d slot with hlife | hregisters | hinjected
    · apply hnamed.used
      intro hunused
      generalize m'.sys.event d slot = e' at hlife hstate
      cases hlife with
      | same => exact hstate hunused
      | raised i hrunning hkick => exact hstate hunused
      | written attr hidle => exact hstate hunused
      | enabled i hold hkick => cases hold.symm.trans hunused
      | disabled hold => cases hold.symm.trans hunused
      | reset _ hreset => exact hstate hreset
      | completed state hold hnext hkick => cases hold.symm.trans hunused
    · obtain ⟨rfl, hslot, houtside, hran, -⟩ := hregisters
      refine hnamed.inUse _ h ⟨hran, ?_⟩ slot hslot
      rintro ⟨-, hfresh⟩
      cases houtside.symm.trans hfresh
    · obtain ⟨saved, -, -, rfl, hinjects, -⟩ := hinjected
      obtain ⟨henabled, -⟩ := candidate_iff.mp (topEvent_mem (injects_spec hinjects).1).2
      apply hnamed.used
      rw [henabled]
      nofun
  case inUse =>
    intro d i hin slot hslot
    rcases huses.inUse d i hin with hold | ⟨hbegins, rfl, rfl⟩
    · exact hkeeps d slot (hnamed.inUse d i hold slot hslot)
    · exact begins_named hnamed hbegins hstep slot hslot
  case ready =>
    intro d hset i hi
    rcases huses.ready d hset with hold | ⟨hbegins, rfl⟩
    · exact hkeeps d (.global i) (hnamed.ready d hold i hi)
    · exact begins_named hnamed hbegins hstep (.global i) (mem_slots_iff.mpr (.inr ⟨i, hi, rfl⟩))

theorem init_named (cfg : Config x) (home : Nat → Nat) : Named cfg (init home) where
  used d slot hstate := by
    cases slot <;> exact absurd rfl hstate
  inUse d h hin := absurd hin.1 Bool.false_ne_true
  ready d hset := absurd hset Bool.false_ne_true

end Machine

end RiscvMonitor.Sse
