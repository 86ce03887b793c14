import RiscvMonitor.EventTargets
import RiscvMonitor.Runs

/-!
# How far a call of a domain reaches

In every state that a run reaches, a call of a domain leaves the other domains and
their harts alone exactly if it is contained: a global event that becomes pending
has a hart of the domain that listens, or prefers one of the domain's.
-/

namespace RiscvMonitor.Sse

open Function (forall_update_iff update update_of_ne update_self)

variable {x : Xlen} {cfg : Config x} {s t : Sys x} {self d h : Nat}

/-! ### What an operation keeps -/

theorem Inited.of_frame {own : Nat → Prop} (hin : Inited cfg s) (hframe : Frame own d s t) :
    Inited cfg t where
  assigned h := by
    rw [hframe.domain, hframe.assigned]
    exact hin.assigned h
  onHart d' h i := by
    rw [(hframe.sameLocal d' h i).1, (hframe.sameLocal d' h i).2]
    exact hin.onHart d' h i
  locals d' h hran i hi := by
    rw [hframe.ran] at hran
    rw [(hframe.sameLocal d' h i).2]
    exact hin.locals d' h hran i hi
  globals d' hused i hi := by
    rw [hframe.ran, hframe.globalsReady] at hused
    rw [hframe.sameGlobal d' i]
    exact hin.globals d' hused i hi

theorem Inited.setKick (hin : Inited cfg s) (i : Nat) : Inited cfg (s.setKick i) := by
  have hframe : Frame (fun _ => True) (s.domain i) s (s.setKick i) := setKick_frame trivial
  exact hin.of_frame hframe

theorem Contained.of_all (cfg : Config x) (s : Sys x) (self : Nat) (c : Call x) :
    Contained (fun _ => True) cfg s self c := by
  have hnames : ∀ d e, NamesOwn (fun _ => True) cfg s d e := fun _ _ => .inr fun _ _ => trivial
  cases c with
  | sseInject eventId hartid =>
    intro slot _ e _
    split
    · trivial
    · exact hnames _ e
  | sseEnable eventId => exact fun slot _ _ _ _ => hnames _ _
  | _ => trivial

theorem sseRaiseLocal_frame {id : Word x} (hin : Inited cfg s) :
    Frame (fun _ => True) (s.domain self) s (sseRaiseLocal cfg s self id).1 := by
  rcases sseRaiseLocal_cases cfg s self id with hsame | ⟨slot, hraised⟩
  · rw [hsame]
    exact .refl s
  · rw [hraised]
    exact makePending_frame trivial fun h i _ => (hin.onHart _ h i).1

theorem sseRaiseGlobal_frame {id : Nat} :
    Frame (fun _ => True) d s (sseRaiseGlobal cfg s self id d) :=
  sseRaiseGlobal_rule (.refl s) fun _ _ ht => ht.trans (makePending_frame trivial nofun)

/-! ### Where the harts are -/

theorem moveTo_assigned {keeps : Bool} (hassigned : ∀ i, s.assigned (s.domain i) i = true)
    (i : Nat) : (s.moveTo h d keeps).assigned ((s.moveTo h d keeps).domain i) i = true := by
  by_cases hi : i = h
  · simp [Sys.moveTo, hi]
  · simp [Sys.moveTo, hi, hassigned i]

theorem moveTo_ran {keeps : Bool} {d' i : Nat}
    (hfrom : d = s.domain h ∨ s.ran (s.domain h) h = true)
    (hran : (s.moveTo h d keeps).ran d' i = true) : (d' = d ∧ i = h) ∨ s.ran d' i = true := by
  simp only [Sys.moveTo] at hran
  split at hran
  · next hi =>
    subst hi
    split at hran
    · next hd => exact .inl ⟨hd, rfl⟩
    · next hd =>
      split at hran
      · next hhere =>
        subst hhere
        rcases hfrom with hsame | hrun
        · exact absurd hsame.symm hd
        · exact .inr hrun
      · exact .inr hran
  · exact .inr hran

/-! ### `sse_hart_init()` -/

@[simp] theorem sseHartInit_domain : (sseHartInit cfg s self).domain = s.domain := by
  unfold sseHartInit
  dsimp only
  split <;> rfl

@[simp] theorem sseHartInit_assigned : (sseHartInit cfg s self).assigned = s.assigned := by
  unfold sseHartInit
  dsimp only
  split <;> rfl

@[simp] theorem sseHartInit_ran : (sseHartInit cfg s self).ran = s.ran := by
  unfold sseHartInit
  dsimp only
  split <;> rfl

theorem sseHartInit_locals (d' h i : Nat) :
    (sseHartInit cfg s self).locals d' h i =
      if d' = s.domain self ∧ h = self ∧ i < localIds.length then
        eventReset cfg (localIds.getD i 0) self
      else s.locals d' h i := by
  have hlocals : (sseHartInit cfg s self).locals =
      update s.locals (s.domain self) (update (s.locals (s.domain self)) self
        fun i => if i < localIds.length then eventReset cfg (localIds.getD i 0) self
          else s.locals (s.domain self) self i) := by
    unfold sseHartInit
    dsimp only
    split <;> rfl
  rw [hlocals]
  by_cases hd : d' = s.domain self
  · subst hd
    by_cases hh : h = self
    · subst hh
      simp
    · simp [hh]
  · simp [hd]

theorem sseHartInit_globals (hready : s.globalsReady (s.domain self) = true →
      ∀ i < cfg.globalIds.length, (s.globals (s.domain self) i).id = cfg.globalIds.getD i 0) :
    (∀ i < cfg.globalIds.length, ((sseHartInit cfg s self).globals (s.domain self) i).id =
      cfg.globalIds.getD i 0) ∧
    ∀ d', d' ≠ s.domain self →
      (sseHartInit cfg s self).globals d' = s.globals d' ∧
        (sseHartInit cfg s self).globalsReady d' = s.globalsReady d' := by
  unfold sseHartInit
  dsimp only
  split
  · next hset => exact ⟨hready hset, fun d' _ => ⟨rfl, rfl⟩⟩
  · constructor
    · intro i hi
      simp [hi, eventReset]
    · intro d' hd
      exact ⟨update_of_ne hd _ _, update_of_ne hd _ _⟩

theorem isGlobal_localIds : ∀ i < localIds.length, isGlobal (localIds.getD i 0) = false := by
  decide

theorem sseHartInit_inited {keeps : Bool} (hin : Inited cfg s)
    (hfrom : d = s.domain h ∨ s.ran (s.domain h) h = true) :
    Inited cfg (sseHartInit cfg (s.moveTo h d keeps) h) := by
  have hdomain : (s.moveTo h d keeps).domain h = d := update_self _ _ _
  have hready : (s.moveTo h d keeps).globalsReady ((s.moveTo h d keeps).domain h) = true →
      ∀ i < cfg.globalIds.length,
        ((s.moveTo h d keeps).globals ((s.moveTo h d keeps).domain h) i).id =
          cfg.globalIds.getD i 0 :=
    fun hset => hin.globals _ (.inl hset)
  obtain ⟨hhere, hother⟩ := sseHartInit_globals hready
  rw [hdomain] at hhere hother
  constructor
  case assigned =>
    intro i
    rw [sseHartInit_domain, sseHartInit_assigned]
    exact moveTo_assigned hin.assigned i
  case onHart =>
    intro d' h' i
    rw [sseHartInit_locals]
    split
    · next hreset =>
      obtain ⟨-, rfl, hi⟩ := hreset
      exact ⟨isGlobal_localIds i hi, fun _ => rfl⟩
    · exact hin.onHart d' h' i
  case locals =>
    intro d' h' hran i hi
    rw [sseHartInit_ran] at hran
    rw [sseHartInit_locals, hdomain]
    split
    · next hreset => exact hreset.2.1.symm
    · next hno =>
      rcases moveTo_ran hfrom hran with ⟨hd, hh⟩ | hran
      · exact absurd ⟨hd, hh, hi⟩ hno
      · exact hin.locals d' h' hran i hi
  case globals =>
    intro d' hused i hi
    by_cases hd : d' = d
    · rw [hd]
      exact hhere i hi
    · rw [(hother d' hd).1]
      apply hin.globals d' _ i hi
      rcases hused with hset | ⟨h', hran⟩
      · rw [(hother d' hd).2] at hset
        exact .inl hset
      · rw [sseHartInit_ran] at hran
        rcases moveTo_ran hfrom hran with ⟨heq, -⟩ | hran
        · exact absurd heq hd
        · exact .inr ⟨h', hran⟩

theorem Inited.of_used (hin : Inited cfg s) (hassigned : ∀ h, t.assigned (t.domain h) h = true)
    (hlocals : t.locals = s.locals) (hglobals : t.globals = s.globals)
    (hran : ∀ d h, t.ran d h = true → s.ran d h = true)
    (hready : ∀ d, t.globalsReady d = true → s.globalsReady d = true) : Inited cfg t where
  assigned := hassigned
  onHart := hlocals ▸ hin.onHart
  locals d h hrun := hlocals ▸ hin.locals d h (hran d h hrun)
  globals d hused := hglobals ▸ hin.globals d
    (hused.imp (hready d) fun ⟨h, hrun⟩ => ⟨h, hran d h hrun⟩)

theorem moveTo_inited {keeps : Bool} (hin : Inited cfg s) (hhere : s.ran (s.domain h) h = true)
    (hthere : s.ran d h = true) : Inited cfg (s.moveTo h d keeps) := by
  refine hin.of_used (moveTo_assigned hin.assigned) rfl rfl (fun d' i hran => ?_) fun _ => id
  rcases moveTo_ran (.inr hhere) hran with ⟨rfl, rfl⟩ | hran
  · exact hthere
  · exact hran

theorem step_inited {a : Act x} (hin : Inited cfg s) (hstep : step cfg s h a = some t) :
    Inited cfg t := by
  have htrue : ∀ i, s.member (s.domain h) i = true → True := fun _ _ => trivial
  unfold step at hstep
  split at hstep
  case isFalse => cases hstep
  split at hstep
  all_goals repeat' first | cases hstep | split at hstep
  · next hran => exact hin.of_frame (ecall_frame hin hran htrue (.of_all cfg s h _))
  · next saved _ =>
    have hframe : Frame (fun _ => True) (s.domain h) s (sseProcess cfg s h saved) :=
      sseProcess_frame trivial
    exact hin.of_frame hframe
  · exact sseHartInit_inited hin (.inl ‹_›)
  · exact (sseHartInit_inited hin (.inr ‹_›)).setKick h
  · next hran => exact (moveTo_inited hin hran.1 hran.2).setKick h
  · next state =>
    have hsignalled : Signalled (fun _ => True) (s.domain h) s (s.setHsm h state) :=
      setHsm_signalled trivial
    exact hin.of_frame hsignalled.toFrame
  · exact hin.of_frame (sseRaiseLocal_frame hin)
  · exact hin.of_frame sseRaiseGlobal_frame
  · refine hin.of_used hin.assigned rfl rfl ?_ fun _ => id
    exact (forall_update_iff s.ran fun d ran => ∀ h, ran h = true → s.ran d h = true).mpr
      ⟨fun h hran => (Bool.and_eq_true_iff.mp hran).1, fun _ _ _ => id⟩
  · refine hin.of_used hin.assigned rfl rfl (fun _ _ => id) ?_
    exact (forall_update_iff s.globalsReady fun d b => b = true → s.globalsReady d = true).mpr
      ⟨by rintro ⟨⟩, fun _ _ => id⟩

theorem init_inited (cfg : Config x) (home : Nat → Nat) : Inited cfg (init home) where
  assigned := fun h => beq_self_eq_true (home h)
  onHart := fun _ _ _ => ⟨show isGlobal 0 = false by decide,
    fun hid => absurd hid (show 0 ≠ localSoftware by decide)⟩
  locals := nofun
  globals := by
    rintro d (hready | ⟨h, hran⟩)
    · exact absurd hready Bool.false_ne_true
    · exact absurd hran Bool.false_ne_true

theorem run_inited {home : Nat → Nat} {es : List (Nat × Act x)}
    (hrun : run cfg (init home) es = some s) : Inited cfg s :=
  Runs.Along.invariant (I := Inited cfg) (fun _ _ _ hin _ hstep => step_inited hin hstep)
    (init_inited cfg home) (Runs.along_true _ _ _) hrun

/-- In every state that a run reaches, a call leaves alone the harts that are not the
    domain's, and the other domains, exactly if it is contained in the domain's harts. -/
theorem call_undisturbed_iff (cfg : Config x) (home : Nat → Nat) (es : List (Nat × Act x))
    (s : Sys x) (hrun : run cfg (init home) es = some s) (self : Nat)
    (hself : s.ran (s.domain self) self = true) (c : Call x) :
    Undisturbed (fun h => s.member (s.domain self) h = true) (s.domain self) s
        (ecall cfg s self c) ↔
      Contained (fun h => s.member (s.domain self) h = true) cfg s self c := by
  have hin := run_inited hrun
  constructor
  · exact contained_of_undisturbed hin hself fun _ hmember => hmember
  · intro hcontained
    exact (ecall_frame hin hself (fun _ hmember => hmember) hcontained).toUndisturbed

def twoDomains : Config .rv64 where
  harts := 2
  hartId := fun h => BitVec.ofNat 64 h
  valid := fun _ => true
  monitor := []
  domain := fun d =>
    if d = 1 then rootDomain {0} 0 0x80200000 .supervisor
    else rootDomain {1} 1 0x80200000 .supervisor
  ipiAvailable := true
  platformStart := false
  platformSuspend := false
  hypervisor := fun _ => false
  eventAvailable := fun _ id => eventInjectable id
  mpxyEvents := 0

def twoHomes : Nat → Nat := fun h => h + 1

/-- Both harts are started, and the first prefers the second for the software event of its
    domain. -/
def foreignPreference : List (Nat × Act .rv64) :=
  [(0, .hsm .started), (0, .begins 1 false), (1, .hsm .started), (1, .begins 2 false),
   (0, .call (.sseWriteAttrs 0xffff8000 3 1 0x80200000 [1]))]

/-- With the first hart listening the event stays with it, and the second is left alone. -/
theorem call_undisturbed_listener :
    ∃ s, run twoDomains (init twoHomes) (foreignPreference ++ [(0, .call .sseHartUnmask)]) =
        some s ∧ s.ran (s.domain 0) 0 = true ∧
      Undisturbed (fun h => s.member (s.domain 0) h = true) (s.domain 0) s
        (ecall twoDomains s 0 (.sseInject 0xffff8000 0)) := by
  have hview : ∃ s ∈ run twoDomains (init twoHomes)
      (foreignPreference ++ [(0, .call .sseHartUnmask)]),
      s.ran (s.domain 0) 0 = true ∧ listens twoDomains s (s.domain 0) 0 = true ∧
        injectSlot twoDomains s 0 0xffff8000 0 = .ok (.global 2) ∧
        (s.event (s.domain 0) (.global 2)).state ≠ .running := by decide +kernel
  obtain ⟨s, hs, hran, hlistens, hslot, hstate⟩ := hview
  refine ⟨s, hs, hran, ?_⟩
  rw [call_undisturbed_iff twoDomains twoHomes _ s hs 0 hran]
  intro slot hok e _
  cases hslot.symm.trans hok
  rw [if_neg hstate]
  exact .inl ⟨0, hlistens⟩

/-- With nobody listening the second hart gets the flag and the IPI, though it is of
    another domain. -/
theorem call_disturbs_foreign_hart :
    ∃ s, run twoDomains (init twoHomes) foreignPreference = some s ∧
      s.ran (s.domain 0) 0 = true ∧ s.member (s.domain 0) 1 = false ∧
      s.kick 1 = false ∧ s.sent 1 = [] ∧
      (ecall twoDomains s 0 (.sseInject 0xffff8000 0)).kick 1 = true ∧
      (ecall twoDomains s 0 (.sseInject 0xffff8000 0)).sent 1 = [.ipi .sse, .kick] :=
  Runs.exists_end (by decide +kernel)

end RiscvMonitor.Sse
