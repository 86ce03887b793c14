import RiscvMonitor.FenceService

/-!
# No fence is forgotten

A hart with an entry in its queue has to hear of it: the event is pending and the
interrupt raised, or the hart is on its way to `rfence_process()`, or a requester has
the interrupt still to send.  `hart_runtime_init()` drops the events of a hart that
starts, and the queue is not emptied after it.
-/

namespace RiscvMonitor.RemoteFences

open Function (update update_of_ne update_self)
open Delivery (FenceReq Entry rfenceQueueLen)

variable {x : Xlen}

/-- From here a hart gets to `rfence_process()` before S-mode, with the event pending
    or not and in some state. -/
def Pc.willServe (rfence : Bool) (hsm : HsmState) : Pc x → Bool
  | .serve _ | .fencing _ _ | .park | .waitClear | .waitZero => true
  | .ipiClear _ | .ipiSwap _ => rfence
  | .arrive => hsm != .suspended
  | _ => false

def Sys.willServe (s : Sys x) (h : Nat) : Bool := (s.pc h).willServe (s.rfence h) (s.hsm h)

def Pc.posts (i : Nat) : Pc x → Bool
  | .sendOr _ _ k _ => k == i
  | _ => false

def Pc.sends (i : Nat) : Pc x → Bool
  | .sendOr _ _ k _ | .sendRaise _ _ k _ => k == i
  | _ => false

def Sys.posted (cfg : Config) (s : Sys x) (i : Nat) : Prop :=
  ∃ g < cfg.harts, (s.pc g).posts i = true

def Sys.sent (cfg : Config) (s : Sys x) (i : Nat) : Prop :=
  ∃ g < cfg.harts, (s.pc g).sends i = true

/-- Where a hart that starts drops its events, its queue is empty or an event for it is
    still to be posted. -/
def KeepsFences (cfg : Config) (s : Sys x) (e : Nat × Act x) : Prop :=
  s.pc e.1 = .enterClear ∨ s.pc e.1 = .enterZero →
    (s.queue e.1).contents = [] ∨ s.posted cfg e.1

instance (cfg : Config) (s : Sys x) (i : Nat) : Decidable (s.posted cfg i) :=
  inferInstanceAs (Decidable (∃ g < cfg.harts, (s.pc g).posts i = true))

instance (cfg : Config) (s : Sys x) (i : Nat) : Decidable (s.sent cfg i) :=
  inferInstanceAs (Decidable (∃ g < cfg.harts, (s.pc g).sends i = true))

instance (cfg : Config) (s : Sys x) (e : Nat × Act x) : Decidable (KeepsFences cfg s e) :=
  inferInstanceAs (Decidable (_ → _))

def Heard (cfg : Config) (s : Sys x) (i : Nat) : Prop :=
  (s.queue i).contents ≠ [] →
    s.posted cfg i ∨ (s.rfence i = true ∧ (s.line i = true ∨ s.sent cfg i)) ∨ s.willServe i = true

variable {rfence : Bool} {state : HsmState} {req : FenceReq x} {mask : List Nat} {k : Nat}

section Steps

variable {cfg : Config} {s t : Sys x} {h i : Nat} {p q : Pc x}

/-! ### Harts that do not send -/

theorem exists_pc_update {f : Pc x → Bool} (hpc : t.pc = update s.pc h q)
    (hnot : f (s.pc h) = false) (hex : ∃ g < cfg.harts, f (s.pc g) = true) :
    ∃ g < cfg.harts, f (t.pc g) = true := by
  obtain ⟨g, hg, hf⟩ := hex
  refine ⟨g, hg, ?_⟩
  have hne : g ≠ h := by
    rintro rfl
    rw [hnot] at hf
    cases hf
  rwa [hpc, update_of_ne hne]

theorem Pc.posts_of_sends_eq_false (hsends : p.sends i = false) : p.posts i = false := by
  cases p <;> first | exact hsends | rfl

theorem Pc.willServe_mono {state' : HsmState} (hsm : state' = .suspended → state = .suspended)
    (hwill : p.willServe rfence state = true) :
    p.willServe rfence state' = true := by
  cases p
  case arrive =>
    have hne : state ≠ .suspended := bne_iff_ne.mp hwill
    exact bne_iff_ne.mpr fun hsusp => hne (hsm hsusp)
  all_goals exact hwill

theorem willServe_other (hpc : t.pc i = s.pc i) (hrfence : t.rfence i = s.rfence i)
    (hsm : t.hsm i = .suspended → s.hsm i = .suspended) (hwill : s.willServe i = true) :
    t.willServe i = true := by
  unfold Sys.willServe
  rw [hpc, hrfence]
  exact Pc.willServe_mono hsm hwill

/-- Nothing is taken from hart `i` by a step of hart `h`, which goes on to serve if it
    is the same. -/
theorem Heard.keep (hheard : Heard cfg s i) (hpc : t.pc = update s.pc h q)
    (hsends : (s.pc h).sends i = false) (hqueue : t.queue i = s.queue i)
    (hrfence : t.rfence i = s.rfence i) (hline : t.line i = s.line i)
    (hother : i ≠ h → t.hsm i = .suspended → s.hsm i = .suspended)
    (hself : i = h → (s.queue h).contents ≠ [] → s.willServe h = true → t.willServe h = true) :
    Heard cfg t i := by
  intro hne
  rw [hqueue] at hne
  rcases hheard hne with hposted | ⟨hr, hl | hsent⟩ | hwill
  · exact .inl (exists_pc_update hpc (Pc.posts_of_sends_eq_false hsends) hposted)
  · exact .inr (.inl ⟨hrfence.trans hr, .inl (hline.trans hl)⟩)
  · exact .inr (.inl ⟨hrfence.trans hr, .inr (exists_pc_update hpc hsends hsent)⟩)
  · refine .inr (.inr ?_)
    by_cases hi : i = h
    · subst hi
      exact hself rfl hne hwill
    · exact willServe_other (by rw [hpc, update_of_ne hi]) hrfence (hother hi) hwill

theorem Life.sends (hlife : Life s h p q) : p.sends i = false := by
  cases hlife <;> rfl

theorem Moves.sends (hmove : Moves cfg s h p q) : p.sends i = false := by
  cases hmove <;> rfl

theorem Lowers.sends (hlower : Lowers p q) : p.sends i = false := by
  cases hlower <;> rfl

theorem Zeroes.sends (hzero : Zeroes s h p q) : p.sends i = false := by
  cases hzero <;> rfl

theorem Life.willServe (hlife : Life s h p q) (hwill : p.willServe rfence (s.hsm h) = true) :
    q.willServe rfence state = true := by
  cases hlife
  case resumeReset hsm => simp [Pc.willServe, hsm] at hwill
  all_goals first | rfl | cases hwill

theorem Moves.willServe (hmove : Moves cfg s h p q) (hne : (s.queue h).contents ≠ [])
    (hwill : p.willServe rfence state = true) :
    q.willServe rfence state = true := by
  cases hmove
  case served hempty => exact absurd hempty hne
  all_goals first | rfl | cases hwill

/-! ### Every step -/

@[simp]
theorem willServe_goto (s : Sys x) (h : Nat) (q : Pc x) :
    (s.goto h q).willServe h = q.willServe (s.rfence h) (s.hsm h) := by
  simp [Sys.willServe, Sys.goto]

theorem Life.heard {hsm : Nat → HsmState} (hheard : Heard cfg s i) (hlife : Life s h (s.pc h) q)
    (hother : ∀ i ≠ h, hsm i = .suspended → s.hsm i = .suspended) :
    Heard cfg ({ s with hsm := hsm }.goto h q) i := by
  refine hheard.keep rfl hlife.sends rfl rfl rfl (hother i) ?_
  intro _ _ hwill
  rw [willServe_goto]
  exact hlife.willServe hwill

theorem Moves.heard (hheard : Heard cfg s i) (hmove : Moves cfg s h (s.pc h) q) :
    Heard cfg (s.goto h q) i := by
  refine hheard.keep rfl hmove.sends rfl rfl rfl (fun _ => id) ?_
  intro _ hne hwill
  rw [willServe_goto]
  exact hmove.willServe hne hwill

theorem Heard.request (hheard : Heard cfg s i) (hpc : s.pc h = .smode) :
    Heard cfg ((s.setOut h 0).goto h (.enqueue req mask 0)) i := by
  refine hheard.keep rfl (by rw [hpc]; rfl) rfl rfl rfl (fun _ => id) ?_
  intro _ _ hwill
  rw [Sys.willServe, hpc] at hwill
  cases hwill

theorem Heard.push {ring : Ring (Entry x) rfenceQueueLen} {n : Nat} (hheard : Heard cfg s i)
    (hh : h < cfg.harts) (hpc : s.pc h = .enqueue req mask k) :
    Heard cfg (((s.setQueue k ring).setOut h n).goto h (.sendOr req mask k false)) i := by
  by_cases hi : i = k
  · intro _
    refine .inl ⟨h, hh, ?_⟩
    simp [Sys.goto, Pc.posts, hi]
  · refine hheard.keep rfl (by rw [hpc]; rfl) (update_of_ne hi ..) rfl rfl (fun _ => id) ?_
    intro _ _ hwill
    rw [Sys.willServe, hpc] at hwill
    cases hwill

theorem Heard.sendOr {full : Bool} (hheard : Heard cfg s i) (hh : h < cfg.harts)
    (hpc : s.pc h = .sendOr req mask k full) :
    Heard cfg ((s.setRfence k true).goto h (.sendRaise req mask k full)) i := by
  by_cases hi : i = k
  · intro _
    refine .inr (.inl ⟨hi ▸ update_self .., .inr ⟨h, hh, ?_⟩⟩)
    simp [Sys.goto, Pc.sends, hi]
  · refine hheard.keep rfl ?_ rfl (update_of_ne hi ..) rfl (fun _ => id) ?_
    · rw [hpc]
      exact beq_eq_false_iff_ne.mpr (Ne.symm hi)
    · intro _ _ hwill
      rw [Sys.willServe, hpc] at hwill
      cases hwill

theorem Raises.willServe (hraise : Raises k p q) :
    p.willServe rfence state = false := by
  cases hraise <;> rfl

theorem Raises.sends (hraise : Raises k p q) (hne : i ≠ k) : p.sends i = false := by
  cases hraise with
  | full => exact beq_eq_false_iff_ne.mpr (Ne.symm hne)
  | sent => exact beq_eq_false_iff_ne.mpr (Ne.symm hne)
  | kick => rfl

theorem Raises.posts (hraise : Raises k p q) : p.posts i = false := by
  cases hraise <;> rfl

theorem Raises.heard (hheard : Heard cfg s i) (hraise : Raises k (s.pc h) q) :
    Heard cfg ((s.setLine k true).goto h q) i := by
  have hnot : s.willServe h = false := hraise.willServe
  by_cases hi : i = k
  · subst hi
    intro hne
    rcases hheard hne with hposted | ⟨hr, -⟩ | hwill
    · exact .inl (exists_pc_update rfl hraise.posts hposted)
    · exact .inr (.inl ⟨hr, .inl (update_self ..)⟩)
    · have hih : i ≠ h := by
        rintro rfl
        rw [hnot] at hwill
        cases hwill
      exact .inr (.inr (willServe_other (update_of_ne hih ..) rfl id hwill))
  · refine hheard.keep rfl (hraise.sends hi) rfl rfl (update_of_ne hi ..) (fun _ => id) ?_
    intro _ _ hwill
    rw [hnot] at hwill
    cases hwill

theorem Lowers.heard (hheard : Heard cfg s i) (hlower : Lowers (s.pc h) q)
    (hkeeps : s.pc h = .enterClear → (s.queue h).contents = [] ∨ s.posted cfg h) :
    Heard cfg ((s.setLine h false).goto h q) i := by
  by_cases hi : i = h
  · subst hi
    intro hne
    generalize hpc : s.pc i = p at hlower
    have hposts : ∀ k, (s.pc i).posts k = false := by
      intro k
      rw [hpc]
      exact Pc.posts_of_sends_eq_false hlower.sends
    rcases hheard hne with hposted | ⟨hr, -⟩ | hwill
    · exact .inl (exists_pc_update rfl (hposts i) hposted)
    · cases hlower with
      | ipi =>
        refine .inr (.inr ?_)
        rw [willServe_goto]
        exact hr
      | wait => exact .inr (.inr (willServe_goto ..))
      | enter =>
        rcases hkeeps hpc with hempty | hposted
        · exact absurd hempty hne
        · exact .inl (exists_pc_update rfl (hposts i) hposted)
    · refine .inr (.inr ?_)
      rw [willServe_goto]
      rw [Sys.willServe, hpc] at hwill
      cases hlower with
      | ipi => exact hwill
      | wait => rfl
      | enter => cases hwill
  · refine hheard.keep rfl hlower.sends rfl rfl (update_of_ne hi ..) (fun _ => id) ?_
    exact fun heq => absurd heq hi

theorem Zeroes.heard (hheard : Heard cfg s i) (hzero : Zeroes s h (s.pc h) q)
    (hkeeps : s.pc h = .enterZero → (s.queue h).contents = [] ∨ s.posted cfg h) :
    Heard cfg ((s.setRfence h false).goto h q) i := by
  by_cases hi : i = h
  · subst hi
    intro hne
    generalize hpc : s.pc i = p at hzero
    have hposted : s.posted cfg i → Sys.posted cfg ((s.setRfence i false).goto i q) i := by
      refine exists_pc_update rfl ?_
      rw [hpc]
      exact Pc.posts_of_sends_eq_false hzero.sends
    cases hzero with
    | fences => exact .inr (.inr (willServe_goto ..))
    | wait => exact .inr (.inr (willServe_goto ..))
    | enter =>
      rcases hkeeps hpc with hempty | hp
      · exact absurd hempty hne
      · exact .inl (hposted hp)
    | nothing hrfence =>
      rcases hheard hne with hp | ⟨hr, -⟩ | hwill
      · exact .inl (hposted hp)
      · rw [hrfence] at hr
        cases hr
      · rw [Sys.willServe, hpc] at hwill
        exact absurd (hrfence.symm.trans hwill) Bool.noConfusion
  · refine hheard.keep rfl hzero.sends rfl (update_of_ne hi ..) rfl (fun _ => id) ?_
    exact fun heq => absurd heq hi

theorem Effect.heard (hheard : Heard cfg s i) (hh : h < cfg.harts) (heff : Effect cfg s h t)
    (hkeeps : s.pc h = .enterClear ∨ s.pc h = .enterZero →
      (s.queue h).contents = [] ∨ s.posted cfg h) : Heard cfg t i := by
  cases heff with
  | idle => exact hheard
  | life hsm hlife hother => exact hlife.heard hheard hother
  | move hmove => exact hmove.heard hheard
  | request req mask hpc => exact hheard.request hpc
  | push hpc => exact hheard.push hh hpc
  | sendOr hpc => exact hheard.sendOr hh hpc
  | raise hraise => exact hraise.heard hheard
  | lower hlower => exact hlower.heard hheard fun hpc => hkeeps (.inl hpc)
  | zero hzero => exact hzero.heard hheard fun hpc => hkeeps (.inr hpc)
  | pop hpc hpop =>
    by_cases hi : i = h
    · subst hi
      exact fun _ => .inr (.inr (willServe_goto ..))
    · refine hheard.keep rfl (by rw [hpc]; rfl) (update_of_ne hi ..) rfl rfl
        (fun _ => id) ?_
      exact fun heq => absurd heq hi
  | fenced hpc =>
    refine hheard.keep rfl (by rw [hpc]; rfl) rfl rfl rfl (fun _ => id) ?_
    exact fun _ _ _ => willServe_goto ..

end Steps

theorem init_heard (cfg : Config) (up : Nat → Bool) (i : Nat) :
    Heard cfg (init up : Sys x) i := by
  intro hne
  exact absurd rfl hne

/-- In every state of a run in which no hart starts past its queue, a hart with entries has the
    event and the interrupt, or serves its queue before S-mode goes on, or an interrupt for it
    is still to be sent. -/
theorem fences_not_forgotten (cfg : Config) (up : Nat → Bool) (es : List (Nat × Act x)) (t : Sys x)
    (halong : Runs.Along (step cfg) (KeepsFences cfg) (init up) es)
    (hrun : run cfg (init up) es = some t) (h : Nat) (hne : (t.queue h).contents ≠ []) :
    (t.rfence h = true ∧ t.line h = true) ∨ t.willServe h = true ∨ t.sent cfg h := by
  have hheard : ∀ i, Heard cfg t i := by
    refine halong.invariant (I := fun s => ∀ i, Heard cfg s i) ?_ (init_heard cfg up) hrun
    intro s e u hheard hkeeps hstep i
    obtain ⟨hh, heff⟩ := step_effect hstep
    exact heff.heard (hheard i) hh hkeeps
  rcases hheard h hne with ⟨g, hg, hposts⟩ | ⟨hr, hl | hsent⟩ | hwill
  · refine .inr (.inr ⟨g, hg, ?_⟩)
    by_contra hsends
    rw [Pc.posts_of_sends_eq_false (Bool.eq_false_iff.mpr hsends)] at hposts
    cases hposts
  · exact .inl ⟨hr, hl⟩
  · exact .inr (.inr hsent)
  · exact .inr (.inl hwill)

/-- Hart 1 stops, and hart 0 asks it for a fence meanwhile. -/
def stopsMeanwhile : List (Nat × Act .rv64) :=
  [(0, .request fenceI [1]), (1, .stop), (0, .go), (0, .go)]

theorem fences_not_forgotten_stopping :
    ∃ t, run pair (init fun _ => true) stopsMeanwhile = some t ∧
      (t.queue 1).contents = [⟨fenceI, 0⟩] ∧
      ((t.rfence 1 = true ∧ t.line 1 = true) ∨ t.willServe 1 = true ∨ t.sent pair 1) := by
  have hend : ∃ t ∈ run pair (init fun _ => true) stopsMeanwhile,
      (t.queue 1).contents = [⟨fenceI, 0⟩] := by decide +kernel
  obtain ⟨t, hrun, hqueue⟩ := hend
  exact ⟨t, hrun, hqueue,
    fences_not_forgotten pair _ _ t (by decide +kernel) hrun 1 (by rw [hqueue]; decide)⟩

def goes (h n : Nat) : List (Nat × Act x) := List.replicate n (h, .go)

/-- Hart 1 is suspended and taken down; hart 0 asks it for a fence, and the platform
    brings it back. -/
def resetMeanwhile : List (Nat × Act .rv64) :=
  [(1, .suspend false), (1, .platform true), (1, .power), (0, .request fenceI [1])] ++ goes 0 6 ++
    [(1, .power)] ++ goes 1 5

def three : Config := ⟨3, fun h => h < 3, false⟩

/-- Hart 0 has asked hart 1 for a fence when that stops and hart 2 starts it again; the request
    arrives while hart 1 sets itself up. -/
def startsMeanwhile : List (Nat × Act .rv64) :=
  [(0, .request fenceI [1]), (1, .stop)] ++ goes 1 5 ++
    [(2, .start 1), (2, .platform true), (2, .go)] ++ goes 1 2 ++ goes 0 7 ++ goes 1 2

/-- In both runs hart 1 is in S-mode with the fence in its queue, the event dropped and
    nobody to send it again, and hart 0 waits for it. -/
theorem fences_forgotten :
    (∃ t, run pair (init fun _ => true) resetMeanwhile = some t ∧ t.pc 1 = .smode ∧
      (t.queue 1).contents = [⟨fenceI, 0⟩] ∧ t.rfence 1 = false ∧ t.willServe 1 = false ∧
      ¬ t.sent pair 1 ∧ t.pc 0 = .await fenceI [1]) ∧
    ∃ t, run three (init fun _ => true) startsMeanwhile = some t ∧ t.pc 1 = .smode ∧
      (t.queue 1).contents = [⟨fenceI, 0⟩] ∧ t.rfence 1 = false ∧ t.willServe 1 = false ∧
      ¬ t.sent three 1 ∧ t.pc 0 = .await fenceI [1] :=
  ⟨Runs.exists_end (by decide +kernel), Runs.exists_end (by decide +kernel)⟩

end RiscvMonitor.RemoteFences
