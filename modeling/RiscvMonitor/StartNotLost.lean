import RiscvMonitor.HartStartSteps

/-!
# A start that succeeds is not lost

A start is owed from the moment it sets `START_PENDING`, unless the call fails, until its
target enters S-mode or the target's domain is stopped.  Two stores break that: the one
of `STOPPED` in `hsm_hart_wait()`, which a hart that comes in through the monitor's entry
makes over a start, and the undoing of somebody else's start.
-/

namespace RiscvMonitor.HartStart

open Function (update update_of_ne update_self)

variable {x : Xlen}

/-- The harts that are owed a start, after hart `h` has gone on from where it is. -/
def owedAt (owed : Nat → Bool) (s : Sys x) (h : Nat) : Pc x → Nat → Bool
  | .bootPending target _ => update owed target (!s.stopping target)
  -- the call returns SBI_ERR_FAILED
  | .bootUndo target =>
    if s.starter target = some h then update owed target false else owed
  | .enters _ => update owed h false
  | _ => owed

def owedNote (owed : Nat → Bool) (s : Sys x) (e : Nat × Act x) : Nat → Bool :=
  match e.2 with
  | .domain true => update owed e.1 false
  | .domain false => owed
  | _ => owedAt owed s e.1 (s.pc e.1)

def owed (n : Nat) (s : Sys x) (es : List (Nat × Act x)) : Nat → Bool :=
  Runs.watch (step n) owedNote (fun _ => false) s es

def Pc.reads : Pc x → Bool
  | .readAddr | .readArg _ | .readMode .. | .enters _ => true
  | _ => false

/-- Where a hart that is owed a start can be. -/
def Pc.awaits (p : Pc x) (state : HsmState) : Prop :=
  (state = .startPending ∧ p ≠ .forceStop) ∨ (state = .started ∧ p.reads = true)

structure OwedInv (s : Sys x) (owed : Nat → Bool) : Prop where
  orderly : Orderly s
  owes : ∀ h, owed h = true →
    (s.pc h).awaits (s.hsm h) ∧ s.stopping h = false ∧ s.present h = true

section Steps

variable {n : Nat} {s t : Sys x} {h : Nat} {p q : Pc x} {state : HsmState} {owed : Nat → Bool}

/-! ### The target's own steps -/

theorem Walk.awaits (hwalk : Walk s h p state q)
    (hfits : s.hsm h ∈ p.states ∨ p = .reset ∧ s.present h = false)
    (hpark : p = .park → s.hsm h ≠ .startPending) (henters : ∀ args, p ≠ .enters args)
    (hstop : s.stopping h = false) (hpresent : s.present h = true)
    (hawaits : p.awaits (s.hsm h)) : q.awaits state := by
  rcases hawaits with ⟨hsm, hnot⟩ | ⟨hsm, hreads⟩
  · rw [hsm] at hfits hpark
    cases hwalk <;> simp_all [Pc.awaits, Pc.states, Pc.reads]
  · cases hwalk <;> simp_all [Pc.awaits, Pc.reads]

theorem OwedInv.not_owed (hinv : OwedInv s owed) (hpc : s.pc h = p) (hstates : p.states = [state])
    (hne : state ≠ .startPending) (hreads : p.reads = false) : owed h = false := by
  by_contra howed
  obtain ⟨hawaits, -⟩ := hinv.owes h (Bool.not_eq_false _ ▸ howed)
  rw [hpc, hinv.orderly.hsm_eq hpc hstates] at hawaits
  rcases hawaits with ⟨hpending, -⟩ | ⟨-, htrue⟩
  · exact hne hpending
  · rw [hreads] at htrue
    cases htrue

theorem OwedInv.moved (hinv : OwedInv s owed) (ho : Orderly t) (howed : owed h = false)
    (hpc : ∀ i ≠ h, t.pc i = s.pc i) (hhsm : ∀ i ≠ h, t.hsm i = s.hsm i)
    (hstop : t.stopping = s.stopping) (hpresent : t.present = s.present) : OwedInv t owed := by
  refine ⟨ho, ?_⟩
  intro i hi
  have hne : i ≠ h := by
    rintro rfl
    rw [howed] at hi
    cases hi
  rw [hpc i hne, hhsm i hne, hstop, hpresent]
  exact hinv.owes i hi

theorem Walk.owedAt (hwalk : Walk s h p state q) :
    (HartStart.owedAt owed s h p = owed ∧ ∀ args, p ≠ .enters args) ∨
      HartStart.owedAt owed s h p = update owed h false := by
  cases hwalk <;> first | exact .inl ⟨rfl, nofun⟩ | exact .inr rfl

theorem OwedInv.walk (hinv : OwedInv s owed) (hc : Careful s h)
    (hwalk : Walk s h (s.pc h) state q) :
    OwedInv ((s.setHsm h state).goto h q) (owedAt owed s h (s.pc h)) := by
  refine ⟨hinv.orderly.walk hwalk, ?_⟩
  intro i hi
  by_cases heq : i = h
  · subst heq
    simp only [Sys.goto, Sys.setHsm, update_self]
    rcases hwalk.owedAt with ⟨hsame, henters⟩ | hover
    · rw [hsame] at hi
      obtain ⟨hawaits, hstop, hpresent⟩ := hinv.owes i hi
      exact ⟨hwalk.awaits (hinv.orderly.fits i) hc.park henters hstop hpresent hawaits, hstop,
        hpresent⟩
    · rw [hover, update_self] at hi
      cases hi
  · simp only [Sys.goto, Sys.setHsm, update_of_ne heq]
    apply hinv.owes
    rcases hwalk.owedAt with ⟨hsame, -⟩ | hover
    · rwa [hsame] at hi
    · rwa [hover, update_of_ne heq] at hi

/-! ### The starter's steps -/

section

variable (hinv : OwedInv s owed)
include hinv

theorem OwedInv.comeIn (hpc : s.pc h = .comeIn) :
    OwedInv ({ s with present := update s.present h true }.goto h .arrive) owed := by
  refine ⟨hinv.orderly.comeIn hpc, ?_⟩
  intro i hi
  obtain ⟨hawaits, hstop, hpresent⟩ := hinv.owes i hi
  by_cases heq : i = h
  · subst heq
    rw [hpc] at hawaits
    rcases hawaits with ⟨hsm, -⟩ | ⟨-, hreads⟩
    · refine ⟨?_, hstop, update_self ..⟩
      simp only [Sys.goto, update_self]
      exact .inl ⟨hsm, nofun⟩
    · cases hreads
  · simp only [Sys.goto, update_of_ne heq]
    exact ⟨hawaits, hstop, hpresent⟩

theorem OwedInv.pending {target : Nat} {args : Args x} (hpc : s.pc h = .bootPending target args) :
    OwedInv (bootPending s h target) (update owed target (!s.stopping target)) := by
  have ho := hinv.orderly
  have hstopped : s.hsm target = .stopped := ho.stopped h target (by rw [hpc]; rfl)
  have hne : target ≠ h := ho.ne_target hpc rfl (by rw [hstopped]; decide)
  have hnone : owed h = false := hinv.not_owed hpc rfl nofun rfl
  refine ⟨ho.pending hpc, ?_⟩
  intro i hi
  by_cases hit : i = target
  · subst hit
    rw [update_self] at hi
    refine ⟨.inl ?_, Bool.not_eq_true' _ ▸ hi, ho.present h i (by rw [hpc]; rfl)⟩
    simp only [bootPending, Sys.goto, Sys.setHsm, Sys.setLock, update_self,
      update_of_ne hne]
    refine ⟨trivial, ?_⟩
    intro hforce
    rcases ho.fits i with hmem | ⟨hreset, -⟩
    · rw [hforce, hstopped] at hmem
      simp [Pc.states] at hmem
    · rw [hforce] at hreset
      cases hreset
  · rw [update_of_ne hit] at hi
    have hih : i ≠ h := by
      rintro rfl
      rw [hnone] at hi
      cases hi
    simp only [bootPending, Sys.goto, Sys.setHsm, Sys.setLock, update_of_ne hit,
      update_of_ne hih]
    exact hinv.owes i hi

theorem OwedInv.undo (hc : Careful s h) {target : Nat} (hpc : s.pc h = .bootUndo target)
    (hsm : s.hsm target = .startPending) :
    OwedInv ((s.setHsm target .stopped).goto h .smode) (owedAt owed s h (.bootUndo target)) := by
  obtain ⟨hown, hleft⟩ := hc.undo target hpc hsm
  have hnone : owed h = false := hinv.not_owed hpc rfl nofun rfl
  refine ⟨hinv.orderly.undo hpc hsm hleft, ?_⟩
  intro i hi
  rw [owedAt, if_pos hown] at hi
  have hit : i ≠ target := by
    rintro rfl
    rw [update_self] at hi
    cases hi
  rw [update_of_ne hit] at hi
  have hih : i ≠ h := by
    rintro rfl
    rw [hnone] at hi
    cases hi
  simp only [Sys.goto, Sys.setHsm, update_of_ne hit, update_of_ne hih]
  exact hinv.owes i hi

theorem OwedInv.mono {owed' : Nat → Bool} (hle : ∀ i, owed' i = true → owed i = true) :
    OwedInv s owed' :=
  ⟨hinv.orderly, fun i hi => hinv.owes i (hle i hi)⟩

theorem OwedInv.late (hc : Careful s h) {target : Nat} (hpc : s.pc h = .bootUndo target)
    (hsm : s.hsm target ≠ .startPending) :
    OwedInv (s.goto h .smode) (owedAt owed s h (.bootUndo target)) := by
  have hmoved : OwedInv (s.goto h .smode) owed :=
    hinv.moved (hinv.orderly.effect hc (.late hpc hsm)) (hinv.not_owed hpc rfl nofun rfl)
      (fun i hi => update_of_ne hi ..) (fun _ _ => rfl) rfl rfl
  refine hmoved.mono ?_
  intro i hi
  rw [owedAt] at hi
  by_cases hown : s.starter target = some h
  · rw [if_pos hown] at hi
    by_cases hit : i = target
    · rw [hit, update_self] at hi
      cases hi
    · rwa [update_of_ne hit] at hi
  · rwa [if_neg hown] at hi

theorem OwedInv.effect (hc : Careful s h) (heff : Effect s h t) :
    OwedInv t (owedAt owed s h (s.pc h)) := by
  have ho : Orderly t := hinv.orderly.effect hc heff
  cases heff
  case idle hpc => rcases hpc with hpc | hpc <;> rw [hpc] <;> exact hinv
  case walk hwalk => exact hinv.walk hc hwalk
  case comeIn hpc =>
    rw [hpc]
    exact hinv.comeIn hpc
  case pending hpc =>
    rw [hpc]
    exact hinv.pending hpc
  case undo hpc hsm =>
    rw [hpc]
    exact hinv.undo hc hpc hsm
  case late hpc hsm =>
    rw [hpc]
    exact hinv.late hc hpc hsm
  case suspendArgs hpc | boot hpc _ | lock hpc _ | state hpc | refuse hpc | accept hpc | addr hpc |
      arg hpc | mode hpc =>
    rw [hpc]
    exact hinv.moved ho (hinv.not_owed hpc rfl nofun rfl) (fun i hi => update_of_ne hi ..)
      (fun _ _ => rfl) rfl rfl

theorem OwedInv.domain (stopping : Bool) :
    OwedInv { s with stopping := update s.stopping h stopping }
      (if stopping then update owed h false else owed) := by
  refine ⟨hinv.orderly.domain _, ?_⟩
  intro i hi
  by_cases hih : i = h
  · subst hih
    cases stopping with
    | true =>
      rw [if_pos rfl, update_self] at hi
      cases hi
    | false =>
      obtain ⟨hawaits, -, hpresent⟩ := hinv.owes i hi
      exact ⟨hawaits, update_self .., hpresent⟩
  · have howed : owed i = true := by
      split at hi
      · rwa [update_of_ne hih] at hi
      · exact hi
    obtain ⟨hawaits, hstop, hpresent⟩ := hinv.owes i howed
    exact ⟨hawaits, (update_of_ne hih ..).trans hstop, hpresent⟩

end

theorem owedNote_go {a : Act x} (hnot : ∀ b, a ≠ .domain b) :
    owedNote owed s (h, a) = owedAt owed s h (s.pc h) := by
  cases a <;> first | rfl | exact absurd rfl (hnot _)

theorem OwedInv.step {a : Act x} (hinv : OwedInv s owed) (hkeeps : KeepsStarts s (h, a))
    (hstep : step n s (h, a) = some t) : OwedInv t (owedNote owed s (h, a)) := by
  by_cases hdomain : ∃ b, a = .domain b
  · obtain ⟨b, rfl⟩ := hdomain
    rw [step_domain hstep]
    have hnext := hinv.domain (h := h) b
    cases b <;> exact hnext
  · have hnot : ∀ b, a ≠ .domain b := fun b hb => hdomain ⟨b, hb⟩
    rw [owedNote_go hnot]
    exact hinv.effect (hkeeps.careful hnot hstep) (step_effect hnot hstep)

end Steps

theorem init_owedInv (up : Nat → Bool) : OwedInv (init up : Sys x) fun _ => false :=
  ⟨init_orderly up, nofun⟩

def goes (h n : Nat) : List (Nat × Act x) := List.replicate n (h, .go)

def entry : Args .rv64 := ⟨0x80200000, 7, .supervisor⟩

instance (s : Sys x) (e : Nat × Act x) : Decidable (KeepsStarts s e) := by
  unfold KeepsStarts
  split <;> infer_instance

/-- Hart 1 stops and waits; hart 0 starts it. -/
def startsStopped : List (Nat × Act .rv64) :=
  [(1, .stop)] ++ goes 1 2 ++ [(0, .boot 1 entry)] ++ goes 0 7 ++ [(0, .platform true), (0, .go)]

/-- As before, with hart 1 taken down while it waits and brought back by the start. -/
def startsPoweredDown : List (Nat × Act .rv64) :=
  [(1, .stop)] ++ goes 1 2 ++ [(1, .power), (0, .boot 1 entry)] ++ goes 0 7 ++
    [(0, .platform true), (1, .power)] ++ goes 1 4 ++ [(0, .go)]

end RiscvMonitor.HartStart
