import RiscvMonitor.HartWalk

/-!
# Where a hart is, in four places

The domain a hart points to, the assigned masks, the parked masks and the states
of its contexts say the same of it in every state of every run, from the masks
that `assign_harts()` makes of the tree on.  A call that fails to move a hart
leaves all four as they were.
-/

namespace RiscvMonitor.Lifecycle

open Function (update update_of_ne update_self)
open Sys

variable {x : Xlen}

/-! ### `assign_harts()` -/

/-- The index of the hart, if the monitor has it, and what `riscv,domain` names, or 0. -/
structure CpuNode where
  hart : Option Nat
  phandle : Nat

structure CpuNodes where
  nodes : List CpuNode
  distinct : (nodes.filterMap CpuNode.hart).Nodup

def lastWithPhandle (cfg : Config x) (phandle : Nat) : Option Nat :=
  if phandle = 0 then none
  else
    (List.range cfg.domainCount).reverse.find? fun d =>
      d != 0 && (cfg.domain d).phandle == phandle

/-- One node of `assign_harts()`: its hart leaves the root domain. -/
def assignHart (cfg : Config x) (s : Sys x) (node : CpuNode) : Sys x :=
  match node.hart, lastWithPhandle cfg node.phandle with
  | some h, some d =>
    if h ∈ (cfg.domain d).possible then
      ((s.setAssigned 0 h false).setAssigned d h true).setHart h { s.hart h with domain := d }
    else s
  | _, _ => s

/-- The system when `domains_start()` begins, all harts in the root domain but those the tree
    gives to others. -/
def boot (cfg : Config x) (cpus : CpuNodes) (bootHart : Nat) : Sys x :=
  cpus.nodes.foldl (assignHart cfg) (init (fun _ => 0) bootHart)

variable {d : Nat}

theorem lastWithPhandle_ne_zero {cfg : Config x} {phandle : Nat}
    (hd : lastWithPhandle cfg phandle = some d) : d ≠ 0 := by
  unfold lastWithPhandle at hd
  split_ifs at hd
  have hfind := List.find?_some hd
  simp only [Bool.and_eq_true, bne_iff_ne] at hfind
  exact hfind.1

theorem assign_init {home : Nat → Nat} {bootHart h : Nat} (hroot : home h = 0) (hd : d ≠ 0) :
    (((init home bootHart : Sys x).setAssigned 0 h false).setAssigned d h true).setHart h
        { (init home bootHart : Sys x).hart h with domain := d } =
      init (update home h d) bootHart := by
  have hhart : update (init home bootHart : Sys x).hart h
      { (init home bootHart : Sys x).hart h with domain := d } =
        (init (update home h d) bootHart : Sys x).hart := by
    funext i
    by_cases hi : i = h
    · simp [init, hi]
    · simp [init, hi]
  have hassigned : (((init home bootHart : Sys x).setAssigned 0 h false).setAssigned d h true).assigned
      = (init (update home h d) bootHart : Sys x).assigned := by
    funext d' i
    rw [setAssigned_assigned, update_update_apply, setAssigned_assigned, update_update_apply]
    by_cases hi : i = h
    · subst hi
      by_cases hd' : d' = d
      · simp [init, hd']
      · by_cases hz : d' = 0
        · simp [init, hz, hd.symm, hd]
        · have hne : ¬ d = d' := fun heq => hd' heq.symm
          have hne' : ¬ 0 = d' := fun heq => hz heq.symm
          simp [init, hd', hz, hne, hroot, hne']
    · simp [init, hi]
  exact (Sys.mk.injEq ..).mpr ⟨hhart, rfl, hassigned, rfl, rfl, rfl, rfl, rfl⟩

theorem boot_eq_init (cfg : Config x) (hroot : ∀ h < cfg.harts, h ∈ (cfg.domain 0).possible)
    (cpus : CpuNodes) (bootHart : Nat) :
    ∃ home, boot cfg cpus bootHart = init home bootHart ∧
      ∀ h < cfg.harts, h ∈ (cfg.domain (home h)).possible := by
  obtain ⟨nodes, hdistinct⟩ := cpus
  -- the nodes still to come are of harts in the root domain
  have hfold : ∀ home, (∀ h ∈ nodes.filterMap CpuNode.hart, home h = 0) →
      (∀ h < cfg.harts, h ∈ (cfg.domain (home h)).possible) →
      ∃ home', nodes.foldl (assignHart cfg) (init home bootHart) = init home' bootHart ∧
        ∀ h < cfg.harts, h ∈ (cfg.domain (home' h)).possible := by
    induction nodes with
    | nil => exact fun home _ hpossible => ⟨home, rfl, hpossible⟩
    | cons node nodes ih =>
      intro home hzero hpossible
      rw [List.foldl_cons]
      unfold assignHart
      split
      · next h d hhart hd =>
        rw [List.filterMap_cons_some hhart] at hzero hdistinct
        obtain ⟨hfresh, hdistinct⟩ := List.nodup_cons.mp hdistinct
        split
        · next hmem =>
          rw [assign_init (hzero h List.mem_cons_self) (lastWithPhandle_ne_zero hd)]
          refine ih hdistinct _ ?_ ?_
          · intro i hi
            have hne : i ≠ h := fun heq => hfresh (heq ▸ hi)
            rw [update_of_ne hne]
            exact hzero i (List.mem_cons_of_mem _ hi)
          · intro i hi
            by_cases hih : i = h
            · rw [hih, update_self]
              exact hmem
            · rw [update_of_ne hih]
              exact hpossible i hi
        · exact ih hdistinct home (fun i hi => hzero i (List.mem_cons_of_mem _ hi)) hpossible
      · have hsub : (nodes.filterMap CpuNode.hart).Sublist
            ((node :: nodes).filterMap CpuNode.hart) :=
          (List.sublist_cons_self node nodes).filterMap _
        exact ih (hdistinct.sublist hsub) home (fun i hi => hzero i (hsub.subset hi)) hpossible
  exact hfold (fun _ => 0) (fun _ _ => rfl) hroot

/-! ### Possible harts -/

/-- A hart is in, and has run in, domains of which it is a possible hart. -/
structure Possible (cfg : Config x) (s : Sys x) : Prop where
  hart : ∀ h < cfg.harts, h ∈ (cfg.domain (s.domain h)).possible
  ctx : ∀ d h, (s.ctx d h).state ≠ .none → h ∈ (cfg.domain d).possible

variable {quiet : Bool} {i : Nat}

section Steps

variable {cfg : Config x} {s t : Sys x} {h : Nat} {a : Act x}

theorem enterCheck_possible (hok : enterCheck cfg s h d quiet = .success) :
    h ∈ (cfg.domain d).possible := by
  unfold enterCheck at hok
  dsimp only at hok
  split_ifs at hok with hparam
  exact not_not.mp (not_or.mp hparam).2

theorem leaveTarget_possible {first : Option Nat} (hd : leaveTarget cfg s h quiet first = some d) :
    h ∈ (cfg.domain d).possible := by
  unfold leaveTarget at hd
  split at hd
  · have hfilter := (Option.filter_eq_some_iff.mp hd).2
    simp only [Bool.and_eq_true, decide_eq_true_eq] at hfilter
    exact hfilter.1.1.1.2
  · have hfind := List.find?_some hd
    simp only [Bool.and_eq_true, decide_eq_true_eq] at hfind
    exact hfind.1.1.1.2

theorem Departs.possible (hp : Possible cfg s) (hway : Departs cfg s h a d) :
    h ∈ (cfg.domain d).possible := by
  cases hway with
  | enters _ _ hok => exact enterCheck_possible hok
  | switches _ hok => exact enterCheck_possible hok
  | leaves _ _ hcalling | goesBack _ _ hcalling => exact hp.ctx d h (hcalling ▸ nofun)
  | chains _ _ _ htarget => exact leaveTarget_possible htarget
  | yields _ htarget => exact leaveTarget_possible htarget

theorem Walk.domain {hart : Hart x} (hw : Walk cfg s h a hart) :
    hart.domain = s.domain h ∨
      (Departs cfg s h a hart.domain ∧ ∃ next, Lands cfg s h hart.domain next hart) := by
  cases hw with
  | goes | sets | sleeps | boots => exact .inl rfl
  | asked _ hpoked => exact .inl hpoked.domain
  | answered _ hpoked => exact .inl hpoked.domain
  | @moves _ d next hway _ hlands =>
    right
    cases hlands with
    | runs hboot => exact ⟨hway, next, .runs hboot⟩
    | stops hnone hboot => exact ⟨hway, next, .stops hnone hboot⟩

theorem Moved.ran {d' : Nat} {w : Farewell} (hm : Moved s t h d w)
    (hran : (t.ctx d' i).state ≠ .none) :
    (s.ctx d' i).state ≠ .none ∨ (i = h ∧ (d' = s.domain h ∨ d' = t.domain h)) := by
  by_cases hi : i = h
  · subst hi
    rw [hm.state] at hran
    by_cases hd : d' = d
    · exact .inr ⟨rfl, .inr (hd.trans hm.domain.symm)⟩
    · by_cases hcur : d' = s.domain i
      · exact .inr ⟨rfl, .inl hcur⟩
      · rw [if_neg hd, if_neg hcur] at hran
        exact .inl hran
  · rw [hm.other d' i hi] at hran
    exact .inl hran

/-- A context that comes to run, or to wait, is one of the domain the hart is in
    before or after the step. -/
theorem Effect.ran (he : Effect cfg s h a t) (hran : (t.ctx d i).state ≠ .none) :
    (s.ctx d i).state ≠ .none ∨ (i = h ∧ (d = s.domain h ∨ d = t.domain h)) := by
  cases he with
  | own | boot | unboot | lock | cleared | unlocked => exact .inl hran
  | started =>
    by_cases hcur : d = s.domain h ∧ i = h
    · exact .inr ⟨hcur.2, .inl hcur.1⟩
    · left
      simpa [contextStarted, goto, update_update_apply, hcur] using hran
  | entered _ _ _ hm | left _ _ _ _ _ hm | returned _ _ _ hm => exact hm.ran hran
  | @refused d' _ _ _ _ _ hstate =>
    left
    by_cases hat : d = d' ∧ i = h
    · rw [hat.1, hat.2] at hran
      exact absurd hstate (by simpa [goto] using hran)
    · simpa [goto, update_update_apply, hat] using hran
  | halted =>
    left
    by_cases hat : d = s.domain h ∧ i = h
    · simp [goto, update_update_apply, hat] at hran
    · simpa [goto, update_update_apply, hat] using hran
  | @domainStart d' =>
    left
    by_cases hd : d = d'
    · simp [goto, hd] at hran
    · simpa [goto, hd] using hran
  | @stopSection d' =>
    left
    rw [stopSection_ctx] at hran
    split at hran
    · next hd =>
      rw [hd]
      rcases dropWaiting_state (s.ctx d' i) with ⟨heq, -⟩ | ⟨heq, -, -⟩
      · exact heq ▸ hran
      · exact absurd heq hran
    · exact hran

theorem Possible.step (hc : Contexts cfg s) (hp : Possible cfg s)
    (hstep : step cfg s h a = some t) : Possible cfg t := by
  have he := hc.step_effect hstep
  have hwalk := step_walk (hc.cur_not_calling h) hstep
  have hhart : ∀ i < cfg.harts, i ∈ (cfg.domain (t.domain i)).possible := by
    intro i hi
    by_cases hih : i = h
    · subst hih
      rcases hwalk.domain with hsame | ⟨hway, -⟩
      · change i ∈ (cfg.domain (t.hart i).domain).possible
        rw [hsame]
        exact hp.hart i hi
      · exact hway.possible hp
    · change i ∈ (cfg.domain (t.hart i).domain).possible
      rw [(he.other hih).domain]
      exact hp.hart i hi
  refine ⟨hhart, ?_⟩
  intro d i hran
  rcases he.ran hran with hold | ⟨rfl, rfl | rfl⟩
  · exact hp.ctx d i hold
  · exact hp.hart i (step_hart hstep).1
  · exact hhart i (step_hart hstep).1

end Steps

/-! ### The four records -/

/-- The records of where the harts are agree. -/
structure Bookkeeping (cfg : Config x) (s : Sys x) : Prop where
  assigned : ∀ h < cfg.harts, ∃! d, s.assigned d h = true
  domain : ∀ h < cfg.harts, s.assigned (s.domain h) h = true ∧
    h ∈ (cfg.domain (s.domain h)).possible
  running : ∀ h d, (s.ctx d h).state = .running → d = s.domain h
  runningOnce : ∀ h d e, (s.ctx d h).state = .running → (s.ctx e h).state = .running → d = e
  parked : ∀ h d, s.parked d h = true ↔ (s.ctx d h).state = .calling ∨ (s.ctx d h).state = .idle

structure SameBooks (s t : Sys x) : Prop where
  domain : ∀ h, t.domain h = s.domain h
  assigned : t.assigned = s.assigned
  parked : t.parked = s.parked
  state : ∀ d h, (t.ctx d h).state = (s.ctx d h).state

variable {s : Sys x}

theorem Bookkeeping.of_contexts {cfg : Config x} (hc : Contexts cfg s) (hp : Possible cfg s) :
    Bookkeeping cfg s where
  assigned h _ := by
    refine ⟨s.domain h, (hc.assigned _ h).mpr rfl, ?_⟩
    intro d hd
    exact ((hc.assigned d h).mp hd).symm
  domain h hh := ⟨(hc.assigned _ h).mpr rfl, hp.hart h hh⟩
  running h d hr := (hc.running d h hr).symm
  runningOnce h d e hd he := (hc.running d h hd).symm.trans (hc.running e h he)
  parked h d := hc.parked d h

theorem sameBooks_goto (s : Sys x) (h : Nat) (pc : Pc x) : SameBooks s (s.goto h pc) where
  domain i := goto_domain s h pc i
  assigned := rfl
  parked := rfl
  state _ _ := rfl

theorem enter_error {cfg : Config x} {h target : Nat} {arg : Word x}
    (herror : (enter cfg s h target arg quiet).2 ≠ .success) :
    SameBooks s (enter cfg s h target arg quiet).1 := by
  by_cases hok : enterCheck cfg s h target quiet = .success
  · exfalso
    apply herror
    unfold enter
    rw [hok]
  · rw [enterCheck_refused hok]
    exact sameBooks_goto s h .trapExit

theorem leave_error {cfg : Config x} {h : Nat} {value : Word x} {first : Option Nat}
    {refused : Pc x} (herror : (leave cfg s h value quiet first refused).2 ≠ .success) :
    SameBooks s (leave cfg s h value quiet first refused).1 := by
  unfold leave at herror ⊢
  dsimp only at herror ⊢
  split at herror
  · exact sameBooks_goto s h refused
  · next d _ =>
    by_cases hwaits : s.callerWaits (s.domain h) h = true
    · rw [if_pos hwaits] at herror ⊢
      split at herror
      · next hstop =>
        rw [if_pos hstop]
        exact sameBooks_goto s h refused
      · exact absurd rfl herror
    · rw [if_neg hwaits] at herror ⊢
      split at herror
      · next hstop =>
        rw [if_pos hstop]
        -- a context that has not run forgets its caller
        refine ⟨fun i => goto_domain _ h refused i, rfl, rfl, ?_⟩
        intro d' i
        change ((s.setCtx d h { s.ctx d h with caller := none }).ctx d' i).state = _
        rw [setCtx_ctx, update_update_apply]
        split
        · next hat => rw [hat.1, hat.2]
        · rfl
      · exact absurd rfl herror

/-- In every state of every run the records agree, and an `enter()` or `leave()`
    that fails changes none of them. -/
theorem context_bookkeeping (cfg : Config x)
    (hroot : ∀ h < cfg.harts, h ∈ (cfg.domain 0).possible) (cpus : CpuNodes) (bootHart : Nat)
    (es : List (Nat × Act x)) (s : Sys x) (hrun : run cfg (boot cfg cpus bootHart) es = some s) :
    Bookkeeping cfg s ∧
      (∀ h target arg quiet, (enter cfg s h target arg quiet).2 ≠ .success →
        SameBooks s (enter cfg s h target arg quiet).1) ∧
      ∀ h value quiet first refused, (leave cfg s h value quiet first refused).2 ≠ .success →
        SameBooks s (leave cfg s h value quiet first refused).1 := by
  obtain ⟨home, hboot, hpossible⟩ := boot_eq_init cfg hroot cpus bootHart
  rw [hboot] at hrun
  have hinv : Contexts cfg s ∧ Possible cfg s :=
    (Runs.along_true _ (init home bootHart) es).invariant
      (I := fun s => Contexts cfg s ∧ Possible cfg s)
      (fun _ _ _ hi _ hstep => ⟨hi.1.step hstep, hi.2.step hi.1 hstep⟩)
      ⟨init_contexts cfg home bootHart, hpossible, fun _ _ hran => absurd rfl hran⟩ hrun
  exact ⟨.of_contexts hinv.1 hinv.2, fun _ _ _ _ => enter_error, fun _ _ _ _ _ => leave_error⟩

/-- The root domain, and one that the tree gives hart 1. -/
def annex : Config .rv64 where
  harts := 2
  present := fun _ => true
  monitor := []
  domainCount := 2
  domain := fun d =>
    if d = 0 then rootDomain {0, 1} 0 0x80200000 .supervisor
    else { rootDomain {0, 1} 1 0x80200000 .supervisor with phandle := 7 }
  entryFrom := fun _ _ => true
  bridge := fun _ _ => false
  ipiAvailable := true
  platformStart := false
  platformSuspend := false
  fdt := 0

def annexCpus : CpuNodes := ⟨[⟨some 0, 0⟩, ⟨some 1, 7⟩], by decide⟩

/-- Hart 0 boots the root domain and calls the other. -/
def annexCall : List (Nat × Act .rv64) :=
  [(0, .go), (0, .go), (0, .go), (0, .platform true), (0, .go), (0, .go), (0, .go), (0, .go),
   (0, .call (.enter 1 0))]

theorem context_bookkeeping_annex :
    ∃ s, run annex (boot annex annexCpus 0) annexCall = some s ∧ s.domain 0 = 1 ∧
      s.domain 1 = 1 ∧ s.parked 0 0 = true ∧ Bookkeeping annex s := by
  have hview : ∃ s ∈ run annex (boot annex annexCpus 0) annexCall,
      s.domain 0 = 1 ∧ s.domain 1 = 1 ∧ s.parked 0 0 = true := by decide +kernel
  obtain ⟨s, hs, hzero, hone, hparked⟩ := hview
  exact ⟨s, hs, hzero, hone, hparked,
    (context_bookkeeping annex (by decide) annexCpus 0 annexCall s hs).1⟩

end RiscvMonitor.Lifecycle
