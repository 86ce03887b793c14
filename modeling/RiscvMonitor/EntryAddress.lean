import RiscvMonitor.StartOrigin

/-!
# Where a hart enters S-mode

A hart enters S-mode at a start address, out of `hsm_hart_enter()`, or at the next
stage of a domain that it boots.  The address is the domain's own, and lies in what
the domain may execute, unless the hart changed its domain under a start that was
checked for another.  `domain_exit()` goes on to a domain that has not had the hart
yet without a look at where that domain begins.
-/

namespace RiscvMonitor.Lifecycle

open Sys

variable {x : Xlen}

/-- Where a step of hart `h` makes it enter S-mode, the first time since it started, resumed, or
    came to the domain. -/
def entryAddr (cfg : Config x) (s t : Sys x) (h : Nat) : Option (Word x) :=
  if s.pc h = .begin then some (s.hart h).startAddr
  else if t.domain h ≠ s.domain h ∧ (s.ctx (t.domain h) h).state = .none ∧ t.pc h ≠ .forceStop then
    -- `context_fresh()`
    some (cfg.domain (t.domain h)).nextAddr
  else none

section Steps

variable {cfg : Config x} {s t : Sys x} {h : Nat} {a : Act x}

theorem Departs.not_begin {d : Nat} (hway : Departs cfg s h a d) : s.pc h ≠ .begin := by
  intro hbegin
  cases hway with
  | enters hpc | switches hpc | chains hpc | yields hpc | goesBack hpc =>
    rw [hbegin] at hpc
    cases hpc
  | leaves hpc =>
    rcases hpc with hpc | ⟨_, hpc⟩
    · rw [hbegin] at hpc
      cases hpc
    · rw [hbegin] at hpc
      cases hpc

theorem step_begin (hc : Contexts cfg s) (hbegin : s.pc h = .begin)
    (hstep : step cfg s h a = some t) : t.domain h = s.domain h := by
  rcases (step_walk (hc.cur_not_calling h) hstep).domain with hsame | ⟨hway, -⟩
  · exact hsame
  · exact absurd hbegin hway.not_begin

theorem enterCheck_entry {d : Nat} {quiet : Bool} (hok : enterCheck cfg s h d quiet = .success)
    (hnone : (s.ctx d h).state = .none) : cfg.entryOk d (cfg.domain d).nextAddr = true := by
  unfold enterCheck at hok
  dsimp only at hok
  split_ifs at hok with _ _ _ _ hentry
  by_contra hbad
  exact hentry ⟨hnone, Bool.not_eq_true _ ▸ hbad⟩

theorem leaveTarget_entry {first : Option Nat} {d : Nat}
    (hd : leaveTarget cfg s h true first = some d) :
    cfg.entryOk d (cfg.domain d).nextAddr = true := by
  unfold leaveTarget at hd
  rw [if_pos rfl] at hd
  have hfilter := (Option.filter_eq_some_iff.mp hd).2
  simp only [Bool.and_eq_true] at hfilter
  exact hfilter.2

theorem Lands.boots {d : Nat} {next : Pc x} {hart : Hart x} (hl : Lands cfg s h d next hart)
    (hpc : hart.pc ≠ .forceStop) (hnone : (s.ctx d h).state = .none) :
    (cfg.domain d).bootHart = some h := by
  cases hl with
  | runs hboot => exact hboot hnone
  | stops => exact absurd rfl hpc

end Steps

/-- In every run in which the starts are settled, a hart enters S-mode at an address
    that software of the very domain gave it, and that is accepted there, or at the
    domain's next stage. -/
theorem entry_given_by_own_domain (cfg : Config x)
    (hroot : ∀ h < cfg.harts, h ∈ (cfg.domain 0).possible) (cpus : CpuNodes) (bootHart : Nat)
    (es : List (Nat × Act x)) (s t : Sys x) (h : Nat) (a : Act x)
    (halong : Runs.Along (fun s e => step cfg s e.1 e.2) (StartsSettled cfg)
      (boot cfg cpus bootHart) es)
    (hrun : run cfg (boot cfg cpus bootHart) es = some s) (hstep : step cfg s h a = some t)
    (addr : Word x) (henters : entryAddr cfg s t h = some addr) :
    (∃ o, (origins cfg (boot cfg cpus bootHart) es).given h = some o ∧ o.software = true ∧
        o.domain = t.domain h ∧ o.addr = addr ∧ cfg.entryOk (t.domain h) addr = true) ∨
      addr = (cfg.domain (t.domain h)).nextAddr := by
  obtain ⟨hc, -, hs⟩ := run_sourced cfg hroot cpus bootHart halong hrun
  unfold entryAddr at henters
  split at henters
  · next hbegin =>
    cases henters
    rw [step_begin hc hbegin hstep]
    obtain ⟨o, hgiven, hbacks⟩ := hs.armed h (by rw [hbegin]; rfl)
    cases hsoftware : o.software with
    | true => exact .inl ⟨o, hgiven, hsoftware, hbacks.sameDomain, hbacks.sameAddr, hbacks.entry⟩
    | false => exact .inr (hbacks.ofTree hsoftware)
  · split_ifs at henters
    cases henters
    exact .inr rfl

def megabyte (base : Word .rv64) (haligned : base.toNat % 2 ^ 20 = 0) : DomainRegion .rv64 :=
  .megabyte domainPermSuRwx base haligned

/-- Both harts are domain 1's.  Hart 1 may go to domain 2, and hart 0 to domain 3, whose next
    stage is not in its memory. -/
def crossing : Config .rv64 where
  harts := 2
  present := fun _ => true
  monitor := []
  domainCount := 4
  domain := fun d =>
    if d = 0 then rootDomain {0, 1} 0 0 .supervisor
    else if d = 1 then { rootDomain {0, 1} 0 0x80200000 .supervisor with phandle := 1 }
    else if d = 2 then
      { rootDomain {1} 0 0x80400000 .supervisor with
        phandle := 2, bootHart := none
        regions := ⟨[megabyte 0x80400000 (by decide)], List.pairwise_singleton _ _⟩ }
    else
      { rootDomain {0} 0 0x80400000 .supervisor with
        phandle := 3, regions := ⟨[megabyte 0x80500000 (by decide)], List.pairwise_singleton _ _⟩ }
  entryFrom := fun _ d => d == 1
  bridge := fun _ _ => false
  ipiAvailable := true
  platformStart := false
  platformSuspend := false
  fdt := 0

def crossingCpus : CpuNodes := ⟨[⟨some 0, 1⟩, ⟨some 1, 1⟩], by decide⟩

/-- Hart 0 boots domain 1 and starts hart 1, which is about to enter S-mode. -/
def crossingStart : List (Nat × Act .rv64) :=
  [(1, .go), (1, .go), (0, .go), (0, .go), (0, .go), (0, .go), (0, .go), (0, .go), (0, .go),
   (0, .go), (0, .call (.hartStart 1 0x80300000 0)), (0, .go), (0, .platform true), (0, .go),
   (1, .go), (1, .go), (1, .go)]

theorem crossingStart_enters :
    ∃ s ∈ run crossing (boot crossing crossingCpus 0) crossingStart,
      ∃ t ∈ step crossing s 1 .go,
        entryAddr crossing s t 1 = some 0x80300000 ∧ t.domain 1 = 1 := by
  decide +kernel

theorem entry_given_by_own_domain_crossing :
    ∃ s t, run crossing (boot crossing crossingCpus 0) crossingStart = some s ∧
      step crossing s 1 .go = some t ∧ entryAddr crossing s t 1 = some 0x80300000 ∧
      ∃ o, (origins crossing (boot crossing crossingCpus 0) crossingStart).given 1 = some o ∧
        o.software = true ∧ o.domain = 1 ∧ o.addr = 0x80300000 ∧
        crossing.entryOk 1 0x80300000 = true := by
  obtain ⟨s, hs, t, ht, henters, hdomain⟩ := crossingStart_enters
  refine ⟨s, t, hs, ht, henters, ?_⟩
  rcases entry_given_by_own_domain crossing (by decide) crossingCpus 0 crossingStart s t 1 .go
    (by decide +kernel) hs ht _ henters with hgiven | hnext
  · rw [hdomain] at hgiven
    exact hgiven
  · rw [hdomain] at hnext
    exact absurd hnext (by decide)

/-- Hart 0 asks for a start of hart 1.  Before that takes the start lock, hart 1 goes to domain
    2 and is stopped there. -/
def crossingRace : List (Nat × Act .rv64) :=
  crossingStart ++
    [(1, .go), (0, .call (.hartStart 1 0x80300000 0)), (1, .call (.enter 2 0)), (1, .go), (1, .go),
     (1, .go), (0, .go), (0, .platform true), (1, .go), (1, .go), (1, .go)]

/-- Hart 1 enters S-mode in domain 2, at the address that software of domain 1 gave. -/
theorem entry_given_by_other_domain :
    ∃ s t, run crossing (boot crossing crossingCpus 0) crossingRace = some s ∧
      step crossing s 1 .go = some t ∧ entryAddr crossing s t 1 = some 0x80300000 ∧
      t.domain 1 = 2 ∧
      (origins crossing (boot crossing crossingCpus 0) crossingRace).given 1 =
        some ⟨1, 0x80300000, true⟩ ∧
      crossing.entryOk 2 0x80300000 = false ∧ (crossing.domain 2).nextAddr = 0x80400000 := by
  have hview : ∃ s ∈ run crossing (boot crossing crossingCpus 0) crossingRace,
      ∃ t ∈ step crossing s 1 .go,
        entryAddr crossing s t 1 = some 0x80300000 ∧ t.domain 1 = 2 := by decide +kernel
  obtain ⟨s, hs, t, ht, henters, hdomain⟩ := hview
  exact ⟨s, t, hs, ht, henters, hdomain, by decide +kernel, by decide +kernel, by decide +kernel⟩

/-- Where `domain_exit()` goes on to a domain that the hart then boots, the next stage is the
    domain's to execute. -/
def ChainsChecked (cfg : Config x) (s : Sys x) (e : Nat × Act x) : Prop :=
  match s.pc e.1, e.2 with
  | .smode, .call (.exit _) =>
    s.callerWaits (s.domain e.1) e.1 = false →
      ∀ d ∈ leaveTarget cfg s e.1 false none, (cfg.domain d).bootHart = some e.1 →
        cfg.entryOk d (cfg.domain d).nextAddr = true
  | _, _ => True

instance (cfg : Config x) (s : Sys x) (e : Nat × Act x) : Decidable (ChainsChecked cfg s e) := by
  unfold ChainsChecked
  induction s.pc e.1 using Pc.casesOn <;> induction e.2 using Act.casesOn with
  | call c => induction c using Call.casesOn <;> infer_instance
  | _ => infer_instance

def KeepsEntries (cfg : Config x) (s : Sys x) (e : Nat × Act x) : Prop :=
  StartsSettled cfg s e ∧ ChainsChecked cfg s e

instance (cfg : Config x) (s : Sys x) (e : Nat × Act x) : Decidable (KeepsEntries cfg s e) :=
  inferInstanceAs (Decidable (_ ∧ _))

theorem Departs.entry {cfg : Config x} {s : Sys x} {h : Nat} {a : Act x} {d : Nat}
    (hway : Departs cfg s h a d) (hnone : (s.ctx d h).state = .none)
    (hboot : (cfg.domain d).bootHart = some h) (hchains : ChainsChecked cfg s (h, a)) :
    cfg.entryOk d (cfg.domain d).nextAddr = true := by
  cases hway with
  | enters _ _ hok => exact enterCheck_entry hok hnone
  | switches _ hok => exact enterCheck_entry hok hnone
  | leaves _ _ hcalling | goesBack _ _ hcalling =>
    rw [hcalling] at hnone
    cases hnone
  | chains hpc hact hwaits htarget =>
    simp only [ChainsChecked, hpc, hact] at hchains
    exact hchains hwaits d htarget hboot
  | yields _ htarget => exact leaveTarget_entry htarget

/-- In every run in which the starts are settled and the domains that an exit goes on
    to can execute their next stage, a hart enters S-mode where the domain that it
    then runs in may execute. -/
theorem first_entries_checked (cfg : Config x)
    (hroot : ∀ h < cfg.harts, h ∈ (cfg.domain 0).possible) (cpus : CpuNodes) (bootHart : Nat)
    (es : List (Nat × Act x)) (s t : Sys x) (h : Nat) (a : Act x)
    (halong : Runs.Along (fun s e => step cfg s e.1 e.2) (KeepsEntries cfg)
      (boot cfg cpus bootHart) (es ++ [(h, a)]))
    (hrun : run cfg (boot cfg cpus bootHart) es = some s) (hstep : step cfg s h a = some t)
    (addr : Word x) (henters : entryAddr cfg s t h = some addr) :
    cfg.entryOk (t.domain h) addr = true := by
  obtain ⟨hbefore, hlast⟩ := halong.of_append
  obtain ⟨⟨-, hchains⟩, -⟩ := hlast s hrun
  obtain ⟨hc, -, hs⟩ :=
    run_sourced cfg hroot cpus bootHart (hbefore.mono fun _ _ hk => hk.1) hrun
  unfold entryAddr at henters
  split at henters
  · next hbegin =>
    cases henters
    rw [step_begin hc hbegin hstep]
    obtain ⟨o, -, hbacks⟩ := hs.armed h (by rw [hbegin]; rfl)
    exact hbacks.entry
  · split at henters
    · next hfresh =>
      cases henters
      obtain ⟨hne, hnone, hruns⟩ := hfresh
      rcases (step_walk (hc.cur_not_calling h) hstep).domain with hsame | ⟨hway, next, hlands⟩
      · exact absurd hsame hne
      · exact hway.entry hnone (hlands.boots hruns hnone) hchains
    · cases henters

/-- Hart 1 enters S-mode where hart 0 told it to. -/
theorem first_entries_checked_crossing :
    ∃ s t, run crossing (boot crossing crossingCpus 0) crossingStart = some s ∧
      step crossing s 1 .go = some t ∧ entryAddr crossing s t 1 = some 0x80300000 ∧
      t.domain 1 = 1 ∧ crossing.entryOk 1 0x80300000 = true := by
  obtain ⟨s, hs, t, ht, henters, hdomain⟩ := crossingStart_enters
  refine ⟨s, t, hs, ht, henters, hdomain, ?_⟩
  rw [← hdomain]
  exact first_entries_checked crossing (by decide) crossingCpus 0 crossingStart s t 1 .go
    (by decide +kernel) hs ht _ henters

/-- Hart 0 leaves domain 1 for domain 3, and begins where that has no memory; hart 1 is
    started in domain 2 at an address of domain 1's. -/
theorem first_entries_unchecked :
    (∃ s t, run crossing (boot crossing crossingCpus 0) crossingStart = some s ∧
      step crossing s 0 (.call (.exit 0)) = some t ∧
      entryAddr crossing s t 0 = some 0x80400000 ∧ t.domain 0 = 3 ∧
      crossing.entryOk 3 0x80400000 = false) ∧
    ∃ s t, run crossing (boot crossing crossingCpus 0) crossingRace = some s ∧
      step crossing s 1 .go = some t ∧ entryAddr crossing s t 1 = some 0x80300000 ∧
      t.domain 1 = 2 ∧ crossing.entryOk 2 0x80300000 = false := by
  constructor
  · have hview : ∃ s ∈ run crossing (boot crossing crossingCpus 0) crossingStart,
        ∃ t ∈ step crossing s 0 (.call (.exit 0)),
          entryAddr crossing s t 0 = some 0x80400000 ∧ t.domain 0 = 3 := by decide +kernel
    obtain ⟨s, hs, t, ht, henters, hdomain⟩ := hview
    exact ⟨s, t, hs, ht, henters, hdomain, by decide +kernel⟩
  · have hview : ∃ s ∈ run crossing (boot crossing crossingCpus 0) crossingRace,
        ∃ t ∈ step crossing s 1 .go,
          entryAddr crossing s t 1 = some 0x80300000 ∧ t.domain 1 = 2 := by decide +kernel
    obtain ⟨s, hs, t, ht, henters, hdomain⟩ := hview
    exact ⟨s, t, hs, ht, henters, hdomain, by decide +kernel⟩

end RiscvMonitor.Lifecycle
