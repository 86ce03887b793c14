import RiscvMonitor.EntryAddress

/-!
# Who may bring a hart into a domain

A hart comes to run in a domain because the domain starts it there, because a call
returns, because the domain lists the one it comes from, or over a bridge that the tree
lays between the two.
-/

namespace RiscvMonitor.Lifecycle

open Sys

variable {x : Xlen}

/-! ### The bridges of the tree -/

/-- A "riscv,rpmi-mpxy-reqfwd-bridge" node: the phandles of the domain that serves, and of those
    whose channels it has. -/
structure BridgeNode where
  owner : Nat
  sources : List Nat

def domainByPhandle (cfg : Config x) (phandle : Nat) : Option Nat :=
  if phandle = 0 then none
  else (List.range cfg.domainCount).find? fun d => d != 0 && (cfg.domain d).phandle == phandle

/-- A channel of one of the nodes leads from domain `d` to domain `e`. -/
def joined (cfg : Config x) (nodes : List BridgeNode) (d e : Nat) : Bool :=
  nodes.any fun node =>
    domainByPhandle cfg node.owner == some e && e != d &&
      node.sources.any fun phandle => domainByPhandle cfg phandle == some d

variable {d : Nat}

theorem domainByPhandle_ne_zero {cfg : Config x} {phandle : Nat}
    (hd : domainByPhandle cfg phandle = some d) : d ≠ 0 := by
  unfold domainByPhandle at hd
  split_ifs at hd
  have hfind := List.find?_some hd
  simp only [Bool.and_eq_true, bne_iff_ne] at hfind
  exact hfind.1

variable {nodes : List BridgeNode}

theorem joined_ne_zero {cfg : Config x} {e : Nat} (hjoined : joined cfg nodes d e = true) :
    d ≠ 0 ∧ e ≠ 0 := by
  obtain ⟨node, -, hnode⟩ := List.any_eq_true.mp hjoined
  simp only [Bool.and_eq_true, beq_iff_eq] at hnode
  obtain ⟨⟨howner, -⟩, hsources⟩ := hnode
  obtain ⟨phandle, -, hsource⟩ := List.any_eq_true.mp hsources
  exact ⟨domainByPhandle_ne_zero (beq_iff_eq.mp hsource), domainByPhandle_ne_zero howner⟩

/-- A hart that a bridge is to move is at one of its ends. -/
structure Bridged (cfg : Config x) (s : Sys x) : Prop where
  switches : ∀ h d, s.pc h = .switchTo d → cfg.bridge (s.domain h) d = true
  yields : ∀ h firsts, s.pc h = .yield firsts →
    ∀ d, some d ∈ firsts → cfg.bridge d (s.domain h) = true

theorem init_bridged (cfg : Config x) (home : Nat → Nat) (bootHart : Nat) :
    Bridged cfg (init home bootHart) := by
  constructor
  · intro h d hpc
    rcases init_pc home bootHart h with heq | heq <;> cases heq.symm.trans hpc
  · intro h firsts hpc
    rcases init_pc home bootHart h with heq | heq <;> cases heq.symm.trans hpc

section Steps

variable {cfg : Config x} {s t : Sys x} {h : Nat} {a : Act x} {p q : Pc x}

theorem Goes.yield {firsts : List (Option Nat)} (hgo : Goes cfg s h a p q)
    (hq : q = .yield firsts)
    (hold : ∀ firsts, p = .yield firsts → ∀ d, some d ∈ firsts → cfg.bridge d (s.domain h) = true)
    (d : Nat) (hd : some d ∈ firsts) : cfg.bridge d (s.domain h) = true := by
  cases hgo with
  | yields =>
    cases hq
    simp only [List.mem_cons, reduceCtorEq, false_or, List.mem_map, Option.some.injEq] at hd
    obtain ⟨d', hmem, rfl⟩ := hd
    exact (List.mem_filter.mp hmem).2
  | offers =>
    cases hq
    exact hold _ rfl d (List.mem_cons_of_mem _ hd)
  | starts => cases hq
  | @unasked _ _ _ _ cont => cases cont <;> cases hq
  | stopping _ hnew =>
    rw [hq] at hnew
    cases hnew
  | unlocks hpc => rcases hpc with rfl | rfl <;> cases hq
  | _ => cases hq

theorem Bridged.step (hc : Contexts cfg s) (hb : Bridged cfg s)
    (hstep : step cfg s h a = some t) : Bridged cfg t := by
  have he := hc.step_effect hstep
  have hwalk := step_walk (hc.cur_not_calling h) hstep
  constructor
  · intro i d hpc
    by_cases hi : i = h
    · subst hi
      obtain ⟨hgo, hdomain⟩ := hwalk.bridge (.inl ⟨d, hpc⟩)
      change cfg.bridge (t.hart i).domain d = true
      rw [hdomain]
      exact (hgo.switchTo hpc).2
    · rw [he.pc_other hi] at hpc
      change cfg.bridge (t.hart i).domain d = true
      rw [(he.other hi).domain]
      exact hb.switches i d hpc
  · intro i firsts hpc d hd
    by_cases hi : i = h
    · subst hi
      obtain ⟨hgo, hdomain⟩ := hwalk.bridge (.inr ⟨firsts, hpc⟩)
      change cfg.bridge d (t.hart i).domain = true
      rw [hdomain]
      exact hgo.yield hpc (hb.yields i) d hd
    · rw [he.pc_other hi] at hpc
      change cfg.bridge d (t.hart i).domain = true
      rw [(he.other hi).domain]
      exact hb.yields i firsts hpc d hd

/-! ### The ways in -/

theorem enterCheck_mayEnter (hok : enterCheck cfg s h d false = .success) :
    cfg.mayEnter (s.domain h) d = true := by
  unfold enterCheck at hok
  dsimp only at hok
  split_ifs at hok with _ hdenied
  by_contra hno
  exact hdenied ⟨rfl, Bool.not_eq_true _ ▸ hno⟩

theorem leaveTarget_mayEnter {first : Option Nat} (hd : leaveTarget cfg s h false first = some d) :
    cfg.mayEnter (s.domain h) d = true := by
  unfold leaveTarget at hd
  rw [if_neg Bool.false_ne_true] at hd
  have hfind := List.find?_some hd
  simp only [Bool.and_eq_true] at hfind
  exact hfind.1.1.2

inductive Admits (cfg : Config x) (nodes : List BridgeNode) (s : Sys x) (h d : Nat) : Prop
  | returns (hcalling : (s.ctx d h).state = .calling)
  | listed (hd : d ≠ 0) (hlisted : cfg.entryFrom d (s.domain h) = true)
  | bridged (hd : d ≠ 0)
      (hjoined : joined cfg nodes (s.domain h) d = true ∨ joined cfg nodes d (s.domain h) = true)

theorem admits_of_mayEnter (hmay : cfg.mayEnter (s.domain h) d = true) :
    Admits cfg nodes s h d := by
  simp only [Config.mayEnter, Bool.and_eq_true, bne_iff_ne] at hmay
  exact .listed hmay.1 hmay.2

theorem Departs.admits (hb : Bridged cfg s)
    (hbridge : ∀ d e, cfg.bridge d e = true → joined cfg nodes d e = true)
    (hway : Departs cfg s h a d) : Admits cfg nodes s h d := by
  cases hway with
  | enters _ _ hok => exact admits_of_mayEnter (enterCheck_mayEnter hok)
  | switches hpc =>
    have hjoined := hbridge _ _ (hb.switches h d hpc)
    exact .bridged (joined_ne_zero hjoined).2 (.inl hjoined)
  | leaves _ _ hcalling | goesBack _ _ hcalling => exact .returns hcalling
  | chains _ _ _ htarget => exact admits_of_mayEnter (leaveTarget_mayEnter htarget)
  | yields hpc =>
    have hjoined := hbridge _ _ (hb.yields h _ hpc d List.mem_cons_self)
    exact .bridged (joined_ne_zero hjoined).1 (.inr hjoined)

end Steps

/-- In every run in which the starts are settled, a hart comes to execute in a domain only where
    the domain starts it, or on one of the ways; and no way but a return leads to the root
    domain. -/
theorem entry_policy (cfg : Config x) (hroot : ∀ h < cfg.harts, h ∈ (cfg.domain 0).possible)
    (cpus : CpuNodes) (nodes : List BridgeNode)
    (hbridge : ∀ d e, cfg.bridge d e = true → joined cfg nodes d e = true) (bootHart : Nat)
    (es : List (Nat × Act x)) (s t : Sys x) (h : Nat) (a : Act x)
    (halong : Runs.Along (fun s e => step cfg s e.1 e.2) (StartsSettled cfg)
      (boot cfg cpus bootHart) es)
    (hrun : run cfg (boot cfg cpus bootHart) es = some s) (hstep : step cfg s h a = some t)
    (hexecutes : s.pc h = .begin ∨ t.domain h ≠ s.domain h) :
    h ∈ (cfg.domain (t.domain h)).possible ∧
      ((s.pc h = .begin ∧ s.assigned (t.domain h) h = true ∧
          ∃ o, (origins cfg (boot cfg cpus bootHart) es).given h = some o ∧
            o.domain = t.domain h) ∨
        Admits cfg nodes s h (t.domain h)) := by
  obtain ⟨hc, hp, hs⟩ := run_sourced cfg hroot cpus bootHart halong hrun
  have hb : Bridged cfg s := by
    obtain ⟨home, hboot, -⟩ := boot_eq_init cfg hroot cpus bootHart
    rw [hboot] at hrun
    exact ((Runs.along_true _ (init home bootHart) es).invariant
      (I := fun s => Contexts cfg s ∧ Bridged cfg s)
      (fun _ _ _ hi _ hstep => ⟨hi.1.step hstep, hi.2.step hi.1 hstep⟩)
      ⟨init_contexts cfg home bootHart, init_bridged cfg home bootHart⟩ hrun).2
  refine ⟨(hp.step hc hstep).hart h (step_hart hstep).1, ?_⟩
  by_cases hbegin : s.pc h = .begin
  · left
    obtain ⟨o, hgiven, hbacks⟩ := hs.armed h (by rw [hbegin]; rfl)
    rw [step_begin hc hbegin hstep]
    exact ⟨hbegin, (hc.assigned _ h).mpr rfl, o, hgiven, hbacks.sameDomain⟩
  · right
    have hne : t.domain h ≠ s.domain h := hexecutes.resolve_left hbegin
    rcases (step_walk (hc.cur_not_calling h) hstep).domain with hsame | ⟨hway, -⟩
    · exact absurd hsame hne
    · exact hway.admits hb hbridge

/-- Hart 1 of domain 1 is let into domain 2. -/
theorem entry_policy_crossing :
    ∃ s t, run crossing (boot crossing crossingCpus 0) (crossingStart ++ [(1, .go)]) = some s ∧
      step crossing s 1 (.call (.enter 2 0)) = some t ∧ s.domain 1 = 1 ∧ t.domain 1 = 2 ∧
      1 ∈ (crossing.domain 2).possible ∧ Admits crossing [] s 1 2 := by
  have hview : ∃ s ∈ run crossing (boot crossing crossingCpus 0) (crossingStart ++ [(1, .go)]),
      ∃ t ∈ step crossing s 1 (.call (.enter 2 0)),
        s.domain 1 = 1 ∧ t.domain 1 = 2 ∧ s.pc 1 ≠ .begin := by decide +kernel
  obtain ⟨s, hs, t, ht, hold, hnew, hpc⟩ := hview
  obtain ⟨hpossible, hway⟩ := entry_policy crossing (by decide) crossingCpus []
    (fun _ _ hbridge => absurd hbridge Bool.false_ne_true) 0 _ s t 1 _ (by decide +kernel) hs ht
    (.inr (by rw [hold, hnew]; decide))
  rw [hnew] at hpossible hway
  exact ⟨s, t, hs, ht, hold, hnew, hpossible, hway.resolve_left fun hbegin => hpc hbegin.1⟩

/-- Hart 1 comes to execute in domain 2 because domain 1 starts it, and on none of the
    ways. -/
theorem entry_by_foreign_start :
    ∃ s t, run crossing (boot crossing crossingCpus 0) crossingRace = some s ∧
      step crossing s 1 .go = some t ∧ s.pc 1 = .begin ∧ t.pc 1 = .smode ∧ t.domain 1 = 2 ∧
      (origins crossing (boot crossing crossingCpus 0) crossingRace).given 1 =
        some ⟨1, 0x80300000, true⟩ ∧
      ¬ Admits crossing [] s 1 2 := by
  have hview : ∃ s ∈ run crossing (boot crossing crossingCpus 0) crossingRace,
      ∃ t ∈ step crossing s 1 .go, s.pc 1 = .begin ∧ t.pc 1 = .smode ∧ t.domain 1 = 2 ∧
        (s.ctx 2 1).state ≠ .calling ∧ crossing.entryFrom 2 (s.domain 1) = false := by
    decide +kernel
  obtain ⟨s, hs, t, ht, hpc, hpc', hdomain, hstate, hlist⟩ := hview
  refine ⟨s, t, hs, ht, hpc, hpc', hdomain, by decide +kernel, ?_⟩
  intro hadmits
  cases hadmits with
  | returns hcalling => exact hstate hcalling
  | listed _ hlisted =>
    rw [hlist] at hlisted
    cases hlisted
  | bridged _ hjoined => rcases hjoined with hjoined | hjoined <;> cases hjoined

end RiscvMonitor.Lifecycle
