import RiscvMonitor.HartContexts

/-!
# The record of one hart

What a step makes of the records of the harts: its own hart's state, place and
start address, and those of the hart that it starts.  The steps that bring a hart
to another domain are listed with the checks that they pass.
-/

namespace RiscvMonitor.Lifecycle

open Function (update_of_ne update_self)
open Sys

variable {x : Xlen}

variable {cfg : Config x} {s t : Sys x} {h i target : Nat} {a : Act x} {p pc : Pc x}
  {cont : Cont} {addr arg : Word x}

theorem goto_walk (hpc : s.pc h = p) (hgo : Goes cfg s h a p pc) (hhart : t.hart h = s.hart h) :
    Walk cfg s h a ((t.goto h pc).hart h) := by
  rw [goto_hart, hhart]
  exact .goes (hpc ▸ hgo)

theorem boot_poked {mode : NextMode} (hpc : s.pc h = .bootLock target addr arg mode cont)
    (hhsm : s.hsm target = .stopped) (i : Nat) :
    Poked s h i (((s.setStart target addr arg mode).setHsm target .startPending).hart i)
    := by
  rw [setStart_setHsm, setHart_hart]
  by_cases hi : i = target
  · subst hi
    rw [update_self]
    exact .boot hpc hhsm
  · rw [update_of_ne hi]
    exact .same

theorem unboot_poked (hpc : s.pc h = .bootPlat target cont) (hhsm : s.hsm target = .startPending)
    (i : Nat) :
    Poked s h i ((s.setHsm target .stopped).hart i) := by
  rw [setHsm, setHart_hart]
  by_cases hi : i = target
  · subst hi
    rw [update_self]
    exact .unboot hpc hhsm
  · rw [update_of_ne hi]
    exact .same

theorem step_walk (hcur : (s.cur h).state ≠ .calling) (hstep : step cfg s h a = some t) :
    Walk cfg s h a (t.hart h) := by
  have he := step_effect hcur hstep
  cases he with
  | own _ hwalk =>
    rw [setHart_hart, update_self]
    exact hwalk
  | boot hpc _ hhsm =>
    rw [goto_hart]
    exact .asked hpc (boot_poked hpc hhsm h)
  | unboot hpc _ _ hhsm =>
    rw [goto_hart]
    exact .answered hpc (unboot_poked hpc hhsm h)
  | started hpc => exact goto_walk hpc .marks rfl
  | entered hact hok _ _ hlands =>
    refine .moves ?_ (.inl rfl) hlands
    rcases hact with ⟨rfl, hpc, arg, hact⟩ | ⟨rfl, hpc, -⟩
    · exact .enters hpc hact hok
    · exact .switches hpc hok
  | left _ _ _ _ _ _ hway hlands => exact .moves hway (.inl rfl) hlands
  | refused _ _ _ _ _ hgo | domainStart _ _ _ _ hgo => exact goto_walk rfl hgo rfl
  | @returned _ _ inCall _ hpc hcaller hstate _ _ _ _ hlands =>
    refine .moves (.goesBack hpc hcaller hstate) ?_ hlands
    cases inCall with
    | true => exact .inl rfl
    | false => exact .inr ⟨rfl, hpc⟩
  | halted hpc => exact goto_walk hpc .halts rfl
  | lock hpc => exact goto_walk hpc .locks rfl
  | stopSection hpc | cleared hpc => exact goto_walk hpc (.stopping rfl rfl nofun) rfl
  | unlocked hpc _ hgo => exact goto_walk hpc hgo rfl

theorem Effect.other (he : Effect cfg s h a t) (hi : i ≠ h) :
    Poked s h i (t.hart i) := by
  have hgoto : ∀ (u : Sys x) (pc : Pc x), (u.goto h pc).hart i = u.hart i := by
    intro u pc
    rw [goto, setHart_hart, update_of_ne hi]
  cases he with
  | own =>
    rw [setHart_hart, update_of_ne hi]
    exact .same
  | boot hpc _ hhsm =>
    rw [hgoto]
    exact boot_poked hpc hhsm i
  | unboot hpc _ _ hhsm =>
    rw [hgoto]
    exact unboot_poked hpc hhsm i
  | entered _ _ _ hm | left _ _ _ _ _ hm | returned _ _ _ hm =>
    rw [hm.hart i hi]
    exact .same
  | started | refused | halted | domainStart | lock | stopSection | cleared | unlocked =>
    have hsame : ∀ {u : Sys x} {pc : Pc x}, u.hart = s.hart →
        Poked s h i ((u.goto h pc).hart i) := by
      intro u pc hu
      rw [hgoto, hu]
      exact .same
    exact hsame rfl

theorem Poked.domain {hart : Hart x} (hp : Poked s h i hart) :
    hart.domain = s.domain i := by
  cases hp <;> rfl

theorem Goes.switchTo {d : Nat} (hgo : Goes cfg s h a p pc) (hq : pc = .switchTo d) :
    a = .call (.switchTo d) ∧ cfg.bridge (s.domain h) d = true := by
  cases hgo with
  | switches hbridge hact =>
    cases hq
    exact ⟨hact, hbridge⟩
  | @unasked _ _ _ _ cont => cases cont <;> cases hq
  | stopping _ hnew =>
    rw [hq] at hnew
    cases hnew
  | unlocks hpc => rcases hpc with rfl | rfl <;> cases hq
  | _ => cases hq

theorem Walk.bridge {hart : Hart x} (hw : Walk cfg s h a hart)
    (hpc : (∃ d, hart.pc = .switchTo d) ∨ ∃ firsts, hart.pc = .yield firsts) :
    Goes cfg s h a (s.pc h) hart.pc ∧ hart.domain = s.domain h := by
  cases hw with
  | goes hgo => exact ⟨hgo, rfl⟩
  | sets hset =>
    generalize s.pc h = p at hset
    cases hset <;> rcases hpc with ⟨_, hpc⟩ | ⟨_, hpc⟩ <;> cases hpc
  | sleeps | boots | asked => rcases hpc with ⟨_, hpc⟩ | ⟨_, hpc⟩ <;> cases hpc
  | @answered _ _ cont =>
    cases cont <;> rcases hpc with ⟨_, hpc⟩ | ⟨_, hpc⟩ <;> cases hpc
  | moves _ hnext hlands =>
    cases hlands with
    | runs =>
      rcases hnext with rfl | ⟨rfl, -⟩
      · rcases hpc with ⟨_, hpc⟩ | ⟨_, hpc⟩ <;> cases hpc
      · rcases hpc with ⟨_, hpc⟩ | ⟨_, hpc⟩ <;> cases hpc
    | stops => rcases hpc with ⟨_, hpc⟩ | ⟨_, hpc⟩ <;> cases hpc

end RiscvMonitor.Lifecycle
