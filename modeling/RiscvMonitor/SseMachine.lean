import RiscvMonitor.Sse
import RiscvMonitor.Runs

/-!
# Events, step by step

`sse.c` keeps the events under one lock and the flag of a hart, `kick`, without it.
Here a step is what is done under the lock, or one access without it, and the harts
take turns between any two of them.
-/

namespace RiscvMonitor.Sse

open Function (update)

variable {x : Xlen}

/-- Where a hart is, as far as accesses without the lock go. -/
inductive Place where
  /-- None is under way. -/
  | outside
  /-- `sse_process()` has found the flag set, and waits for the lock. -/
  | looked
  /-- `sse_hart_unmask()` has not set the flag yet. -/
  | unmasking
  /-- `context_restore()` has moved the hart, to a context that is fresh or not, and
      `sse_hart_switch_in()` comes next. -/
  | between (fresh : Bool)
  /-- `sse_hart_switch_in()` has not set the flag yet. -/
  | arrived
deriving DecidableEq

structure Machine (x : Xlen) where
  sys : Sys x
  place : Nat → Place

def injects (cfg : Config x) (s : Sys x) (self : Nat) : Option Slot :=
  match topEvent cfg s self .enabled with
  | none => none
  | some next =>
    if s.unmasked (s.domain self) self = true ∧
        (topEvent cfg s self .running).all (fun r =>
          outranks (s.event (s.domain self) next) (s.event (s.domain self) r)) = true then
      some next
    else none

def sseProcessLocked (cfg : Config x) (s : Sys x) (self : Nat) (saved : Interrupted x) : Sys x :=
  match injects cfg s self with
  | some next => s.setEvent (s.domain self) next (inject (s.event (s.domain self) next) saved)
  | none =>
    if topEvent cfg s self .enabled = none then
      { s with kick := update s.kick self false }
    else s

theorem sseProcess_eq (cfg : Config x) (s : Sys x) (self : Nat) (saved : Interrupted x) :
    sseProcess cfg s self saved =
      if s.kick self = false then s else sseProcessLocked cfg s self saved := by
  unfold sseProcess sseProcessLocked injects
  dsimp only
  cases htop : topEvent cfg s self .enabled with
  | none => rfl
  | some next =>
    dsimp only
    split
    · rfl
    · split
      · rfl
      · rw [if_neg nofun]

/-- `sse_hart_unmask()`, up to the flag. -/
def sseHartUnmaskStore (s : Sys x) (self : Nat) : Sys x :=
  { s with
    unmasked := update s.unmasked (s.domain self)
      (update (s.unmasked (s.domain self)) self true) }

def domainRunning (cfg : Config x) (s : Sys x) (d : Nat) : Bool :=
  (List.range cfg.harts).any fun i =>
    (s.assigned d i && cfg.valid i && s.hsm i != .stopped) || s.parked d i

inductive Move (x : Xlen) where
  | call (c : Call x)
  | trapEnd
  | takes (saved : Interrupted x)
  | flags
  | starts
  | moves (d : Nat) (keeps : Bool)
  | arrives
  | hsm (state : HsmState)
  | raiseLocal (id : Word x)
  | raiseGlobal (id d : Nat)
  | stopBegins (d : Nat)
  | stopEnds (d : Nat)
  | domainStart (d : Nat)

namespace Machine

@[simps]
def setPlace (m : Machine x) (h : Nat) (p : Place) : Machine x :=
  { m with place := update m.place h p }

/-- What a hart does that is in no access. -/
def outsideStep (cfg : Config x) (m : Machine x) (h : Nat) : Move x → Option (Machine x)
  | .call c =>
    if m.sys.ran (m.sys.domain h) h then
      match c with
      | .sseHartUnmask =>
        if m.sys.unmasked (m.sys.domain h) h then some m
        else some ({ m with sys := sseHartUnmaskStore m.sys h }.setPlace h .unmasking)
      | c => some { m with sys := ecall cfg m.sys h c }
    else none
  | .trapEnd =>
    if m.sys.ran (m.sys.domain h) h then
      some (if m.sys.kick h then m.setPlace h .looked else m)
    else none
  | .starts =>
    let d := m.sys.domain h
    let ran := update m.sys.ran d (update (m.sys.ran d) h true)
    some { m with sys := { sseHartInit cfg m.sys h with ran := ran } }
  | .moves d keeps =>
    if m.sys.ran (m.sys.domain h) h = true ∧ d ≠ m.sys.domain h then
      some ({ m with sys := m.sys.moveTo h d keeps }.setPlace h (.between (!m.sys.ran d h)))
    else none
  | .hsm state => some { m with sys := m.sys.setHsm h state }
  | .raiseLocal id =>
    if m.sys.ran (m.sys.domain h) h then
      some { m with sys := (sseRaiseLocal cfg m.sys h id).1 }
    else none
  | .raiseGlobal id d => some { m with sys := sseRaiseGlobal cfg m.sys h id d }
  | .stopBegins d =>
    let s := m.sys
    some { m with
      sys := { s with
        stopping := update s.stopping d true
        parked := update s.parked d fun _ => false
        ran := update s.ran d fun i => s.ran d i && decide (s.domain i = d) } }
  | .stopEnds d =>
    let s := sseDomainReset m.sys d
    some { m with sys := { s with stopping := update s.stopping d false } }
  | .domainStart d =>
    if m.sys.stopping d = false ∧ domainRunning cfg m.sys d = false then
      some { m with
        sys := { sseDomainReset m.sys d with
          ran := update m.sys.ran d fun _ => false } }
    else none
  | .takes _ | .flags | .arrives => none

def step (cfg : Config x) (m : Machine x) (h : Nat) (a : Move x) : Option (Machine x) :=
  if h < cfg.harts ∧ cfg.valid h = true then
    match m.place h, a with
    | .outside, a => outsideStep cfg m h a
    | .looked, .takes saved =>
      some ({ m with sys := sseProcessLocked cfg m.sys h saved }.setPlace h .outside)
    | .unmasking, .flags => some ({ m with sys := m.sys.setKick h }.setPlace h .outside)
    | .between fresh, .arrives =>
      let sys := if fresh then sseHartInit cfg m.sys h else m.sys
      some ({ m with sys := sys }.setPlace h .arrived)
    | .arrived, .flags => some ({ m with sys := m.sys.setKick h }.setPlace h .outside)
    | _, _ => none
  else none

def init (home : Nat → Nat) : Machine x := ⟨Sse.init home, fun _ => .outside⟩

abbrev run (cfg : Config x) : Machine x → List (Nat × Move x) → Option (Machine x) :=
  Runs.run fun m e => step cfg m e.1 e.2

end Machine

end RiscvMonitor.Sse
