import RiscvMonitor.SseUndo

/-!
# Leaving the monitor

The `mstatus` with which a hart leaves the monitor comes from a trap frame, from a
context that the hart left earlier, or, when S-mode starts over, from the register
itself.  One hart is followed from `entry.S` on.  What S-mode does, what a trap is
about and where the hart goes are anything at all; S-mode cannot write the fields
that `sstatus` does not show.
-/

namespace RiscvMonitor.Frame

open Function (update update_of_ne update_self)
open Masks Sse

/-- `PRV_U` and `PRV_S`: what `next_mode` and `start_mode` can be. -/
inductive Mode where
  | u
  | s
deriving DecidableEq

namespace Exit

variable {x : Xlen} {feat : Features}

def prv : Mode → Word x
  | .u => prvU
  | .s => prvS

/-! ### The functions that write `mstatus` -/

/-- `csrw mstatus, zero` of `entry.S` -/
def bootMstatus : Word x := 0

def enterSmode (mode : Mode) (mstatus : Word x) : Word x :=
  let mstatus := clear mstatus (mstatusMpp ||| mstatusMpie ||| mstatusMprv ||| mstatusSie |||
    mstatusSpie ||| mstatusSpp)
  let mstatus := mstatus ||| mppOf (prv mode)
  if x = .rv64 then clear mstatus mstatusMpv else mstatus

/-- `context_fresh()`: the frame of a context that has not run, from the frame at hand. -/
def contextFresh (nextMode : Mode) (mstatus : Word x) : Word x :=
  let mstatus := clear mstatus (mstatusMpp ||| mstatusMpie ||| mstatusMprv ||| mstatusSie |||
    mstatusSpie ||| mstatusSpp ||| mstatusFs ||| mstatusVs ||| mstatusSum ||| mstatusMxr |||
    mstatusSdt)
  let mstatus := if x = .rv64 then clear mstatus (mstatusMpv ||| mstatusGva) else mstatus
  mstatus ||| mppOf (prv nextMode)

/-- `csr_set()` around the floating-point and vector registers. -/
def unitsOn (fp vector : Bool) (mstatus : Word x) : Word x :=
  setIf vector (setIf fp mstatus mstatusFs) mstatusVs

/-! ### What the hart does by itself -/

/-- The fields that are not in `sstatus`: `MIE`, `MPIE`, `MPP`, `MPRV`, `TVM`, `TW` and `TSR`,
    and the upper half of RV64 but for `UXL` and `SD`. -/
def machineOnly : Word x :=
  bit 3 ||| bit 7 ||| bit 11 ||| bit 12 ||| bit 17 ||| bit 20 ||| bit 21 ||| bit 22 ||| bit 34 |||
    bit 35 ||| bit 36 ||| bit 37 ||| bit 38 ||| bit 39 ||| bit 42

/-- S-mode runs: `sstatus` has any value. -/
def smodeRuns (sstatus mstatus : Word x) : Word x :=
  (mstatus &&& machineOnly) ||| clear sstatus machineOnly

/-- What a trap into M-mode writes besides `MPP`. -/
def trapWrites : Word x := bit 3 ||| bit 7 ||| bit 38 ||| bit 39 ||| bit 42

/-- A trap into M-mode from a lower privilege level. -/
def trapTaken (prev : Mode) (written mstatus : Word x) : Word x :=
  clear mstatus (trapWrites ||| mstatusMpp) ||| (written &&& trapWrites) ||| mppOf (prv prev)

/-- What `mret` writes besides `MPP` and `MPRV`. -/
def mretWrites : Word x := bit 3 ||| bit 7 ||| bit 24 ||| bit 39 ||| bit 42

def mret (written mstatus : Word x) : Word x :=
  clear mstatus (mretWrites ||| mstatusMpp ||| mstatusMprv) ||| (written &&& mretWrites)

/-! ### Runs of a hart -/

inductive Place (x : Xlen) where
  | off
  | started
  /-- In S-mode or U-mode. -/
  | outside
  | trapped
  /-- Around instructions that may trap: what `mstatus` gets back. -/
  | window (saved : Word x)

structure Cpu (x : Xlen) where
  mstatus : Word x
  /-- The frame of the trap and the registers that go with it. -/
  regs : Regs x
  /-- `mstatus` in the frames of the domains' contexts on this hart. -/
  contexts : Nat → Word x
  place : Place x
  /-- `mstatus` each time the hart left the monitor. -/
  exits : List (Word x)

inductive Op (x : Xlen) where
  /-- Reset, and resume of a hart that lost its state: `entry.S`. -/
  | reset
  /-- S-mode and U-mode run. -/
  | smode (sstatus : Word x)
  /-- A trap; the registers are what S-mode has made of them. -/
  | trap (prev : Mode) (written : Word x) (regs : Regs x)
  | redirect (info : TrapInfo x)
  /-- A service or an emulation has written registers of the frame; misaligned loads of
      floating-point and vector registers make these dirty. -/
  | writes (mepc : Word x) (gpr : Fin 32 → Word x) (fp vector : Bool)
  | unprivBegin (extra : Word x)
  | mayTrap
  /-- Between the two ends, a trap from M-mode and its return included. -/
  | within (mstatus : Word x)
  /-- `unpriv_end()`, or the end of `may_trap()`. -/
  | windowEnd
  /-- `inject()` and `sse_complete()` of an event, with any attributes. -/
  | inject (hartid : Word x) (e : Event x)
  | complete (e : Event x)
  /-- `context_park()` and `context_switch()`; the context has the other registers.  One that
      has not run boots the domain. -/
  | switch (cur next : Nat) (boots : Option Mode) (fp vector : Bool) (regs : Regs x)
  /-- The same, where the hart stops for the domain to start it. -/
  | switchStop (cur next : Nat) (fp vector : Bool)
  /-- `domain_stop_self()`, back to the caller. -/
  | stopSelf (caller : Nat) (fp vector : Bool) (regs : Regs x)
  /-- The hart stops, or suspends without its registers: `hart_restart_stack()`. -/
  | stop
  | trapReturn (written : Word x)
  /-- `hart_enter_smode()` and `_hart_mret()`: boot, start and resume. -/
  | enterSmode (mode : Mode) (written : Word x)
  /-- `_trap_frame_return()` of a hart that was not to start. -/
  | frameReturn (caller : Nat) (fp vector : Bool) (written : Word x)

/-- `csrw mstatus` and `mret`. -/
def Cpu.leave (c : Cpu x) (mstatus written : Word x) : Cpu x :=
  { c with mstatus := mret written mstatus, place := .outside, exits := mstatus :: c.exits }

def step (feat : Features) (c : Cpu x) : Op x → Option (Cpu x)
  | .reset => some { c with mstatus := bootMstatus, place := .started }
  | .smode sstatus =>
    match c.place with
    | .outside => some { c with mstatus := smodeRuns sstatus c.mstatus }
    | _ => none
  | .trap prev written regs =>
    match c.place with
    | .outside =>
      let mstatus := trapTaken prev written c.mstatus
      some { c with mstatus, regs := { regs with mstatus }, place := .trapped }
    | _ => none
  | .redirect info =>
    match c.place with
    | .trapped =>
      match trapRedirect feat info c.regs with
      | .redirected regs => some { c with regs }
      | .double => some c
      | .fatal => none
    | _ => none
  | .writes mepc gpr fp vector =>
    match c.place with
    | .trapped =>
      some { c with regs := { c.regs with
        mepc, gpr, mstatus := unitsOn fp vector c.regs.mstatus } }
    | _ => none
  | .unprivBegin extra =>
    match c.place with
    | .trapped => some { c with
        mstatus := clear c.regs.mstatus mstatusMprv ||| extra, place := .window c.mstatus }
    | _ => none
  | .mayTrap =>
    match c.place with
    | .trapped => some { c with place := .window c.mstatus }
    | _ => none
  | .within mstatus =>
    match c.place with
    | .window _ => some { c with mstatus }
    | _ => none
  | .windowEnd =>
    match c.place with
    | .window saved => some { c with mstatus := saved, place := .trapped }
    | _ => none
  | .inject hartid e =>
    match c.place with
    | .trapped => some { c with regs := Frame.inject feat hartid e c.regs }
    | _ => none
  | .complete e =>
    match c.place with
    | .trapped => some { c with regs := Frame.complete feat e c.regs }
    | _ => none
  | .switch cur next boots fp vector regs =>
    match c.place with
    | .trapped =>
      let parked := update c.contexts cur c.regs.mstatus
      let mstatus :=
        match boots with
        | some nextMode => contextFresh nextMode c.regs.mstatus
        | none => parked next
      some { c with
        mstatus := unitsOn fp vector c.mstatus
        regs := { regs with mstatus }
        contexts := update parked next mstatus }
    | _ => none
  | .switchStop cur next fp vector =>
    match c.place with
    | .trapped =>
      let parked := update c.contexts cur c.regs.mstatus
      some { c with
        mstatus := unitsOn fp vector c.mstatus
        contexts := update parked next c.regs.mstatus
        place := .started }
    | _ => none
  | .stopSelf caller fp vector regs =>
    match c.place with
    | .trapped => some { c with
        mstatus := unitsOn fp vector c.mstatus
        regs := { regs with mstatus := c.contexts caller } }
    | _ => none
  | .stop =>
    match c.place with
    | .trapped => some { c with place := .started }
    | _ => none
  | .trapReturn written =>
    match c.place with
    | .trapped => some (c.leave c.regs.mstatus written)
    | _ => none
  | .enterSmode mode written =>
    match c.place with
    | .started => some (c.leave (enterSmode mode c.mstatus) written)
    | _ => none
  | .frameReturn caller fp vector written =>
    match c.place with
    | .started =>
      some ({ c with mstatus := unitsOn fp vector c.mstatus }.leave (c.contexts caller) written)
    | _ => none

def powerOn (mstatus : Word x) (regs : Regs x) : Cpu x where
  mstatus := mstatus
  regs := regs
  contexts := fun _ => 0
  place := .off
  exits := []

/-! ### What the functions keep -/

/-- `MPRV` is off, and S-mode traps where the monitor has asked for it. -/
structure Held (mstatus : Word x) : Prop where
  mprv : has mstatus mstatusMprv = false
  tvm : has mstatus mstatusTvm = has (bootMstatus : Word x) mstatusTvm
  tw : has mstatus mstatusTw = has (bootMstatus : Word x) mstatusTw
  tsr : has mstatus mstatusTsr = has (bootMstatus : Word x) mstatusTsr

/-- What a hart may leave the monitor with. -/
structure Lower (mstatus : Word x) : Prop where
  below : Below mstatus
  held : Held mstatus

def heldBits : List Nat := [17, 20, 21, 22]

theorem held_iff (m : Word x) : Held m ↔ ∀ i ∈ heldBits, m.getLsbD i = false := by
  constructor
  · rintro ⟨hmprv, htvm, htw, htsr⟩ i hi
    simp only [heldBits, List.mem_cons, List.not_mem_nil, or_false] at hi
    rcases hi with rfl | rfl | rfl | rfl
    · simpa only [mstatusMprv, has_bit] using hmprv
    · simpa only [mstatusTvm, has_bit, bootMstatus, BitVec.ofNat_eq_ofNat,
        BitVec.getLsbD_zero] using htvm
    · simpa only [mstatusTw, has_bit, bootMstatus, BitVec.ofNat_eq_ofNat,
        BitVec.getLsbD_zero] using htw
    · simpa only [mstatusTsr, has_bit, bootMstatus, BitVec.ofNat_eq_ofNat,
        BitVec.getLsbD_zero] using htsr
  · intro h
    constructor
    · rw [mstatusMprv, has_bit, h 17 (by decide)]
    · rw [mstatusTvm, has_bit, has_bit, h 20 (by decide)]
      exact BitVec.getLsbD_zero.symm
    · rw [mstatusTw, has_bit, has_bit, h 21 (by decide)]
      exact BitVec.getLsbD_zero.symm
    · rw [mstatusTsr, has_bit, has_bit, h 22 (by decide)]
      exact BitVec.getLsbD_zero.symm

theorem lower_iff (m : Word x) :
    Lower m ↔ m.getLsbD 12 = false ∧ ∀ i ∈ heldBits, m.getLsbD i = false := by
  rw [← held_iff, ← below_iff]
  exact ⟨fun h => ⟨h.below, h.held⟩, fun h => ⟨h.1, h.2⟩⟩

theorem heldBits_cases {P : Nat → Prop} :
    (∀ i ∈ heldBits, P i) ↔ P 17 ∧ P 20 ∧ P 21 ∧ P 22 := by
  simp [heldBits]

theorem getLsbD_prv_high (mode : Mode) {i : Nat} (hi : 11 < i) :
    (mppOf (prv mode : Word x)).getLsbD i = false := by
  cases mode with
  | u =>
    have hzero : mppOf (prv .u : Word x) = 0 := by cases x <;> rfl
    rw [hzero]
    exact BitVec.getLsbD_zero
  | s =>
    have h11 : 11 ≠ i := by omega
    simp [prv, h11]

section

variable {m : Word x}

theorem Held.enterSmode (h : Held m) (mode : Mode) : Lower (enterSmode mode m) := by
  rw [held_iff, heldBits_cases] at h
  rw [lower_iff, heldBits_cases]
  cases x <;> simp_all [Exit.enterSmode, getLsbD_prv_high]

theorem Held.contextFresh (h : Held m) (mode : Mode) : Lower (contextFresh mode m) := by
  rw [held_iff, heldBits_cases] at h
  rw [lower_iff, heldBits_cases]
  cases x <;> simp_all [Exit.contextFresh, getLsbD_prv_high]

theorem Held.unitsOn (h : Held m) (fp vector : Bool) : Held (unitsOn fp vector m) := by
  rw [held_iff, heldBits_cases] at h ⊢
  simp_all [Exit.unitsOn]

theorem Lower.unitsOn (h : Lower m) (fp vector : Bool) : Lower (unitsOn fp vector m) := by
  refine ⟨?_, h.held.unitsOn fp vector⟩
  have hbelow := (below_iff m).mp h.below
  rw [below_iff]
  simp_all [Exit.unitsOn]

theorem Held.smodeRuns (h : Held m) (sstatus : Word x) : Held (smodeRuns sstatus m) := by
  rw [held_iff, heldBits_cases] at h ⊢
  simp_all [Exit.smodeRuns, machineOnly]

theorem Held.trapTaken (h : Held m) (prev : Mode) (written : Word x) :
    Lower (trapTaken prev written m) := by
  rw [held_iff, heldBits_cases] at h
  rw [lower_iff, heldBits_cases]
  cases x <;> simp_all [Exit.trapTaken, trapWrites, getLsbD_prv_high]

theorem Held.mret (h : Held m) (written : Word x) : Held (mret written m) := by
  rw [held_iff, heldBits_cases] at h ⊢
  cases x <;> simp_all [Exit.mret, mretWrites]

theorem Held.intoSmode (h : Held m) (fromS : Bool) : Lower (intoSmode fromS m) := by
  rw [held_iff, heldBits_cases] at h
  rw [lower_iff, heldBits_cases]
  simp_all [getLsbD_intoSmode]

end

theorem Lower.inject {r : Regs x} (h : Lower r.mstatus) (hartid : Word x) (e : Event x) :
    Lower (inject feat hartid e r).mstatus := by
  have hheld := (held_iff _).mp h.held
  rw [heldBits_cases] at hheld
  apply Held.intoSmode
  rw [held_iff, heldBits_cases]
  simp_all [intoHs_low]

theorem Lower.complete {r : Regs x} (h : Lower r.mstatus) (e : Event x) :
    Lower (complete feat e r).mstatus := by
  have hheld := (held_iff _).mp h.held
  rw [heldBits_cases] at hheld
  rw [lower_iff, heldBits_cases]
  simp_all [Frame.complete, getLsbD_restored, outOfHs_low, getLsbD_sretMpp]

theorem Lower.trapRedirect {r r' : Regs x} {info : TrapInfo x} (h : Lower r.mstatus)
    (hredirect : trapRedirect feat info r = .redirected r') : Lower r'.mstatus := by
  have hheld := (held_iff _).mp h.held
  rw [heldBits_cases] at hheld
  unfold Frame.trapRedirect at hredirect
  dsimp only at hredirect
  split at hredirect
  · cases hredirect
  · split at hredirect
    · cases hredirect
    · cases hredirect
      apply Held.intoSmode
      rw [held_iff, heldBits_cases]
      cases x <;> cases feat.h <;> simp_all

/-! ### Every run -/

def Cpu.register (c : Cpu x) : Option (Word x) :=
  match c.place with
  | .off => none
  | .window saved => some saved
  | .started | .outside | .trapped => some c.mstatus

def Cpu.framed (c : Cpu x) : Bool :=
  match c.place with
  | .trapped | .window _ => true
  | .off | .started | .outside => false

structure Guarded (c : Cpu x) : Prop where
  register : ∀ m ∈ c.register, Held m
  frame : c.framed = true → Lower c.regs.mstatus
  contexts : ∀ d, Lower (c.contexts d)
  exits : ∀ m ∈ c.exits, Lower m

theorem lower_zero : Lower (0 : Word x) := by
  rw [lower_iff, heldBits_cases]
  simp

theorem Guarded.leave {c : Cpu x} (h : Guarded c) {m : Word x} (hm : Lower m)
    (written : Word x) : Guarded (c.leave m written) where
  register := by
    rintro _ ⟨⟩
    exact hm.held.mret written
  frame := nofun
  contexts := h.contexts
  exits := by
    intro n hn
    rcases List.mem_cons.mp hn with rfl | hn
    · exact hm
    · exact h.exits n hn

theorem update_lower {contexts : Nat → Word x} (h : ∀ d, Lower (contexts d)) (d : Nat)
    {m : Word x} (hm : Lower m) : ∀ d', Lower (update contexts d m d') := by
  intro d'
  by_cases hd : d' = d
  · rw [hd, update_self]
    exact hm
  · rw [update_of_ne hd]
    exact h d'

theorem held_of_mem {m : Word x} (hm : Held m) : ∀ n ∈ some m, Held n := by
  rintro _ ⟨⟩
  exact hm

theorem step_guarded (c : Cpu x) (op : Op x) (c' : Cpu x) (h : Guarded c)
    (hstep : step feat c op = some c') : Guarded c' := by
  obtain ⟨mstatus, regs, contexts, place, exits⟩ := c
  have hcontexts : ∀ d, Lower (contexts d) := h.contexts
  have hexits : ∀ m ∈ exits, Lower m := h.exits
  unfold step at hstep
  dsimp only at hstep
  -- by the operation, and where the hart has to be for it
  split at hstep
  all_goals first
    | cases hstep
    | (split at hstep <;> first | cases hstep | skip)
  · exact ⟨held_of_mem lower_zero.held, nofun, hcontexts, hexits⟩
  · exact ⟨held_of_mem ((h.register _ rfl).smodeRuns _), nofun, hcontexts, hexits⟩
  · next prev written regs _ =>
    have hlower := (h.register _ rfl).trapTaken prev written
    exact ⟨held_of_mem hlower.held, fun _ => hlower, hcontexts, hexits⟩
  · split at hstep
    · next hredirect =>
      cases hstep
      exact ⟨h.register, fun _ => (h.frame rfl).trapRedirect hredirect, hcontexts, hexits⟩
    · cases hstep
      exact h
    · cases hstep
  · exact ⟨h.register, fun _ => (h.frame rfl).unitsOn _ _, hcontexts, hexits⟩
  · exact ⟨h.register, h.frame, hcontexts, hexits⟩
  · exact ⟨h.register, h.frame, hcontexts, hexits⟩
  · exact ⟨h.register, h.frame, hcontexts, hexits⟩
  · exact ⟨h.register, h.frame, hcontexts, hexits⟩
  · exact ⟨h.register, fun _ => (h.frame rfl).inject _ _, hcontexts, hexits⟩
  · exact ⟨h.register, fun _ => (h.frame rfl).complete _, hcontexts, hexits⟩
  · next cur next boots fp vector _ _ =>
    have hparked := update_lower hcontexts cur (h.frame rfl)
    -- the context that takes over: booted from this frame, or saved when it was left
    have hnext : Lower (match boots with
        | some nextMode => contextFresh nextMode regs.mstatus
        | none => update contexts cur regs.mstatus next) := by
      cases boots with
      | some nextMode => exact (h.frame rfl).held.contextFresh nextMode
      | none => exact hparked next
    exact ⟨held_of_mem ((h.register _ rfl).unitsOn fp vector), fun _ => hnext,
      update_lower hparked next hnext, hexits⟩
  · exact ⟨held_of_mem ((h.register _ rfl).unitsOn _ _), nofun,
      update_lower (update_lower hcontexts _ (h.frame rfl)) _ (h.frame rfl), hexits⟩
  · exact ⟨held_of_mem ((h.register _ rfl).unitsOn _ _), fun _ => hcontexts _, hcontexts, hexits⟩
  · exact ⟨h.register, nofun, hcontexts, hexits⟩
  · exact h.leave (h.frame rfl) _
  · exact h.leave ((h.register _ rfl).enterSmode _) _
  · next caller fp vector _ _ =>
    have hunits : Guarded ⟨unitsOn fp vector mstatus, regs, contexts, .started, exits⟩ :=
      ⟨held_of_mem ((h.register _ rfl).unitsOn fp vector), nofun, hcontexts, hexits⟩
    exact hunits.leave (hcontexts caller) _

theorem powerOn_guarded (mstatus : Word x) (regs : Regs x) : Guarded (powerOn mstatus regs) :=
  ⟨nofun, nofun, fun _ => lower_zero, nofun⟩

/-- However a hart comes back to S-mode, it is not M-mode that it comes back with. -/
theorem leaves_monitor_lower (feat : Features) (mstatus : Word x) (regs : Regs x)
    (ops : List (Op x)) (c : Cpu x)
    (hrun : Runs.run (step feat) (powerOn mstatus regs) ops = some c) :
    ∀ m ∈ c.exits, Below m ∧ has m mstatusMprv = false ∧
      has m mstatusTvm = has (bootMstatus : Word x) mstatusTvm ∧
      has m mstatusTw = has (bootMstatus : Word x) mstatusTw ∧
      has m mstatusTsr = has (bootMstatus : Word x) mstatusTsr := by
  have hguarded : Guarded c := by
    apply Runs.Along.invariant (P := fun _ _ => True) _ (powerOn_guarded mstatus regs)
      (Runs.along_true _ _ ops) hrun
    intro c op c' h _ hstep
    exact step_guarded c op c' h hstep
  intro m hm
  obtain ⟨hbelow, hmprv, htvm, htw, htsr⟩ := hguarded.exits m hm
  exact ⟨hbelow, hmprv, htvm, htw, htsr⟩

def ones : Word .rv64 := BitVec.allOnes 64

/-- S-mode sets what it can and completes an event with all flags set, and the hart goes to a
    domain in U-mode and back. -/
def hostile : List (Op .rv64) :=
  [.reset, .enterSmode .s 0, .smode (ones), .trap .s (ones) guest,
   .inject 0 Event.zero, .trapReturn 0, .smode (ones), .trap .s 0 guest,
   .complete ⟨0, false, 0, .running, fun _ => ones⟩, .unprivBegin 0,
   .within (ones), .windowEnd, .trapReturn 0, .trap .u 0 guest,
   .switch 0 1 (some .u) true true guest, .trapReturn 0, .trap .u 0 guest,
   .switch 1 0 none true true guest, .trapReturn 0]

theorem leaves_monitor_lower_hostile :
    ∃ c, Runs.run (step ⟨true, true⟩) (powerOn ones guest) hostile = some c ∧
      c.exits.length = 5 ∧
      ∀ m ∈ c.exits, Below m ∧ has m mstatusMprv = false ∧
        has m mstatusTvm = has (bootMstatus : Word .rv64) mstatusTvm ∧
        has m mstatusTw = has (bootMstatus : Word .rv64) mstatusTw ∧
        has m mstatusTsr = has (bootMstatus : Word .rv64) mstatusTsr := by
  have hview : ∃ c ∈ Runs.run (step ⟨true, true⟩) (powerOn ones guest) hostile,
      c.exits.length = 5 := by decide +kernel
  obtain ⟨c, hrun, hlength⟩ := hview
  exact ⟨c, hrun, hlength, leaves_monitor_lower _ _ _ hostile c hrun⟩

end Exit

end RiscvMonitor.Frame
