import RiscvMonitor.TrapFrame
import RiscvMonitor.StartedClean

/-!
# Completion undoes injection

What a hart does while events interrupt it is a tree: code of S-mode, and events, each
with what the hart does in its handler and with what comes after the completion.

A handler owes the code it interrupted the registers it found, up to `a6` and `a7` that
the monitor keeps for it.  Its duty is stated under the assumption that the events which
interrupt it keep theirs; the induction over the tree discharges that.
-/

namespace RiscvMonitor.Frame

open Masks Sse

variable {x : Xlen} {feat : Features} {r r' : Regs x} {e : Event x}

/-! ### One injection and its completion -/

/-- `MPP` and the interrupt enables as a trap from S-mode or U-mode leaves them. -/
structure Interruptible (r : Regs x) : Prop where
  below : Below r.mstatus
  enables : ¬ (r.sie = true ∧ r.sdt = true)

/-- What a handler leaves as it found it, from its entry to the call that completes it. -/
structure Leaves (r r' : Regs x) : Prop where
  sepc : r'.sepc = r.sepc
  spp : r'.spp = r.spp
  spie : r'.spie = r.spie
  hstatus : r'.hstatus = r.hstatus
  dte : r'.dte = r.dte
  gpr : ∀ n, n ≠ a6 → n ≠ a7 → r'.gpr n = r.gpr n

/-- The hart's part: the call comes from HS-mode, and `SDT` is read-only unless `DTE` is set. -/
structure Calls (feat : Features) (r r' : Regs x) : Prop where
  mpv : feat.h = true → r'.mpv = false
  sdt : r.doubleTrap feat = false → r'.sdt = r.sdt

/-- The interrupted code finds what it had. -/
structure Restored (feat : Features) (r r' : Regs x) : Prop where
  mepc : r'.mepc = r.mepc
  mpp : mpp r'.mstatus = mpp r.mstatus
  mpv : feat.h = true → r'.mpv = r.mpv
  sie : r'.sie = r.sie
  spie : r'.spie = r.spie
  spp : r'.spp = r.spp
  sdt : r'.sdt = r.sdt
  sepc : r'.sepc = r.sepc
  hstatus : r'.hstatus = r.hstatus
  gpr : r'.gpr = r.gpr
  dte : r'.dte = r.dte

structure Keeps (feat : Features) (e : Event x) (r : Regs x) : Prop where
  flags : e.attr .interruptedFlags = injectFlags feat r
  sepc : e.attr .interruptedSepc = r.sepc
  a6 : e.attr .interruptedA6 = r.gpr a6
  a7 : e.attr .interruptedA7 = r.gpr a7

section

variable (feat : Features)

theorem injectFlags_bits (r : Regs x) :
    (injectFlags feat r).getLsbD 0 = r.spp ∧ (injectFlags feat r).getLsbD 1 = r.spie ∧
      (injectFlags feat r).getLsbD 2 = (feat.h && has r.hstatus hstatusSpv) ∧
      (injectFlags feat r).getLsbD 3 = (feat.h && has r.hstatus hstatusSpvp) ∧
      (injectFlags feat r).getLsbD 5 = (r.doubleTrap feat && r.sdt) := by
  simp [injectFlags, Regs.spp, Regs.spie, Regs.sdt]

theorem intoHs_low (r : Regs x) {i : Nat} (hi : i < 32) :
    (r.intoHs feat).mstatus.getLsbD i = r.mstatus.getLsbD i := by
  unfold Regs.intoHs
  split
  · exact mpvTaken_low r hi
  · rfl

theorem intoHs_rest (r : Regs x) :
    (r.intoHs feat).mepc = r.mepc ∧ (r.intoHs feat).gpr = r.gpr ∧
      (r.intoHs feat).dte = r.dte := by
  obtain ⟨hmepc, hgpr, -, -, hdte⟩ := mpvTaken_rest r
  unfold Regs.intoHs
  split
  · exact ⟨hmepc, hgpr, hdte⟩
  · exact ⟨rfl, rfl, rfl⟩

theorem outOfHs_low (flags : Word x) (r : Regs x) {i : Nat} (hi : i < 32) :
    (r.outOfHs feat flags).mstatus.getLsbD i = r.mstatus.getLsbD i := by
  unfold Regs.outOfHs
  split
  · dsimp only
    split
    · exact mpvSet_low r hi
    · rfl
  · rfl

theorem outOfHs_rest (flags : Word x) (r : Regs x) :
    (r.outOfHs feat flags).mepc = r.mepc ∧ (r.outOfHs feat flags).gpr = r.gpr ∧
      (r.outOfHs feat flags).dte = r.dte := by
  obtain ⟨hmepc, hgpr, -, -, hdte⟩ := mpvSet_rest r
  unfold Regs.outOfHs
  split
  · dsimp only
    split
    · exact ⟨hmepc, hgpr, hdte⟩
    · exact ⟨rfl, rfl, rfl⟩
  · exact ⟨rfl, rfl, rfl⟩

theorem inject_low (hartid : Word x) (e : Event x) (r : Regs x) :
    (inject feat hartid e r).spie = r.sie ∧
      (inject feat hartid e r).spp = (mpp r.mstatus == prvS) ∧
      (inject feat hartid e r).sdt = (r.sdt || r.doubleTrap feat) := by
  have hdouble : (r.intoHs feat).doubleTrap feat = r.doubleTrap feat := by
    rw [Regs.doubleTrap, (intoHs_rest feat r).2.2, Regs.doubleTrap]
  simp [inject, Regs.spie, Regs.sie, Regs.spp, Regs.sdt, getLsbD_intoSmode, hdouble,
    intoHs_low]

theorem inject_rest (hartid : Word x) (e : Event x) (r : Regs x) :
    (inject feat hartid e r).sepc = r.mepc ∧ (inject feat hartid e r).dte = r.dte ∧
      ∀ n, n ≠ a6 → n ≠ a7 → (inject feat hartid e r).gpr n = r.gpr n := by
  obtain ⟨hmepc, hgpr, hdte⟩ := intoHs_rest feat r
  refine ⟨hmepc, hdte, ?_⟩
  intro n h6 h7
  simp [inject, h6, h7, hgpr]

end

theorem fromGuest_spv (virt fromS : Bool) (hstatus : Word x) :
    has (fromGuest virt fromS (clear hstatus hstatusSpv)) hstatusSpv = virt := by
  cases virt <;> simp [fromGuest]

theorem getLsbD_fromGuest (virt fromS : Bool) (hstatus : Word x) {i : Nat} (h7 : i ≠ 7)
    (h8 : i ≠ 8) :
    (fromGuest virt fromS (clear hstatus hstatusSpv)).getLsbD i = hstatus.getLsbD i := by
  cases virt <;> simp [fromGuest, Ne.symm h7, Ne.symm h8]

theorem inject_hstatus (feat : Features) (hartid : Word x) (e : Event x) (r : Regs x) :
    (inject feat hartid e r).hstatus =
      if feat.h then fromGuest r.mpv (mpp r.mstatus == prvS) (clear r.hstatus hstatusSpv)
      else r.hstatus := by
  cases hh : feat.h <;> simp [inject, Regs.intoHs, hh]

section

variable (feat : Features) (e : Event x) (r : Regs x)

theorem complete_hstatus (i : Nat) :
    (complete feat e r).hstatus.getLsbD i =
      if feat.h = true ∧ i = 7 then (e.attr .interruptedFlags).getLsbD 2
      else if feat.h = true ∧ i = 8 then (e.attr .interruptedFlags).getLsbD 3
      else r.hstatus.getLsbD i := by
  cases hh : feat.h with
  | false => simp [complete, Regs.outOfHs, hh]
  | true =>
    simp only [true_and]
    split_ifs with h7 h8
    · subst i
      simp [complete, Regs.outOfHs, hh]
    · subst i
      simp [complete, Regs.outOfHs, hh]
    · simp [complete, Regs.outOfHs, hh, Ne.symm h7, Ne.symm h8]

theorem complete_mpv : (complete feat e r).mpv = (feat.h && has r.hstatus hstatusSpv || r.mpv) := by
  cases x with
  | rv32 =>
    cases hh : feat.h <;> cases hs : has r.hstatus hstatusSpv <;>
      simp_all [complete, Regs.outOfHs, Regs.mpv, Regs.mpvSet]
  | rv64 =>
    cases hh : feat.h <;> cases hs : has r.hstatus hstatusSpv <;>
      simp_all [complete, Regs.outOfHs, Regs.mpv, Regs.mpvSet, getLsbD_restored, getLsbD_sretMpp]

theorem complete_low :
    (complete feat e r).mstatus.getLsbD 11 = r.spp ∧
      (complete feat e r).mstatus.getLsbD 12 = false ∧
      (complete feat e r).sie = (r.spie && !(complete feat e r).sdt) ∧
      (complete feat e r).spie = (e.attr .interruptedFlags).getLsbD 1 ∧
      (complete feat e r).spp = (e.attr .interruptedFlags).getLsbD 0 ∧
      (complete feat e r).sdt =
        (if r.doubleTrap feat then (e.attr .interruptedFlags).getLsbD 5 else r.sdt) := by
  have hdouble (m : Word x) (p : Word x) :
      ({ r with mepc := p, mstatus := m }.outOfHs feat (e.attr .interruptedFlags)).doubleTrap feat =
        r.doubleTrap feat := by
    rw [Regs.doubleTrap, (outOfHs_rest feat _ _).2.2, Regs.doubleTrap]
  simp [complete, Regs.spie, Regs.sie, Regs.spp, Regs.sdt, getLsbD_restored, getLsbD_sretMpp,
    hdouble, outOfHs_low]

theorem complete_rest :
    (complete feat e r).mepc = r.sepc ∧ (complete feat e r).dte = r.dte ∧
      (complete feat e r).sepc = e.attr .interruptedSepc ∧
      (complete feat e r).gpr = Function.update (Function.update r.gpr a6
        (e.attr .interruptedA6)) a7 (e.attr .interruptedA7) := by
  obtain ⟨hmepc, hgpr, hdte⟩ := outOfHs_rest feat (e.attr .interruptedFlags)
    { r with mepc := r.sepc, mstatus := sretMpp r.mstatus }
  refine ⟨hmepc, hdte, rfl, ?_⟩
  rw [← show _ = r.gpr from hgpr]
  rfl

end

/-- One injection, a handler that does its duty, and the completion of the same event. -/
theorem complete_inject {hartid : Word x} {entry : Event x} (hr : Interruptible r)
    (hkeeps : Keeps feat e r) (hleaves : Leaves (inject feat hartid entry r) r')
    (hcalls : Calls feat (inject feat hartid entry r) r') :
    Restored feat r (complete feat e r') := by
  obtain ⟨hspie, hspp, hsdt⟩ := inject_low feat hartid entry r
  obtain ⟨hsepc, hdte, hgpr⟩ := inject_rest feat hartid entry r
  obtain ⟨hmpp0, hmpp1, hsie', hspie', hspp', hsdt'⟩ := complete_low feat e r'
  obtain ⟨hmepc', hdte', hsepc', hgpr'⟩ := complete_rest feat e r'
  obtain ⟨hf0, hf1, hf2, hf3, hf5⟩ := injectFlags_bits feat r
  have hdouble : r'.doubleTrap feat = r.doubleTrap feat := by
    rw [Regs.doubleTrap, hleaves.dte, hdte, Regs.doubleTrap]
  -- `SDT` is in the flags when double traps are on, and nobody's to change when they are off
  have hback : (complete feat e r').sdt = r.sdt := by
    rw [hsdt', hdouble, hkeeps.flags, hf5]
    cases hd : r.doubleTrap feat with
    | true => simp
    | false =>
      have hcall : (inject feat hartid entry r).doubleTrap feat = false := by
        rw [Regs.doubleTrap, hdte, ← hd, Regs.doubleTrap]
      simp [hcalls.sdt hcall, hsdt, hd]
  constructor
  case mepc => rw [hmepc', hleaves.sepc, hsepc]
  case mpp =>
    rw [mpp_eq_iff, hmpp0, hmpp1, hleaves.spp, hspp]
    have hbelow := (below_iff _).mp hr.below
    refine ⟨?_, hbelow.symm⟩
    rw [Bool.eq_iff_iff, beq_iff_eq, mpp_eq_prvS_iff]
    simp [hbelow]
  case mpv =>
    intro hh
    rw [complete_mpv, hleaves.hstatus, inject_hstatus, if_pos hh, fromGuest_spv, hh,
      hcalls.mpv hh]
    simp
  case sie =>
    rw [hsie', hback, hleaves.spie, hspie]
    have henables := hr.enables
    cases hsie : r.sie <;> cases hs : r.sdt <;> simp_all
  case spie => rw [hspie', hkeeps.flags, hf1]
  case spp => rw [hspp', hkeeps.flags, hf0]
  case sdt => exact hback
  case sepc => rw [hsepc', hkeeps.sepc]
  case dte => rw [hdte', hleaves.dte, hdte]
  case hstatus =>
    apply BitVec.eq_of_getLsbD_eq
    intro i _
    rw [complete_hstatus, hkeeps.flags, hf2, hf3, hleaves.hstatus, inject_hstatus]
    cases hh : feat.h with
    | false => simp
    | true =>
      simp only [true_and, Bool.true_and, if_true]
      split_ifs with h7 h8
      · rw [h7, hstatusSpv, has_bit]
      · rw [h8, hstatusSpvp, has_bit]
      · exact getLsbD_fromGuest _ _ _ h7 h8
  case gpr =>
    rw [hgpr', hkeeps.a6, hkeeps.a7]
    funext n
    by_cases h7 : n = a7
    · rw [h7, Function.update_self]
    · rw [Function.update_of_ne h7]
      by_cases h6 : n = a6
      · rw [h6, Function.update_self]
      · rw [Function.update_of_ne h6, hleaves.gpr n h6 h7, hgpr n h6 h7]

theorem Interruptible.of_intoSmode {fromS : Bool} {m : Word x}
    (hm : r.mstatus = intoSmode fromS m) : Interruptible r := by
  constructor
  · rw [below_iff, hm, getLsbD_intoSmode]
    rfl
  · intro h
    have hsie : r.sie = false := by
      rw [Regs.sie, hm, mstatusSie, has_bit, getLsbD_intoSmode]
      rfl
    rw [hsie] at h
    exact Bool.false_ne_true h.1

/-- Whatever the trap, a frame that `trap_redirect()` built can be interrupted. -/
theorem trapRedirect_interruptible {info : TrapInfo x}
    (hredirect : trapRedirect feat info r = .redirected r') : Interruptible r' := by
  unfold trapRedirect at hredirect
  dsimp only at hredirect
  split at hredirect
  · cases hredirect
  · split at hredirect
    · cases hredirect
    · cases hredirect
      exact .of_intoSmode rfl

/-! ### Events within events -/

structure Hart (x : Xlen) where
  sys : Sys x
  regs : Regs x

section Nesting

variable (cfg : Sse.Config x) (feat : Features) (hart : Nat)

def Hart.process (h : Hart x) : Hart x where
  sys := sseProcess cfg h.sys hart (interrupted feat h.regs)
  regs :=
    if h.sys.kick hart = false then h.regs
    else
      match injects cfg h.sys hart with
      | some slot =>
        inject feat (cfg.hartId hart) (h.sys.event (h.sys.domain hart) slot) h.regs
      | none => h.regs

def Hart.complete (h : Hart x) : Hart x where
  sys := (sseComplete cfg h.sys hart).1
  regs :=
    match topEvent cfg h.sys hart .running with
    | some slot => Frame.complete feat (h.sys.event (h.sys.domain hart) slot) h.regs
    | none => h.regs

/-- What a hart does while events interrupt it. -/
inductive Work (x : Xlen) where
  | done
  /-- Code of S-mode and its traps, up to the end of the trap in which the next event comes,
      or to the call that completes the handler. -/
  | code (act : Hart x → Hart x) (rest : Work x)
  /-- An event, its handler up to the completion, and what follows. -/
  | event (handler rest : Work x)

def Work.run : Work x → Hart x → Hart x
  | .done, h => h
  | .code act rest, h => rest.run (act h)
  | .event handler rest, h =>
    rest.run ((handler.run (h.process cfg feat hart)).complete cfg feat hart)

/-- After every completion, at every depth, the registers are those of before the injection. -/
def Work.Undone : Work x → Hart x → Prop
  | .done, _ => True
  | .code act rest, h => rest.Undone (act h)
  | .event handler rest, h =>
    let back := (handler.run cfg feat hart (h.process cfg feat hart)).complete cfg feat hart
    handler.Undone (h.process cfg feat hart) ∧ Restored feat h.regs back.regs ∧
      rest.Undone back

/-- The completion is of the event in `slot`, which has what the injection saved. -/
structure Matches (slot : Slot) (entry exit : Hart x) : Prop where
  top : topEvent cfg exit.sys hart .running = some slot
  domain : exit.sys.domain hart = entry.sys.domain hart
  attrs : ∀ a ∈ [Attr.interruptedSepc, .interruptedFlags, .interruptedA6, .interruptedA7],
    (exit.sys.event (exit.sys.domain hart) slot).attr a =
      (entry.sys.event (entry.sys.domain hart) slot).attr a

/-- Each event interrupts what can be interrupted, is completed by its own handler, and that
    does its duty if those that interrupt it do theirs. -/
def Work.Honest : Work x → Hart x → Prop
  | .done, _ => True
  | .code act rest, h => rest.Honest (act h)
  | .event handler rest, h =>
    let entry := h.process cfg feat hart
    let exit := handler.run cfg feat hart entry
    (Interruptible h.regs ∨ ∃ r info, trapRedirect feat info r = .redirected h.regs) ∧
      handler.Honest entry ∧
      (∃ slot, h.sys.kick hart = true ∧ injects cfg h.sys hart = some slot ∧
        (handler.Undone cfg feat hart entry →
          Matches cfg hart slot entry exit ∧ Leaves entry.regs exit.regs ∧
            Calls feat entry.regs exit.regs)) ∧
      rest.Honest (exit.complete cfg feat hart)

variable {cfg feat hart}

theorem process_keeps (feat : Features) {h : Hart x} {slot : Slot} (hkick : h.sys.kick hart = true)
    (hinjects : injects cfg h.sys hart = some slot) :
    (h.process cfg feat hart).regs =
        inject feat (cfg.hartId hart) (h.sys.event (h.sys.domain hart) slot) h.regs ∧
      Keeps feat ((h.process cfg feat hart).sys.event
        ((h.process cfg feat hart).sys.domain hart) slot) h.regs := by
  have hsys : (h.process cfg feat hart).sys = h.sys.setEvent (h.sys.domain hart) slot
      (Sse.inject (h.sys.event (h.sys.domain hart) slot) (interrupted feat h.regs)) := by
    rw [Hart.process, sseProcess_eq, if_neg (by rw [hkick]; exact nofun), sseProcessLocked,
      hinjects]
  have hdomain : (h.process cfg feat hart).sys.domain = h.sys.domain := by
    rw [hsys]
    cases slot <;> rfl
  constructor
  · rw [Hart.process]
    simp [hkick, hinjects]
  · rw [hdomain, hsys, event_setEvent_eq, if_pos ⟨rfl, rfl⟩]
    exact ⟨rfl, rfl, rfl, rfl⟩

theorem Keeps.of_matches {slot : Slot} {entry exit : Hart x}
    (hmatches : Matches cfg hart slot entry exit)
    (hkeeps : Keeps feat (entry.sys.event (entry.sys.domain hart) slot) r) :
    Keeps feat (exit.sys.event (exit.sys.domain hart) slot) r := by
  constructor
  · rw [hmatches.attrs _ (by simp), hkeeps.flags]
  · rw [hmatches.attrs _ (by simp), hkeeps.sepc]
  · rw [hmatches.attrs _ (by simp), hkeeps.a6]
  · rw [hmatches.attrs _ (by simp), hkeeps.a7]

/-- Whatever the hart does and however deep its events interrupt each other, each completion
    brings back the registers of before the injection. -/
theorem completion_undoes_injection (w : Work x) (h : Hart x)
    (honest : w.Honest cfg feat hart h) : w.Undone cfg feat hart h := by
  induction w generalizing h with
  | done => trivial
  | code act rest ih => exact ih (act h) honest
  | event handler rest ihHandler ihRest =>
    obtain ⟨hinterrupted, hhandler, ⟨slot, hkick, hinjects, hduty⟩, hrest⟩ := honest
    have hinner := ihHandler _ hhandler
    refine ⟨hinner, ?_, ihRest _ hrest⟩
    obtain ⟨hmatches, hleaves, hcalls⟩ := hduty hinner
    obtain ⟨hregs, hkeeps⟩ := process_keeps feat hkick hinjects
    have hr : Interruptible h.regs := by
      rcases hinterrupted with hr | ⟨_, _, hredirect⟩
      · exact hr
      · exact trapRedirect_interruptible hredirect
    rw [hregs] at hleaves hcalls
    have hback := complete_inject hr (hkeeps.of_matches hmatches) hleaves hcalls
    rw [Hart.complete]
    dsimp only
    rw [hmatches.top]
    exact hback

theorem inject_mpv (feat : Features) (hartid : Word x) (e : Event x) (r : Regs x)
    (hh : feat.h = true) : (inject feat hartid e r).mpv = false := by
  cases x <;> simp [inject, Regs.intoHs, hh, Regs.mpv, Regs.mpvTaken, getLsbD_intoSmode]

theorem Restored.leaves (h : Restored feat r r') : Leaves r r' :=
  ⟨h.sepc, h.spp, h.spie, h.hstatus, h.dte, fun n _ _ => congrFun h.gpr n⟩

end Nesting

/-- Both software events are enabled on hart 0, and the global one is due. -/
def softwareDue : List (Nat × Move .rv64) :=
  [(0, .hsm .started), (0, .starts), (0, .call (.sseRegister 0xffff8000 0x80200000 0)),
   (0, .call (.sseEnable 0xffff8000)), (0, .call (.sseRegister 0xffff0000 0x80200000 0)),
   (0, .call (.sseEnable 0xffff0000)), (0, .call .sseHartUnmask), (0, .flags),
   (0, .call (.sseInject 0xffff8000 0))]

/-- A guest in VS-mode, with the interrupts of S-mode enabled. -/
def guest : Regs .rv64 where
  mstatus := bit 39 ||| bit 11 ||| bit 5 ||| bit 1
  mepc := 0x80400000
  gpr := fun n => BitVec.ofNat 64 n.val
  mstatush := 0
  sepc := 0x80300000
  scause := 0
  stval := 0
  stvec := 0x80200000
  hstatus := bit 8
  htval := 0
  htinst := 0
  dte := true

/-- The handler of the global event raises the local one. -/
def raiseLocal (h : Hart .rv64) : Hart .rv64 :=
  { h with sys := ecall twoDomains h.sys 0 (.sseInject 0xffff0000 0) }

def eventInHandler : Work .rv64 := .event (.code raiseLocal (.event .done .done)) .done

theorem completion_undoes_eventInHandler :
    ∃ m, Machine.run twoDomains (Machine.init fun _ => 1) softwareDue = some m ∧
      eventInHandler.Undone twoDomains ⟨true, true⟩ 0 ⟨m.sys, guest⟩ := by
  have hview : ∃ m ∈ Machine.run twoDomains (Machine.init fun _ => 1) softwareDue,
      let h0 : Hart .rv64 := ⟨m.sys, guest⟩
      let h1 := h0.process twoDomains ⟨true, true⟩ 0
      let h2 := raiseLocal h1
      let h3 := h2.process twoDomains ⟨true, true⟩ 0
      let h4 := h3.complete twoDomains ⟨true, true⟩ 0
      (h0.sys.kick 0 = true ∧ injects twoDomains h0.sys 0 = some (.global 2)) ∧
      (h2.sys.kick 0 = true ∧ injects twoDomains h2.sys 0 = some (.onHart 0 4)) ∧
      topEvent twoDomains h3.sys 0 .running = some (.onHart 0 4) ∧
      topEvent twoDomains h4.sys 0 .running = some (.global 2) ∧
      h4.sys.domain 0 = h1.sys.domain 0 ∧
      ∀ a ∈ [Attr.interruptedSepc, .interruptedFlags, .interruptedA6, .interruptedA7],
        (h4.sys.event (h4.sys.domain 0) (.global 2)).attr a =
          (h1.sys.event (h1.sys.domain 0) (.global 2)).attr a := by
    decide +kernel
  obtain ⟨m, hm, ⟨hkick0, hinjects0⟩, ⟨hkick2, hinjects2⟩, htop3, htop4, hdomain, hattrs⟩ := hview
  refine ⟨m, hm, completion_undoes_injection eventInHandler _ ?_⟩
  have hregs := (process_keeps (⟨true, true⟩ : Features) hkick0 hinjects0).1
  have hinner := (process_keeps (⟨true, true⟩ : Features) hkick2 hinjects2).1
  have hguest : Interruptible guest := ⟨.inr (by decide), by decide⟩
  refine ⟨.inl hguest, ?_, ⟨.global 2, hkick0, hinjects0, ?_⟩, trivial⟩
  · -- the local event, in the handler of the global one
    refine ⟨.inl ?_, trivial, ⟨.onHart 0 4, hkick2, hinjects2, fun _ => ⟨?_, ?_, ?_⟩⟩, trivial⟩
    · exact .of_intoSmode (congrArg Regs.mstatus hregs)
    · exact ⟨htop3, rfl, fun _ _ => rfl⟩
    · exact ⟨rfl, rfl, rfl, rfl, rfl, fun _ _ _ => rfl⟩
    · refine ⟨fun hh => ?_, fun _ => rfl⟩
      exact (congrArg Regs.mpv hinner).trans (inject_mpv _ _ _ _ hh)
  · rintro ⟨-, hback, -⟩
    refine ⟨⟨htop4, hdomain, hattrs⟩, hback.leaves, fun hh => ?_, fun _ => hback.sdt⟩
    exact (hback.mpv hh).trans ((congrArg Regs.mpv hregs).trans (inject_mpv _ _ _ _ hh))

end RiscvMonitor.Frame
