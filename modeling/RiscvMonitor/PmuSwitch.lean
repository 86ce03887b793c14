import RiscvMonitor.Pmu

/-!
# Counters that move with the hart

What `pmu_hart_switch_in()` leaves in the counters, and what the calls are
answered from: neither the overflow interrupt nor what the record keeps for the
way back is part of it.
-/

namespace RiscvMonitor.Pmu

open Function (update update_of_ne update_self)
open Masks

variable {x : Xlen}

/-! ### Loops over the counters -/

variable {n : Nat}

section Loops

variable (cfg : Config x)

def Config.hasSelect (cfg : Config x) (n : Nat) : Bool :=
  cfg.hwCounters.getLsbD n && (decide (3 ≤ n) || cfg.smcntrpmf)

def Config.selectLegal (cfg : Config x) (n : Nat) (v : BitVec 64) : BitVec 64 :=
  if n < 3 then v &&& filterBits else cfg.legal n v

theorem hasSelect_exists (hn : cfg.hasSelect n = true) :
    cfg.hwCounters.getLsbD n = true := by
  rw [Config.hasSelect, Bool.and_eq_true] at hn
  exact hn.1

theorem haveInhibit_of_exists (hn : cfg.hwCounters.getLsbD n = true) :
    cfg.haveInhibit = true := by
  by_contra hno
  rw [cfg.noInhibit (Bool.not_eq_true _ ▸ hno)] at hn
  simp at hn

theorem ne_one_of_exists (hn : cfg.hwCounters.getLsbD n = true) : n ≠ 1 := by
  rintro rfl
  have hfixed := (cfg.fixed (haveInhibit_of_exists cfg hn)).2.1
  rw [hn] at hfixed
  cases hfixed

theorem eventWrite_select (hw : Hardware) (hn : cfg.hwCounters.getLsbD n = true) (v : BitVec 64)
    (m : Nat) :
    (eventWrite cfg hw n v).select m =
      if m = n ∧ cfg.hasSelect n = true then cfg.selectLegal n v else hw.select m := by
  have hne := ne_one_of_exists cfg hn
  by_cases h3 : n < 3
  · by_cases hpmf : cfg.smcntrpmf = true
    · by_cases hm : m = n
      · subst hm
        simp [eventWrite, Config.hasSelect, Config.selectLegal, hn, h3, hpmf, hne]
      · simp [eventWrite, h3, hpmf, hm, hne]
    · simp [eventWrite, Config.hasSelect, h3, hpmf, hne]
  · by_cases hm : m = n
    · subst hm
      simp [eventWrite, Config.hasSelect, Config.selectLegal, hn, h3, Nat.le_of_not_lt h3]
    · simp [eventWrite, h3, hm]

theorem eventWrite_rest (hw : Hardware) (n : Nat) (v : BitVec 64) :
    (eventWrite cfg hw n v).inhibit = hw.inhibit ∧ (eventWrite cfg hw n v).counter = hw.counter ∧
      (eventWrite cfg hw n v).irqEnabled = hw.irqEnabled ∧
      (eventWrite cfg hw n v).irqDelegated = hw.irqDelegated ∧
      (eventWrite cfg hw n v).irqPending = hw.irqPending := by
  unfold eventWrite
  split
  · split <;> exact ⟨rfl, rfl, rfl, rfl, rfl⟩
  · exact ⟨rfl, rfl, rfl, rfl, rfl⟩

def restoreOne (cfg : Config x) (saved : Hardware) (hw : Hardware) (n : Nat) : Hardware :=
  counterWrite (eventWrite cfg hw n (saved.select n)) n (saved.counter n)

theorem restore_loop (saved hw : Hardware) (ns : List Nat) :
    let r := ns.foldl (fun hw n =>
      if cfg.hwCounters.getLsbD n then restoreOne cfg saved hw n else hw) hw
    (∀ m, r.counter m =
        if m ∈ ns ∧ cfg.hwCounters.getLsbD m = true then saved.counter m else hw.counter m) ∧
      (∀ m, r.select m =
        if m ∈ ns ∧ cfg.hasSelect m = true then cfg.selectLegal m (saved.select m)
        else hw.select m) := by
  induction ns generalizing hw with
  | nil => simp
  | cons n ns ih =>
    simp only [List.foldl_cons]
    by_cases hn : cfg.hwCounters.getLsbD n = true
    · obtain ⟨-, hcounter, -⟩ := eventWrite_rest cfg hw n (saved.select n)
      obtain ⟨ihc, ihs⟩ := ih (restoreOne cfg saved hw n)
      rw [if_pos hn]
      constructor
      · intro m
        rw [ihc]
        by_cases hm : m = n
        · subst hm
          simp [restoreOne, counterWrite, hn]
        · simp [restoreOne, counterWrite, hcounter, hm]
      · intro m
        have hstep : (restoreOne cfg saved hw n).select m =
            if m = n ∧ cfg.hasSelect n = true then cfg.selectLegal n (saved.select n)
            else hw.select m := eventWrite_select cfg hw hn _ m
        rw [ihs, hstep]
        by_cases hm : m = n
        · subst hm
          by_cases hsel : cfg.hasSelect m = true
          · simp [hsel]
          · simp [hsel]
        · simp [hm]
    · obtain ⟨ihc, ihs⟩ := ih hw
      rw [if_neg hn]
      constructor
      · intro m
        rw [ihc]
        by_cases hm : m = n
        · subst hm
          simp [hn]
        · simp [hm]
      · intro m
        rw [ihs]
        by_cases hm : m = n
        · subst hm
          have hsel : cfg.hasSelect m = false := by
            by_contra hsel
            exact hn (hasSelect_exists cfg (Bool.not_eq_false _ ▸ hsel))
          simp [hsel]
        · simp [hm]

theorem mem_range_of_exists {m : Nat} (hm : cfg.hwCounters.getLsbD m = true) :
    m ∈ List.range hwCounterCount := by
  rw [List.mem_range]
  exact BitVec.lt_of_getLsbD hm

theorem forEach_restore (saved hw : Hardware) :
    (∀ m, (cfg.forEach (restoreOne cfg saved) hw).counter m =
        if cfg.hwCounters.getLsbD m then saved.counter m else hw.counter m) ∧
      (∀ m, (cfg.forEach (restoreOne cfg saved) hw).select m =
        if cfg.hasSelect m then cfg.selectLegal m (saved.select m) else hw.select m) := by
  obtain ⟨hcounter, hselect⟩ := restore_loop cfg saved hw (List.range hwCounterCount)
  constructor
  · intro m
    refine (hcounter m).trans ?_
    by_cases hm : cfg.hwCounters.getLsbD m = true
    · simp [hm, mem_range_of_exists cfg hm]
    · simp [hm]
  · intro m
    refine (hselect m).trans ?_
    by_cases hm : cfg.hasSelect m = true
    · simp [hm, mem_range_of_exists cfg (hasSelect_exists cfg hm)]
    · simp [hm]

end Loops

/-! ### What the calls are answered from -/

/-- The overflow interrupt, and what is kept for the way back. -/
def Hardware.silent (hw : Hardware) : Hardware :=
  { hw with irqEnabled := false, irqDelegated := false, irqPending := false }

def Hardware.zero : Hardware := ⟨0, fun _ => 0, fun _ => 0, false, false, false⟩

def Hart.plain (b : Hart x) : Hart x where
  p := { b.p with sseEnabled := false, sseSavedIe := false, hw := .zero }
  hw := b.hw.silent

section Plain

variable (cfg : Config x) {b c : Hart x}

theorem eventWrite_silent (hw : Hardware) (n : Nat) (v : BitVec 64) :
    (eventWrite cfg hw n v).silent = eventWrite cfg hw.silent n v := by
  unfold eventWrite
  split
  · split <;> rfl
  · rfl

theorem configHw_silent (hw : Hardware) (n : Nat) (flags : Word x) (select : BitVec 64) :
    (configHw cfg hw n flags select).silent = configHw cfg hw.silent n flags select := by
  unfold configHw
  dsimp only
  generalize (if n < 3 then inhibitBits flags
    else if cfg.sscofpmf then select ||| inhibitBits flags ||| hpmeventOf else select) = v
  split
  · exact congrArg (counterWrite · n 0) (eventWrite_silent cfg (setInhibit hw n) n v)
  · exact eventWrite_silent cfg (setInhibit hw n) n v

theorem counterStartOne_plain (b : Hart x) (idx : Nat) :
    (counterStartOne cfg b idx).plain = counterStartOne cfg b.plain idx := by
  unfold counterStartOne
  split
  · rfl
  · dsimp only
    split
    · exact congrArg (fun hw => Hart.mk b.plain.p (clearInhibit hw idx))
        (eventWrite_silent cfg b.hw idx _)
    · rfl

theorem configOne_plain (b : Hart x) (n : Nat) (flags : Word x) (event : BitVec 32)
    (select : BitVec 64) :
    configOne cfg b.plain n flags event select = (configOne cfg b n flags event select).plain := by
  unfold configOne
  dsimp only
  -- the counter itself, before it is started
  have hchosen : ∀ b₁ b₂ : Hart x, b₁ = b₂.plain →
      (if cfgAutoStart flags then counterStartOne cfg b₁ n else b₁) =
        Hart.plain (if cfgAutoStart flags then counterStartOne cfg b₂ n else b₂) := by
    rintro _ b₂ rfl
    split
    · exact (counterStartOne_plain cfg b₂ n).symm
    · rfl
  apply hchosen
  split
  · cases cfgClearValue flags <;> rfl
  · exact congrArg (Hart.mk _) (configHw_silent cfg b.hw n flags select).symm

theorem counterConfig_plain (b : Hart x) (base mask flags eventIdx : Word x) (data : BitVec 64) :
    counterConfig cfg b.plain base mask flags eventIdx data =
      ((counterConfig cfg b base mask flags eventIdx data).1.plain,
        (counterConfig cfg b base mask flags eventIdx data).2) := by
  unfold counterConfig
  have htarget : ∀ fw candidates, configTarget b.plain.p fw candidates base mask flags =
      configTarget b.p fw candidates base mask flags := fun _ _ => rfl
  simp only [htarget, configOne_plain]
  split
  · rfl
  split
  · rfl
  split
  · rfl
  split <;> rfl

theorem setValue_plain (b : Hart x) (n : Nat) (v : BitVec 64) :
    setValue b.plain n v = (setValue b n v).plain := by
  unfold setValue
  split <;> rfl

theorem foldl_plain {S : Type} {op : Hart x × S → Nat × Nat → Hart x × S}
    (hop : ∀ b r n, op (b.plain, r) n = ((op (b, r) n).1.plain, (op (b, r) n).2))
    (l : List (Nat × Nat)) (b : Hart x) (r : S) :
    l.foldl op (b.plain, r) = ((l.foldl op (b, r)).1.plain, (l.foldl op (b, r)).2) := by
  induction l generalizing b r with
  | nil => rfl
  | cons n l ih => rw [List.foldl_cons, List.foldl_cons, hop, ih]

theorem startOne_plain (flags : Word x) (value : BitVec 64) (mem : Mem) (b : Hart x)
    (rc : SbiError) (n : Nat × Nat) :
    startOne cfg flags value mem (b.plain, rc) n =
      ((startOne cfg flags value mem (b, rc) n).1.plain,
        (startOne cfg flags value mem (b, rc) n).2) := by
  have hrunning : counterRunning b.plain n.2 = counterRunning b n.2 := rfl
  have hevent : b.plain.p.event = b.p.event := rfl
  unfold startOne
  simp only [hrunning, hevent, setValue_plain]
  split
  · rfl
  split
  · rfl
  · split
    · exact congrArg (·, rc) (counterStartOne_plain cfg _ n.2).symm
    · exact congrArg (·, rc) (counterStartOne_plain cfg b n.2).symm

theorem counterStart_plain (b : Hart x) (base mask flags : Word x) (value : BitVec 64)
    (mem : Mem) :
    counterStart cfg b.plain base mask flags value mem =
      ((counterStart cfg b base mask flags value mem).1.plain,
        (counterStart cfg b base mask flags value mem).2) := by
  have hloop := foldl_plain fun b rc n => startOne_plain cfg flags value mem b rc n
  have hsnapshot : b.plain.p.snapshot = b.p.snapshot := rfl
  unfold counterStart
  simp only [hloop, hsnapshot]
  split
  · rfl
  split
  · rfl
  split <;> rfl

theorem stopCounter_plain (b : Hart x) (n : Nat) :
    stopCounter b.plain n = (stopCounter b n).plain := by
  unfold stopCounter
  split <;> rfl

theorem resetCounter_plain (b : Hart x) (n : Nat) :
    resetCounter cfg b.plain n = (resetCounter cfg b n).plain := by
  have hwrite : eventWrite cfg b.plain.hw n 0 = (eventWrite cfg b.hw n 0).silent :=
    (eventWrite_silent cfg b.hw n 0).symm
  unfold resetCounter
  simp only [hwrite]
  split
  · rfl
  · split <;> rfl

theorem snapshotOf_plain (b : Hart x) (n : Nat) :
    snapshotOf cfg b.plain n = snapshotOf cfg b n := rfl

theorem stopOne_plain (flags : Word x) (b : Hart x) (rc : SbiError) (mem : Mem) (n : Nat × Nat) :
    stopOne cfg flags (b.plain, rc, mem) n =
      ((stopOne cfg flags (b, rc, mem) n).1.plain, (stopOne cfg flags (b, rc, mem) n).2) := by
  have hrunning : counterRunning b.plain n.2 = counterRunning b n.2 := rfl
  unfold stopOne
  simp only [hrunning, stopCounter_plain, snapshotOf_plain, resetCounter_plain]
  cases stopReset flags <;> rfl

theorem counterStop_plain (b : Hart x) (base mask flags : Word x) (mem : Mem) :
    counterStop cfg b.plain base mask flags mem =
      ((counterStop cfg b base mask flags mem).1.plain,
        (counterStop cfg b base mask flags mem).2) := by
  have hloop := foldl_plain fun b (r : SbiError × Mem) n =>
    stopOne_plain cfg flags b r.1 r.2 n
  have hsnapshot : b.plain.p.snapshot = b.p.snapshot := rfl
  unfold counterStop
  simp only [hloop, hsnapshot]
  split
  · rfl
  split <;> rfl

theorem snapshotSetShmem_plain (b : Hart x) (lo hi flags : Word x) :
    snapshotSetShmem cfg b.plain lo hi flags =
      ((snapshotSetShmem cfg b lo hi flags).1.plain, (snapshotSetShmem cfg b lo hi flags).2) := by
  unfold snapshotSetShmem
  split
  · rfl
  split
  · rfl
  split
  · rfl
  split <;> rfl

theorem ecall_plain (b : Hart x) (mem : Mem) (c : Call x) :
    ecall cfg b.plain mem c = ((ecall cfg b mem c).1.plain, (ecall cfg b mem c).2) := by
  cases c with
  | numCounters | counterGetInfo | fwRead | fwReadHi => rfl
  | configMatching => simp only [ecall, counterConfig_plain]
  | counterStart => simp only [ecall, counterStart_plain]
  | counterStop => simp only [ecall, counterStop_plain]
  | eventGetInfo =>
    unfold ecall
    dsimp only
    split
    · rfl
    split <;> rfl
  | snapshotSetShmem => simp only [ecall, snapshotSetShmem_plain]

theorem counts_silent (hw : Hardware) (n : Nat) (k : BitVec 64) :
    (counts cfg hw n k).silent = (counts cfg hw.silent n k).silent := by
  have hrunning : running hw.silent n = running hw n := rfl
  have hcounter : hw.silent.counter = hw.counter := rfl
  unfold counts
  rw [hrunning, hcounter]
  split
  · dsimp only
    split <;> rfl
  · rfl

theorem fwEvent_plain (b : Hart x) (event : BitVec 32) :
    fwEvent b.plain event = (fwEvent b event).plain := rfl

theorem sseEnable_plain (b : Hart x) (enable : Bool) : (sseEnable b enable).plain = b.plain := by
  unfold sseEnable
  split
  · rfl
  split <;> rfl

end Plain

/-! ### A fresh context -/

/-- The counters as others leave them.  What the hart does not have reads zero. -/
structure Left (cfg : Config x) where
  hw : Hardware
  inhibit : cfg.haveInhibit = false → hw.inhibit = 0
  counter : ∀ n, cfg.hwCounters.getLsbD n = false → hw.counter n = 0
  select : ∀ n, cfg.hasSelect n = false → hw.select n = 0

/-- What a fresh context finds, where the firmware counters had `values`. -/
def fresh (cfg : Config x) (values : Fin fwCounterCount → BitVec 64) : Hart x where
  p := ⟨snapshotNone, false, false, fun _ => eventNone, 0, values, .zero⟩
  hw := ⟨if cfg.haveInhibit then cfg.stopped else 0, fun _ => 0,
    fun n => if cfg.hasSelect n then cfg.selectLegal n ((freshHw cfg).select n) else 0,
    false, false, false⟩

variable {hw : Hardware}

section Fresh

variable (cfg : Config x)

def Untouched (hw hw' : Hardware) : Prop :=
  hw'.counter = hw.counter ∧ ∀ m, cfg.hasSelect m = false → hw'.select m = hw.select m

theorem eventWrite_untouched {hw' : Hardware} (v : BitVec 64)
    (hn : cfg.hwCounters.getLsbD n = true) (hkept : Untouched cfg hw hw') :
    Untouched cfg hw (eventWrite cfg hw' n v) := by
  constructor
  · exact (eventWrite_rest cfg hw' n v).2.1.trans hkept.1
  · intro m hm
    rw [eventWrite_select cfg hw' hn v m, if_neg, hkept.2 m hm]
    rintro ⟨rfl, hsel⟩
    rw [hm] at hsel
    cases hsel

theorem forEach_invariant {f : Hardware → Nat → Hardware} {P : Hardware → Prop}
    (hf : ∀ hw n, cfg.hwCounters.getLsbD n = true → P hw → P (f hw n)) (hhw : P hw) :
    P (cfg.forEach f hw) := by
  unfold Config.forEach
  induction List.range hwCounterCount generalizing hw with
  | nil => exact hhw
  | cons n ns ih =>
    rw [List.foldl_cons]
    apply ih
    split
    · next hn => exact hf hw n hn hhw
    · exact hhw

theorem hartInit_untouched (b : Hart x) : Untouched cfg b.hw (hartInit cfg b).hw := by
  unfold hartInit
  dsimp only
  split
  · exact ⟨rfl, fun _ _ => rfl⟩
  · next hinhibit =>
    obtain ⟨h0, -, h2⟩ := cfg.fixed (Bool.not_eq_false _ ▸ hinhibit)
    apply eventWrite_untouched cfg _ h2
    apply eventWrite_untouched cfg _ h0
    apply forEach_invariant cfg (P := Untouched cfg b.hw)
    · intro hw n hn hkept
      split
      · exact hkept
      · exact eventWrite_untouched cfg _ hn hkept
    · exact ⟨rfl, fun _ _ => rfl⟩

theorem hartInit_record (b : Hart x) :
    (hartInit cfg b).p = { b.p with
      event := fun _ => eventNone
      fwStarted := 0
      snapshot := snapshotNone
      sseEnabled := false } := by
  unfold hartInit
  split <;> rfl

theorem not_exists_of_noInhibit (hno : cfg.haveInhibit = false) (n : Nat) :
    cfg.hwCounters.getLsbD n = false := by
  rw [cfg.noInhibit hno]
  simp

theorem Hardware.silent_congr {hw' : Hardware} (hinhibit : hw.inhibit = hw'.inhibit)
    (hcounter : hw.counter = hw'.counter) (hselect : hw.select = hw'.select) :
    hw.silent = hw'.silent := by
  cases hw
  cases hw'
  simp_all [Hardware.silent]

theorem switchIn_fresh (p : PmuHart x) (l : Left cfg) :
    (switchIn cfg true ⟨p, l.hw⟩).plain = fresh cfg p.fwValue := by
  set b := hartInit cfg ⟨{ p with hw := freshHw cfg }, l.hw⟩ with hb
  have hrecord : b.p = { p with
      hw := freshHw cfg
      event := fun _ => eventNone
      fwStarted := 0
      snapshot := snapshotNone
      sseEnabled := false } := hartInit_record cfg _
  have huntouched : Untouched cfg l.hw b.hw := hartInit_untouched cfg _
  have hsaved : b.p.hw = freshHw cfg := by rw [hrecord]
  have hplain : (switchIn cfg true ⟨p, l.hw⟩).plain =
      ⟨{ b.p with sseEnabled := false, sseSavedIe := false, hw := .zero },
        Hardware.silent (if cfg.haveInhibit then
          { cfg.forEach (restoreOne cfg b.p.hw) { b.hw with inhibit := cfg.hwCounters } with
            inhibit := b.p.hw.inhibit }
        else b.hw)⟩ := by
    unfold switchIn
    rw [if_pos rfl, ← hb]
    dsimp only
    cases cfg.sscofpmf <;> cases cfg.haveInhibit <;> rfl
  have hsilent := fun hw => @Hardware.silent_congr hw (fresh cfg p.fwValue).hw
  rw [hplain, hsaved, hrecord]
  refine congrArg (Hart.mk _) ?_
  by_cases hinhibit : cfg.haveInhibit = true
  · rw [if_pos hinhibit]
    obtain ⟨hcounter, hselect⟩ :=
      forEach_restore cfg (freshHw cfg) { b.hw with inhibit := cfg.hwCounters }
    apply hsilent
    · simp [fresh, freshHw, hinhibit]
    · funext n
      refine (hcounter n).trans ?_
      split
      · rfl
      · next hn => rw [huntouched.1, l.counter n (Bool.not_eq_true _ ▸ hn)]; rfl
    · funext n
      refine (hselect n).trans ?_
      simp only [fresh]
      split
      · rfl
      · next hn =>
        have hno := Bool.not_eq_true _ ▸ hn
        rw [huntouched.2 n hno, l.select n hno]
  · have hno := Bool.not_eq_true _ ▸ hinhibit
    have hhw : b.hw = l.hw := by
      rw [hb, hartInit]
      simp [hno]
    rw [if_neg hinhibit, hhw]
    apply hsilent
    · simp [fresh, hno, l.inhibit hno]
    · funext n
      exact l.counter n (not_exists_of_noInhibit cfg hno n)
    · funext n
      have hsel : cfg.hasSelect n = false := by
        simp [Config.hasSelect, not_exists_of_noInhibit cfg hno n]
      simp [fresh, hsel, l.select n hsel]

end Fresh

/-! ### Reading a firmware counter -/

variable {b : Hart x}

section Probe

variable (cfg : Config x)

theorem selected_one (base : Word x) : selected base 1 = [(0, base.toNat)] := by
  have hbits : (List.range x.bits).filter (1 : Word x).getLsbD = [0] := by
    cases x <;> decide
  rw [selected, hbits]
  simp

/-- The number of firmware counter `i`, and the event that it is given to count. -/
def fwIndex (i : Fin fwCounterCount) : Word x := BitVec.ofNat x.bits (fwFirst + i)

theorem fwIndex_toNat (i : Fin fwCounterCount) : (fwIndex i : Word x).toNat = fwFirst + i := by
  have hi := i.isLt
  rw [fwIndex, BitVec.toNat_ofNat, Nat.mod_eq_of_lt]
  cases x <;> simp only [Xlen.bits, fwFirst, hwCounterCount, fwCounterCount] at * <;> omega

theorem fwSlot_fwIndex (i : Fin fwCounterCount) : fwSlot (fwIndex i : Word x).toNat = i := by
  rw [fwIndex_toNat]
  apply Fin.ext
  simp only [fwSlot, Fin.ofNat, Nat.add_sub_cancel_left]
  exact Nat.mod_eq_of_lt i.isLt

theorem counterExists_fwIndex (i : Fin fwCounterCount) :
    counterExists cfg (fwIndex i : Word x).toNat = true := by
  have hi := i.isLt
  rw [fwIndex_toNat, counterExists]
  simp [counterCount, fwFirst]

def fwProbeEvent : Word x := 0xf0000

theorem counterConfig_fw (hfree : ∀ n, b.p.event n = eventNone) (i : Fin fwCounterCount) :
    counterConfig cfg b (fwIndex i) 1 0 fwProbeEvent 0 =
      ({ b with
        p := { b.p with event := update b.p.event (fwIndex i : Word x).toNat 0xf0000 } },
        .success, fwIndex i) := by
  have hset : counterSetOk cfg (fwIndex i : Word x) 1 = true := by
    have hone : ((1 : Word x) != 0) = true := by cases x <;> decide
    rw [counterSetOk, selected_one, hone]
    simp [counterExists_fwIndex]
  have hevent : (fwProbeEvent : Word x).setWidth 32 = 0xf0000 := by cases x <;> rfl
  have hlow : ¬ 0xfffff < (fwProbeEvent : Word x).toNat := by cases x <;> decide
  have hflags : cfgSkipMatch (0 : Word x) = false ∧ cfgClearValue (0 : Word x) = false ∧
      cfgAutoStart (0 : Word x) = false := by
    cases x <;> decide
  have htarget : ∀ candidates,
      configTarget b.p true candidates (fwIndex i) 1 0 = .ok (fwIndex i : Word x).toNat := by
    intro candidates
    have hfw : fwFirst ≤ (fwIndex i : Word x).toNat := by
      rw [fwIndex_toNat]
      exact Nat.le_add_right ..
    unfold configTarget
    rw [hflags.1, selected_one, if_neg Bool.false_ne_true, List.find?_cons_of_pos]
    simp [hfree, hfw]
  have hfw : eventType (0xf0000 : BitVec 32) = eventTypeFw := by decide
  have hcode : ¬ fwMax ≤ eventCode (0xf0000 : BitVec 32) := by decide
  have hchosen : configOne cfg b (fwIndex i : Word x).toNat 0 0xf0000
      (hwEventLookup cfg 0xf0000 0).2 =
      { b with
        p := { b.p with
          event := update b.p.event (fwIndex i : Word x).toNat 0xf0000 } } := by
    rw [configOne, hflags.2.1, hflags.2.2, if_pos hfw, if_neg Bool.false_ne_true,
      if_neg Bool.false_ne_true]
  have hindex : BitVec.ofNat x.bits (fwIndex i : Word x).toNat = fwIndex i := by simp
  unfold counterConfig
  simp only [hset, hevent, hfw, htarget, hlow, hcode, hchosen, hindex, beq_self_eq_true,
    Bool.true_eq_false, or_self, if_false, and_false, false_and]

theorem counterFwRead_configured (hfree : ∀ n, b.p.event n = eventNone) (i : Fin fwCounterCount) :
    counterFwRead (counterConfig cfg b (fwIndex i) 1 0 fwProbeEvent 0).1 (fwIndex i) =
      (.success, b.p.fwValue i) := by
  have hi := i.isLt
  have hrange : ¬ ((fwIndex i : Word x).toNat < fwFirst ∨
      counterCount ≤ (fwIndex i : Word x).toNat ∨ (0xf0000 : BitVec 32) = eventNone) := by
    rw [fwIndex_toNat, not_or, not_or]
    refine ⟨by omega, ?_, by decide⟩
    simp only [counterCount, fwFirst]
    omega
  rw [counterConfig_fw cfg hfree i, counterFwRead]
  simp only [update_self, if_neg hrange, fwSlot_fwIndex]

theorem counterStartOne_values (b : Hart x) (c : Nat) :
    (counterStartOne cfg b c).p.fwValue = b.p.fwValue ∧
      (counterStartOne cfg b c).hw.counter = b.hw.counter := by
  unfold counterStartOne
  split
  · exact ⟨rfl, rfl⟩
  · refine ⟨rfl, ?_⟩
    dsimp only
    split
    · exact (eventWrite_rest cfg b.hw c _).2.1
    · rfl

theorem configOne_zero (hfw : ∀ i, b.p.fwValue i = 0) (hhw : ∀ n, b.hw.counter n = 0) (c : Nat)
    (flags : Word x) (event : BitVec 32) (select : BitVec 64) (n : Nat) :
    counterValue (configOne cfg b c flags event select) n = 0 := by
  have hchosen : ∀ b' : Hart x, (∀ i, b'.p.fwValue i = 0) → (∀ n, b'.hw.counter n = 0) →
      counterValue (if cfgAutoStart flags then counterStartOne cfg b' c else b') n = 0 := by
    intro b' hfw' hhw'
    obtain ⟨hvalue, hcounter⟩ := counterStartOne_values cfg b' c
    unfold counterValue
    split_ifs
    · rw [hvalue, hfw']
    · exact hfw' _
    · rw [hcounter, hhw']
    · exact hhw' _
  unfold configOne
  dsimp only
  apply hchosen
  · intro i
    split_ifs
    · by_cases hi : i = fwSlot c
      · subst hi
        exact update_self ..
      · exact (update_of_ne hi ..).trans (hfw i)
    · exact hfw i
    · exact hfw i
  · intro m
    split
    · exact hhw m
    · have hcounter : ∀ v, (eventWrite cfg (setInhibit b.hw c) c v).counter m = 0 := by
        intro v
        rw [(eventWrite_rest cfg (setInhibit b.hw c) c v).2.1]
        exact hhw m
      unfold configHw
      dsimp only
      split
      · by_cases hm : m = c
        · subst hm
          exact update_self ..
        · exact (update_of_ne hm ..).trans (hcounter _)
      · exact hcounter _

theorem counterConfig_zero (hfw : ∀ i, b.p.fwValue i = 0) (hhw : ∀ n, b.hw.counter n = 0)
    (base mask flags eventIdx : Word x) (data : BitVec 64) (n : Nat) :
    counterValue (counterConfig cfg b base mask flags eventIdx data).1 n = 0 := by
  have hsame : counterValue b n = 0 := by
    unfold counterValue
    split
    · exact hfw _
    · exact hhw _
  unfold counterConfig
  dsimp only
  split
  · exact hsame
  split
  · exact hsame
  split
  · exact hsame
  split
  · exact hsame
  · exact configOne_zero cfg hfw hhw _ flags _ _ n

end Probe

theorem eq_of_halves {v w : BitVec 64} (hlow : v.setWidth x.bits = w.setWidth x.bits)
    (hhigh : (v >>> 32 >>> (x.bits - 32)).setWidth x.bits =
      (w >>> 32 >>> (x.bits - 32)).setWidth x.bits) : v = w := by
  cases x with
  | rv64 => simpa [Xlen.bits] using hlow
  | rv32 =>
    apply BitVec.eq_of_getLsbD_eq
    intro i hi
    by_cases hhalf : i < 32
    · have hbit := congrArg (BitVec.getLsbD · i) hlow
      simpa [Xlen.bits, hhalf] using hbit
    · have hbit := congrArg (BitVec.getLsbD · (i - 32)) hhigh
      have hsum : 32 + (i - 32) = i := by omega
      have hlt : i - 32 < 32 := by omega
      simpa [Xlen.bits, hsum, hlt] using hbit

end RiscvMonitor.Pmu
