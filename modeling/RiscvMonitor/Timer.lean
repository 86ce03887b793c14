import RiscvMonitor.Word
import RiscvMonitor.Runs

/-!
# Timers

`aclint_mtimer.c` has one counter and a compare register for each hart, both in
halves; `timer.c` makes S-mode's timer of them, or of `stimecmp` where there is
Sstc.  A hart has one and runs several domains: each of them finds a timer of its
own.
-/

namespace RiscvMonitor.Timer

open Function (update)

def high (v : BitVec 64) : BitVec 32 := v.extractLsb' 32 32
def low (v : BitVec 64) : BitVec 32 := v.extractLsb' 0 32

theorem pair_eq (v : BitVec 64) : regPairTo64 (high v) (low v) = v := by
  rw [regPairTo64, high, low, BitVec.extractLsb'_append_extractLsb'_eq_extractLsb' (by omega)]
  exact BitVec.extractLsb'_eq_self

theorem high_pair (h l : BitVec 32) : high (regPairTo64 h l) = h :=
  BitVec.extractLsb'_append_eq_left

theorem toNat_pair (h l : BitVec 32) : (regPairTo64 h l).toNat = h.toNat * 2 ^ 32 + l.toNat := by
  rw [regPairTo64, BitVec.toNat_append, Nat.shiftLeft_eq, Nat.mul_comm,
    Nat.two_pow_add_eq_or_of_lt l.isLt]

theorem toNat_halves (v : BitVec 64) :
    v.toNat = (high v).toNat * 2 ^ 32 + (low v).toNat ∧ (low v).toNat < 2 ^ 32 := by
  rw [← toNat_pair, pair_eq]
  exact ⟨rfl, (low v).isLt⟩

/-- `aclint_mtimer_now()` from the `i`th access to the device on, three accesses each time round;
    `clock` is the counter at each of them. -/
def aclintMtimerNow (clock : Nat → BitVec 64) : Nat → Nat → Option (BitVec 64)
  | 0, _ => none
  | rounds + 1, i =>
    if high (clock i) = high (clock (i + 2)) then
      some (regPairTo64 (high (clock i)) (low (clock (i + 1))))
    else aclintMtimerNow clock rounds (i + 3)

section Halves

variable {clock : Nat → BitVec 64} (hclock : ∀ i j, i ≤ j → clock i ≤ clock j)

include hclock

theorem high_mono {i j : Nat} (hij : i ≤ j) :
    (high (clock i)).toNat ≤ (high (clock j)).toNat := by
  have hle : (clock i).toNat ≤ (clock j).toNat := hclock i j hij
  have := toNat_halves (clock i)
  have := toNat_halves (clock j)
  omega

theorem aclintMtimerNow_moment {rounds i : Nat} {t : BitVec 64}
    (hnow : aclintMtimerNow clock rounds i = some t) :
    ∃ j, i < j ∧ j < i + 3 * rounds ∧ t = clock j := by
  induction rounds generalizing i with
  | zero => cases hnow
  | succ rounds ih =>
    rw [aclintMtimerNow] at hnow
    split at hnow
    · next hsame =>
      cases hnow
      -- the access in the middle saw the same high half
      have hfirst := high_mono hclock (Nat.le_add_right i 1)
      have hlast := high_mono hclock (Nat.le_add_right (i + 1) 1)
      rw [← hsame] at hlast
      refine ⟨i + 1, by omega, by omega, ?_⟩
      rw [BitVec.eq_of_toNat_eq (Nat.le_antisymm hfirst hlast), pair_eq]
    · obtain ⟨j, hij, hj, rfl⟩ := ih hnow
      exact ⟨j, by omega, by omega, rfl⟩

theorem aclintMtimerNow_two {i : Nat}
    (honce : (high (clock (i + 5))).toNat ≤ (high (clock i)).toNat + 1) :
    ∃ t, aclintMtimerNow clock 2 i = some t := by
  rw [aclintMtimerNow]
  split
  · exact ⟨_, rfl⟩
  · next hchanged =>
    have hne : (high (clock i)).toNat ≠ (high (clock (i + 2))).toNat :=
      fun heq => hchanged (BitVec.eq_of_toNat_eq heq)
    have hfirst := high_mono hclock (Nat.le_add_right i 2)
    have hnext : (high (clock (i + 2))).toNat ≤ (high (clock (i + 3))).toNat :=
      high_mono hclock (Nat.le_add_right (i + 2) 1)
    have hlast := high_mono hclock (Nat.le_add_right (i + 3) 2)
    change (high (clock (i + 3 + 2))).toNat ≤ _ at honce
    rw [aclintMtimerNow, if_pos (BitVec.eq_of_toNat_eq (by omega))]
    exact ⟨_, rfl⟩

end Halves

def setLow (r : BitVec 64) (v : BitVec 32) : BitVec 64 := regPairTo64 (high r) v
def setHigh (r : BitVec 64) (v : BitVec 32) : BitVec 64 := regPairTo64 v (low r)

def aclintMtimerSetEvent (cmp t : BitVec 64) : BitVec 64 :=
  setLow (setHigh (setLow cmp (-1)) (high t)) (low t)

/-- The register after each store of `aclint_mtimer_set_event()`; `stimecmp` is
    written like that on RV32. -/
def setEventStores (cmp t : BitVec 64) : List (BitVec 64) :=
  [setLow cmp (-1), setHigh (setLow cmp (-1)) (high t), aclintMtimerSetEvent cmp t]

theorem aclintMtimerSetEvent_eq (cmp t : BitVec 64) : aclintMtimerSetEvent cmp t = t := by
  rw [aclintMtimerSetEvent, setLow, setHigh, high_pair, pair_eq]

theorem setEventStores_quiet {cmp t v : BitVec 64} (hcmp : v < cmp) (ht : v < t) :
    ∀ r ∈ setEventStores cmp t, v < r := by
  have hones : (-1 : BitVec 32).toNat = 2 ^ 32 - 1 := by decide
  have := toNat_halves cmp
  have := toNat_halves t
  have hlow : low (setLow cmp (-1)) = -1 := BitVec.extractLsb'_append_eq_right
  simp only [setEventStores, aclintMtimerSetEvent_eq, List.forall_mem_cons, BitVec.lt_def, setHigh,
    hlow, toNat_pair, hones] at hcmp ht ⊢
  rw [setLow, toNat_pair, hones]
  exact ⟨by omega, by omega, ht, List.forall_mem_nil _⟩

/-- In halves as if whole.  What is read of a counter that never goes back is what it was at
    one moment of the reading, and two rounds are enough unless its high half changes twice in
    them.  Half-written, the compare register is reached only when the old or the new time is. -/
theorem halves_as_whole {clock : Nat → BitVec 64} (hclock : ∀ i j, i ≤ j → clock i ≤ clock j)
    (i : Nat) :
    (∀ rounds t, aclintMtimerNow clock rounds i = some t →
      ∃ j, i < j ∧ j < i + 3 * rounds ∧ t = clock j) ∧
    ((high (clock (i + 5))).toNat ≤ (high (clock i)).toNat + 1 →
      ∃ t, aclintMtimerNow clock 2 i = some t) ∧
    ∀ cmp t, ∀ r ∈ setEventStores cmp t, r ≤ clock i → cmp ≤ clock i ∨ t ≤ clock i := by
  refine ⟨fun _ _ => aclintMtimerNow_moment hclock, aclintMtimerNow_two hclock, ?_⟩
  intro cmp t r hr hreached
  by_contra! hquiet
  have hcmp := BitVec.not_le.mp hquiet.1
  have ht := BitVec.not_le.mp hquiet.2
  exact BitVec.not_le.mpr (setEventStores_quiet hcmp ht r hr) hreached

/-- A counter that carries between the first two accesses. -/
def carries (i : Nat) : BitVec 64 := if i = 0 then 0xffffffff else 0x100000000

theorem halves_as_whole_carries :
    ∃ t j, aclintMtimerNow carries 2 0 = some t ∧ 0 < j ∧ j < 6 ∧ t = carries j := by
  have hclock : ∀ i j, i ≤ j → carries i ≤ carries j := by
    intro i j hij
    unfold carries
    split_ifs <;> first | decide | omega
  obtain ⟨hmoment, hreturns, -⟩ := halves_as_whole hclock 0
  obtain ⟨t, ht⟩ := hreturns (by decide)
  obtain ⟨j, hj⟩ := hmoment 2 t ht
  exact ⟨t, j, ht, hj⟩

/-! ### A hart -/

structure Config where
  sstc : Bool
  /-- A driver has registered, and has a compare register for the hart. -/
  timer : Bool
  register : Bool

structure Hart where
  now : BitVec 64
  stimecmp : BitVec 64
  mtimecmp : BitVec 64
  deadline : BitVec 64
  /-- MTIP is enabled. -/
  mtie : Bool
  stip : Bool

def setEvent (cfg : Config) (h : Hart) (t : BitVec 64) : BitVec 64 :=
  if cfg.register then aclintMtimerSetEvent h.mtimecmp t else h.mtimecmp

def timerSmodeGet (cfg : Config) (h : Hart) : BitVec 64 :=
  if cfg.sstc then h.stimecmp else h.deadline

def timerSmodeRestore (cfg : Config) (h : Hart) (t : BitVec 64) : Hart :=
  -- in halves, as on RV32; on RV64 it is one store, and the outcome the same
  if cfg.sstc then { h with stimecmp := aclintMtimerSetEvent h.stimecmp t }
  else if cfg.timer then
    { h with deadline := t, stip := false, mtimecmp := setEvent cfg h t, mtie := true }
  else h

def timerProcess (h : Hart) : Hart := { h with mtie := false, stip := true }

def timerHartInit (cfg : Config) (h : Hart) : Hart :=
  { h with
    deadline := -1, mtie := false,
    mtimecmp := if cfg.timer then setEvent cfg h (-1) else h.mtimecmp }

/-- The timer's part of `hart_runtime_init()`. -/
def hartRuntimeInit (cfg : Config) (h : Hart) : Hart :=
  timerHartInit cfg
    { h with stimecmp := if cfg.sstc then -1 else h.stimecmp, stip := false }

/-- STIP is set, or MTIP is and the monitor takes it before S-mode runs on. -/
def Hart.interrupts (cfg : Config) (h : Hart) : Bool :=
  if cfg.sstc then decide (h.stimecmp ≤ h.now)
  else h.stip || (h.mtie && (cfg.register && decide (h.mtimecmp ≤ h.now)))

/-! ### Its domains -/

structure Sys where
  hart : Hart
  domain : Nat
  /-- `timer` of the contexts -/
  ctx : Nat → BitVec 64

inductive Act where
  | passes (t : BitVec 64)
  /-- `set_timer()`, or S-mode writes `stimecmp`. -/
  | set (t : BitVec 64)
  /-- MTIP, in a trap or in the wait of a suspended hart. -/
  | irq
  | switch (d : Nat) (fresh : Bool)
  /-- The hart stops, and is started again. -/
  | restart

def step (cfg : Config) (s : Sys) : Act → Option Sys
  | .passes t => if s.hart.now ≤ t then some { s with hart := { s.hart with now := t } } else none
  | .set t => some { s with hart := timerSmodeRestore cfg s.hart t }
  | .irq =>
    if s.hart.mtie ∧ cfg.register ∧ s.hart.mtimecmp ≤ s.hart.now then
      some { s with hart := timerProcess s.hart }
    else none
  | .switch d fresh =>
    let ctx := update s.ctx s.domain (timerSmodeGet cfg s.hart)
    let ctx := if fresh then update ctx d (-1) else ctx
    some ⟨timerSmodeRestore cfg s.hart (ctx d), d, ctx⟩
  | .restart => some { s with hart := hartRuntimeInit cfg (timerHartInit cfg s.hart) }

/-- A timer for each domain, that goes off when its time has come. -/
structure Own where
  wanted : Nat → BitVec 64
  domain : Nat

def Own.note (o : Own) : Act → Own
  | .set t => { o with wanted := update o.wanted o.domain t }
  | .switch d fresh => ⟨if fresh then update o.wanted d (-1) else o.wanted, d⟩
  | .restart => { o with wanted := update o.wanted o.domain (-1) }
  | .passes _ | .irq => o

def boot (cfg : Config) (h : Hart) : Sys := ⟨hartRuntimeInit cfg h, 0, fun _ => -1⟩

def ownTimers (cfg : Config) (h : Hart) (acts : List Act) : Own :=
  Runs.watch (step cfg) (fun o _ a => o.note a) ⟨fun _ => -1, 0⟩ (boot cfg h) acts

/-- Without Sstc: the registers are set for the deadline. -/
structure Hart.Armed (h : Hart) : Prop where
  mtimecmp : h.mtimecmp = h.deadline
  due : h.stip = true → h.deadline ≤ h.now
  heard : h.stip = true ∨ h.mtie = true ∨ h.deadline = -1

structure Kept (cfg : Config) (s : Sys) (o : Own) : Prop where
  domain : o.domain = s.domain
  wanted : update s.ctx s.domain (timerSmodeGet cfg s.hart) = o.wanted
  armed : cfg.sstc = false → s.hart.Armed

section Runs

variable {cfg : Config} (hcfg : cfg.sstc = true ∨ cfg.timer = true ∧ cfg.register = true)
include hcfg

theorem timerSmodeRestore_get (h : Hart) (t : BitVec 64) :
    timerSmodeGet cfg (timerSmodeRestore cfg h t) = t := by
  rcases hcfg with hon | ⟨hon, -⟩
  · simp [timerSmodeGet, timerSmodeRestore, hon, aclintMtimerSetEvent_eq]
  · cases hsstc : cfg.sstc <;>
      simp [timerSmodeGet, timerSmodeRestore, hsstc, hon, aclintMtimerSetEvent_eq]

theorem timerSmodeRestore_armed (hsstc : cfg.sstc = false) (h : Hart) (t : BitVec 64) :
    (timerSmodeRestore cfg h t).Armed := by
  obtain ⟨htimer, hregister⟩ := hcfg.resolve_left (by simp [hsstc])
  constructor <;>
    simp [timerSmodeRestore, hsstc, htimer, setEvent, hregister, aclintMtimerSetEvent_eq]

theorem hartRuntimeInit_armed (hsstc : cfg.sstc = false) (h : Hart) :
    (hartRuntimeInit cfg h).Armed := by
  obtain ⟨htimer, hregister⟩ := hcfg.resolve_left (by simp [hsstc])
  constructor <;>
    simp [hartRuntimeInit, timerHartInit, htimer, setEvent, hregister, aclintMtimerSetEvent_eq]

omit hcfg in
theorem hartRuntimeInit_get (h : Hart) : timerSmodeGet cfg (hartRuntimeInit cfg h) = -1 := by
  cases hsstc : cfg.sstc <;> simp [timerSmodeGet, hartRuntimeInit, timerHartInit, hsstc]

theorem Kept.step {s s' : Sys} {o : Own} {a : Act} (hk : Kept cfg s o)
    (hstep : step cfg s a = some s') : Kept cfg s' (o.note a) := by
  obtain ⟨hdomain, hwanted, harmed⟩ := hk
  cases a with
  | passes t =>
    rw [Timer.step] at hstep
    split_ifs at hstep with hlater
    cases hstep
    refine ⟨hdomain, hwanted, fun hsstc => ?_⟩
    obtain ⟨hcmp, hdue, hheard⟩ := harmed hsstc
    exact ⟨hcmp, fun hstip => BitVec.le_trans (hdue hstip) hlater, hheard⟩
  | set t =>
    cases hstep
    refine ⟨hdomain, ?_, fun hsstc => timerSmodeRestore_armed hcfg hsstc _ _⟩
    simp only [Own.note, timerSmodeRestore_get hcfg, hdomain, ← hwanted, Function.update_idem]
  | irq =>
    rw [Timer.step] at hstep
    split_ifs at hstep with hirq
    cases hstep
    refine ⟨hdomain, hwanted, fun hsstc => ?_⟩
    have hcmp := (harmed hsstc).mtimecmp
    exact ⟨hcmp, fun _ => hcmp ▸ hirq.2.2, .inl rfl⟩
  | switch d fresh =>
    cases hstep
    rw [hwanted]
    refine ⟨rfl, ?_, fun hsstc => timerSmodeRestore_armed hcfg hsstc _ _⟩
    simp only [timerSmodeRestore_get hcfg, Function.update_eq_self]
    rfl
  | restart =>
    cases hstep
    refine ⟨hdomain, ?_, fun hsstc => hartRuntimeInit_armed hcfg hsstc _⟩
    simp only [Own.note, hartRuntimeInit_get, hdomain, ← hwanted, Function.update_idem]

/-- Whatever its domains do, a hart gets a timer interrupt exactly if the time that the
    domain it runs has asked for last has come. -/
theorem timers_own (h : Hart) {acts : List Act} {s : Sys}
    (hrun : Runs.run (step cfg) (boot cfg h) acts = some s) (hnow : s.hart.now ≠ -1) :
    s.hart.interrupts cfg = decide ((ownTimers cfg h acts).wanted s.domain ≤ s.hart.now) := by
  have hboot : Kept cfg (boot cfg h) ⟨fun _ => -1, 0⟩ := by
    refine ⟨rfl, ?_, fun hsstc => hartRuntimeInit_armed hcfg hsstc h⟩
    simp only [boot, hartRuntimeInit_get]
    exact Function.update_eq_self 0 _
  have hkept : Kept cfg s (ownTimers cfg h acts) :=
    (Runs.along_true (step cfg) _ acts).watch_invariant
      (fun _ _ _ _ hk _ hstep => hk.step hcfg hstep) hboot hrun
  rw [← hkept.wanted, Function.update_self, Hart.interrupts, timerSmodeGet]
  cases hsstc : cfg.sstc with
  | true => rfl
  | false =>
    obtain ⟨hcmp, hdue, hheard⟩ := hkept.armed hsstc
    rw [(hcfg.resolve_left (by simp [hsstc])).2, hcmp, Bool.eq_iff_iff]
    simp only [Bool.false_eq_true, if_false, Bool.or_eq_true, Bool.and_eq_true, Bool.true_and,
      decide_eq_true_eq]
    constructor
    · exact fun hirq => hirq.elim hdue And.right
    · intro hpassed
      rcases hheard with hstip | hmtie | hnever
      · exact .inl hstip
      · exact .inr ⟨hmtie, hpassed⟩
      · exfalso
        rw [hnever, BitVec.le_def] at hpassed
        apply hnow
        apply BitVec.eq_of_toNat_eq
        have := s.hart.now.isLt
        have hones : (-1 : BitVec 64).toNat = 2 ^ 64 - 1 := by decide
        omega

end Runs

def plain : Config := ⟨false, true, true⟩

def quiet : Hart := ⟨0, 0, 0, 0, false, false⟩

/-- Domain 0 asks for time 10 and enters domain 1, which asks for 30 and leaves at 20. -/
def visit : List Act := [.set 10, .switch 1 true, .set 30, .passes 20, .switch 0 false]

theorem timers_own_visit :
    ∃ s, Runs.run (step plain) (boot plain quiet) visit = some s ∧ s.domain = 0 ∧
      s.hart.stip = false ∧ s.hart.interrupts plain = true := by
  have hview : ∃ s ∈ Runs.run (step plain) (boot plain quiet) visit,
      s.domain = 0 ∧ s.hart.now = 20 ∧ s.hart.stip = false := by
    decide
  obtain ⟨s, hs, hdomain, hnow, hstip⟩ := hview
  refine ⟨s, hs, hdomain, hstip, ?_⟩
  rw [timers_own (.inr ⟨rfl, rfl⟩) quiet hs (by simp [hnow]), hdomain, hnow]
  decide

end RiscvMonitor.Timer
