import RiscvMonitor.Masks
import RiscvMonitor.Sse

/-!
# Trap frames

The registers that the monitor rewrites between a trap and the return from it: the
frame with the integer registers, `mepc` and `mstatus`, and the CSRs of S-mode.
`trap_redirect()` hands the trap to S-mode, `inject()` makes S-mode run the handler of
an event, and `sse_complete()` goes back.

On RV64 the bit `MPV` is in `mstatus`, on RV32 in `mstatush`, which no frame holds.
-/

namespace RiscvMonitor.Frame

open Masks

variable {x : Xlen}

@[simp] def mstatusSie : Word x := bit 1
@[simp] def mstatusSpie : Word x := bit 5
@[simp] def mstatusMpie : Word x := bit 7
@[simp] def mstatusSpp : Word x := bit 8
@[simp] def mstatusVs : Word x := bit 9 ||| bit 10
@[simp] def mstatusMpp : Word x := bit 11 ||| bit 12
@[simp] def mstatusFs : Word x := bit 13 ||| bit 14
@[simp] def mstatusMprv : Word x := bit 17
@[simp] def mstatusSum : Word x := bit 18
@[simp] def mstatusMxr : Word x := bit 19
@[simp] def mstatusTvm : Word x := bit 20
@[simp] def mstatusTw : Word x := bit 21
@[simp] def mstatusTsr : Word x := bit 22
@[simp] def mstatusSdt : Word x := bit 24

@[simp] def mstatusGva : Word x := bit 38
/-- On RV64. -/
@[simp] def mstatusMpv : Word x := bit 39
@[simp] def mstatushGva : Word x := bit 6
/-- On RV32. -/
@[simp] def mstatushMpv : Word x := bit 7

@[simp] def hstatusGva : Word x := bit 6
@[simp] def hstatusSpv : Word x := bit 7
@[simp] def hstatusSpvp : Word x := bit 8

@[simp] def intFlagsSpp : Word x := bit 0
@[simp] def intFlagsSpie : Word x := bit 1
@[simp] def intFlagsSpv : Word x := bit 2
@[simp] def intFlagsSpvp : Word x := bit 3
@[simp] def intFlagsSdt : Word x := bit 5

def prvU : Word x := 0
def prvS : Word x := 1
def prvM : Word x := 3

def mpp (mstatus : Word x) : Word x := (mstatus &&& mstatusMpp) >>> 11

def mppOf (mode : Word x) : Word x := mode <<< 11

structure Features where
  /-- `HART_FEAT_H` -/
  h : Bool
  ssdbltrp : Bool

structure Regs (x : Xlen) where
  mstatus : Word x
  mepc : Word x
  gpr : Fin 32 → Word x
  mstatush : Word x
  sepc : Word x
  scause : Word x
  stval : Word x
  stvec : Word x
  hstatus : Word x
  htval : Word x
  htinst : Word x
  /-- `DTE` of `menvcfg`. -/
  dte : Bool

structure TrapInfo (x : Xlen) where
  cause : Word x
  tval : Word x
  tval2 : Word x
  tinst : Word x
  gva : Bool
  virt : Bool

def Regs.doubleTrap (feat : Features) (r : Regs x) : Bool := feat.ssdbltrp && r.dte

def Regs.mpv (r : Regs x) : Bool :=
  if x = .rv64 then has r.mstatus mstatusMpv else has r.mstatush mstatushMpv

def Regs.sie (r : Regs x) : Bool := has r.mstatus mstatusSie
def Regs.spie (r : Regs x) : Bool := has r.mstatus mstatusSpie
def Regs.spp (r : Regs x) : Bool := has r.mstatus mstatusSpp
def Regs.sdt (r : Regs x) : Bool := has r.mstatus mstatusSdt

def a6 : Fin 32 := 16
def a7 : Fin 32 := 17

/-- `mstatus` on a trap into S-mode, which both `inject()` and `trap_redirect()` write out. -/
def intoSmode (fromS : Bool) (mstatus : Word x) : Word x :=
  let mstatus := clear mstatus (mstatusSpp ||| mstatusSpie ||| mstatusMpp)
  let mstatus := setIf fromS mstatus mstatusSpp
  let mstatus := setIf (has mstatus mstatusSie) mstatus mstatusSpie
  let mstatus := clear mstatus mstatusSie
  mstatus ||| mppOf prvS

/-- `hstatus` on a trap into S-mode, `SPV` cleared already. -/
def fromGuest (virt fromS : Bool) (hstatus : Word x) : Word x :=
  if virt then setIf fromS (clear (hstatus ||| hstatusSpv) hstatusSpvp) hstatusSpvp else hstatus

/-- What `mpv_take()` leaves. -/
def Regs.mpvTaken (r : Regs x) : Regs x :=
  if x = .rv64 then { r with mstatus := clear r.mstatus mstatusMpv }
  else { r with mstatush := clear r.mstatush mstatushMpv }

def Regs.mpvSet (r : Regs x) : Regs x :=
  if x = .rv64 then { r with mstatus := r.mstatus ||| mstatusMpv }
  else { r with mstatush := r.mstatush ||| mstatushMpv }

/-- `INTERRUPTED_FLAGS` as `inject()` saves it. -/
def injectFlags (feat : Features) (r : Regs x) : Word x :=
  let flags := setIf (has r.mstatus mstatusSpp) 0 intFlagsSpp
  let flags := setIf (has r.mstatus mstatusSpie) flags intFlagsSpie
  let flags := setIf (feat.h && has r.hstatus hstatusSpv) flags intFlagsSpv
  let flags := setIf (feat.h && has r.hstatus hstatusSpvp) flags intFlagsSpvp
  setIf (r.doubleTrap feat && has r.mstatus mstatusSdt) flags intFlagsSdt

/-- What `inject()` saves in the event. -/
def interrupted (feat : Features) (r : Regs x) : Sse.Interrupted x :=
  ⟨injectFlags feat r, r.sepc, r.gpr a6, r.gpr a7⟩

/-- The virtualization mode in `inject()`: the handler runs in HS-mode. -/
def Regs.intoHs (feat : Features) (r : Regs x) : Regs x :=
  if feat.h then
    { r.mpvTaken with
      hstatus := fromGuest r.mpv (mpp r.mstatus == prvS) (clear r.hstatus hstatusSpv) }
  else r

/-- `inject()`, as far as the registers go. -/
def inject (feat : Features) (hartid : Word x) (e : Sse.Event x) (r : Regs x) : Regs x :=
  let fromS := mpp r.mstatus == prvS
  let r := r.intoHs feat
  -- the handler starts, like a trap handler, unable to trap
  let mstatus := setIf (r.doubleTrap feat) r.mstatus mstatusSdt
  { r with
    mstatus := intoSmode fromS mstatus
    sepc := r.mepc
    mepc := e.attr .entryPc
    gpr := Function.update (Function.update r.gpr a6 hartid) a7 (e.attr .entryArg) }

/-- `mstatus` after an `sret` of the handler, but for its interrupt enables. -/
def sretMpp (mstatus : Word x) : Word x :=
  let mstatus := clear mstatus mstatusMpp
  setIf (has mstatus mstatusSpp) mstatus (mppOf prvS)

/-- The virtualization mode in `sse_complete()`. -/
def Regs.outOfHs (feat : Features) (flags : Word x) (r : Regs x) : Regs x :=
  if feat.h then
    let hstatus := clear r.hstatus (hstatusSpv ||| hstatusSpvp)
    let hstatus := setIf (has flags intFlagsSpv) hstatus hstatusSpv
    { (if has r.hstatus hstatusSpv then r.mpvSet else r) with
      hstatus := setIf (has flags intFlagsSpvp) hstatus hstatusSpvp }
  else r

/-- `mstatus` at the end of `sse_complete()`: the saved state on top. -/
def restored (doubleTrap : Bool) (flags mstatus : Word x) : Word x :=
  let mstatus :=
    if doubleTrap then setIf (has flags intFlagsSdt) (clear mstatus mstatusSdt) mstatusSdt
    else mstatus
  let mstatus := clear mstatus (mstatusSie ||| mstatusSpp)
  -- `SIE` cannot be set while `SDT` is
  let mstatus := setIf (has mstatus mstatusSpie && !has mstatus mstatusSdt) mstatus mstatusSie
  let mstatus := clear mstatus mstatusSpie
  let mstatus := setIf (has flags intFlagsSpie) mstatus mstatusSpie
  setIf (has flags intFlagsSpp) mstatus mstatusSpp

/-- `sse_complete()`, as far as the registers go. -/
def complete (feat : Features) (e : Sse.Event x) (r : Regs x) : Regs x :=
  let flags := e.attr .interruptedFlags
  let r := { r with mepc := r.sepc, mstatus := sretMpp r.mstatus }
  let r := r.outOfHs feat flags
  { r with
    mstatus := restored (r.doubleTrap feat) flags r.mstatus
    gpr := Function.update (Function.update r.gpr a6 (e.attr .interruptedA6)) a7
      (e.attr .interruptedA7)
    sepc := e.attr .interruptedSepc }

inductive Redirect (x : Xlen) where
  | fatal
  /-- `trap_double()`: the frame stays as it is, the hart halts or an event is raised. -/
  | double
  | redirected (r : Regs x)

def trapRedirect (feat : Features) (info : TrapInfo x) (r : Regs x) : Redirect x :=
  let fromS := mpp r.mstatus == prvS
  if mpp r.mstatus = prvM then .fatal
  else if r.doubleTrap feat && has r.mstatus mstatusSdt then .double
  else
    let r := { r with mstatus := setIf (r.doubleTrap feat) r.mstatus mstatusSdt }
    let r :=
      if feat.h then
        let hstatus := clear r.hstatus (hstatusSpv ||| hstatusGva)
        let hstatus := fromGuest info.virt fromS hstatus
        let r := { r with
          hstatus := setIf info.gva hstatus hstatusGva
          htval := info.tval2
          htinst := info.tinst }
        if x = .rv64 then { r with mstatus := clear r.mstatus (mstatusMpv ||| mstatusGva) }
        else { r with mstatush := clear r.mstatush (mstatushMpv ||| mstatushGva) }
      else r
    .redirected { r with
      scause := info.cause
      stval := info.tval
      sepc := r.mepc
      mstatus := intoSmode fromS r.mstatus
      mepc := r.stvec &&& ~~~3 }

/-! ### Bits of the fields -/

theorem bit_eq_twoPow (n : Nat) : (bit n : Word x) = BitVec.twoPow x.bits n := rfl

theorem getLsbD_bit {n : Nat} (h : n < x.bits) (i : Nat) :
    (bit n : Word x).getLsbD i = decide (n = i) := by
  rw [bit_eq_twoPow, BitVec.getLsbD_twoPow, decide_eq_true h, Bool.true_and]

@[simp]
theorem getLsbD_bit_low {n : Nat} (h : n < 32) (i : Nat) :
    (bit n : Word x).getLsbD i = decide (n = i) := by
  apply getLsbD_bit
  rcases x.bits_cases with hx | hx <;> omega

@[simp]
theorem getLsbD_bit_rv64 {n : Nat} (h : n < 64) (i : Nat) :
    (bit n : Word .rv64).getLsbD i = decide (n = i) :=
  getLsbD_bit h i

@[simp]
theorem getLsbD_bit_of_ne {n i : Nat} (h : n ≠ i) : (bit n : Word x).getLsbD i = false := by
  rw [bit_eq_twoPow, BitVec.getLsbD_twoPow, decide_eq_false h, Bool.and_false]

@[simp]
theorem has_bit (reg : Word x) (n : Nat) : has reg (bit n) = reg.getLsbD n := by
  rw [bit_eq_twoPow, has_twoPow]

@[simp]
theorem mppOf_prvS : mppOf (prvS : Word x) = bit 11 := by
  cases x <;> rfl

theorem getLsbD_mpp (mstatus : Word x) (i : Nat) :
    (mpp mstatus).getLsbD i =
      (decide (i = 0) && mstatus.getLsbD 11 || decide (i = 1) && mstatus.getLsbD 12) := by
  rw [mpp, BitVec.getLsbD_ushiftRight, BitVec.getLsbD_and, mstatusMpp, BitVec.getLsbD_or]
  match i with
  | 0 => simp
  | 1 => simp
  | n + 2 =>
    have h1 : 12 ≠ 11 + (n + 2) := by omega
    simp [h1]

/-- `MPP` names one of the lower privilege levels. -/
def Below (mstatus : Word x) : Prop := mpp mstatus = prvU ∨ mpp mstatus = prvS

theorem mpp_eq_iff (m n : Word x) :
    mpp m = mpp n ↔ m.getLsbD 11 = n.getLsbD 11 ∧ m.getLsbD 12 = n.getLsbD 12 := by
  constructor
  · intro h
    have hbit (i : Nat) : (mpp m).getLsbD i = (mpp n).getLsbD i := by rw [h]
    constructor
    · simpa [getLsbD_mpp] using hbit 0
    · simpa [getLsbD_mpp] using hbit 1
  · rintro ⟨h0, h1⟩
    apply BitVec.eq_of_getLsbD_eq
    intro i _
    rw [getLsbD_mpp, getLsbD_mpp, h0, h1]

theorem mpp_eq_prvU_iff (m : Word x) :
    mpp m = prvU ↔ m.getLsbD 11 = false ∧ m.getLsbD 12 = false := by
  have hzero : (prvU : Word x) = mpp 0 := by cases x <;> rfl
  rw [hzero, mpp_eq_iff]
  simp

theorem mpp_eq_prvS_iff (m : Word x) :
    mpp m = prvS ↔ m.getLsbD 11 = true ∧ m.getLsbD 12 = false := by
  have hone : (prvS : Word x) = mpp (bit 11) := by cases x <;> rfl
  rw [hone, mpp_eq_iff]
  simp

theorem below_iff (m : Word x) : Below m ↔ m.getLsbD 12 = false := by
  rw [Below, mpp_eq_prvU_iff, mpp_eq_prvS_iff]
  cases m.getLsbD 11 <;> simp

/-! ### What the functions do to each bit -/

theorem getLsbD_intoSmode (fromS : Bool) (m : Word x) (i : Nat) :
    (intoSmode fromS m).getLsbD i =
      if i = 1 then false
      else if i = 5 then m.getLsbD 1
      else if i = 8 then fromS
      else if i = 11 then true
      else if i = 12 then false
      else m.getLsbD i := by
  split_ifs with h1 h5 h8 h11 h12
  all_goals try subst i
  all_goals simp [intoSmode]
  simp [Ne.symm h1, Ne.symm h5, Ne.symm h8, Ne.symm h11, Ne.symm h12]

theorem mpvTaken_low (r : Regs x) {i : Nat} (hi : i < 32) :
    r.mpvTaken.mstatus.getLsbD i = r.mstatus.getLsbD i := by
  cases x with
  | rv32 => simp [Regs.mpvTaken]
  | rv64 =>
    have h39 : 39 ≠ i := by omega
    simp [Regs.mpvTaken, h39]

theorem mpvTaken_rest (r : Regs x) :
    r.mpvTaken.mepc = r.mepc ∧ r.mpvTaken.gpr = r.gpr ∧ r.mpvTaken.sepc = r.sepc ∧
      r.mpvTaken.hstatus = r.hstatus ∧ r.mpvTaken.dte = r.dte := by
  cases x <;> exact ⟨rfl, rfl, rfl, rfl, rfl⟩

theorem mpvSet_low (r : Regs x) {i : Nat} (hi : i < 32) :
    r.mpvSet.mstatus.getLsbD i = r.mstatus.getLsbD i := by
  cases x with
  | rv32 => simp [Regs.mpvSet]
  | rv64 =>
    have h39 : 39 ≠ i := by omega
    simp [Regs.mpvSet, h39]

theorem mpvSet_rest (r : Regs x) :
    r.mpvSet.mepc = r.mepc ∧ r.mpvSet.gpr = r.gpr ∧ r.mpvSet.sepc = r.sepc ∧
      r.mpvSet.hstatus = r.hstatus ∧ r.mpvSet.dte = r.dte := by
  cases x <;> exact ⟨rfl, rfl, rfl, rfl, rfl⟩

theorem getLsbD_sretMpp (m : Word x) (i : Nat) :
    (sretMpp m).getLsbD i =
      if i = 11 then m.getLsbD 8 else if i = 12 then false else m.getLsbD i := by
  split_ifs with h11 h12
  all_goals try subst i
  all_goals simp [sretMpp]
  simp [Ne.symm h11, Ne.symm h12]

theorem getLsbD_restored (doubleTrap : Bool) (flags m : Word x) (i : Nat) :
    (restored doubleTrap flags m).getLsbD i =
      if i = 1 then m.getLsbD 5 && !(if doubleTrap then flags.getLsbD 5 else m.getLsbD 24)
      else if i = 5 then flags.getLsbD 1
      else if i = 8 then flags.getLsbD 0
      else if i = 24 then if doubleTrap then flags.getLsbD 5 else m.getLsbD 24
      else m.getLsbD i := by
  split_ifs with h1 hd h5 h8 h24 hd
  all_goals try subst i
  all_goals simp [restored, *]
  · cases doubleTrap <;> simp [Ne.symm h1, Ne.symm h5, Ne.symm h8, Ne.symm h24]

end RiscvMonitor.Frame
