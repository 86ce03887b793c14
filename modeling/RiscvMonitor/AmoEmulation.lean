import RiscvMonitor.TrapFrame

/-!
# AMO instructions

`emulate_amo()` of `illegal_insn.c`, for a hart that has LR and SC but no AMOs.
What the hart answers to the accesses is open: the load that looks for faults
first, then up to 64 attempts at an LR and an SC.  Before each of them the other
harts may have changed the memory.
-/

namespace RiscvMonitor.Amo

open RiscvMonitor.Frame (Features Regs TrapInfo Redirect trapRedirect)

variable {x : Xlen}

inductive Op
  | swap | add | xor | and | or | min | max | minu | maxu
  deriving DecidableEq

def funct5 (insn : BitVec 32) : Nat := (insn.extractLsb' 27 5).toNat
def funct3 (insn : BitVec 32) : Nat := (insn.extractLsb' 12 3).toNat
def rd (insn : BitVec 32) : Fin 32 := (insn.extractLsb' 7 5).toFin
def rs1 (insn : BitVec 32) : Fin 32 := (insn.extractLsb' 15 5).toFin
def rs2 (insn : BitVec 32) : Fin 32 := (insn.extractLsb' 20 5).toFin

/-- `amo_op_known()`, with the cases of `amo_attempt_w()` and `amo_attempt_d()` -/
def opOf : Nat → Option Op
  | 0x00 => some .add
  | 0x01 => some .swap
  | 0x04 => some .xor
  | 0x08 => some .or
  | 0x0c => some .and
  | 0x10 => some .min
  | 0x14 => some .max
  | 0x18 => some .minu
  | 0x1c => some .maxu
  | _ => none

def width (x : Xlen) (f3 : Nat) : Option Nat :=
  if f3 = 2 then some 32 else if f3 = 3 ∧ x = .rv64 then some 64 else none

/-- The instructions between the LR and the SC. -/
def Op.run {w : Nat} (op : Op) (old src : BitVec w) : BitVec w :=
  match op with
  | .swap => src
  | .add => old + src
  | .xor => old ^^^ src
  | .and => old &&& src
  | .or => old ||| src
  | .min => if old.slt src then old else src
  | .max => if src.sle old then old else src
  | .minu => if old.ult src then old else src
  | .maxu => if src.ule old then old else src

/-- The operand: a word that is compared has the form that LR.W gives to the other one. -/
def operand (insn : BitVec 32) (src : Word x) : Word x :=
  if funct3 insn = 2 ∧ 0x10 ≤ funct5 insn then (src.setWidth 32).signExtend x.bits else src

abbrev Mem (x : Xlen) := Word x → BitVec 8

def loadLe (mem : Mem x) (addr : Word x) : Nat → Nat
  | 0 => 0
  | n + 1 => (mem addr).toNat + 256 * loadLe mem (addr + 1) n

def storeLe (mem : Mem x) (addr : Word x) (val : Nat) : Nat → Mem x
  | 0 => mem
  | n + 1 => storeLe (Function.update mem addr (BitVec.ofNat 8 val)) (addr + 1) (val / 256) n

def load (mem : Mem x) (addr : Word x) (w : Nat) : BitVec w :=
  BitVec.ofNat w (loadLe mem addr (w / 8))

def store (mem : Mem x) (addr : Word x) {w : Nat} (val : BitVec w) : Mem x :=
  storeLe mem addr val.toNat (w / 8)

/-- How an attempt ends.  An SC after an LR that faults has no reservation and fails. -/
inductive Attempt (x : Xlen)
  | stored
  | failed
  | fault (info : TrapInfo x)

structure Hw (x : Xlen) where
  probe : Option (TrapInfo x)
  attempt : Nat → Attempt x
  others : Nat → Mem x → Mem x

def amoCause (cause : Word x) : Word x :=
  if cause = 5 then 7 else if cause = 13 then 15 else if cause = 21 then 23 else cause

inductive Handled (x : Xlen)
  | no
  | resumed (r : Regs x)
  | redirected (info : TrapInfo x) (frame : Redirect x)

def report (feat : Features) (addr : Word x) (r : Regs x) (fault : TrapInfo x) : Handled x :=
  let fault := { fault with cause := amoCause fault.cause, tval := addr }
  .redirected fault (trapRedirect feat fault r)

/-- The end of `emulate_amo()` -/
def done (insn : BitVec 32) (r : Regs x) (old : Word x) : Regs x :=
  { r with
    gpr := if rd insn = 0 then r.gpr else Function.update r.gpr (rd insn) old
    mepc := r.mepc + 4 }

def amoTries : Nat := 64

/-- The loop of `emulate_amo()`: the first argument is what is left of the tries. -/
def attempts (feat : Features) (hw : Hw x) (insn : BitVec 32) (op : Op) (w : Nat) (r : Regs x) :
    Nat → Nat → Mem x → Mem x × Handled x
  | 0, _, mem => (mem, .resumed r)
  | left + 1, i, mem =>
    let mem := hw.others i mem
    let addr := r.gpr (rs1 insn)
    match hw.attempt i with
    | .failed => attempts feat hw insn op w r left (i + 1) mem
    | .fault info => (mem, report feat addr r info)
    | .stored =>
      let old := (load mem addr w).signExtend x.bits
      let new := op.run old (operand insn (r.gpr (rs2 insn)))
      (store mem addr (new.setWidth w), .resumed (done insn r old))

def emulateAmo (feat : Features) (hw : Hw x) (insn : BitVec 32) (r : Regs x) (mem : Mem x) :
    Mem x × Handled x :=
  match opOf (funct5 insn), width x (funct3 insn) with
  | some op, some w =>
    match hw.probe with
    | some fault => (mem, report feat (r.gpr (rs1 insn)) r fault)
    | none => attempts feat hw insn op w r amoTries 0 mem
  | _, _ => (mem, .no)

def Attempt.decides : Attempt x → Bool
  | .failed => false
  | .stored | .fault _ => true

def Hw.first (hw : Hw x) : Option Nat := (List.range amoTries).find? fun i => (hw.attempt i).decides

def Hw.left (hw : Hw x) (mem : Mem x) : Nat → Mem x
  | 0 => mem
  | i + 1 => hw.others i (hw.left mem i)

def StoreCause (cause : Word x) : Prop := cause = 6 ∨ cause = 7 ∨ cause = 15 ∨ cause = 23

/-- S-mode gets a fault of the AMO at its address, and the frame is as it was. -/
def Faults (feat : Features) (addr : Word x) (r : Regs x) (out : Handled x) : Prop :=
  ∃ info, out = .redirected info (trapRedirect feat info r) ∧ info.tval = addr ∧
    StoreCause info.cause

/-- The instruction as the ISA has it, on memory as it finds it. -/
def amo (insn : BitVec 32) (op : Op) (w : Nat) (r : Regs x) (mem : Mem x) : Mem x × Handled x :=
  let addr := r.gpr (rs1 insn)
  let old := load mem addr w
  (store mem addr (op.run old ((r.gpr (rs2 insn)).setWidth w)),
    .resumed (done insn r (old.signExtend x.bits)))

/-- The AMO is performed once, or neither memory nor registers change. -/
def IsAmo (feat : Features) (hw : Hw x) (insn : BitVec 32) (r : Regs x) (mem : Mem x)
    (out : Mem x × Handled x) : Prop :=
  match opOf (funct5 insn), width x (funct3 insn), hw.probe, hw.first with
  | some op, some w, none, some i =>
    match hw.attempt i with
    | .stored => out = amo insn op w r (hw.left mem (i + 1))
    | _ => out.1 = hw.left mem (i + 1) ∧ Faults feat (r.gpr (rs1 insn)) r out.2
  | some _, some _, none, none => out = (hw.left mem amoTries, .resumed r)
  | some _, some _, some _, _ => out.1 = mem ∧ Faults feat (r.gpr (rs1 insn)) r out.2
  | _, _, _, _ => out = (mem, .no)

theorem setWidth_signExtend {w v : Nat} (hle : w ≤ v) (a : BitVec w) :
    (a.signExtend v).setWidth w = a := by
  ext i hi
  simp [BitVec.getLsbD_signExtend, hi]
  omega

theorem toNat_signExtend_le {w v : Nat} (hle : w ≤ v) (a b : BitVec w) :
    (a.signExtend v).toNat ≤ (b.signExtend v).toNat ↔ a.toNat ≤ b.toNat := by
  have hpow := Nat.pow_le_pow_right (show 0 < 2 by decide) hle
  have ha := a.isLt
  have hb := b.isLt
  rw [BitVec.toNat_signExtend, BitVec.toNat_signExtend, BitVec.toNat_setWidth_of_le hle,
    BitVec.toNat_setWidth_of_le hle, BitVec.msb_eq_decide, BitVec.msb_eq_decide]
  simp only [decide_eq_true_eq]
  split <;> split <;> omega

theorem Op.run_signExtend {w v : Nat} (hle : w ≤ v) (op : Op) (old : BitVec w) (src : BitVec v)
    {src' : BitVec v} (hlow : src'.setWidth w = src.setWidth w)
    (hord : op ∈ [.min, .max, .minu, .maxu] → src' = (src.setWidth w).signExtend v) :
    (op.run (old.signExtend v) src').setWidth w = op.run old (src.setWidth w) := by
  have hold := setWidth_signExtend hle old
  cases op with
  | swap => exact hlow
  | add => rw [Op.run, Op.run, BitVec.setWidth_add _ _ hle, hold, hlow]
  | xor => rw [Op.run, Op.run, BitVec.setWidth_xor, hold, hlow]
  | and => rw [Op.run, Op.run, BitVec.setWidth_and, hold, hlow]
  | or => rw [Op.run, Op.run, BitVec.setWidth_or, hold, hlow]
  | min =>
    rw [Op.run, Op.run, apply_ite (BitVec.setWidth w), hold, hlow, hord (by decide)]
    simp only [BitVec.slt_iff_toInt_lt, BitVec.toInt_signExtend_of_le hle]
  | max =>
    rw [Op.run, Op.run, apply_ite (BitVec.setWidth w), hold, hlow, hord (by decide)]
    simp only [BitVec.sle_iff_toInt_le, BitVec.toInt_signExtend_of_le hle]
  | minu =>
    rw [Op.run, Op.run, apply_ite (BitVec.setWidth w), hold, hlow, hord (by decide)]
    simp only [BitVec.ult_iff_lt, BitVec.lt_def, ← Nat.not_le, toNat_signExtend_le hle]
  | maxu =>
    rw [Op.run, Op.run, apply_ite (BitVec.setWidth w), hold, hlow, hord (by decide)]
    simp only [BitVec.ule_iff_le, BitVec.le_def, toNat_signExtend_le hle]

/-! ### The attempts -/

section

variable {insn : BitVec 32} {op : Op} {w : Nat}

theorem width_cases (hwidth : width x (funct3 insn) = some w) :
    (w = 32 ∧ funct3 insn = 2) ∨ (x = .rv64 ∧ w = 64 ∧ funct3 insn ≠ 2) := by
  unfold width at hwidth
  split_ifs at hwidth with hword hdouble
  · exact .inl ⟨(Option.some.inj hwidth).symm, hword⟩
  · exact .inr ⟨hdouble.2, (Option.some.inj hwidth).symm, hword⟩

theorem le_of_opOf {n : Nat} (hop : opOf n = some op) (hord : op ∈ [.min, .max, .minu, .maxu]) :
    0x10 ≤ n := by
  unfold opOf at hop
  split at hop <;> cases hop <;> first | decide | contradiction

theorem run_operand (hop : opOf (funct5 insn) = some op)
    (hwidth : width x (funct3 insn) = some w) (old : BitVec w) (src : Word x) :
    (op.run (old.signExtend x.bits) (operand insn src)).setWidth w =
      op.run old (src.setWidth w) := by
  obtain ⟨rfl, hword⟩ | ⟨rfl, rfl, hdouble⟩ := width_cases hwidth
  · have hle : 32 ≤ x.bits := by cases x <;> decide
    apply Op.run_signExtend hle
    · rw [operand]
      split
      · exact setWidth_signExtend hle _
      · rfl
    · exact fun hord => if_pos ⟨hword, le_of_opOf hop hord⟩
  · rw [operand, if_neg fun h => hdouble h.1]
    apply Op.run_signExtend (Nat.le_refl 64) op old src rfl
    intro _
    rw [BitVec.signExtend_eq]
    exact (BitVec.setWidth_eq (x := src)).symm

theorem attempts_eq (feat : Features) (hw : Hw x) (r : Regs x) (mem : Mem x)
    (hop : opOf (funct5 insn) = some op) (hwidth : width x (funct3 insn) = some w)
    (left i : Nat) :
    attempts feat hw insn op w r left i (hw.left mem i) =
      match (List.range' i left).find? fun i => (hw.attempt i).decides with
      | none => (hw.left mem (i + left), .resumed r)
      | some k =>
        match hw.attempt k with
        | .fault info => (hw.left mem (k + 1), report feat (r.gpr (rs1 insn)) r info)
        | _ => amo insn op w r (hw.left mem (k + 1)) := by
  induction left generalizing i with
  | zero => rfl
  | succ left ih =>
    rw [attempts, List.range'_succ, List.find?_cons]
    have hnext := ih (i + 1)
    rw [Nat.add_assoc, Nat.add_comm 1] at hnext
    cases hattempt : hw.attempt i with
    | failed => exact hnext
    | fault info => simp [hattempt, Attempt.decides, Hw.left]
    | stored =>
      simp only [Attempt.decides, hattempt]
      rw [run_operand hop hwidth]
      rfl

end

def Hw.met (hw : Hw x) : Option (TrapInfo x) :=
  match hw.probe, hw.first with
  | some fault, _ => some fault
  | none, some i => match hw.attempt i with
      | .fault info => some info
      | _ => none
  | none, none => none

def Hw.MemoryFaults (hw : Hw x) : Prop :=
  ∀ fault ∈ hw.met, fault.cause ∈ [4, 5, 6, 7, 13, 15, 21, 23]

theorem storeCause_amoCause {cause : Word x} (hcause : cause ∈ [4, 5, 6, 7, 13, 15, 21, 23]) :
    StoreCause (amoCause cause) ↔ cause ≠ 4 := by
  simp only [List.mem_cons, List.not_mem_nil, or_false] at hcause
  unfold StoreCause
  cases x <;> rcases hcause with rfl | rfl | rfl | rfl | rfl | rfl | rfl | rfl <;> decide

theorem faults_report {feat : Features} {addr : Word x} {r : Regs x} {fault : TrapInfo x}
    (hcause : fault.cause ∈ [4, 5, 6, 7, 13, 15, 21, 23]) :
    Faults feat addr r (report feat addr r fault) ↔ fault.cause ≠ 4 := by
  rw [← storeCause_amoCause hcause]
  constructor
  · rintro ⟨info, heq, -, hstore⟩
    cases heq
    exact hstore
  · intro hstore
    exact ⟨_, rfl, rfl, hstore⟩

/-- The instruction is an AMO and the hart reports its address as misaligned, for a load. -/
def MisalignedLoad (hw : Hw x) (insn : BitVec 32) : Prop :=
  (opOf (funct5 insn)).isSome ∧ (width x (funct3 insn)).isSome ∧
    ∃ fault ∈ hw.met, fault.cause = 4

theorem emulateAmo_isAmo_iff (feat : Features) (hw : Hw x) (insn : BitVec 32) (r : Regs x)
    (mem : Mem x) (hhw : hw.MemoryFaults) :
    IsAmo feat hw insn r mem (emulateAmo feat hw insn r mem) ↔ ¬ MisalignedLoad hw insn := by
  unfold IsAmo emulateAmo MisalignedLoad
  cases hop : opOf (funct5 insn) with
  | none => simp
  | some op =>
    cases hwidth : width x (funct3 insn) with
    | none => simp
    | some w =>
      unfold Hw.MemoryFaults at hhw
      cases hprobe : hw.probe with
      | some fault =>
        rw [Hw.met, hprobe] at hhw ⊢
        simpa using faults_report (hhw fault rfl)
      | none =>
        have hloop := attempts_eq feat hw r mem hop hwidth amoTries 0
        rw [← List.range_eq_range', ← Hw.first] at hloop
        change attempts feat hw insn op w r amoTries 0 mem = _ at hloop
        simp only [hloop]
        rw [Hw.met, hprobe] at hhw ⊢
        cases hfirst : hw.first with
        | none => simp
        | some i =>
          rw [hfirst] at hhw
          cases hattempt : hw.attempt i with
          | failed =>
            have := List.find?_some hfirst
            rw [hattempt] at this
            cases this
          | stored => simp [hattempt]
          | fault info =>
            simp only [hattempt] at hhw
            simpa [hattempt] using faults_report (hhw info rfl)

/-- `amoadd.w a0, a1, (a2)` -/
def amoaddW : BitVec 32 := 0x00b6252f

def noFeatures : Features := ⟨false, false⟩

def frame (addr src : Word x) : Regs x where
  mstatus := 0
  mepc := 0x100
  gpr := fun i => if i = 12 then addr else if i = 11 then src else 0
  mstatush := 0
  sepc := 0
  scause := 0
  stval := 0
  stvec := 0
  hstatus := 0
  htval := 0
  htinst := 0
  dte := false

/-- A hart that has its reservation taken away once. -/
def contended : Hw .rv64 := ⟨none, fun i => if i = 0 then .failed else .stored, fun _ mem => mem⟩

theorem contended_is_amo :
    contended.first = some 1 ∧ contended.MemoryFaults ∧
      emulateAmo noFeatures contended amoaddW (frame 0x1000 5) (fun _ => 0xff) =
        amo amoaddW .add 32 (frame 0x1000 5) (fun _ => 0xff) := by
  have hmet : contended.met = none := by decide
  have hfaults : contended.MemoryFaults := by simp [Hw.MemoryFaults, hmet]
  have hamo := (emulateAmo_isAmo_iff noFeatures contended amoaddW (frame 0x1000 5)
    (fun _ => 0xff) hfaults).mpr (by simp [MisalignedLoad, hmet])
  exact ⟨by decide, hfaults, hamo⟩

def strict : Hw .rv64 := ⟨some ⟨4, 0x1001, 0, 0, false, false⟩, fun _ => .failed, fun _ mem => mem⟩

theorem misaligned_amo_is_load_fault :
    strict.MemoryFaults ∧
      (∃ info, (emulateAmo noFeatures strict amoaddW (frame 0x1001 5) (fun _ => 0)).2 =
        .redirected info (trapRedirect noFeatures info (frame 0x1001 5)) ∧ info.cause = 4) ∧
      ¬ IsAmo noFeatures strict amoaddW (frame 0x1001 5) (fun _ => 0)
        (emulateAmo noFeatures strict amoaddW (frame 0x1001 5) (fun _ => 0)) := by
  refine ⟨?_, ⟨_, rfl, rfl⟩, ?_⟩
  · rintro fault ⟨⟩
    decide
  · rintro ⟨-, info, heq, -, hstore⟩
    cases heq
    revert hstore
    unfold StoreCause
    decide

end RiscvMonitor.Amo
