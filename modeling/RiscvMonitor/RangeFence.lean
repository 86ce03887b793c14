import RiscvMonitor.Delivery

/-!
# The range of a fence

What `fence_local()` executes for a request.  A fence instruction with an address
works on the page the address is in; `fence_local()` walks the range in steps of a
page from where the range starts, which need not be where a page does.
-/

namespace RiscvMonitor.RangeFence

open Delivery (FenceReq FenceType)

variable {x : Xlen}

/-! ### The instructions -/

/-- A fence instruction: `rs1` and `rs2` are missing where the register is `x0`. -/
structure Insn (x : Xlen) where
  type : FenceType
  rs1 : Option (Word x)
  rs2 : Option (Word x)
deriving DecidableEq

def pageSize : Nat := 4096
def maxPages : Nat := 64

def takesId : FenceType → Bool
  | .sfenceVmaAsid | .hfenceGvmaVmid | .hfenceVvmaAsid => true
  | .fenceI | .sfenceVma | .hfenceGvma | .hfenceVvma => false

/-- Guest physical addresses are passed shifted right by 2. -/
def ofGuest : FenceType → Bool
  | .hfenceGvma | .hfenceGvmaVmid => true
  | .fenceI | .sfenceVma | .sfenceVmaAsid | .hfenceVvma | .hfenceVvmaAsid => false

def fenceId (req : FenceReq x) : Option (Word x) :=
  if takesId req.type then some req.asid else none

def fenceOne (req : FenceReq x) (addr : Word x) : Insn x :=
  ⟨req.type, some (if ofGuest req.type then addr >>> 2 else addr), fenceId req⟩

def fenceAll (req : FenceReq x) : Insn x := ⟨req.type, none, fenceId req⟩

/-- The condition of `fence_local()` for a full flush. -/
def FlushesAll (req : FenceReq x) : Prop :=
  (req.start = 0 ∧ req.size = 0) ∨ req.size = BitVec.allOnes x.bits ∨
    maxPages * pageSize < req.size.toNat

instance (req : FenceReq x) : Decidable (FlushesAll req) := inferInstanceAs (Decidable (_ ∨ _))

/-- The loop of `fence_local()` at `off`; the first argument bounds the rounds. -/
def fencePages (req : FenceReq x) : Nat → Word x → List (Insn x)
  | 0, _ => []
  | rounds + 1, off =>
    if off < req.size then
      fenceOne req (req.start + off) :: fencePages req rounds (off + BitVec.ofNat _ pageSize)
    else []

def fenceLocal (req : FenceReq x) : List (Insn x) :=
  if req.type = .fenceI then [⟨.fenceI, none, none⟩]
  else if FlushesAll req then [fenceAll req]
  else fencePages req maxPages 0

/-! ### What is fenced -/

/-- The page that an instruction with an address works on. -/
def Insn.address (i : Insn x) : Option Nat :=
  i.rs1.map fun a => if ofGuest i.type then 4 * a.toNat else a.toNat

def Touches (req : FenceReq x) (page : Nat) : Prop :=
  ∃ a, req.start.toNat ≤ a ∧ a < req.start.toNat + req.size.toNat ∧ a / pageSize = page

/-- An address in each page of the range is fenced, or all addresses are. -/
def Covers (req : FenceReq x) (insns : List (Insn x)) : Prop :=
  (∃ i ∈ insns, i.address = none) ∨
    ∀ page, Touches req page → ∃ i ∈ insns, ∃ a ∈ i.address, a / pageSize = page

/-- Nothing of the range is past the pages that the loop gets to. -/
def EndsInReach (req : FenceReq x) : Prop :=
  req.size = 0 ∨
    req.start.toNat % pageSize + (req.size.toNat - 1) % pageSize < pageSize

instance (req : FenceReq x) : Decidable (EndsInReach req) := inferInstanceAs (Decidable (_ ∨ _))

/-! ### The loop -/

theorem address_fenceOne (req : FenceReq x) (addr : Word x) :
    ∃ a ∈ (fenceOne req addr).address, a / pageSize = addr.toNat / pageSize := by
  cases hguest : ofGuest req.type with
  | false => exact ⟨addr.toNat, by simp [fenceOne, Insn.address, hguest], rfl⟩
  | true =>
    refine ⟨4 * (addr.toNat / 4), by simp [fenceOne, Insn.address, hguest,
      Nat.shiftRight_eq_div_pow], ?_⟩
    simp only [pageSize]
    omega

variable {req : FenceReq x}

theorem address_fenceOne_eq {addr : Word x} {a : Nat} (ha : a ∈ (fenceOne req addr).address) :
    a / pageSize = addr.toNat / pageSize := by
  obtain ⟨b, hb, hpage⟩ := address_fenceOne req addr
  rw [Option.mem_unique ha hb]
  exact hpage

theorem toNat_pageSize : (BitVec.ofNat x.bits pageSize).toNat = pageSize := by
  cases x <;> rfl

section

variable (hwrap : req.start.toNat + req.size.toNat < 2 ^ x.bits)
  (hsmall : req.size.toNat ≤ maxPages * pageSize)
include hwrap hsmall

/-- One round of the loop per page of the size, begun pages included. -/
theorem mem_fencePages (rounds : Nat) (off : Word x) (i : Insn x)
    (henough : req.size.toNat ≤ off.toNat + rounds * pageSize) :
    i ∈ fencePages req rounds off ↔
      ∃ k, off.toNat + k * pageSize < req.size.toNat ∧
        i = fenceOne req (req.start + BitVec.ofNat _ (off.toNat + k * pageSize)) := by
  induction rounds generalizing off with
  | zero =>
    simp only [fencePages, List.not_mem_nil, false_iff, not_exists, not_and]
    omega
  | succ rounds ih =>
    rw [fencePages]
    split
    · next hlt =>
      have hlt : off.toNat < req.size.toNat := hlt
      have hnext : (off + BitVec.ofNat _ pageSize).toNat = off.toNat + pageSize := by
        have hroom : 2 * (maxPages * pageSize) < 2 ^ x.bits := by cases x <;> decide
        rw [toNat_add_of_lt, toNat_pageSize]
        rw [toNat_pageSize]
        simp only [pageSize, maxPages] at *
        omega
      rw [List.mem_cons, ih _ (by rw [hnext]; rw [Nat.succ_mul] at henough; omega), hnext]
      constructor
      · rintro (rfl | ⟨k, hk, rfl⟩)
        · exact ⟨0, by omega, by simp⟩
        · refine ⟨k + 1, by rw [Nat.succ_mul]; omega, ?_⟩
          rw [Nat.succ_mul, Nat.add_assoc, Nat.add_comm pageSize]
      · rintro ⟨k, hk, rfl⟩
        cases k with
        | zero => exact .inl (by simp)
        | succ k =>
          refine .inr ⟨k, by rw [Nat.succ_mul] at hk; omega, ?_⟩
          rw [Nat.succ_mul, Nat.add_assoc, Nat.add_comm pageSize]
    · next hge =>
      have hge : ¬ off.toNat < req.size.toNat := hge
      simp only [List.not_mem_nil, false_iff, not_exists, not_and]
      omega

theorem fences_page_iff (page : Nat) :
    (∃ i ∈ fencePages req maxPages 0, ∃ a ∈ i.address, a / pageSize = page) ↔
      ∃ k, k * pageSize < req.size.toNat ∧ req.start.toNat / pageSize + k = page := by
  have hzero : (0 : Word x).toNat = 0 := by simp
  have hmem (i : Insn x) := mem_fencePages hwrap hsmall maxPages 0 i (by rw [hzero]; omega)
  simp only [hzero, Nat.zero_add] at hmem
  have haddr {k : Nat} (hk : k * pageSize < req.size.toNat) :
      (req.start + BitVec.ofNat _ (k * pageSize)).toNat / pageSize =
        req.start.toNat / pageSize + k := by
    have hfit : k * pageSize < 2 ^ x.bits := by omega
    rw [toNat_add_of_lt, BitVec.toNat_ofNat, Nat.mod_eq_of_lt hfit,
      Nat.add_mul_div_right _ _ (by decide)]
    rw [BitVec.toNat_ofNat, Nat.mod_eq_of_lt hfit]
    omega
  constructor
  · rintro ⟨i, hi, a, ha, hpage⟩
    obtain ⟨k, hk, rfl⟩ := (hmem i).mp hi
    exact ⟨k, hk, by rw [← hpage, address_fenceOne_eq ha, haddr hk]⟩
  · rintro ⟨k, hk, rfl⟩
    obtain ⟨a, ha, hpage⟩ :=
      address_fenceOne req (req.start + BitVec.ofNat _ (k * pageSize))
    exact ⟨_, (hmem _).mpr ⟨k, hk, rfl⟩, a, ha, by rw [hpage, haddr hk]⟩

end

theorem touches_iff (req : FenceReq x) (page : Nat) :
    Touches req page ↔
      0 < req.size.toNat ∧ req.start.toNat / pageSize ≤ page ∧
        page ≤ (req.start.toNat + req.size.toNat - 1) / pageSize := by
  simp only [Touches, pageSize]
  constructor
  · rintro ⟨a, hle, hlt, rfl⟩
    omega
  · rintro ⟨hpos, hfirst, hlast⟩
    -- the first byte of the page, or of the range if that comes later
    exact ⟨max req.start.toNat (page * 4096), by omega, by omega, by omega⟩

theorem fencePages_covers_iff (hwrap : req.start.toNat + req.size.toNat < 2 ^ x.bits)
    (hsmall : req.size.toNat ≤ maxPages * pageSize) :
    (∀ page, Touches req page →
      ∃ i ∈ fencePages req maxPages 0, ∃ a ∈ i.address, a / pageSize = page) ↔
      EndsInReach req := by
  have hsize : req.size = 0 ↔ req.size.toNat = 0 := by
    rw [← BitVec.toNat_inj]
    simp
  have hfences := fences_page_iff hwrap hsmall
  simp only [hfences, touches_iff, EndsInReach, hsize]
  simp only [pageSize]
  constructor
  · intro hall
    by_contra hnot
    -- the page of the last byte is one too far
    obtain ⟨k, hk, hpage⟩ :=
      hall ((req.start.toNat + req.size.toNat - 1) / 4096) (by omega)
    omega
  · rintro hreach page ⟨hpos, hfirst, hlast⟩
    exact ⟨page - req.start.toNat / 4096, by omega, by omega⟩

/-! ### Requests that are let through -/

theorem no_wrap_of_check {cfg : Delivery.Config} {rq : Delivery.Request x}
    (hlegacy : rq.legacy = false) (hfence : rq.fence = some req) (htype : req.type ≠ .fenceI)
    (hcheck : Delivery.callCheck cfg rq = .success) (hsize : req.size ≠ BitVec.allOnes x.bits) :
    req.start.toNat + req.size.toNat < 2 ^ x.bits := by
  by_contra hwrap
  have hlt : req.start + req.size < req.start := by
    rw [BitVec.lt_def, toNat_add_of_ge (by omega)]
    have := req.size.isLt
    omega
  cases havail : cfg.ipiAvailable <;>
    simp [Delivery.callCheck, hlegacy, hfence, havail, htype, hsize, hlt] at hcheck

/-- A range fence covers its range exactly if all addresses are flushed or the last byte is not
    in a page past the last step of the loop. -/
theorem range_fence_covers_iff (cfg : Delivery.Config) (rq : Delivery.Request x)
    (req : FenceReq x) (hlegacy : rq.legacy = false) (hfence : rq.fence = some req)
    (htype : req.type ≠ .fenceI) (hcheck : Delivery.callCheck cfg rq = .success) :
    Covers req (fenceLocal req) ↔ FlushesAll req ∨ EndsInReach req := by
  rw [fenceLocal, if_neg htype]
  by_cases hall : FlushesAll req
  · rw [if_pos hall]
    exact iff_of_true (.inl ⟨_, List.mem_singleton_self _, rfl⟩) (.inl hall)
  · have hsmall : req.size.toNat ≤ maxPages * pageSize := by
      simp only [FlushesAll, not_or] at hall
      omega
    have hwrap := no_wrap_of_check hlegacy hfence htype hcheck
      fun hsize => hall (.inr (.inl hsize))
    rw [if_neg hall, Covers, fencePages_covers_iff hwrap hsmall]
    constructor
    · rintro (⟨i, hi, hnone⟩ | hreach)
      · -- every instruction of the loop has an address
        have hzero : (0 : Word x).toNat = 0 := by simp
        obtain ⟨k, hk, rfl⟩ :=
          (mem_fencePages hwrap hsmall maxPages 0 i (by rw [hzero]; omega)).mp hi
        simp [fenceOne, Insn.address] at hnone
      · exact .inr hreach
    · rintro (hflush | hreach)
      · exact absurd hflush hall
      · exact .inr hreach

def acrossBoundary : FenceReq .rv64 := ⟨.sfenceVma, 0x1fff, 2, 0⟩

def harts : Delivery.Config := ⟨2, fun _ => true, true, true, true⟩

theorem range_fence_misses_second_page :
    Delivery.callCheck harts ⟨false, none, some acrossBoundary⟩ = .success ∧
      fenceLocal acrossBoundary = [⟨.sfenceVma, some 0x1fff, none⟩] ∧
      Touches acrossBoundary 2 ∧ ¬ Covers acrossBoundary (fenceLocal acrossBoundary) := by
  refine ⟨by decide, by decide, ⟨0x2000, by decide, by decide, rfl⟩, ?_⟩
  have hlocal : fenceLocal acrossBoundary = [⟨.sfenceVma, some 0x1fff, none⟩] := by decide
  rw [hlocal]
  rintro (⟨i, hi, hnone⟩ | hall)
  · rw [List.mem_singleton.mp hi] at hnone
    cases hnone
  · obtain ⟨i, hi, a, ha, hpage⟩ := hall 2 ⟨0x2000, by decide, by decide, rfl⟩
    rw [List.mem_singleton.mp hi] at ha
    cases ha
    exact absurd hpage (by decide)

def fromBoundary : FenceReq .rv32 := ⟨.hfenceGvma, 0x3000, 0x1800, 0⟩

theorem range_fence_covers_pages :
    ¬ FlushesAll fromBoundary ∧ Covers fromBoundary (fenceLocal fromBoundary) :=
  ⟨by decide, (range_fence_covers_iff harts ⟨false, none, some fromBoundary⟩ fromBoundary rfl rfl
    (by decide) (by decide)).mpr (.inr (by decide))⟩

end RiscvMonitor.RangeFence
