import RiscvMonitor.Memregion
import RiscvMonitor.Runs

/-!
# The boot heap

`heap.c` hands out what is between the end of the image and the stacks, one block
after the other, and takes nothing back.  Sizes are rounded up to 16 bytes: those
within 15 bytes of the top of `size_t` to nothing, and the block is empty.
-/

namespace RiscvMonitor.BootHeap

open Runs

variable {x : Xlen}

/-- `next` and `limit`, and what is in memory -/
structure Heap (x : Xlen) where
  next : Word x
  limit : Word x
  mem : Word x → BitVec 8

structure Layout (x : Xlen) where
  imageStart : Word x
  heapStart : Word x
  monitorSize : Word x
  stackSize : Word x

/-- `heap_init()`; `none` is a panic, as below. -/
def heapInit (l : Layout x) (harts : BitVec 32) (mem : Word x → BitVec 8) : Option (Heap x) :=
  let top := l.imageStart + l.monitorSize
  let limit := top - harts.setWidth _ * l.stackSize
  if limit < l.heapStart ∨ top < limit then none else some ⟨l.heapStart, limit, mem⟩

def memset (mem : Word x → BitVec 8) (p : Word x) (c : BitVec 8) (n : Word x) :
    Word x → BitVec 8 :=
  fun a => if a - p < n then c else mem a

/-- `heap_alloc()`: where the block is -/
def heapAlloc (h : Heap x) (size : Word x) : Option (Word x × Heap x) :=
  let size := roundUp2 size 16
  if h.next = 0 ∨ h.limit - h.next < size then none
  else some (h.next, { h with next := h.next + size, mem := memset h.mem h.next 0 size })

def heapAllocArray (h : Heap x) (count size : Word x) : Option (Word x × Heap x) :=
  if size ≠ 0 ∧ -1 / size < count then none else heapAlloc h (count * size)

inductive Call (x : Xlen) where
  | alloc (size : Word x)
  | array (count size : Word x)

def Call.run (h : Heap x) : Call x → Option (Word x × Heap x)
  | .alloc size => heapAlloc h size
  | .array count size => heapAllocArray h count size

def Call.wanted : Call x → Nat
  | .alloc size => size.toNat
  | .array count size => count.toNat * size.toNat

structure Log (x : Xlen) where
  heap : Heap x
  blocks : List (Word x × Word x)

def Log.step (g : Log x) (c : Call x) : Option (Log x) :=
  (c.run g.heap).map fun r => ⟨r.2, g.blocks ++ [(r.1, r.2.next - r.1)]⟩

/-- The `n` bytes at `p` are what was asked for, and nobody else's. -/
structure Fresh (h₀ : Heap x) (g : Log x) (wanted : Nat) (p n : Word x) (h : Heap x) : Prop where
  size : wanted ≤ n.toNat
  zeroed : ∀ a : Word x, InRange p n a.toNat → h.mem a = 0
  inside : h₀.next.toNat ≤ p.toNat ∧ p.toNat + n.toNat ≤ h₀.limit.toNat
  aligned : h₀.next.toNat % 16 = 0 → p.toNat % 16 = 0
  apart : ∀ b ∈ g.blocks, ∀ a, ¬ (InRange b.1 b.2 a ∧ InRange p n a)

/-- Each call, up to a panic, gets such a block. -/
def EachFresh (h₀ : Heap x) (cs : List (Call x)) : Prop :=
  Along Log.step (fun g c => ∀ r ∈ c.run g.heap, Fresh h₀ g c.wanted r.1 (r.2.next - r.1) r.2)
    ⟨h₀, []⟩ cs

/-- What is left is above all that was handed out. -/
structure Log.Ordered (h₀ : Heap x) (g : Log x) : Prop where
  limit : g.heap.limit = h₀.limit
  inside : h₀.next.toNat ≤ g.heap.next.toNat ∧ g.heap.next.toNat ≤ h₀.limit.toNat
  aligned : h₀.next.toNat % 16 = 0 → g.heap.next.toNat % 16 = 0
  below : ∀ b ∈ g.blocks, b.1.toNat + b.2.toNat ≤ g.heap.next.toNat

section Calls

variable {h₀ : Heap x} {g g' : Log x}

/-- The product is checked: a call is one of `heap_alloc()`, with what is wanted. -/
theorem Call.run_eq (h : Heap x) (c : Call x) :
    c.run h =
      if c.wanted < 2 ^ x.bits then heapAlloc h (BitVec.ofNat x.bits c.wanted) else none := by
  cases c with
  | alloc size =>
    simp only [Call.run, Call.wanted, size.isLt, if_true, BitVec.ofNat_toNat, BitVec.setWidth_eq]
  | array count size =>
    have hproduct : BitVec.ofNat x.bits (count.toNat * size.toNat) = count * size :=
      BitVec.eq_of_toNat_eq (by simp)
    have hfits : size ≠ 0 ∧ -1 / size < count ↔ ¬ count.toNat * size.toNat < 2 ^ x.bits := by
      by_cases hzero : size = 0
      · simp [hzero, x.two_pow_bits_pos]
      · have hall : (-1 : Word x).toNat = 2 ^ x.bits - 1 := by cases x <;> rfl
        rw [BitVec.lt_def, BitVec.toNat_udiv, hall, Nat.div_lt_iff_lt_mul (toNat_pos hzero)]
        have := x.two_pow_bits_pos
        simp only [ne_eq, hzero, not_false_eq_true, true_and]
        omega
    simp only [Call.run, Call.wanted, heapAllocArray, hproduct, hfits]
    exact ite_not ..

theorem toNat_rounded (size : Word x) :
    (roundUp2 size 16).toNat = (size.toNat + 15) % 2 ^ x.bits / 16 * 16 := by
  have h16 : (16 : Word x).toNat = 2 ^ 4 := by cases x <;> rfl
  exact toNat_roundUp2 (by cases x <;> decide) h16

theorem heapAlloc_some (hg : g.Ordered h₀) {size : Word x} {r : Word x × Heap x}
    (hr : heapAlloc g.heap size = some r) :
    r.1 = g.heap.next ∧ r.2.next - r.1 = roundUp2 size 16 ∧ r.2.limit = h₀.limit ∧
      r.2.next.toNat = g.heap.next.toNat + (roundUp2 size 16).toNat ∧
      r.2.next.toNat ≤ h₀.limit.toNat ∧ r.2.mem = memset g.heap.mem r.1 0 (roundUp2 size 16) := by
  unfold heapAlloc at hr
  dsimp only at hr
  split at hr
  · cases hr
  · next hroom =>
    cases hr
    have hfits := BitVec.not_lt.mp (not_or.mp hroom).2
    have hle := hg.inside.2
    have hlimit := h₀.limit.isLt
    rw [BitVec.le_def, hg.limit, BitVec.toNat_sub_of_le hle] at hfits
    have hsum := toNat_add_of_lt (a := g.heap.next) (b := roundUp2 size 16) (by omega)
    refine ⟨rfl, ?_, hg.limit, hsum, ?_, rfl⟩
    · rw [BitVec.add_comm]
      exact BitVec.add_sub_cancel ..
    · rw [hsum]
      omega

theorem Log.Ordered.step (hg : g.Ordered h₀) {c : Call x} (hstep : g.step c = some g') :
    g'.Ordered h₀ := by
  obtain ⟨r, hr, rfl⟩ := Option.map_eq_some_iff.mp hstep
  rw [Call.run_eq] at hr
  split at hr
  · obtain ⟨hp, hsize, hlimit, hnext, hle, -⟩ := heapAlloc_some hg hr
    have hrounded := toNat_rounded (BitVec.ofNat x.bits c.wanted)
    refine ⟨hlimit, ⟨?_, hle⟩, fun hstart => ?_, fun b hb => ?_⟩ <;> dsimp only
    · exact hg.inside.1.trans (hnext ▸ Nat.le_add_right ..)
    · have := hg.aligned hstart
      omega
    · rcases List.mem_append.mp hb with hb | hb
      · have := hg.below b hb
        omega
      · rw [List.mem_singleton.mp hb, hp, ← hp, hsize, hnext, hp]
  · cases hr

theorem fresh_iff (hg : g.Ordered h₀) (c : Call x) :
    (∀ r ∈ c.run g.heap, Fresh h₀ g c.wanted r.1 (r.2.next - r.1) r.2) ↔
      (g.heap.next ≠ 0 → c.wanted + 15 < 2 ^ x.bits ∨ 2 ^ x.bits ≤ c.wanted) := by
  rw [Call.run_eq]
  by_cases hword : c.wanted < 2 ^ x.bits
  · rw [if_pos hword]
    have hrounded := toNat_rounded (BitVec.ofNat x.bits c.wanted)
    rw [BitVec.toNat_ofNat, Nat.mod_eq_of_lt hword] at hrounded
    have hlarge : 2 ^ 4 ≤ 2 ^ x.bits := Nat.pow_le_pow_right (by omega) x.three_lt_bits
    constructor
    · intro hfresh hne
      by_contra hno
      -- the size is rounded to nothing, and there is room for that
      have hzero : (roundUp2 (BitVec.ofNat x.bits c.wanted) 16).toNat = 0 := by
        rw [hrounded, Nat.mod_eq_sub_mod (by omega), Nat.mod_eq_of_lt (by omega)]
        omega
      obtain ⟨r, hsome⟩ : ∃ r, heapAlloc g.heap (BitVec.ofNat x.bits c.wanted) = some r := by
        refine ⟨_, if_neg (not_or.mpr ⟨hne, BitVec.not_lt.mpr ?_⟩)⟩
        rw [BitVec.le_def, hzero]
        exact Nat.zero_le _
      have hsize := (hfresh _ hsome).size
      rw [(heapAlloc_some hg hsome).2.1, hzero] at hsize
      omega
    · intro hmodest r hr
      obtain ⟨hp, hsize, -, hnext, hle, hmem⟩ := heapAlloc_some hg hr
      have hne : g.heap.next ≠ 0 := by
        intro hzero
        rw [heapAlloc, if_pos (.inl hzero)] at hr
        cases hr
      have hfits := (hmodest hne).resolve_right (by omega)
      rw [Nat.mod_eq_of_lt hfits] at hrounded
      rw [hsize]
      refine ⟨by omega, ?_, ⟨hp ▸ hg.inside.1, by rw [hp]; omega⟩, hp ▸ hg.aligned, ?_⟩
      · intro a ⟨hlow, hhigh⟩
        rw [hmem, memset, if_pos]
        rw [BitVec.lt_def, BitVec.toNat_sub_of_le hlow]
        omega
      · intro b hb a ⟨hold, hnew⟩
        have := hg.below b hb
        have := hold.2
        have := hnew.1
        rw [hp] at this
        omega
  · rw [if_neg hword]
    exact iff_of_true nofun fun _ => .inr (Nat.le_of_not_lt hword)

/-- The calls of a sequence get blocks of their own if and only if none asks for a size within
    15 bytes of the top of `size_t`. -/
theorem heap_blocks_fresh {l : Layout x} {harts : BitVec 32} {mem : Word x → BitVec 8}
    (hinit : heapInit l harts mem = some h₀) (cs : List (Call x)) :
    EachFresh h₀ cs ↔
      Along Log.step
        (fun g c => g.heap.next ≠ 0 → c.wanted + 15 < 2 ^ x.bits ∨ 2 ^ x.bits ≤ c.wanted)
        ⟨h₀, []⟩ cs := by
  refine along_congr (fun g c g' hg hstep => hg.step hstep) (fun g c hg => fresh_iff hg c) ?_
  unfold heapInit at hinit
  dsimp only at hinit
  split at hinit
  · cases hinit
  · next hroom =>
    cases hinit
    exact ⟨rfl, ⟨Nat.le_refl _, BitVec.not_lt.mp (not_or.mp hroom).1⟩, fun h => h, nofun⟩

end Calls

def smallMonitor : Layout .rv64 := ⟨0x80000000, 0x80020000, 0x40000, 0x2000⟩

def smallHeap : Heap .rv64 := ⟨0x80020000, 0x8003c000, fun _ => 0xff⟩

theorem heapInit_smallMonitor : heapInit smallMonitor 2 (fun _ => 0xff) = some smallHeap := by
  rfl

theorem heap_blocks_fresh_smallHeap :
    heapInit smallMonitor 2 (fun _ => 0xff) = some smallHeap ∧
      EachFresh smallHeap [.alloc 24, .array 3 8, .array (-1) 2] := by
  refine ⟨heapInit_smallMonitor, (heap_blocks_fresh heapInit_smallMonitor _).mpr ?_⟩
  decide +kernel

/-- All of memory is asked for, and nothing is what one gets. -/
theorem heapAlloc_all_empty :
    heapInit smallMonitor 2 (fun _ => 0xff) = some smallHeap ∧
      ¬ EachFresh smallHeap [.alloc (-1)] := by
  refine ⟨heapInit_smallMonitor, fun halong => ?_⟩
  have hsize := (halong.1 _ rfl).size
  revert hsize
  decide +kernel

end RiscvMonitor.BootHeap
