import RiscvMonitor.Rpmi
import RiscvMonitor.Word

/-!
# The list of suspend types

`suspend_types_fetch()` of `rpmi_hsm.c` asks the PuC for the platform's suspend
types page by page.  How long an answer is and how many types it says it has are
both the PuC's to say, and the one is checked against the other in `size_t`.
-/

namespace RiscvMonitor.SuspendTypes

open Rpmi (Rc)

variable {x : Xlen}

/-- What `rpmi_request()` returns, the length received, and the buffer: beyond the length it is
    whatever was there. -/
structure Reply (x : Xlen) where
  rc : Int
  len : Word x
  resp : Nat → BitVec 32

def Reply.remaining (r : Reply x) : BitVec 32 := r.resp 1

def Reply.returned (r : Reply x) : BitVec 32 := r.resp 2

/-- A type that is recorded, with the request that it came by and its place in the answer. -/
structure Taken where
  request : Nat
  place : Nat
  type : BitVec 32

/-- The types of an answer, as far as there is room after `n`. -/
def page (max k : Nat) (r : Reply x) (n : Nat) : List Taken :=
  (List.range (min r.returned.toNat (max - n))).map fun i => ⟨k, i, r.resp (3 + i)⟩

theorem length_page (max k : Nat) (r : Reply x) (n : Nat) :
    (page max k r n).length = min r.returned.toNat (max - n) := by
  simp [page]

/-- The answer is too short for what it says it has, or has nothing and more to come. -/
def Reply.bad (r : Reply x) : Prop :=
  r.len < 12 ∨ r.len < 12 + 4 * r.returned.setWidth x.bits ∨ r.returned = 0 ∧ r.remaining ≠ 0

instance (r : Reply x) : Decidable r.bad := inferInstanceAs (Decidable (_ ∨ _))

/-- With more to come an answer has a type, and there is room for it. -/
theorem room_lt {max k : Nat} {r : Reply x} {types : List Taken} (hbad : ¬ r.bad)
    (hmore : r.remaining ≠ 0 ∧ (types ++ page max k r types.length).length < max) :
    max - (types ++ page max k r types.length).length < max - types.length := by
  have hsome : r.returned.toNat ≠ 0 := by
    intro hnone
    exact hbad (.inr (.inr ⟨BitVec.eq_of_toNat_eq hnone, hmore.1⟩))
  have hroom := hmore.2
  rw [List.length_append, length_page] at hroom ⊢
  omega

/-- `suspend_types_fetch()` from request `k` on, where `max` is `MAX_SUSPEND_TYPES`:
    the indices that are asked for, and the types or the error. -/
def suspendTypesFetch (answers : Nat → Reply x) (max k : Nat) (start : BitVec 32)
    (types : List Taken) : List (BitVec 32) × Except Int (List Taken) :=
  let r := answers k
  if r.rc ≠ 0 then ([start], .error r.rc)
  else if r.len < 4 ∨ (r.resp 0).toInt ≠ 0 then
    ([start], .error (if r.len < 4 then Rc.io.code else (r.resp 0).toInt))
  else if hbad : r.bad then ([start], .error Rc.io.code)
  else
    let types' := types ++ page max k r types.length
    if hmore : r.remaining ≠ 0 ∧ types'.length < max then
      have := room_lt hbad hmore
      let rest := suspendTypesFetch answers max (k + 1) (start + r.returned) types'
      (start :: rest.1, rest.2)
    else ([start], .ok types')
termination_by max - types.length
decreasing_by exact this

def taken (answers : Nat → Reply x) (max : Nat) : Nat → Nat
  | 0 => 0
  | k + 1 => min max (taken answers max k + (answers k).returned.toNat)

/-- The answers before the `k`th have all promised more, and left room for it. -/
def Reached (answers : Nat → Reply x) (max k : Nat) : Prop :=
  ∀ j < k, (answers j).remaining ≠ 0 ∧ taken answers max (j + 1) < max

def Taken.Before (s t : Taken) : Prop :=
  s.request < t.request ∨ s.request = t.request ∧ s.place < t.place

/-- The types of the answers before request `k`, in the order received. -/
structure Recorded (answers : Nat → Reply x) (max k : Nat) (types : List Taken) : Prop where
  length : types.length = taken answers max k
  order : types.Pairwise Taken.Before
  mem : ∀ t, t ∈ types ↔ ∃ j < k, t ∈ page max j (answers j) (taken answers max j)

variable {answers : Nat → Reply x} {max k : Nat} {types : List Taken}

theorem taken_le : taken answers max k ≤ max := by
  cases k <;> simp [taken]

theorem mem_page {r : Reply x} {n : Nat} {t : Taken} :
    t ∈ page max k r n ↔
      t.place < min r.returned.toNat (max - n) ∧ t.request = k ∧ t.type = r.resp (3 + t.place) := by
  rcases t with ⟨request, place, type⟩
  simp only [page, List.mem_map, List.mem_range, Taken.mk.injEq]
  constructor
  · rintro ⟨i, hi, rfl, rfl, rfl⟩
    exact ⟨hi, rfl, rfl⟩
  · rintro ⟨hi, rfl, rfl⟩
    exact ⟨place, hi, rfl, rfl, rfl⟩

theorem Recorded.next (h : Recorded answers max k types) :
    Recorded answers max (k + 1) (types ++ page max k (answers k) types.length) where
  length := by
    have hle := @taken_le _ answers max k
    rw [List.length_append, length_page, h.length, taken]
    omega
  order := by
    refine List.pairwise_append.mpr ⟨h.order, ?_, ?_⟩
    · refine List.pairwise_map.mpr (List.pairwise_lt_range.imp ?_)
      intro i j hij
      exact .inr ⟨rfl, hij⟩
    · intro s hs t ht
      obtain ⟨j, hj, hs⟩ := (h.mem s).mp hs
      left
      rw [(mem_page.mp hs).2.1, (mem_page.mp ht).2.1]
      exact hj
  mem t := by
    rw [List.mem_append, h.mem, h.length]
    simp only [Nat.lt_succ_iff_lt_or_eq, or_and_right, exists_or, exists_eq_left]

theorem Reached.succ (hreached : Reached answers max k)
    (hmore : (answers k).remaining ≠ 0 ∧ taken answers max (k + 1) < max) :
    Reached answers max (k + 1) := by
  intro j hj
  rcases Nat.lt_succ_iff_lt_or_eq.mp hj with hj | rfl
  · exact hreached j hj
  · exact hmore

theorem suspendTypesFetch_spec (start : BitVec 32) (h : Recorded answers max k types)
    (hreached : Reached answers max k) :
    (suspendTypesFetch answers max k start types).1.length ≤ max - types.length + 1 ∧
      ∀ out, (suspendTypesFetch answers max k start types).2 = .ok out →
        ∃ n, Recorded answers max n out ∧ ∀ j, Reached answers max j ↔ j < n := by
  fun_induction suspendTypesFetch answers max k start types with
  | case1 | case2 | case3 => exact ⟨by simp, nofun⟩
  | case4 k start types r hrc hstatus hbad types' hmore hroom rest ih =>
    have hnext := h.next
    obtain ⟨hasked, hout⟩ := ih hnext (hreached.succ ⟨hmore.1, hnext.length ▸ hmore.2⟩)
    exact ⟨Nat.succ_le_succ (hasked.trans hroom), hout⟩
  | case5 k start types r hrc hstatus hbad types' hdone =>
    refine ⟨by simp, ?_⟩
    rintro out ⟨⟩
    refine ⟨k + 1, h.next, ?_⟩
    intro j
    constructor
    · intro hj
      by_contra hlate
      obtain ⟨hmore, hroom⟩ := hj k (by omega)
      exact hdone ⟨hmore, h.next.length ▸ hroom⟩
    · intro hj i hi
      exact hreached i (by omega)

/-- The type is a word of its answer, inside the length received and below the count. -/
def Taken.Said (answers : Nat → Reply x) (t : Taken) : Prop :=
  t.type = (answers t.request).resp (3 + t.place) ∧
    t.place < (answers t.request).returned.toNat ∧
    4 * (3 + t.place) + 4 ≤ (answers t.request).len.toNat

theorem recorded_nil : Recorded answers max 0 [] := ⟨rfl, .nil, by simp⟩

/-- An answer of 12 bytes that says it has `2^30` types. -/
def shortAnswer : Reply .rv32 := ⟨0, 12, fun i => if i = 2 then 0x40000000 else 0⟩

end RiscvMonitor.SuspendTypes
