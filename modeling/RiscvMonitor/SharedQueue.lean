import Mathlib.Data.List.Basic
import Mathlib.Logic.Function.Basic

/-!
# A queue two parties share

A ring of `n` slots in shared memory, with the index of the oldest entry, which the
consumer moves, and the index after the newest one, which the producer moves.  One
slot stays free.  Neither party trusts the other: an index may be anything.
-/

namespace RiscvMonitor

structure SharedQueue (α : Type*) where
  head : Nat
  tail : Nat
  slot : Nat → α

namespace SharedQueue

variable {α : Type*} (n : Nat) (q : SharedQueue α)

def InRange : Prop := q.head < n ∧ q.tail < n

instance : Decidable (q.InRange n) := inferInstanceAs (Decidable (_ ∧ _))

def count : Nat := if q.head ≤ q.tail then q.tail - q.head else q.tail + n - q.head

def used : List Nat :=
  if q.InRange n then (List.range (q.count n)).map fun k => (q.head + k) % n else []

def pending : List α := (q.used n).map q.slot

/-- The producer's half: fill the slot at the tail, then move the tail. -/
def put (a : α) : SharedQueue α :=
  { q with slot := Function.update q.slot q.tail a, tail := (q.tail + 1) % n }

/-- The consumer's half: move the head. -/
def drop : SharedQueue α := { q with head := (q.head + 1) % n }

variable {n} {q}

theorem succ_mod {i : Nat} (hi : i < n) : (i + 1) % n = if i + 1 = n then 0 else i + 1 := by
  split
  · next heq => rw [heq, Nat.mod_self]
  · next hne => exact Nat.mod_eq_of_lt (by omega)

section

variable (hq : q.InRange n)
include hq

theorem InRange.put (a : α) : (q.put n a).InRange n :=
  ⟨hq.1, Nat.mod_lt _ (Nat.zero_lt_of_lt hq.2)⟩

theorem InRange.drop : (q.drop n).InRange n :=
  ⟨Nat.mod_lt _ (Nat.zero_lt_of_lt hq.1), hq.2⟩

theorem used_of_inRange :
    q.used n = (List.range (q.count n)).map fun k => (q.head + k) % n := if_pos hq

theorem count_put (hroom : (q.tail + 1) % n ≠ q.head) (a : α) :
    (q.put n a).count n = q.count n + 1 := by
  obtain ⟨hhead, htail⟩ := hq
  rw [succ_mod htail] at hroom
  simp only [count, put, succ_mod htail]
  split_ifs at hroom ⊢ <;> omega

theorem count_drop (hsome : q.head ≠ q.tail) : q.count n = (q.drop n).count n + 1 := by
  obtain ⟨hhead, htail⟩ := hq
  simp only [count, drop, succ_mod hhead]
  split_ifs <;> omega

theorem used_put (hroom : (q.tail + 1) % n ≠ q.head) (a : α) :
    (q.put n a).used n = q.used n ++ [q.tail] := by
  have hlast : (q.head + q.count n) % n = q.tail := by
    unfold count
    split
    · rw [Nat.add_sub_cancel' (by assumption), Nat.mod_eq_of_lt hq.2]
    · have hsum : q.head + (q.tail + n - q.head) = q.tail + n := by have := hq.1; omega
      rw [hsum, Nat.add_mod_right, Nat.mod_eq_of_lt hq.2]
  rw [used_of_inRange (hq.put a), used_of_inRange hq, count_put hq hroom, List.range_succ,
    List.map_append]
  simp only [put, List.map_cons, List.map_nil, hlast]

theorem used_drop (hsome : q.head ≠ q.tail) : q.used n = q.head :: (q.drop n).used n := by
  rw [used_of_inRange hq, used_of_inRange hq.drop, count_drop hq hsome,
    List.range_succ_eq_map, List.map_cons, List.map_map]
  congr 1
  · exact Nat.mod_eq_of_lt hq.1
  · apply List.map_congr_left
    intro k _
    simp only [Function.comp, drop, Nat.mod_add_mod]
    congr 1
    omega

end

theorem tail_not_mem_used : q.tail ∉ q.used n := by
  unfold used
  split
  · next hq =>
    obtain ⟨hhead, htail⟩ := hq
    simp only [List.mem_map, List.mem_range, not_exists, not_and]
    intro k hk heq
    rcases Nat.lt_or_ge (q.head + k) n with hlt | hge
    · rw [Nat.mod_eq_of_lt hlt] at heq
      unfold count at hk
      split at hk <;> omega
    · have hlt : q.head + k - n < n := by unfold count at hk; split at hk <;> omega
      rw [Nat.mod_eq_sub_mod hge, Nat.mod_eq_of_lt hlt] at heq
      unfold count at hk
      split at hk <;> omega
  · exact List.not_mem_nil

theorem pending_put (hq : q.InRange n) (hroom : (q.tail + 1) % n ≠ q.head) (a : α) :
    (q.put n a).pending n = q.pending n ++ [a] := by
  unfold pending
  rw [used_put hq hroom, List.map_append]
  congr 1
  · apply List.map_congr_left
    intro i hi
    exact Function.update_of_ne (ne_of_mem_of_not_mem hi tail_not_mem_used) _ _
  · simp [put]

theorem pending_drop (hq : q.InRange n) (hsome : q.head ≠ q.tail) :
    q.pending n = q.slot q.head :: (q.drop n).pending n := by
  unfold pending
  rw [used_drop hq hsome]
  rfl

end SharedQueue

end RiscvMonitor
