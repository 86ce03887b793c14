import Mathlib.Data.Fin.Basic
import Mathlib.Data.List.Basic
import Mathlib.Data.Nat.ModEq
import Mathlib.Logic.Function.Basic

/-!
# A queue in a ring

An array of `n` slots, the index of the oldest entry and the number of entries:
the entries go round the array.  What it holds, oldest first, is a list, and the
two operations are the two ends of that list.
-/

namespace RiscvMonitor

structure Ring (α : Type*) (n : Nat) where
  head : Fin n
  count : Nat
  slot : Fin n → α
  count_le : count ≤ n

namespace Ring

variable {α : Type*} {n : Nat}

def index (r : Ring α n) (k : Nat) : Fin n := ⟨(r.head + k) % n, Nat.mod_lt _ r.head.pos⟩

/-- A new entry goes after the last one; none if the ring is full. -/
def push (r : Ring α n) (a : α) : Option (Ring α n) :=
  if h : r.count < n then
    some ⟨r.head, r.count + 1, Function.update r.slot (r.index r.count) a, h⟩
  else none

def pop (r : Ring α n) : Option (α × Ring α n) :=
  if r.count = 0 then none
  else some (r.slot r.head, ⟨r.index 1, r.count - 1, r.slot, (Nat.sub_le _ _).trans r.count_le⟩)

/-- What the ring holds, oldest first. -/
def contents (r : Ring α n) : List α := (List.range r.count).map fun k => r.slot (r.index k)

theorem length_contents (r : Ring α n) : r.contents.length = r.count := by
  simp [contents]

theorem index_zero (r : Ring α n) : r.index 0 = r.head :=
  Fin.ext (Nat.mod_eq_of_lt r.head.isLt)

theorem index_ne {r : Ring α n} {k l : Nat} (hkl : k < l) (hl : l < n) :
    r.index k ≠ r.index l := by
  intro heq
  have hmod : (r.head + k) % n = (r.head + l) % n := congrArg Fin.val heq
  have hcancel : k ≡ l [MOD n] := Nat.ModEq.add_left_cancel' _ hmod
  have hval : k % n = l % n := hcancel
  rw [Nat.mod_eq_of_lt hl, Nat.mod_eq_of_lt (hkl.trans hl)] at hval
  exact absurd hval hkl.ne

theorem contents_push {r t : Ring α n} {a : α} (hpush : r.push a = some t) :
    t.contents = r.contents ++ [a] := by
  unfold push at hpush
  split at hpush
  case isFalse => cases hpush
  case isTrue hroom =>
    cases hpush
    have hold : ∀ k ∈ List.range r.count,
        Function.update r.slot (r.index r.count) a (r.index k) = r.slot (r.index k) := by
      intro k hk
      exact Function.update_of_ne (index_ne (List.mem_range.mp hk) hroom) _ _
    unfold contents
    rw [List.range_succ, List.map_append]
    exact congrArg₂ _ (List.map_congr_left hold) (congrArg (fun b => [b]) (Function.update_self ..))

theorem contents_pop {r t : Ring α n} {a : α} (hpop : r.pop = some (a, t)) :
    r.contents = a :: t.contents := by
  unfold pop at hpop
  split at hpop
  case isTrue => cases hpop
  case isFalse hcount =>
    cases hpop
    have hrange : List.range r.count = 0 :: (List.range (r.count - 1)).map Nat.succ := by
      rw [← List.range_succ_eq_map, Nat.sub_add_cancel (Nat.pos_of_ne_zero hcount)]
    have hshift : ∀ k, r.index (k + 1) = Ring.index ⟨r.index 1, r.count - 1, r.slot,
        (Nat.sub_le _ _).trans r.count_le⟩ k := by
      intro k
      apply Fin.ext
      change (r.head + (k + 1)) % n = ((r.head + 1) % n + k) % n
      rw [Nat.mod_add_mod, Nat.add_assoc, Nat.add_comm 1 k]
    unfold contents
    rw [hrange, List.map_cons, index_zero, List.map_map]
    exact congrArg _ (List.map_congr_left fun k _ => congrArg r.slot (hshift k))

theorem pop_eq_none {r : Ring α n} : r.pop = none ↔ r.contents = [] := by
  rw [← List.length_eq_zero_iff, length_contents, pop]
  split <;> simp [*]

end Ring

end RiscvMonitor
