import Mathlib.Algebra.BigOperators.Group.Finset.Basic
import Mathlib.Data.List.Count

/-!
# Orders that are out

Servers each have a line of orders, and every order has an owner who counts the
orders of theirs that are out: that is the number of them in all the lines.
-/

namespace RiscvMonitor.Outstanding

open Function (update update_of_ne update_self)

variable {E : Type*} (owner : E → Nat) (n : Nat)

/-- How many orders of `g` are in the lines of the first `n` servers. -/
def outstanding (line : Nat → List E) (g : Nat) : Nat :=
  ∑ h ∈ Finset.range n, (line h).countP fun e => owner e == g

variable {owner n} {line : Nat → List E} {h : Nat} {e : E}

theorem outstanding_update (hh : h < n) (orders : List E) (g : Nat) :
    outstanding owner n (update line h orders) g +
        (line h).countP (fun e => owner e == g) =
      outstanding owner n line g + orders.countP (fun e => owner e == g) := by
  have hmem : h ∈ Finset.range n := Finset.mem_range.mpr hh
  have hrest : ∑ i ∈ (Finset.range n).erase h,
      (update line h orders i).countP (fun e => owner e == g) =
      ∑ i ∈ (Finset.range n).erase h, (line i).countP fun e => owner e == g := by
    refine Finset.sum_congr rfl fun i hi => ?_
    rw [update_of_ne (Finset.ne_of_mem_erase hi)]
  unfold outstanding
  rw [← Finset.add_sum_erase _ _ hmem, ← Finset.add_sum_erase _ _ hmem, hrest, update_self]
  omega

theorem outstanding_push (hh : h < n) (e : E) (g : Nat) :
    outstanding owner n (update line h (line h ++ [e])) g =
      outstanding owner n line g + if owner e = g then 1 else 0 := by
  have hsum := @outstanding_update E owner n line h hh (line h ++ [e]) g
  rw [List.countP_append, List.countP_singleton] at hsum
  simp only [beq_iff_eq] at hsum
  omega

theorem outstanding_done {rest : List E} (hh : h < n) (hline : line h = e :: rest) (g : Nat) :
    outstanding owner n line g =
      outstanding owner n (update line h rest) g + if owner e = g then 1 else 0 := by
  have hsum := @outstanding_update E owner n line h hh rest g
  rw [hline, List.countP_cons] at hsum
  simp only [beq_iff_eq] at hsum
  omega

theorem not_mem_of_outstanding_eq_zero {g : Nat} (hzero : outstanding owner n line g = 0)
    (hh : h < n) (hmem : e ∈ line h) : owner e ≠ g := by
  have hnone := Finset.sum_eq_zero_iff.mp hzero h (Finset.mem_range.mpr hh)
  have hnot := List.countP_eq_zero.mp hnone e hmem
  simpa using hnot

def Balanced (owner : E → Nat) (n : Nat) (line : Nat → List E) (out : Nat → Nat) : Prop :=
  ∀ g, out g = outstanding owner n line g

theorem Balanced.push {out : Nat → Nat} (hb : Balanced owner n line out) (hh : h < n) (e : E) :
    Balanced owner n (update line h (line h ++ [e]))
      (update out (owner e) (out (owner e) + 1)) := by
  intro g
  rw [outstanding_push hh]
  by_cases hg : g = owner e
  · subst hg
    rw [update_self, if_pos rfl, hb]
  · rw [update_of_ne hg, if_neg (Ne.symm hg), hb]
    rfl

theorem Balanced.done {out : Nat → Nat} {rest : List E} (hb : Balanced owner n line out)
    (hh : h < n) (hline : line h = e :: rest) :
    Balanced owner n (update line h rest)
      (update out (owner e) (out (owner e) - 1)) := by
  intro g
  have hsum := @outstanding_done E owner n line h e rest hh hline g
  by_cases hg : g = owner e
  · subst hg
    rw [if_pos rfl] at hsum
    rw [update_self, hb, hsum]
    rfl
  · rw [if_neg (Ne.symm hg)] at hsum
    rw [update_of_ne hg, hb, hsum]
    rfl

end RiscvMonitor.Outstanding
