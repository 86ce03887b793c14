import Mathlib.Data.BitVec

/-!
# Registers whose bits depend on other registers

In a register file some bits of a register may be there only while another
register says so: they read zero, and a write to them is lost.  A saved state is
written back one register after the other, so it matters what the others hold by
then.
-/

namespace RiscvMonitor.Gated

variable {R : Type*} [DecidableEq R] {w : Nat}

abbrev Gate (R : Type*) (w : Nat) := (R → BitVec w) → R → BitVec w

def read (gate : Gate R w) (file : R → BitVec w) (r : R) : BitVec w := file r &&& gate file r

def write (gate : Gate R w) (file : R → BitVec w) (r : R) (v : BitVec w) : R → BitVec w :=
  Function.update file r (v &&& gate file r)

def restore (gate : Gate R w) (saved : R → BitVec w) (order : List R) (file : R → BitVec w) :
    R → BitVec w :=
  order.foldl (fun file r => write gate file r (saved r)) file

variable {gate : Gate R w} {saved file : R → BitVec w}

theorem write_of_ne {r q : R} (hne : q ≠ r) (v : BitVec w) :
    write gate file r v q = file q := Function.update_of_ne hne ..

@[simp]
theorem write_self (r : R) (v : BitVec w) : write gate file r v r = v &&& gate file r :=
  Function.update_self ..

theorem restore_append (l l' : List R) :
    restore gate saved (l ++ l') file = restore gate saved l' (restore gate saved l file) :=
  List.foldl_append ..

theorem restore_cons (r : R) (l : List R) :
    restore gate saved (r :: l) file =
      restore gate saved l (write gate file r (saved r)) := rfl

theorem restore_of_not_mem {r : R} {order : List R} (hr : r ∉ order) :
    restore gate saved order file r = file r := by
  induction order generalizing file with
  | nil => rfl
  | cons q order ih =>
    simp only [List.mem_cons, not_or] at hr
    rw [restore_cons, ih hr.2, write_of_ne hr.1]

/-- What a register is left with: the bits that were there when its turn came. -/
theorem restore_split {r : R} {before behind : List R} (hr : r ∉ behind) :
    restore gate saved (before ++ r :: behind) file r =
      saved r &&& gate (restore gate saved before file) r := by
  rw [restore_append, restore_cons, restore_of_not_mem hr, write_self]

theorem restore_fixed {r : R} {order : List R} (hr : r ∈ order)
    (hfixed : ∀ file', gate file' r = gate file r) :
    restore gate saved order file r = saved r &&& gate file r := by
  induction order generalizing file with
  | nil => cases hr
  | cons q order ih =>
    rw [restore_cons]
    by_cases hmem : r ∈ order
    · rw [ih hmem fun file' => (hfixed file').trans (hfixed _).symm, hfixed]
    · rcases List.mem_cons.mp hr with rfl | hin
      · rw [restore_of_not_mem hmem, write_self]
      · exact absurd hin hmem

end RiscvMonitor.Gated
