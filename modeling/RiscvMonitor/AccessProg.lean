import Mathlib.Data.List.Basic

/-!
# Programs of memory accesses

A program that reads and writes memory that is not its own, one access at a time:
what comes next depends on what has been read.  `Always` is about any answers to
the reads.
-/

namespace RiscvMonitor

inductive AccessProg (A V R : Type)
  | ret (result : R)
  | read (loc : A) (next : V → AccessProg A V R)
  | write (loc : A) (val : V) (next : AccessProg A V R)

namespace AccessProg

variable {A V R : Type}

def readAll : List A → (List V → AccessProg A V R) → AccessProg A V R
  | [], next => next []
  | loc :: locs, next => read loc fun v => readAll locs fun vs => next (v :: vs)

def writeAll : List (A × V) → AccessProg A V R → AccessProg A V R
  | [], next => next
  | w :: ws, next => write w.1 w.2 (writeAll ws next)

/-! ### Whatever is read -/

/-- Every access is to a location with `P` and every result has `Q`, whatever is read. -/
def Always (P : A → Prop) (Q : R → Prop) : AccessProg A V R → Prop
  | ret r => Q r
  | read loc next => P loc ∧ ∀ v, (next v).Always P Q
  | write loc _ next => P loc ∧ next.Always P Q

variable {P : A → Prop} {Q Q' : R → Prop}

theorem Always.mono (hQ : ∀ r, Q r → Q' r) {p : AccessProg A V R} (hp : p.Always P Q) :
    p.Always P Q' := by
  induction p with
  | ret r => exact hQ r hp
  | read loc next ih => exact ⟨hp.1, fun v => ih v (hp.2 v)⟩
  | write loc val next ih => exact ⟨hp.1, ih hp.2⟩

theorem always_readAll {locs : List A} {next : List V → AccessProg A V R}
    (hlocs : ∀ loc ∈ locs, P loc)
    (hnext : ∀ vs, vs.length = locs.length → (next vs).Always P Q) :
    (readAll locs next).Always P Q := by
  induction locs generalizing next with
  | nil => exact hnext [] rfl
  | cons loc locs ih =>
    refine ⟨hlocs loc (List.mem_cons_self ..), ?_⟩
    intro v
    apply ih
    · intro l hl
      exact hlocs l (List.mem_cons_of_mem _ hl)
    · intro vs hvs
      exact hnext (v :: vs) (congrArg (· + 1) hvs)

theorem always_writeAll {ws : List (A × V)} {next : AccessProg A V R}
    (hlocs : ∀ w ∈ ws, P w.1) (hnext : next.Always P Q) : (writeAll ws next).Always P Q := by
  induction ws with
  | nil => exact hnext
  | cons w ws ih =>
    exact ⟨hlocs w (List.mem_cons_self ..), ih fun v hv => hlocs v (List.mem_cons_of_mem _ hv)⟩

end AccessProg

end RiscvMonitor
