import Mathlib.Data.List.Basic

/-!
# Machines that answer calls

A call takes the machine to its next state and is answered.  Two states are alike if
no sequence of calls tells them apart by the answers: it is enough that every call
keeps a relation under which it is answered the same.
-/

namespace RiscvMonitor.Replies

variable {S C R : Type*}

def replies (call : S → C → S × R) : S → List C → List R
  | _, [] => []
  | s, c :: cs => (call s c).2 :: replies call (call s c).1 cs

def after (call : S → C → S × R) (s : S) (cs : List C) : S :=
  cs.foldl (fun s c => (call s c).1) s

/-- No sequence of calls tells the two states apart. -/
def Alike (call : S → C → S × R) (s t : S) : Prop :=
  ∀ cs, replies call s cs = replies call t cs

variable {call : S → C → S × R}

theorem alike_of_kept {K : S → S → Prop}
    (hkept : ∀ s t c, K s t → (call s c).2 = (call t c).2 ∧ K (call s c).1 (call t c).1) {s t : S}
    (hst : K s t) : Alike call s t := by
  intro cs
  induction cs generalizing s t with
  | nil => rfl
  | cons c cs ih =>
    obtain ⟨hreply, hnext⟩ := hkept s t c hst
    rw [replies, replies, hreply, ih hnext]

theorem Alike.reply {s t : S} (h : Alike call s t) (c : C) : (call s c).2 = (call t c).2 := by
  simpa [replies] using h [c]

theorem Alike.next {s t : S} (h : Alike call s t) (c : C) :
    Alike call (call s c).1 (call t c).1 := by
  intro cs
  have hall := h (c :: cs)
  simp only [replies, List.cons.injEq] at hall
  exact hall.2

/-- What every call keeps holds after any number of them. -/
theorem after_invariant {I : S → Prop} (hkept : ∀ s c, I s → I (call s c).1) {s : S} (hs : I s)
    (cs : List C) : I (after call s cs) := by
  unfold after
  induction cs generalizing s with
  | nil => exact hs
  | cons c cs ih => exact ih (hkept s c hs)

end RiscvMonitor.Replies
