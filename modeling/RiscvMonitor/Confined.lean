import Mathlib.Logic.Basic
import Mathlib.Order.RelClasses

/-!
# Programs that see and touch a part of the state

A program is confined if two states that agree on what it may see give the same
result and agree again, and if what it does to the rest is among what is allowed.
There is one rule for each way to put a program together, and the rules are instances.
-/

namespace RiscvMonitor

variable {S α β ε ι : Type} {R Q : S → S → Prop}

/-- `R` is agreement on what may be seen, `Q` what may happen to a state. -/
def Confined (R Q : S → S → Prop) (m : StateM S α) : Prop :=
  ∀ s t, R s t → (m.run s).1 = (m.run t).1 ∧ R (m.run s).2 (m.run t).2 ∧ Q s (m.run s).2

def andThen (m : StateM S (Except ε α)) (f : α → StateM S (Except ε β)) :
    StateM S (Except ε β) :=
  m >>= fun
    | .error e => pure (.error e)
    | .ok a => f a

def forEach (f : ι → StateM S (Except ε Unit)) : List ι → StateM S (Except ε Unit)
  | [] => pure (.ok ())
  | i :: is => andThen (f i) fun _ => forEach f is

namespace Confined

theorem pure [Std.Refl Q] (a : α) : Confined R Q (pure a : StateM S α) := by
  intro s t hst
  exact ⟨rfl, hst, Std.Refl.refl s⟩

theorem bind [IsTrans S Q] {m : StateM S α} {f : α → StateM S β} (hm : Confined R Q m)
    (hf : ∀ a, Confined R Q (f a)) : Confined R Q (m >>= f) := by
  intro s t hst
  obtain ⟨hvalue, hagree, hdone⟩ := hm s t hst
  obtain ⟨hvalue', hagree', hdone'⟩ := hf (m.run s).1 _ _ hagree
  have hrun : (m >>= f).run t = (f (m.run s).1).run (m.run t).2 := by
    rw [hvalue]
    rfl
  rw [hrun]
  exact ⟨hvalue', hagree', IsTrans.trans _ _ _ hdone hdone'⟩

theorem ite {c : Prop} [Decidable c] {m k : StateM S α} (hm : Confined R Q m)
    (hk : Confined R Q k) : Confined R Q (if c then m else k) := by
  split
  · exact hm
  · exact hk

theorem gets [Std.Refl Q] {f : S → α} (hf : ∀ s t, R s t → f s = f t) :
    Confined R Q (do return f (← get) : StateM S α) := by
  intro s t hst
  exact ⟨hf s t hst, hst, Std.Refl.refl s⟩

theorem read {k : S → StateM S α} (hk : ∀ s, Confined R Q (k s))
    (hsame : ∀ s t, R s t → k s = k t) : Confined R Q (do k (← get) : StateM S α) := by
  intro s t hst
  have hrun : (do k (← get) : StateM S α).run t = (k s).run t := by
    rw [hsame s t hst]
    rfl
  rw [hrun]
  exact hk s s t hst

theorem modify {f : S → S} (hR : ∀ s t, R s t → R (f s) (f t)) (hQ : ∀ s t, R s t → Q s (f s)) :
    Confined R Q (modify f : StateM S PUnit) := by
  intro s t hst
  exact ⟨rfl, hR s t hst, hQ s t hst⟩

theorem andThen [Std.Refl Q] [IsTrans S Q] {m : StateM S (Except ε α)}
    {f : α → StateM S (Except ε β)} (hm : Confined R Q m) (hf : ∀ a, Confined R Q (f a)) :
    Confined R Q (andThen m f) := by
  apply hm.bind
  intro r
  cases r with
  | error e => exact .pure _
  | ok a => exact hf a

theorem forEach [Std.Refl Q] [IsTrans S Q] {f : ι → StateM S (Except ε Unit)}
    (hf : ∀ i, Confined R Q (f i)) (is : List ι) : Confined R Q (forEach f is) := by
  induction is with
  | nil => exact .pure _
  | cons i is ih => exact (hf i).andThen fun _ => ih

theorem forM [Std.Refl Q] [IsTrans S Q] {f : ι → StateM S PUnit} (hf : ∀ i, Confined R Q (f i))
    (is : List ι) : Confined R Q (is.forM f) := by
  induction is with
  | nil => exact .pure _
  | cons i is ih => exact (hf i).bind fun _ => ih

section Instances

variable {m : StateM S α} [hm : Fact (Confined R Q m)]

instance [Std.Refl Q] (a : α) : Fact (Confined R Q (Pure.pure a : StateM S α)) := ⟨.pure a⟩

instance [IsTrans S Q] {f : α → StateM S β} [∀ a, Fact (Confined R Q (f a))] :
    Fact (Confined R Q (m >>= f)) :=
  ⟨hm.out.bind fun _ => Fact.out⟩

instance {c : Prop} [Decidable c] {k : StateM S α} [Fact (Confined R Q k)] :
    Fact (Confined R Q (if c then m else k)) :=
  ⟨hm.out.ite Fact.out⟩

variable [Std.Refl Q] [IsTrans S Q]

instance {m : StateM S (Except ε α)} {f : α → StateM S (Except ε β)} [hm : Fact (Confined R Q m)]
    [∀ a, Fact (Confined R Q (f a))] : Fact (Confined R Q (RiscvMonitor.andThen m f)) :=
  ⟨hm.out.andThen fun _ => Fact.out⟩

instance {f : ι → StateM S (Except ε Unit)} [∀ i, Fact (Confined R Q (f i))] (is : List ι) :
    Fact (Confined R Q (RiscvMonitor.forEach f is)) :=
  ⟨.forEach (fun _ => Fact.out) is⟩

instance {f : ι → StateM S PUnit} [∀ i, Fact (Confined R Q (f i))] (is : List ι) :
    Fact (Confined R Q (is.forM f)) :=
  ⟨.forM (fun _ => Fact.out) is⟩

end Instances

end Confined

end RiscvMonitor
