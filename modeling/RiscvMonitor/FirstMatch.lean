import Mathlib.Tactic

/-!
# Rule lists where the first match decides

A protection unit, a packet filter or an access list is a list of rules.  The
first rule that has anything of the request decides it, and it has to have all
of it.  Requests are sets of points `α → Prop`, what is asked for is a `β`.
-/

namespace RiscvMonitor.FirstMatch

variable {α β : Type*}

structure Rule (α β : Type*) where
  covers : α → Prop
  grants : β → Prop

def Rule.Touches (r : Rule α β) (S : α → Prop) : Prop := ∃ a, S a ∧ r.covers a

def Rule.Contains (r : Rule α β) (S : α → Prop) : Prop := ∀ a, S a → r.covers a

/-- The request `S` for `b` is granted by the first rule that touches it. -/
def Granted : List (Rule α β) → (α → Prop) → β → Prop
  | [], _, _ => False
  | r :: rs, S, b =>
    (r.Touches S ∧ r.Contains S ∧ r.grants b) ∨ (¬ r.Touches S ∧ Granted rs S b)

@[simp] theorem granted_nil (S : α → Prop) (b : β) : ¬ Granted ([] : List (Rule α β)) S b :=
  id

variable {l₁ l₂ : List (Rule α β)} {S : α → Prop} {b : β}

theorem granted_append_of_not_touches (h : ∀ r ∈ l₁, ¬ r.Touches S) :
    Granted (l₁ ++ l₂) S b ↔ Granted l₂ S b := by
  induction l₁ with
  | nil => rfl
  | cons r rs ih =>
    have hr : ¬ r.Touches S := h r List.mem_cons_self
    have hrs := ih fun q hq => h q (List.mem_cons_of_mem r hq)
    simp only [List.cons_append, Granted, hr, false_and, false_or, not_false_eq_true,
      true_and]
    exact hrs

variable {l : List (Rule α β)}

/-- The rule that decides, with everything before it out of the way. -/
theorem granted_iff_exists_split :
    Granted l S b ↔ ∃ pre r post, l = pre ++ r :: post ∧ (∀ q ∈ pre, ¬ q.Touches S) ∧
      r.Touches S ∧ r.Contains S ∧ r.grants b := by
  induction l with
  | nil => simp
  | cons r rs ih =>
    constructor
    · rintro (⟨ht, hc, hg⟩ | ⟨ht, hrest⟩)
      · exact ⟨[], r, rs, rfl, by simp, ht, hc, hg⟩
      · obtain ⟨pre, q, post, rfl, hpre, hq⟩ := ih.mp hrest
        refine ⟨r :: pre, q, post, rfl, ?_, hq⟩
        intro p hp
        rcases List.mem_cons.mp hp with rfl | hp
        · exact ht
        · exact hpre p hp
    · rintro ⟨pre, q, post, heq, hpre, ht, hc, hg⟩
      rw [heq, granted_append_of_not_touches hpre]
      exact .inl ⟨ht, hc, hg⟩

theorem granted_append_of_deny (hdeny : ∀ r ∈ l₁, r.Touches S → ¬ r.grants b) :
    Granted (l₁ ++ l₂) S b ↔ (∀ r ∈ l₁, ¬ r.Touches S) ∧ Granted l₂ S b := by
  constructor
  · intro h
    have huntouched : ∀ r ∈ l₁, ¬ r.Touches S := by
      induction l₁ with
      | nil => simp
      | cons r rs ih =>
        rcases h with ⟨ht, -, hg⟩ | ⟨ht, hrest⟩
        · exact absurd hg (hdeny r List.mem_cons_self ht)
        · intro q hq
          rcases List.mem_cons.mp hq with rfl | hq
          · exact ht
          · exact ih (fun p hp => hdeny p (List.mem_cons_of_mem r hp)) hrest q hq
    exact ⟨huntouched, (granted_append_of_not_touches huntouched).mp h⟩
  · rintro ⟨huntouched, h⟩
    exact (granted_append_of_not_touches huntouched).mpr h

theorem granted_append_of_empty (hempty : ∀ r ∈ l₂, ¬ r.Touches S) :
    Granted (l₁ ++ l₂) S b ↔ Granted l₁ S b := by
  induction l₁ with
  | nil =>
    have h := @granted_append_of_not_touches _ _ l₂ [] S b hempty
    rw [List.append_nil] at h
    exact h
  | cons r rs ih => simp only [List.cons_append, Granted, ih]

/-! ### Rules by number -/

theorem granted_concat {r : Rule α β} :
    Granted (l ++ [r]) S b ↔ Granted l S b ∨
      ((∀ q ∈ l, ¬ q.Touches S) ∧ r.Touches S ∧ r.Contains S ∧ r.grants b) := by
  induction l with
  | nil => simp [Granted]
  | cons q l ih =>
    simp only [List.cons_append, Granted, ih, List.forall_mem_cons]
    by_cases hq : q.Touches S <;> simp [hq]

theorem granted_map_range {n : Nat} {f : Nat → Rule α β} :
    Granted ((List.range n).map f) S b ↔ ∃ i < n, (∀ j < i, ¬ (f j).Touches S) ∧
      (f i).Touches S ∧ (f i).Contains S ∧ (f i).grants b := by
  induction n with
  | zero => simp
  | succ n ih =>
    rw [List.range_succ, List.map_append, List.map_singleton, granted_concat, ih]
    simp only [List.forall_mem_map, List.mem_range]
    constructor
    · rintro (⟨i, hi, h⟩ | h)
      · exact ⟨i, Nat.lt_succ_of_lt hi, h⟩
      · exact ⟨n, Nat.lt_succ_self n, h⟩
    · rintro ⟨i, hi, h⟩
      rcases Nat.lt_succ_iff_lt_or_eq.mp hi with hlt | rfl
      · exact .inl ⟨i, hlt, h⟩
      · exact .inr h

/-- A point that a denying rule covers is out of reach, unless an earlier rule
    grants it. -/
theorem not_granted_of_covers {n i : Nat} {f : Nat → Rule α β} {a : α} (ha : S a) (hi : i < n)
    (hcov : (f i).covers a) (hdeny : ¬ (f i).grants b)
    (hearlier : ∀ j < i, (f j).covers a → ¬ (f j).grants b) :
    ¬ Granted ((List.range n).map f) S b := by
  rw [granted_map_range]
  rintro ⟨k, -, huntouched, -, hcontains, hgrants⟩
  rcases Nat.lt_trichotomy k i with hlt | rfl | hgt
  · exact hearlier k hlt (hcontains a ha) hgrants
  · exact hdeny hgrants
  · exact huntouched i hgt ⟨a, ha, hcov⟩

theorem Granted.exists_rule (h : Granted l S b) : ∃ r ∈ l, r.Contains S ∧ r.grants b := by
  obtain ⟨pre, r, post, rfl, -, -, hc, hg⟩ := granted_iff_exists_split.mp h
  exact ⟨r, by simp, hc, hg⟩

end RiscvMonitor.FirstMatch
