import Mathlib.Data.List.Induction

/-!
# The best of a list, in one scan

A scan looks at the elements in turn, passes over those that are no candidates, and
keeps the one it has found until it meets a better one.  Where the candidates are
ordered, what it ends with is better than all the others.
-/

namespace RiscvMonitor.Scan

variable {α : Type*} {cand : α → Bool} {better : α → α → Bool}

/-- What a scan has found, after one more element. -/
def look (cand : α → Bool) (better : α → α → Bool) (found : Option α) (a : α) : Option α :=
  if cand a then
    match found with
    | none => some a
    | some b => if better a b then some a else found
  else found

def best (cand : α → Bool) (better : α → α → Bool) (l : List α) : Option α :=
  l.foldl (look cand better) none

theorem best_concat (l : List α) (a : α) :
    best cand better (l ++ [a]) = look cand better (best cand better l) a := by
  rw [best, List.foldl_append]
  rfl

/-- The element is passed over, or it is kept: the first, or the better one. -/
theorem look_cases (cand : α → Bool) (better : α → α → Bool) (found : Option α) (a : α) :
    (look cand better found a = found ∧
      (cand a = false ∨ ∃ b, found = some b ∧ better a b = false)) ∨
    (look cand better found a = some a ∧ cand a = true ∧
      ∀ b, found = some b → better a b = true) := by
  cases hcand : cand a with
  | false => exact .inl ⟨by simp [look, hcand], .inl rfl⟩
  | true =>
    cases found with
    | none => exact .inr ⟨by simp [look, hcand], rfl, nofun⟩
    | some b =>
      cases hbetter : better a b with
      | false => exact .inl ⟨by simp [look, hcand, hbetter], .inr ⟨b, rfl, hbetter⟩⟩
      | true =>
        refine .inr ⟨by simp [look, hcand, hbetter], rfl, ?_⟩
        rintro _ ⟨⟩
        exact hbetter

theorem best_eq_none {l : List α} (hnone : best cand better l = none) :
    ∀ a ∈ l, cand a = false := by
  induction l using List.reverseRecOn with
  | nil => exact fun a ha => absurd ha List.not_mem_nil
  | append_singleton l b ih =>
    rw [best_concat] at hnone
    rcases look_cases cand better (best cand better l) b with ⟨heq, hpassed⟩ | ⟨heq, -⟩
    · rw [heq] at hnone
      intro a ha
      rcases List.mem_append.mp ha with ha | ha
      · exact ih hnone a ha
      · rw [List.mem_singleton.mp ha]
        rcases hpassed with hb | ⟨c, hc, -⟩
        · exact hb
        · cases hnone.symm.trans hc
    · cases heq.symm.trans hnone

theorem best_mem {l : List α} {r : α} (hbest : best cand better l = some r) :
    r ∈ l ∧ cand r = true := by
  induction l using List.reverseRecOn with
  | nil => cases hbest
  | append_singleton l b ih =>
    rw [best_concat] at hbest
    rcases look_cases cand better (best cand better l) b with ⟨heq, -⟩ | ⟨heq, hb, -⟩
    · obtain ⟨hmem, hcand⟩ := ih (heq.symm.trans hbest)
      exact ⟨List.mem_append_left _ hmem, hcand⟩
    · cases heq.symm.trans hbest
      exact ⟨List.mem_append_right _ (List.mem_singleton_self _), hb⟩

/-- The scan depends on the elements of the list only. -/
theorem best_congr {cand' : α → Bool} {better' : α → α → Bool} {l : List α}
    (hcand : ∀ a ∈ l, cand a = cand' a) (hbetter : ∀ a ∈ l, ∀ b ∈ l, better a b = better' a b) :
    best cand better l = best cand' better' l := by
  induction l using List.reverseRecOn with
  | nil => rfl
  | append_singleton l b ih =>
    have hl : ∀ {a}, a ∈ l → a ∈ l ++ [b] := fun ha => List.mem_append_left _ ha
    have hb : b ∈ l ++ [b] := List.mem_append_right _ (List.mem_singleton_self b)
    rw [best_concat, best_concat,
      ← ih (fun a ha => hcand a (hl ha)) fun a ha c hc => hbetter a (hl ha) c (hl hc)]
    cases hold : best cand better l with
    | none => simp [look, hcand b hb]
    | some c => simp [look, hcand b hb, hbetter b hb c (hl (best_mem hold).1)]

/-- Among ordered candidates the one found is better than all the others. -/
theorem best_better (htrans : ∀ a b c, better a b = true → better b c = true → better a c = true)
    {l : List α} (htotal : ∀ a ∈ l, ∀ b ∈ l, cand a = true → cand b = true →
      a = b ∨ better a b = true ∨ better b a = true)
    {r : α} (hbest : best cand better l = some r) :
    ∀ a ∈ l, cand a = true → a = r ∨ better r a = true := by
  induction l using List.reverseRecOn generalizing r with
  | nil => exact fun a ha => absurd ha List.not_mem_nil
  | append_singleton l b ih =>
    have hl : ∀ {a}, a ∈ l → a ∈ l ++ [b] := fun ha => List.mem_append_left _ ha
    have hb : b ∈ l ++ [b] := List.mem_append_right _ (List.mem_singleton_self b)
    have hbefore := fun r => ih (r := r) fun a ha c hc => htotal a (hl ha) c (hl hc)
    rw [best_concat] at hbest
    intro a ha hcand
    rw [List.mem_append, List.mem_singleton] at ha
    rcases look_cases cand better (best cand better l) b with ⟨heq, hpassed⟩ | ⟨heq, -, hkept⟩
    · have hfound := heq.symm.trans hbest
      rcases ha with ha | rfl
      · exact hbefore r hfound a ha hcand
      · rcases hpassed with hno | ⟨c, hc, hworse⟩
        · exact absurd (hno.symm.trans hcand) Bool.false_ne_true
        · cases hc.symm.trans hfound
          have hr := best_mem hfound
          rcases htotal a hb r (hl hr.1) hcand hr.2 with heqr | har | hra
          · exact .inl heqr
          · exact absurd (hworse.symm.trans har) Bool.false_ne_true
          · exact .inr hra
    · cases heq.symm.trans hbest
      rcases ha with ha | ha
      · cases hold : best cand better l with
        | none => exact absurd ((best_eq_none hold a ha).symm.trans hcand) Bool.false_ne_true
        | some c =>
          have hbc := hkept c hold
          rcases hbefore c hold a ha hcand with rfl | hca
          · exact .inr hbc
          · exact .inr (htrans _ _ _ hbc hca)
      · exact .inl ha

end RiscvMonitor.Scan
