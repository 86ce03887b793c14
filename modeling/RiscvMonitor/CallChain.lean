import Mathlib.Data.List.Nodup
import Mathlib.Logic.Function.Basic

/-!
# Chains of callers

Coroutines that call each other: one of them runs, others wait, and each has a link
to its caller.  The calls are in order when following the links from the one that
runs, as far as they lead to one that waits, ends and has everyone who waits.
-/

namespace RiscvMonitor.CallChain

variable {α : Type*} {waits waits' : α → Prop} {caller caller' : α → Option α}

/-- The callers of `a`, nearest first, up to where nobody waits. -/
inductive Chain (waits : α → Prop) (caller : α → Option α) : α → List α → Prop
  | done {a : α} (hend : ∀ c, caller a = some c → ¬ waits c) : Chain waits caller a []
  | link {a c : α} {l : List α} (hcaller : caller a = some c) (hwaits : waits c)
      (hrest : Chain waits caller c l) : Chain waits caller a (c :: l)

/-- Everyone who waits is on the chain of the one that runs. -/
def InOrder (waits : α → Prop) (caller : α → Option α) (cur : α) : Prop :=
  ∃ l, Chain waits caller cur l ∧ ∀ a, waits a → a ∈ l

variable {a b : α} {l : List α}

theorem Chain.waits_of_mem (h : Chain waits caller a l) (hb : b ∈ l) :
    waits b := by
  induction h with
  | done _ => exact absurd hb List.not_mem_nil
  | link _ hwaits _ ih =>
    rcases List.mem_cons.mp hb with rfl | hb
    · exact hwaits
    · exact ih hb

theorem Chain.unique {l' : List α} (h : Chain waits caller a l) (h' : Chain waits caller a l') :
    l = l' := by
  induction h generalizing l' with
  | done hend =>
    cases h' with
    | done _ => rfl
    | link hcaller hwaits _ => exact absurd hwaits (hend _ hcaller)
  | link hcaller hwaits _ ih =>
    cases h' with
    | done hend => exact absurd hwaits (hend _ hcaller)
    | link hcaller' _ hrest' =>
      rw [hcaller] at hcaller'
      cases hcaller'
      rw [ih hrest']

theorem Chain.after_of_mem (h : Chain waits caller a l) (hb : b ∈ l) :
    ∃ l₁ l₂, l = l₁ ++ b :: l₂ ∧ Chain waits caller b l₂ := by
  induction h with
  | done _ => exact absurd hb List.not_mem_nil
  | @link a c l _ _ hrest ih =>
    rcases List.mem_cons.mp hb with rfl | hb
    · exact ⟨[], l, rfl, hrest⟩
    · obtain ⟨l₁, l₂, rfl, htail⟩ := ih hb
      exact ⟨c :: l₁, l₂, rfl, htail⟩

theorem Chain.not_mem (h : Chain waits caller a l) : a ∉ l := by
  intro hmem
  obtain ⟨l₁, l₂, heq, htail⟩ := h.after_of_mem hmem
  -- the chain of `a` would be longer than itself
  have hlen := congrArg List.length (h.unique htail)
  rw [heq] at hlen
  simp only [List.length_append, List.length_cons] at hlen
  omega

theorem Chain.nodup (h : Chain waits caller a l) : l.Nodup := by
  induction h with
  | done _ => exact List.nodup_nil
  | link _ _ hrest ih => exact List.nodup_cons.mpr ⟨hrest.not_mem, ih⟩

theorem Chain.caller_mem {c : α} (h : Chain waits caller a l) (hb : b = a ∨ b ∈ l)
    (hcaller : caller b = some c) (hwaits : waits c) : c ∈ l := by
  have hnext : ∀ {d : α} {m : List α}, Chain waits caller d m → caller d = some c → c ∈ m := by
    intro d m hd hdc
    cases hd with
    | done hend => exact absurd hwaits (hend c hdc)
    | link hcaller' _ _ =>
      rw [hdc] at hcaller'
      cases hcaller'
      exact List.mem_cons_self
  rcases hb with rfl | hb
  · exact hnext h hcaller
  · obtain ⟨l₁, l₂, rfl, htail⟩ := h.after_of_mem hb
    have hmem := hnext htail hcaller
    exact List.mem_append_right _ (List.mem_cons_of_mem _ hmem)

theorem Chain.congr (h : Chain waits caller a l)
    (hsame : ∀ b, b = a ∨ b ∈ l → caller' b = caller b ∧
      ∀ c, caller b = some c → (waits' c ↔ waits c)) : Chain waits' caller' a l := by
  induction h with
  | @done a hend =>
    obtain ⟨heq, hiff⟩ := hsame a (.inl rfl)
    refine Chain.done ?_
    intro c hc hw
    rw [heq] at hc
    exact hend c hc ((hiff c hc).mp hw)
  | @link a c l hcaller hwaits _ ih =>
    obtain ⟨heq, hiff⟩ := hsame a (.inl rfl)
    refine Chain.link (heq.trans hcaller) ((hiff c hcaller).mpr hwaits) (ih ?_)
    intro b hb
    refine hsame b (.inr ?_)
    rcases hb with rfl | hb
    · exact List.mem_cons_self
    · exact List.mem_cons_of_mem _ hb

/-! ### Calls, returns and drops -/

variable {cur : α}

/-- The one that runs calls another, and waits.  Nobody who waits may have it for
    a caller already: the chain would come back to it. -/
theorem InOrder.call {callee : α} (h : InOrder waits caller cur) (hcallee : ¬ waits callee)
    (hne : callee ≠ cur) (hself : caller cur ≠ some cur)
    (hfree : ∀ a, waits a → caller a ≠ some cur) (hwaits : ∀ a, waits' a ↔ a = cur ∨ waits a)
    (hcaller : ∀ a, a ≠ callee → caller' a = caller a) (hlink : caller' callee = some cur) :
    InOrder waits' caller' callee := by
  obtain ⟨l, hchain, hall⟩ := h
  refine ⟨cur :: l, Chain.link hlink ((hwaits cur).mpr (.inl rfl)) ?_, ?_⟩
  · refine hchain.congr ?_
    intro b hb
    have hbne : b ≠ callee := by
      rintro rfl
      rcases hb with hb | hb
      · exact hne hb
      · exact hcallee (hchain.waits_of_mem hb)
    refine ⟨hcaller b hbne, ?_⟩
    intro c hc
    have hccur : c ≠ cur := by
      rintro rfl
      rcases hb with rfl | hb
      · exact hself hc
      · exact hfree b (hchain.waits_of_mem hb) hc
    rw [hwaits c, or_iff_right hccur]
  · intro a ha
    rcases (hwaits a).mp ha with rfl | ha
    · exact List.mem_cons_self
    · exact List.mem_cons_of_mem _ (hall a ha)

theorem InOrder.ret {c : α} (h : InOrder waits caller cur) (hcur : ¬ waits cur)
    (hlink : caller cur = some c) (hwaiting : waits c) (hwaits : ∀ a, waits' a ↔ waits a ∧ a ≠ c)
    (hcaller : ∀ a, a ≠ cur → caller' a = caller a) : InOrder waits' caller' c := by
  obtain ⟨l, hchain, hall⟩ := h
  have hnodup := hchain.nodup
  cases hchain with
  | done hend => exact absurd hwaiting (hend c hlink)
  | @link _ c' l hlink' _ hrest =>
    rw [hlink] at hlink'
    cases hlink'
    have hnotin : c ∉ l := (List.nodup_cons.mp hnodup).1
    refine ⟨l, hrest.congr ?_, ?_⟩
    · intro b hb
      have hbcur : b ≠ cur := by
        rintro rfl
        rcases hb with rfl | hb
        · exact hcur hwaiting
        · exact hcur (hrest.waits_of_mem hb)
      refine ⟨hcaller b hbcur, ?_⟩
      intro d hd
      rw [hwaits d, and_iff_left_of_imp]
      rintro hdw rfl
      exact hnotin (hrest.caller_mem hb hd hdw)
    · intro a ha
      obtain ⟨haw, hac⟩ := (hwaits a).mp ha
      exact (List.mem_cons.mp (hall a haw)).resolve_left hac

theorem InOrder.none_waits (h : InOrder waits caller cur)
    (hnone : ∀ c, caller cur = some c → ¬ waits c) (a : α) : ¬ waits a := by
  obtain ⟨l, hchain, hall⟩ := h
  intro ha
  cases hchain with
  | done _ => exact absurd (hall a ha) List.not_mem_nil
  | link hlink hwaiting _ => exact hnone _ hlink hwaiting

theorem inOrder_of_none_waits (cur : α) (hnone : ∀ a, ¬ waits a) : InOrder waits caller cur :=
  ⟨[], Chain.done fun c _ => hnone c, fun a ha => absurd ha (hnone a)⟩

theorem InOrder.congr (h : InOrder waits caller cur) (hwaits : ∀ a, waits' a ↔ waits a)
    (hcaller : ∀ a, a = cur ∨ waits a → caller' a = caller a) : InOrder waits' caller' cur := by
  obtain ⟨l, hchain, hall⟩ := h
  refine ⟨l, hchain.congr ?_, fun a ha => hall a ((hwaits a).mp ha)⟩
  intro b hb
  refine ⟨hcaller b ?_, fun c _ => hwaits c⟩
  exact hb.imp_right hchain.waits_of_mem

theorem InOrder.drop {d : α} (h : InOrder waits caller cur) (hcur : d ≠ cur)
    (hlast : ∀ c, caller d = some c → ¬ waits c) (hwaits : ∀ a, waits' a ↔ waits a ∧ a ≠ d)
    (hcaller : ∀ a, a ≠ d → caller' a = caller a) : InOrder waits' caller' cur := by
  obtain ⟨l, hchain, hall⟩ := h
  have hgoal : ∃ m, Chain waits' caller' cur m ∧ ∀ a ∈ l, a ≠ d → a ∈ m := by
    clear hall
    induction hchain with
    | @done a hend =>
      refine ⟨[], Chain.done ?_, fun _ h => absurd h List.not_mem_nil⟩
      intro c hc hw
      rw [hcaller a hcur.symm] at hc
      exact hend c hc ((hwaits c).mp hw).1
    | @link a c l hlink hwaiting hrest ih =>
      have hlink' := (hcaller a hcur.symm).trans hlink
      by_cases hcd : c = d
      · -- the end of the chain: what is left ends one earlier
        subst hcd
        have hnil : l = [] := by
          cases hrest with
          | done _ => rfl
          | link hnext hnw _ => exact absurd hnw (hlast _ hnext)
        subst hnil
        refine ⟨[], Chain.done ?_, fun b hb hbd => absurd (List.mem_singleton.mp hb) hbd⟩
        intro e he hw
        rw [hlink'] at he
        cases he
        exact ((hwaits c).mp hw).2 rfl
      · obtain ⟨m, hm, hsub⟩ := ih (Ne.symm hcd)
        refine ⟨c :: m, Chain.link hlink' ((hwaits c).mpr ⟨hwaiting, hcd⟩) hm, ?_⟩
        intro b hb hbd
        rcases List.mem_cons.mp hb with rfl | hb
        · exact List.mem_cons_self
        · exact List.mem_cons_of_mem _ (hsub b hb hbd)
  obtain ⟨m, hm, hsub⟩ := hgoal
  refine ⟨m, hm, ?_⟩
  intro a ha
  obtain ⟨haw, had⟩ := (hwaits a).mp ha
  exact hsub a (hall a haw) had

end RiscvMonitor.CallChain
