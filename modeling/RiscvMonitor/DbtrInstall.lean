import RiscvMonitor.Dbtr

/-!
# Installing triggers, all or nothing

`dbtr_install()` looks for a run of free triggers for each chain, then programs
them one after the other.  If the hardware refuses one, those that were taken are
cleared, and that brings the registers back only where clearing them does.
-/

namespace RiscvMonitor.Dbtr

open Function (update_of_ne update_self)
open Masks

variable {x : Xlen}

/-! ### Where the configurations go -/

section Place

variable {d : DbtrHart x} {mem : Nat → Entry x} {taken : Nat → Bool} {spot : Nat → Nat}

theorem findRun_le {first len start : Nat} (hfind : findRun d mem first len taken = some start) :
    start + len ≤ d.count := by
  have hfits := List.find?_some hfind
  simp only [Bool.and_eq_true, decide_eq_true_eq] at hfits
  exact hfits.1

theorem findRun_spec {first len start : Nat} (hfind : findRun d mem first len taken = some start)
    {i : Nat} (hi : i < len) :
    d.mapped (start + i) = false ∧ taken (start + i) = false ∧
      (d.types (start + i)).getLsbD (tdata1Type (mem (first + i)).tdata1) = true := by
  have hfits := List.find?_some hfind
  simp only [Bool.and_eq_true, List.all_eq_true, List.mem_range, Bool.not_eq_true'] at hfits
  obtain ⟨⟨hmapped, htaken⟩, htype⟩ := hfits.2 i hi
  exact ⟨hmapped, htaken, htype⟩

theorem chainLength_le (mem : Nat → Entry x) (n i : Nat) : chainLength mem n i ≤ n := by
  induction n generalizing i with
  | zero => exact Nat.le_refl 0
  | succ n ih =>
    rw [chainLength]
    split
    · exact Nat.succ_le_succ (ih (i + 1))
    · exact Nat.succ_le_succ (Nat.zero_le n)

theorem chainLength_pos (mem : Nat → Entry x) {n : Nat} (hn : 0 < n) (i : Nat) :
    0 < chainLength mem n i := by
  cases n with
  | zero => exact absurd hn (Nat.lt_irrefl 0)
  | succ n =>
    rw [chainLength]
    split <;> exact Nat.succ_pos _

theorem chainLength_last (mem : Nat → Entry x) {n i k : Nat} (hk : k + 1 = chainLength mem n i)
    (hlt : chainLength mem n i < n) : chained (mem (i + k)).tdata1 = false := by
  induction n generalizing i k with
  | zero => exact absurd hlt (Nat.not_lt_zero _)
  | succ n ih =>
    rw [chainLength] at hk hlt
    split at hk
    · next hchained =>
      rw [if_pos hchained] at hlt
      have hpos : 0 < n := by omega
      obtain ⟨k, rfl⟩ : ∃ j, k = j + 1 := by
        have := chainLength_pos mem hpos (i + 1)
        exact ⟨k - 1, by omega⟩
      have hlast := ih (i := i + 1) (k := k) (by omega) (by omega)
      rwa [Nat.add_right_comm, Nat.add_assoc] at hlast
    · next hlast =>
      obtain rfl : k = 0 := by omega
      rwa [Bool.not_eq_true] at hlast

/-- The first `n` configurations have their triggers. -/
structure Placed (d : DbtrHart x) (mem : Nat → Entry x) (n : Nat) (spot : Nat → Nat) : Prop where
  lt : ∀ k < n, spot k < d.count
  free : ∀ k < n, d.mapped (spot k) = false
  types : ∀ k < n, (d.types (spot k)).getLsbD (tdata1Type (mem k).tdata1) = true
  injective : ∀ j < n, ∀ k < n, spot j = spot k → j = k
  chains : ∀ k, k + 1 < n → chained (mem k).tdata1 = true → spot (k + 1) = spot k + 1

structure Placing (d : DbtrHart x) (mem : Nat → Entry x) (count i : Nat) (taken : Nat → Bool)
    (spot : Nat → Nat) : Prop extends Placed d mem i spot where
  le : i ≤ count
  taken : ∀ k < i, taken (spot k) = true
  ends : ∀ k, k + 1 = i → i < count → chained (mem k).tdata1 = false

theorem Placing.chain {count i start : Nat} (h : Placing d mem count i taken spot)
    (hi : i < count) (hfind : findRun d mem i (chainLength mem (count - i) i) taken = some start) :
    let len := chainLength mem (count - i) i
    Placing d mem count (i + len)
      (fun k => taken k || (decide (start ≤ k) && decide (k < start + len)))
      (fun k => if i ≤ k ∧ k < i + len then start + (k - i) else spot k) := by
  intro len
  have hle : len ≤ count - i := chainLength_le mem _ i
  have hfits : start + len ≤ d.count := findRun_le hfind
  have hspec : ∀ j < len, _ := fun j hj => findRun_spec hfind hj
  set new : Nat → Nat := fun k => if i ≤ k ∧ k < i + len then start + (k - i) else spot k
  have hold : ∀ k < i, new k = spot k := fun k hk => if_neg (by omega)
  have hnew : ∀ m < len, new (i + m) = start + m := by
    intro m hm
    have hin : i ≤ i + m ∧ i + m < i + len := by omega
    exact (if_pos hin).trans (by rw [Nat.add_sub_cancel_left])
  have hcases : ∀ k < i + len, (k < i ∧ new k = spot k) ∨
      ∃ m < len, k = i + m ∧ new k = start + m := by
    intro k hk
    by_cases hki : k < i
    · exact .inl ⟨hki, hold k hki⟩
    · obtain ⟨m, rfl⟩ := Nat.exists_eq_add_of_le (Nat.le_of_not_lt hki)
      have hm : m < len := by omega
      exact .inr ⟨m, hm, rfl, hnew m hm⟩
  -- a trigger of an earlier chain is taken, one of the run is not
  have hapart : ∀ j < i, ∀ m < len, spot j ≠ start + m := by
    intro j hj m hm heq
    have htaken := h.taken j hj
    rw [heq, (hspec m hm).2.1] at htaken
    cases htaken
  have hcount : i + len ≤ count := by omega
  refine ⟨⟨?_, ?_, ?_, ?_, ?_⟩, hcount, ?_, ?_⟩
  · intro k hk
    rcases hcases k hk with ⟨hki, heq⟩ | ⟨m, hm, -, heq⟩
    · exact heq ▸ h.lt k hki
    · omega
  · intro k hk
    rcases hcases k hk with ⟨hki, heq⟩ | ⟨m, hm, -, heq⟩
    · exact heq ▸ h.free k hki
    · exact heq ▸ (hspec m hm).1
  · intro k hk
    rcases hcases k hk with ⟨hki, heq⟩ | ⟨m, hm, rfl, heq⟩
    · exact heq ▸ h.types k hki
    · exact heq ▸ (hspec m hm).2.2
  · intro j hj k hk heq
    rcases hcases j hj with ⟨hji, hjeq⟩ | ⟨m, hm, rfl, hjeq⟩
    · rcases hcases k hk with ⟨hki, hkeq⟩ | ⟨n, hn, rfl, hkeq⟩
      · exact h.injective j hji k hki (hjeq.symm.trans (heq.trans hkeq))
      · exact absurd (hjeq.symm.trans (heq.trans hkeq)) (hapart j hji n hn)
    · rcases hcases k hk with ⟨hki, hkeq⟩ | ⟨n, hn, rfl, hkeq⟩
      · exact absurd (hkeq.symm.trans (heq.symm.trans hjeq)) (hapart k hki m hm)
      · omega
  · intro k hk hchained
    by_cases hki : i ≤ k
    · obtain ⟨m, rfl⟩ := Nat.exists_eq_add_of_le hki
      rw [Nat.add_assoc, hnew m (by omega), hnew (m + 1) (by omega), Nat.add_assoc]
    · by_cases hnext : k + 1 < i
      · rw [hold k (by omega), hold (k + 1) hnext]
        exact h.chains k hnext hchained
      · have hend := h.ends k (by omega) hi
        rw [hend] at hchained
        cases hchained
  · intro k hk
    rcases hcases k hk with ⟨hki, heq⟩ | ⟨m, hm, -, heq⟩
    · rw [heq, h.taken k hki, Bool.true_or]
    · simp only [heq, Bool.or_eq_true, Bool.and_eq_true, decide_eq_true_eq]
      exact .inr ⟨by omega, by omega⟩
  · intro k hk hlt
    have hpos : 0 < len := chainLength_pos mem (by omega) i
    have hlast := chainLength_last mem (n := count - i) (i := i) (k := k - i)
      (by omega) (by omega)
    rwa [Nat.add_sub_cancel' (by omega)] at hlast

theorem Placing.place {count n i : Nat} {spot' : Nat → Nat}
    (h : Placing d mem count i taken spot) (hn : count ≤ i + n)
    (hplace : place d mem count n i taken spot = .ok spot') : Placed d mem count spot' := by
  induction n generalizing i taken spot with
  | zero =>
    cases hplace
    obtain rfl : i = count := Nat.le_antisymm h.le hn
    exact h.toPlaced
  | succ n ih =>
    rw [Dbtr.place] at hplace
    split at hplace
    · next hi =>
      cases hplace
      obtain rfl : i = count := Nat.le_antisymm h.le hi
      exact h.toPlaced
    · next hi =>
      dsimp only at hplace
      split at hplace
      · cases hplace
      · next start hfind =>
        have hpos := chainLength_pos mem (n := count - i) (by omega) i
        exact ih (h.chain (by omega) hfind) (by omega) hplace

theorem place_placed {count : Nat}
    (hplace : place d mem count count 0 (fun _ => false) (fun _ => 0) = .ok spot) :
    Placed d mem count spot := by
  have hstart : Placing d mem count 0 (fun _ => false) (fun _ => 0) :=
    { lt := nofun, free := nofun, types := nofun, injective := nofun, chains := nofun
      le := Nat.zero_le _, taken := nofun, ends := nofun }
  exact hstart.place (by omega) hplace

end Place

/-! ### Programming them -/

section Program

variable (hw : Hardware x) (mem : Nat → Entry x) (spot : Nat → Nat) (b : Hart x)

def programmed (j : Nat) : Trigger x × Bool :=
  hwProgram hw b.d.hasTdata3 (spot j) (mem j) (b.trigger (spot j))

def taken : Nat → Hart x
  | 0 => b
  | n + 1 =>
    ((taken n).setTrigger (spot n) (programmed hw mem spot b n).1).setState (spot n)
      (stateOf (spot n) (mem n).tdata1)

variable {hw mem spot b}

@[simp]
theorem taken_hasTdata3 (n : Nat) : (taken hw mem spot b n).d.hasTdata3 = b.d.hasTdata3 := by
  induction n with
  | zero => rfl
  | succ n ih => exact ih

theorem taken_record (n : Nat) :
    (taken hw mem spot b n).d = { b.d with state := (taken hw mem spot b n).d.state } := by
  induction n with
  | zero => rfl
  | succ n ih =>
    simp only [taken, Hart.setState, Hart.setTrigger]
    rw [ih]

variable (hw mem b) in
theorem taken_of_ne {n p : Nat} (hp : ∀ j < n, spot j ≠ p) :
    (taken hw mem spot b n).trigger p = b.trigger p ∧
      (taken hw mem spot b n).d.state p = b.d.state p := by
  induction n with
  | zero => exact ⟨rfl, rfl⟩
  | succ n ih =>
    have hne : p ≠ spot n := (hp n (Nat.lt_succ_self n)).symm
    obtain ⟨htrigger, hstate⟩ := ih fun j hj => hp j (Nat.lt_succ_of_lt hj)
    simp only [taken, Hart.setState, Hart.setTrigger, update_of_ne hne]
    exact ⟨htrigger, hstate⟩

theorem taken_spot {n j : Nat} (hj : j < n)
    (hinj : ∀ i < n, ∀ k < n, spot i = spot k → i = k) :
    (taken hw mem spot b n).trigger (spot j) = (programmed hw mem spot b j).1 ∧
      (taken hw mem spot b n).d.state (spot j) = stateOf (spot j) (mem j).tdata1 := by
  induction n with
  | zero => exact absurd hj (Nat.not_lt_zero j)
  | succ n ih =>
    by_cases hjn : j = n
    · subst hjn
      simp only [taken, Hart.setState, Hart.setTrigger, update_self, and_self]
    · have hne : spot j ≠ spot n := fun heq => hjn (hinj j hj n (Nat.lt_succ_self n) heq)
      simp only [taken, Hart.setState, Hart.setTrigger, update_of_ne hne]
      exact ih (by omega) fun i hi k hk => hinj i (by omega) k (by omega)

theorem taken_next {n k : Nat} (hk : k < n)
    (hinj : ∀ i < n, ∀ j < n, spot i = spot j → i = j) :
    (taken hw mem spot b k).trigger (spot k) = b.trigger (spot k) ∧
      (taken hw mem spot b k).d.state (spot k) = b.d.state (spot k) := by
  exact taken_of_ne hw mem b fun j hj heq => hj.ne (hinj j (by omega) k hk heq)

theorem programmed_taken {n k : Nat} (hk : k < n)
    (hinj : ∀ i < n, ∀ j < n, spot i = spot j → i = j) :
    hwProgram hw (taken hw mem spot b k).d.hasTdata3 (spot k) (mem k)
      ((taken hw mem spot b k).trigger (spot k)) = programmed hw mem spot b k := by
  rw [taken_hasTdata3, (taken_next hk hinj).1, programmed]

variable (hw mem b) in
theorem programAll_cases {n i : Nat}
    (hinj : ∀ j < i + n, ∀ k < i + n, spot j = spot k → j = k) :
    ((∀ j, i ≤ j → j < i + n → (programmed hw mem spot b j).2 = true) ∧
        programAll hw mem spot n i (taken hw mem spot b i) =
          (taken hw mem spot b (i + n), none)) ∨
      ∃ k, i ≤ k ∧ k < i + n ∧ (∀ j, i ≤ j → j < k → (programmed hw mem spot b j).2 = true) ∧
        (programmed hw mem spot b k).2 = false ∧
        programAll hw mem spot n i (taken hw mem spot b i) =
          (giveBack hw spot k
            ((taken hw mem spot b k).setTrigger (spot k) (programmed hw mem spot b k).1),
            some k) := by
  induction n generalizing i with
  | zero => exact .inl ⟨fun j hij hj => by omega, rfl⟩
  | succ n ih =>
    rw [programAll, programmed_taken (n := i + (n + 1)) (by omega) hinj]
    cases htook : (programmed hw mem spot b i).2 with
    | false =>
      refine .inr ⟨i, Nat.le_refl i, by omega, fun j hij hj => by omega, htook, ?_⟩
      rw [if_neg Bool.false_ne_true]
    | true =>
      rw [if_pos rfl]
      have hnext : ((taken hw mem spot b i).setTrigger (spot i)
          (programmed hw mem spot b i).1).setState (spot i) (stateOf (spot i) (mem i).tdata1) =
          taken hw mem spot b (i + 1) := rfl
      rw [hnext]
      have htooks : ∀ j, i ≤ j → (i + 1 ≤ j → (programmed hw mem spot b j).2 = true) →
          (programmed hw mem spot b j).2 = true := by
        intro j hij hlater
        by_cases heq : j = i
        · exact heq ▸ htook
        · exact hlater (by omega)
      rcases ih (i := i + 1) (fun j hj k hk => hinj j (by omega) k (by omega)) with
        ⟨hall, heq⟩ | ⟨k, hik, hk, hbefore, hrefused, heq⟩
      · refine .inl ⟨fun j hij hj => htooks j hij fun hlt => hall j hlt (by omega), ?_⟩
        rw [heq, Nat.add_right_comm, Nat.add_assoc]
      · refine .inr ⟨k, by omega, by omega, ?_, hrefused, heq⟩
        exact fun j hij hj => htooks j hij fun hlt => hbefore j hlt hj

theorem giveBack_record (k : Nat) (c : Hart x) :
    (giveBack hw spot k c).d = { c.d with state := (giveBack hw spot k c).d.state } := by
  induction k generalizing c with
  | zero => rfl
  | succ k ih =>
    rw [giveBack]
    exact ih _

variable (hw) in
theorem giveBack_of_ne {k p : Nat} (hp : ∀ j < k, spot j ≠ p) (c : Hart x) :
    (giveBack hw spot k c).trigger p = c.trigger p ∧
      (giveBack hw spot k c).d.state p = c.d.state p := by
  induction k generalizing c with
  | zero => exact ⟨rfl, rfl⟩
  | succ k ih =>
    have hne : p ≠ spot k := (hp k (Nat.lt_succ_self k)).symm
    have hrest := ih fun j hj => hp j (Nat.lt_succ_of_lt hj)
    rw [giveBack, (hrest _).1, (hrest _).2]
    exact ⟨update_of_ne hne .., update_of_ne hne ..⟩

variable (hw) in
theorem giveBack_spot {k j : Nat} (hj : j < k)
    (hinj : ∀ i < k, ∀ l < k, spot i = spot l → i = l) (c : Hart x) :
    (giveBack hw spot k c).trigger (spot j) = hwClear hw (spot j) (c.trigger (spot j)) ∧
      (giveBack hw spot k c).d.state (spot j) = 0 := by
  induction k generalizing c with
  | zero => exact absurd hj (Nat.not_lt_zero j)
  | succ k ih =>
    rw [giveBack]
    by_cases hjk : j = k
    · subst hjk
      have hrest := giveBack_of_ne hw fun i hi heq => hi.ne (hinj i (by omega) j hj heq)
      rw [(hrest _).1, (hrest _).2]
      exact ⟨update_self .., update_self ..⟩
    · have hne : spot j ≠ spot k := fun heq => hjk (hinj j hj k (Nat.lt_succ_self k) heq)
      have hrest := ih (by omega) fun i hi l hl => hinj i (by omega) l (by omega)
      rw [(hrest _).1, (hrest _).2]
      exact ⟨congrArg (hwClear hw (spot j)) (update_of_ne hne ..), rfl⟩

end Program

/-! ### All or nothing -/

/-- `r` is what an install of `n` configurations leaves that has succeeded, with these triggers. -/
structure Installed (hw : Hardware x) (b : Hart x) (n : Nat) (mem : Nat → Entry x)
    (r : Hart x × Reply x) (spot : Nat → Nat) : Prop where
  checked : ∀ k < n, configCheck (mem k) = .success
  placed : Placed b.d mem n spot
  state : ∀ k < n, r.1.d.state (spot k) = stateOf (spot k) (mem k).tdata1
  trigger : ∀ k < n, r.1.trigger (spot k) = (programmed hw mem spot b k).1
  took : ∀ k < n, (programmed hw mem spot b k).2 = true
  others : ∀ i, (∀ k < n, spot k ≠ i) →
    r.1.trigger i = b.trigger i ∧ r.1.d.state i = b.d.state i
  record : r.1.d = { b.d with state := r.1.d.state }
  memory : ∀ i, r.2.mem i =
    if i < n then { mem i with idx := BitVec.ofNat x.bits (spot i) } else mem i

/-- What `dbtr_read()` shows of a trigger. -/
def Hart.look (b : Hart x) (i : Nat) : Trigger x :=
  { b.trigger i with tdata3 := if b.d.hasTdata3 then (b.trigger i).tdata3 else 0 }

/-- The state word, and what `dbtr_read()` shows of the registers. -/
def Hart.shown (b : Hart x) (i : Nat) : Word x × Trigger x := (b.d.state i, b.look i)

structure AllOrNothing (hw : Hardware x) (b : Hart x) (count : Word x) (mem : Nat → Entry x) :
    Prop where
  all : (install hw b count mem).2.error = .success →
    ∃ spot, Installed hw b count.toNat mem (install hw b count mem) spot
  nothing : (install hw b count mem).2.error ≠ .success →
    ∀ i < b.d.count, (install hw b count mem).1.shown i = b.shown i

structure Refused (hw : Hardware x) (b : Hart x) (count : Word x) (mem : Nat → Entry x)
    (spot : Nat → Nat) (k : Nat) : Prop where
  entries : entriesGet b.d count = .success
  valid : validate mem count.toNat = none
  place : place b.d mem count.toNat count.toNat 0 (fun _ => false) (fun _ => 0) = .ok spot
  lt : k < count.toNat
  took : ∀ j < k, (programmed hw mem spot b j).2 = true
  refused : (programmed hw mem spot b k).2 = false

def Trigger.shown (hasTdata3 : Bool) (t : Trigger x) : Trigger x :=
  { t with tdata3 := if hasTdata3 then t.tdata3 else 0 }

/-- Clearing the triggers brings the registers back. -/
structure Cleared (hw : Hardware x) (b : Hart x) (mem : Nat → Entry x) (spot : Nat → Nat)
    (k : Nat) : Prop where
  state : ∀ j < k, b.d.state (spot j) = 0
  earlier : ∀ j < k,
    (hwClear hw (spot j) (programmed hw mem spot b j).1).shown b.d.hasTdata3 =
      (b.trigger (spot j)).shown b.d.hasTdata3
  refused : (programmed hw mem spot b k).1.shown b.d.hasTdata3 =
    (b.trigger (spot k)).shown b.d.hasTdata3

section Install

variable {hw : Hardware x} {b : Hart x} {count : Word x} {mem : Nat → Entry x}

theorem validate_error {n i : Nat} {rc : SbiError} (hvalid : validate mem n = some (rc, i)) :
    rc ≠ .success := by
  obtain ⟨j, -, hj⟩ := List.exists_of_findSome?_eq_some hvalid
  split at hj
  · next hcheck =>
    cases hj
    exact hcheck
  · split_ifs at hj
    cases hj
    nofun

theorem validate_none {n k : Nat} (hvalid : validate mem n = none) (hk : k < n) :
    configCheck (mem k) = .success := by
  have hnone := List.findSome?_eq_none_iff.1 hvalid k (List.mem_range.2 hk)
  by_contra hcheck
  rw [if_pos hcheck] at hnone
  cases hnone

variable (hw b count mem) in
theorem install_cases :
    ((install hw b count mem).1 = b ∧ (install hw b count mem).2.error ≠ .success ∧
        ∀ spot k, ¬ Refused hw b count mem spot k) ∨
      (∃ spot, (install hw b count mem).2.error = .success ∧
        (install hw b count mem).1 = taken hw mem spot b count.toNat ∧
        validate mem count.toNat = none ∧
        Installed hw b count.toNat mem (install hw b count mem) spot ∧
        ∀ spot k, ¬ Refused hw b count mem spot k) ∨
      ∃ spot k, Refused hw b count mem spot k ∧
        (install hw b count mem).2.error = .notSupported ∧
        (install hw b count mem).1 =
          giveBack hw spot k
            ((taken hw mem spot b k).setTrigger (spot k) (programmed hw mem spot b k).1) := by
  unfold install
  split
  · next hentries => exact .inl ⟨rfl, hentries, fun _ _ h => hentries h.entries⟩
  · next hentries =>
    rw [ne_eq, not_not] at hentries
    split
    · next rc i hvalid =>
      refine .inl ⟨rfl, validate_error hvalid, fun _ _ h => ?_⟩
      cases hvalid.symm.trans h.valid
    · next hvalid =>
      split
      · next i hplace =>
        refine .inl ⟨rfl, nofun, fun _ _ h => ?_⟩
        cases hplace.symm.trans h.place
      · next spot hplace =>
        have hplaced := place_placed hplace
        have hinj : ∀ j < 0 + count.toNat, ∀ k < 0 + count.toNat, spot j = spot k → j = k := by
          rw [Nat.zero_add]
          exact hplaced.injective
        have hstart : taken hw mem spot b 0 = b := rfl
        rcases programAll_cases hw mem b hinj with
          ⟨htook, heq⟩ | ⟨k, -, hk, htook, hrefused, heq⟩
        · rw [hstart, Nat.zero_add] at heq
          simp only [heq]
          rw [Nat.zero_add] at htook
          refine .inr (.inl ⟨spot, trivial, rfl, hvalid, ?_, ?_⟩)
          · refine
              { checked := fun k hk => validate_none hvalid hk
                placed := hplaced
                state := fun k hk => (taken_spot hk hplaced.injective).2
                trigger := fun k hk => (taken_spot hk hplaced.injective).1
                took := fun k hk => htook k (Nat.zero_le k) hk
                others := fun i hi => taken_of_ne hw mem b hi
                record := taken_record _
                memory := fun i => rfl }
          · intro spot' k h
            cases hplace.symm.trans h.place
            cases (htook k (Nat.zero_le k) h.lt).symm.trans h.refused
        · rw [hstart] at heq
          simp only [heq]
          rw [Nat.zero_add] at hk
          refine .inr (.inr ⟨spot, k, ?_, trivial, rfl⟩)
          exact ⟨hentries, hvalid, hplace, hk, fun j hj => htook j (Nat.zero_le j) hj, hrefused⟩

variable (hw b mem) in
theorem giveBack_shown (spot : Nat → Nat) (k : Nat)
    (hinj : ∀ i < k + 1, ∀ j < k + 1, spot i = spot j → i = j) :
    let r := giveBack hw spot k
      ((taken hw mem spot b k).setTrigger (spot k) (programmed hw mem spot b k).1)
    (∀ j < k, r.shown (spot j) =
        (0, (hwClear hw (spot j) (programmed hw mem spot b j).1).shown b.d.hasTdata3)) ∧
      r.shown (spot k) =
        (b.d.state (spot k), (programmed hw mem spot b k).1.shown b.d.hasTdata3) ∧
      ∀ i, (∀ j < k + 1, spot j ≠ i) → r.shown i = b.shown i := by
  intro r
  set c := (taken hw mem spot b k).setTrigger (spot k) (programmed hw mem spot b k).1 with hc
  have hbefore : ∀ i < k, ∀ j < k, spot i = spot j → i = j :=
    fun i hi j hj => hinj i (Nat.lt_succ_of_lt hi) j (Nat.lt_succ_of_lt hj)
  have hapart : ∀ j < k, spot j ≠ spot k := fun j hj heq =>
    hj.ne (hinj j (Nat.lt_succ_of_lt hj) k (Nat.lt_succ_self k) heq)
  have h3 : r.d.hasTdata3 = b.d.hasTdata3 := by
    rw [show r.d = _ from giveBack_record k c]
    exact taken_hasTdata3 k
  have hshown : ∀ i, r.shown i = (r.d.state i, (r.trigger i).shown b.d.hasTdata3) := by
    intro i
    rw [← h3]
    rfl
  refine ⟨?_, ?_, ?_⟩
  · intro j hj
    obtain ⟨htrigger, hstate⟩ := giveBack_spot hw hj hbefore c
    have hold : c.trigger (spot j) = (programmed hw mem spot b j).1 :=
      (update_of_ne (hapart j hj) ..).trans (taken_spot hj hbefore).1
    rw [hshown, hstate, htrigger, hold]
  · obtain ⟨htrigger, hstate⟩ := giveBack_of_ne hw hapart c
    have hnew : c.trigger (spot k) = (programmed hw mem spot b k).1 := update_self ..
    have hkept : c.d.state (spot k) = b.d.state (spot k) := (taken_of_ne hw mem b hapart).2
    rw [hshown, hstate, htrigger, hnew, hkept]
  · intro i hi
    have hearlier : ∀ j < k, spot j ≠ i := fun j hj => hi j (Nat.lt_succ_of_lt hj)
    obtain ⟨htrigger, hstate⟩ := giveBack_of_ne hw hearlier c
    obtain ⟨hsame, hkept⟩ := taken_of_ne hw mem b hearlier
    have hother : c.trigger i = b.trigger i :=
      (update_of_ne (hi k (Nat.lt_succ_self k)).symm ..).trans hsame
    rw [hshown, hstate, htrigger, hother]
    exact congrArg (·, _) hkept

/-- An address trigger that takes what is written, but for the action that needs `dmode`. -/
def noDebugAction : Hardware .rv64 where
  tselect := fun i => i == 0
  tinfo := fun _ => some 0x40
  hasTdata3 := true
  write1 := fun _ t v => { t with tdata1 := clear v (bit 12) }
  write2 := fun _ t v => { t with tdata2 := v }
  write3 := fun _ t v => { t with tdata3 := v }
  noTdata3 := nofun

def oneFree : Hart .rv64 where
  d :=
    { shmem := 0x80400000, count := 1, hasTdata3 := true, types := fun _ => 0x40,
      state := fun _ => 0, saved := fun _ => ⟨0, 0, 0⟩ }
  trigger := fun _ => ⟨0, 0, 0⟩

end Install

end RiscvMonitor.Dbtr
