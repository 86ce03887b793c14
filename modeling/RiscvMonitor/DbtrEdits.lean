import RiscvMonitor.DbtrInstall
import Mathlib.Logic.Relation

/-!
# What a call writes

Every call of the extension is a list of edits: the shared memory is set, or one
trigger that exists is written with its state word.  What an edit keeps, a call
keeps.
-/

namespace RiscvMonitor.Dbtr

open Relation (ReflTransGen)
open Masks

variable {x : Xlen} {hw : Hardware x} {b c : Hart x} {op : SetOp}

theorem mapped_iff (d : DbtrHart x) (i : Nat) : d.mapped i = (d.state i).getLsbD 0 :=
  has_twoPow _ 0

def recorded (t : TriggerType x) (state : Word x) : Word x :=
  setIf (has state stateVs) (setIf (has state stateVu) (setIf (has state stateS)
    (setIf (has state stateU) 0 t.u) t.s) t.vu) t.vs

def setOpModes (op : SetOp) (state v : Word x) : Word x :=
  clear v (modeBits v) ||| if op = .enable then recorded (typeOf v) state else 0

theorem setOpOne_eq (op : SetOp) (hop : op ≠ .uninstall) (b : Hart x) (idx : Word x) :
    setOpOne hw op b idx =
      b.setTrigger idx.toNat (hw.write1 idx.toNat (b.trigger idx.toNat)
        (setOpModes op (b.d.state idx.toNat) (b.trigger idx.toNat).tdata1)) := by
  unfold setOpOne
  rw [if_neg hop]
  rfl

inductive Edit (hw : Hardware x) (b : Hart x) : Hart x → Prop
  | shmem (shmem : Word x) : Edit hw b { b with d := { b.d with shmem := shmem } }
  | clear {i : Nat} (hi : i < b.d.count) :
    Edit hw b ((b.setTrigger i (hwClear hw i (b.trigger i))).setState i 0)
  | program {i : Nat} (hi : i < b.d.count) {cfg : Entry x} (hcheck : configCheck cfg = .success)
    (htook : (hwProgram hw b.d.hasTdata3 i cfg (b.trigger i)).2 = true) :
    Edit hw b ((b.setTrigger i (hwProgram hw b.d.hasTdata3 i cfg (b.trigger i)).1).setState i
      (stateOf i cfg.tdata1))
  /-- The trigger that the hardware refuses a configuration for is free. -/
  | refuse {i : Nat} (hi : i < b.d.count) {cfg : Entry x}
    (hno : (hwProgram hw b.d.hasTdata3 i cfg (b.trigger i)).2 = false) {state : Word x}
    (hstate : state.getLsbD 0 = false) :
    Edit hw b ((b.setTrigger i (hwProgram hw b.d.hasTdata3 i cfg (b.trigger i)).1).setState i
      state)
  | modes {i : Nat} (hi : i < b.d.count) (hmapped : b.d.mapped i = true) (op : SetOp) :
    Edit hw b (b.setTrigger i
      (hw.write1 i (b.trigger i) (setOpModes op (b.d.state i) (b.trigger i).tdata1)))

theorem Edit.count (h : Edit hw b c) : c.d.count = b.d.count := by
  cases h <;> rfl

variable (hw) in
abbrev Edits : Hart x → Hart x → Prop := ReflTransGen (Edit hw)

theorem Edits.count (h : Edits hw b c) : c.d.count = b.d.count := by
  induction h with
  | refl => rfl
  | tail _ hedit ih => exact hedit.count.trans ih

theorem Edits.keep {P : Hart x → Prop} (hedit : ∀ {b c}, P b → Edit hw b c → P c)
    (h : Edits hw b c) (hb : P b) : P c := by
  induction h with
  | refl => exact hb
  | tail _ hone ih => exact hedit ih hone

variable {mem : Nat → Entry x} {spot : Nat → Nat}

theorem giveBack_edits {k : Nat} (hspot : ∀ j < k, spot j < b.d.count) :
    Edits hw b (giveBack hw spot k b) := by
  induction k generalizing b with
  | zero => exact .refl
  | succ k ih =>
    refine .head (.clear (hspot k (Nat.lt_succ_self k))) (ih fun j hj => ?_)
    exact hspot j (Nat.lt_succ_of_lt hj)

theorem taken_edits {n k : Nat} (hplaced : Placed b.d mem n spot)
    (hchecked : ∀ j < n, configCheck (mem j) = .success) (hk : k ≤ n)
    (htook : ∀ j < k, (programmed hw mem spot b j).2 = true) :
    Edits hw b (taken hw mem spot b k) := by
  induction k with
  | zero => exact .refl
  | succ k ih =>
    have hbefore := ih (Nat.le_of_succ_le hk) fun j hj => htook j (Nat.lt_succ_of_lt hj)
    refine hbefore.tail ?_
    have hfirst : _ = programmed hw mem spot b k := programmed_taken hk hplaced.injective
    have hlt : spot k < (taken hw mem spot b k).d.count := hbefore.count ▸ hplaced.lt k hk
    have hedit := Edit.program hlt (hchecked k hk) (hfirst ▸ htook k (Nat.lt_succ_self k))
    rwa [hfirst] at hedit

theorem setState_setTrigger (b : Hart x) (i : Nat) (t : Trigger x) :
    (b.setTrigger i t).setState i (b.d.state i) = b.setTrigger i t := by
  simp only [Hart.setState, Hart.setTrigger, Function.update_eq_self]

theorem install_edits (hw : Hardware x) (b : Hart x) (count : Word x) (mem : Nat → Entry x) :
    Edits hw b (install hw b count mem).1 := by
  rcases install_cases hw b count mem with
    ⟨hsame, -, -⟩ | ⟨spot, -, htaken, -, hinstalled, -⟩ | ⟨spot, k, hrefused, -, heq⟩
  · rw [hsame]
  · rw [htaken]
    exact taken_edits hinstalled.placed hinstalled.checked (Nat.le_refl _) hinstalled.took
  · have hplaced := place_placed hrefused.place
    have htaken := taken_edits hplaced (fun j hj => validate_none hrefused.valid hj)
      (Nat.le_of_lt hrefused.lt) hrefused.took
    have hcount := htaken.count
    have hfirst : _ = programmed hw mem spot b k := programmed_taken hrefused.lt hplaced.injective
    have hstate : ((taken hw mem spot b k).d.state (spot k)).getLsbD 0 = false := by
      rw [(taken_next hrefused.lt hplaced.injective).2, ← mapped_iff]
      exact hplaced.free k hrefused.lt
    have hrefuse := Edit.refuse (hcount ▸ hplaced.lt k hrefused.lt)
      (hfirst ▸ hrefused.refused) hstate
    rw [hfirst, setState_setTrigger] at hrefuse
    rw [heq]
    refine (htaken.tail hrefuse).trans (giveBack_edits fun j hj => ?_)
    exact hcount ▸ hplaced.lt j (Nat.lt_trans hj hrefused.lt)

theorem updateFrom_edits (n i : Nat) : Edits hw b (updateFrom hw mem n i b).1 := by
  induction n generalizing i b with
  | zero => exact .refl
  | succ n ih =>
    rw [updateFrom]
    dsimp only
    split
    · exact .refl
    · next hcheck =>
      rw [ne_eq, not_not] at hcheck
      split
      · exact .refl
      · next hidx =>
        split
        · exact .refl
        split
        · exact .refl
        split
        · next htook =>
          exact .head (.program (Nat.lt_of_not_le hidx) hcheck htook) (ih (i + 1))
        · next htook =>
          exact .single (.refuse (Nat.lt_of_not_le hidx) (by simpa using htook)
            BitVec.getLsbD_zero)

theorem update_edits (hw : Hardware x) (b : Hart x) (count : Word x) (mem : Nat → Entry x) :
    Edits hw b (update hw b count mem).1 := by
  unfold update
  split
  · exact .refl
  · exact updateFrom_edits count.toNat 0

theorem setOpOne_record (hop : op ≠ .uninstall) (b : Hart x) (idx : Word x) :
    (setOpOne hw op b idx).d = b.d := by
  rw [setOpOne_eq op hop]
  rfl

theorem setOps_record (hop : op ≠ .uninstall) (idxs : List (Word x)) (b : Hart x) :
    (idxs.foldl (setOpOne hw op) b).d = b.d := by
  induction idxs generalizing b with
  | nil => rfl
  | cons idx idxs ih => exact (ih _).trans (setOpOne_record hop b idx)

theorem setOpOne_edit {idx : Word x} (hidx : idx.toNat < b.d.count)
    (hmapped : op ≠ .uninstall → b.d.mapped idx.toNat = true) :
    Edit hw b (setOpOne hw op b idx) := by
  by_cases hop : op = .uninstall
  · unfold setOpOne
    rw [if_pos hop]
    exact .clear hidx
  · rw [setOpOne_eq op hop]
    exact .modes hidx (hmapped hop) op

theorem setOps_edits {idxs : List (Word x)}
    (hidxs : ∀ idx ∈ idxs,
      idx.toNat < b.d.count ∧ (op ≠ .uninstall → b.d.mapped idx.toNat = true)) :
    Edits hw b (idxs.foldl (setOpOne hw op) b) := by
  induction idxs generalizing b with
  | nil => exact .refl
  | cons idx idxs ih =>
    obtain ⟨hidx, hmapped⟩ := hidxs idx List.mem_cons_self
    have hedit : Edit hw b (setOpOne hw op b idx) := setOpOne_edit hidx hmapped
    refine .head hedit (ih fun other hother => ?_)
    obtain ⟨hlt, hm⟩ := hidxs other (List.mem_cons_of_mem _ hother)
    refine ⟨hedit.count ▸ hlt, fun hop => ?_⟩
    rw [setOpOne_record hop]
    exact hm hop

variable (hw) in
theorem setOpApply_cases (b : Hart x) (base mask : Word x) (op : SetOp) :
    setOpApply hw b base mask op = (b, .invalidParam) ∨
      (∀ idx ∈ selected base mask, idx.toNat < b.d.count ∧ b.d.mapped idx.toNat = true) ∧
        setOpApply hw b base mask op =
          ((selected base mask).foldl (setOpOne hw op) b, .success) := by
  unfold setOpApply
  split
  · next hall =>
    refine .inr ⟨fun idx hidx => ?_, rfl⟩
    have hone := List.all_eq_true.1 hall idx hidx
    simp only [Bool.and_eq_true, decide_eq_true_eq] at hone
    exact ⟨hone.1.2, hone.2⟩
  · exact .inl rfl

variable (hw) in
theorem setOpApply_edits (b : Hart x) (base mask : Word x) (op : SetOp) :
    Edits hw b (setOpApply hw b base mask op).1 := by
  rcases setOpApply_cases hw b base mask op with heq | ⟨hidxs, heq⟩
  · rw [heq]
  · rw [heq]
    exact setOps_edits fun idx hidx => ⟨(hidxs idx hidx).1, fun _ => (hidxs idx hidx).2⟩

theorem setShmem_record (cfg : Config x) (dom : Nat) (d : DbtrHart x) (lo hi flags : Word x) :
    ∃ shmem, (setShmem cfg dom d lo hi flags).1 = { d with shmem := shmem } := by
  unfold setShmem
  split_ifs <;> exact ⟨_, rfl⟩

theorem setShmem_count (cfg : Config x) (dom : Nat) (d : DbtrHart x) (lo hi flags : Word x) :
    (setShmem cfg dom d lo hi flags).1.count = d.count := by
  obtain ⟨shmem, hrecord⟩ := setShmem_record cfg dom d lo hi flags
  rw [hrecord]

theorem ecall_edits (cfg : Config x) (dom : Nat) (b : Hart x) (c : Call x × (Nat → Entry x)) :
    Edits cfg.hw b (ecall cfg dom b c).1 := by
  obtain ⟨c, mem⟩ := c
  cases c with
  | numTriggers | read => exact .refl
  | setShmem lo hi flags =>
    obtain ⟨shmem, hrecord⟩ := setShmem_record cfg dom b.d lo hi flags
    simp only [ecall, hrecord]
    exact .single (.shmem shmem)
  | install count => exact install_edits cfg.hw b count mem
  | update count => exact update_edits cfg.hw b count mem
  | uninstall base mask | enable base mask | disable base mask =>
    exact setOpApply_edits cfg.hw b base mask _

/-! ### The triggers that are found -/

theorem findTriggers_spec (hw : Hardware x) (n i : Nat) (b : Hart x) (hcount : b.d.count = i) :
    let r := findTriggers hw n i b
    (i ≤ r.d.count ∧ r.d.count ≤ i + n) ∧ r.d.state = b.d.state ∧
      ∀ j, r.trigger j =
        if i ≤ j ∧ j < r.d.count then hwClear hw j (b.trigger j) else b.trigger j := by
  induction n generalizing i b with
  | zero =>
    simp only [findTriggers]
    exact ⟨by omega, trivial, fun j => (if_neg (by omega)).symm⟩
  | succ n ih =>
    have hnone (types : Nat → BitVec 32) : (i ≤ b.d.count ∧ b.d.count ≤ i + (n + 1)) ∧
        { b.d with types := types }.state = b.d.state ∧ ∀ j, b.trigger j =
          if i ≤ j ∧ j < b.d.count then hwClear hw j (b.trigger j) else b.trigger j :=
      ⟨by omega, rfl, fun j => (if_neg (by omega)).symm⟩
    intro r
    simp only [r, findTriggers]
    split_ifs
    · exact hnone _
    · set types := Function.update b.d.types i (typesFound hw i (b.trigger i))
      set c : Hart x :=
        ⟨{ b.d with types := types, count := i + 1 },
          Function.update b.trigger i (hwClear hw i (b.trigger i))⟩
      obtain ⟨⟨hle, hge⟩, hstate, htrigger⟩ := ih (i + 1) c rfl
      refine ⟨⟨Nat.le_of_succ_le hle, Nat.le_trans hge (by omega)⟩, hstate, fun j => ?_⟩
      refine (htrigger j).trans ?_
      change _ = if i ≤ j ∧ j < (findTriggers hw n (i + 1) c).d.count then _ else _
      by_cases hj : j = i
      · subst hj
        rw [if_neg (by omega), if_pos (by omega)]
        exact Function.update_self ..
      · have hold : c.trigger j = b.trigger j := Function.update_of_ne hj ..
        have hiff : i + 1 ≤ j ↔ i ≤ j := by omega
        simp only [hold, hiff]
    · exact hnone b.d.types

theorem hartInit_spec (cfg : Config x) (trigger : Nat → Trigger x) :
    let r := hartInit cfg trigger
    r.d.count ≤ cfg.maxTriggers ∧ (r.d.count ≠ 0 → r.d.hasTdata3 = cfg.hw.hasTdata3) ∧
      (∀ j, r.d.state j = 0) ∧
      ∀ j, r.trigger j = if j < r.d.count then hwClear cfg.hw j (trigger j) else trigger j := by
  unfold hartInit
  dsimp only
  obtain ⟨hcount, hstate, htrigger⟩ := findTriggers_spec cfg.hw cfg.maxTriggers 0
    ⟨{ shmem := shmemNone, count := 0, hasTdata3 := false, types := fun _ => 0,
       state := fun _ => 0, saved := fun _ => ⟨0, 0, 0⟩ }, trigger⟩ rfl
  simp only [Nat.zero_le, true_and, Nat.zero_add] at hcount htrigger
  split
  · next hnone => exact ⟨hcount, fun hsome => absurd hnone hsome, congrFun hstate, htrigger⟩
  · exact ⟨hcount, fun _ => rfl, congrFun hstate, htrigger⟩

end RiscvMonitor.Dbtr
