import RiscvMonitor.MpxyDomains

/-!
# The list of channels, page by page

`mpxy_get_channel_ids()` returns as many ids as fit into the shared memory, and how
many remain.  A caller that goes on from there until none do has seen each channel
that its domain may see, once.
-/

namespace RiscvMonitor.Mpxy

open Function (update update_of_ne)
open Rpmi (Msg)

variable {x : Xlen}

/-- Channels are registered one after the other; one whose id is taken is refused. -/
def registered (sseEvents msgMaxLen : Nat) :
    List (Chan x) × Nat → List (Chan x) → List (Chan x) × Nat
  | reg, [] => reg
  | reg, c :: cs =>
    match channelRegister sseEvents msgMaxLen reg c with
    | .ok reg' => registered sseEvents msgMaxLen reg' cs
    | .error _ => registered sseEvents msgMaxLen reg cs

def pageOf (m : Msg) : List (BitVec 32) := (List.range (m 1).toNat).map fun i => m (2 + i)

/-- A caller lists the channels from an index on; `none` if a call fails, or if more than `fuel`
    calls are needed. -/
def pages (dom : Nat) (cs : List Channel) (mem : Nat → Msg) :
    Nat → Nat → Option (List (BitVec 32))
  | 0, _ => none
  | fuel + 1, start =>
    match channelIds dom start cs (mem start) with
    | .error _ => none
    | .ok m =>
      if m 0 = 0 then some (pageOf m)
      else (pages dom cs mem fuel (start + (m 1).toNat)).map (pageOf m ++ ·)

theorem registered_sorted {sseEvents msgMaxLen : Nat} {reg : List (Chan x) × Nat}
    (hreg : (reg.1.map fun c => c.ch.id.toNat).Pairwise (· < ·)) (cs : List (Chan x)) :
    ((registered sseEvents msgMaxLen reg cs).1.map fun c => c.ch.id.toNat).Pairwise (· < ·) := by
  induction cs generalizing reg with
  | nil => exact hreg
  | cons c cs ih =>
    rw [registered]
    split
    · next reg' hregister => exact ih (channelRegister_sorted hreg hregister)
    · exact ih hreg

section Pages

variable {dom start max : Nat} {cs : List Channel}

/-- From `n` ids on, the ids of the channels after the first `start`, as far as they fit. -/
theorem listIds_page (hcs : ∀ c ∈ cs, channelVisible dom c = true) (i n : Nat) (m : Msg) :
    let r := listIds dom start max cs i n m
    r.2 = n + ((cs.drop (start - i)).take (max - n)).length ∧
      (List.range r.2).map (fun j => r.1 (2 + j)) = (List.range n).map (fun j => m (2 + j)) ++
        ((cs.drop (start - i)).take (max - n)).map Channel.id := by
  induction cs generalizing i n m with
  | nil => simp [listIds]
  | cons c cs ih =>
    rw [List.forall_mem_cons] at hcs
    simp only [listIds, hcs.1, Bool.true_eq_false, if_false]
    split
    · next hfits =>
      obtain ⟨hcount, hids⟩ := ih hcs.2 (i + 1) (n + 1) (update m (2 + n) c.id)
      have hhere : start - i = 0 ∧ start - (i + 1) = 0 := by omega
      have hroom : max - n = max - (n + 1) + 1 := by omega
      have hbefore : (List.range n).map (fun j => update m (2 + n) c.id (2 + j)) =
          (List.range n).map fun j => m (2 + j) := by
        refine List.map_congr_left fun j hj => update_of_ne ?_ ..
        have := List.mem_range.mp hj
        omega
      rw [hhere.2] at hcount hids
      rw [hhere.1, hroom, List.drop_zero, List.take_succ_cons]
      refine ⟨by rw [hcount, List.drop_zero, List.length_cons]; omega, ?_⟩
      rw [hids, List.range_succ, List.map_append, hbefore]
      simp
    · next hno =>
      obtain ⟨hcount, hids⟩ := ih hcs.2 (i + 1) n m
      by_cases hearly : i < start
      · have hskip : start - i = start - (i + 1) + 1 := by omega
        rw [hskip, List.drop_succ_cons]
        exact ⟨hcount, hids⟩
      · have hfull : max - n = 0 := by omega
        rw [hfull, List.take_zero] at hcount hids ⊢
        exact ⟨hcount, hids⟩

theorem channelIds_page (hcs : ∀ c ∈ cs, channelVisible dom c = true) (hlen : cs.length ≤ 2 ^ 32)
    (hstart : start < cs.length ∨ cs.length = 0 ∧ start = 0) (m : Msg) :
    ∃ m', channelIds dom start cs m = .ok m' ∧
      pageOf m' = ((cs.drop start).take 1022).map Channel.id ∧
      (m' 1).toNat = min 1022 (cs.length - start) ∧
      (m' 0).toNat = cs.length - start - (m' 1).toNat := by
  have hvisible : cs.countP (channelVisible dom) = cs.length := List.countP_eq_length.mpr hcs
  obtain ⟨hcount, hids⟩ := @listIds_page dom start 1022 cs hcs 0 0 m
  unfold channelIds
  simp only [hvisible, show shmemSize / 4 - 2 = 1022 from rfl]
  generalize listIds dom start 1022 cs 0 0 m = r at hcount hids
  have hplaced : r.2 = min 1022 (cs.length - start) := by simpa using hcount
  have hsmall : (BitVec.ofNat 32 r.2).toNat = r.2 := by
    rw [BitVec.toNat_ofNat, Nat.mod_eq_of_lt (by omega)]
  have hrest : (BitVec.ofNat 32 (cs.length - start - r.2)).toNat = cs.length - start - r.2 := by
    rw [BitVec.toNat_ofNat, Nat.mod_eq_of_lt (by omega)]
  refine ⟨_, if_neg (by omega), ?_, hsmall.trans hplaced, ?_⟩
  · have hwords (j : Nat) : writeWords r.1 0 [BitVec.ofNat 32 (cs.length - start - r.2),
        BitVec.ofNat 32 r.2] (2 + j) = r.1 (2 + j) := by
      simp [writeWords, Nat.add_comm 2]
    simp only [pageOf, hwords]
    exact (congrArg (fun n => (List.range n).map _) hsmall).trans hids
  · exact hrest.trans (congrArg (cs.length - start - ·) hsmall.symm)

theorem pages_eq (hcs : ∀ c ∈ cs, channelVisible dom c = true) (hlen : cs.length ≤ 2 ^ 32)
    (mem : Nat → Msg) {fuel : Nat} (hfuel : cs.length - start < fuel)
    (hstart : start < cs.length ∨ cs.length = 0 ∧ start = 0) :
    pages dom cs mem fuel start = some ((cs.drop start).map Channel.id) := by
  induction fuel generalizing start with
  | zero => omega
  | succ fuel ih =>
    obtain ⟨m, hcall, hpage, hcount, hrest⟩ := channelIds_page hcs hlen hstart (mem start)
    simp only [pages, hcall]
    split
    · next hzero =>
      have hnone : (m 0).toNat = 0 := congrArg BitVec.toNat hzero
      have hall : (cs.drop start).length ≤ 1022 := by
        rw [List.length_drop]
        omega
      rw [hpage, List.take_of_length_le hall]
    · next hmore =>
      have hne : (m 0).toNat ≠ 0 := fun h => hmore (BitVec.eq_of_toNat_eq h)
      have hfull : (m 1).toNat = 1022 := by omega
      rw [hfull, @ih (start + 1022) (by omega) (.inl (by omega)), hpage, ← List.drop_drop,
        Option.map_some, ← List.map_append, List.take_append_drop]

end Pages

theorem length_le_of_sorted {l : List Nat} {n : Nat} (hl : l.Pairwise (· < ·))
    (hn : ∀ a ∈ l, a < n) : l.length ≤ n := by
  have hnodup : l.Nodup := hl.imp Nat.ne_of_lt
  have hsub := hnodup.subperm fun a ha => List.mem_range.mpr (hn a ha)
  simpa using hsub.length_le

end RiscvMonitor.Mpxy
