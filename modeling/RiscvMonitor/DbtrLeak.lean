import RiscvMonitor.DbtrEdits

/-!
# What the triggers of one domain show to another

The calls of a domain see its record, and of the triggers those that the record
counts.  Two histories of the domain that had the hart before can leave these
different: `hw_clear()` leaves `tdata3` alone, and the type where the hardware does
not take zero, and a configuration refused for its `tdata3` leaves `tdata2` behind.
-/

namespace RiscvMonitor.Dbtr

open Replies

variable {x : Xlen} {m n : Nat} {b b' : Hart x}

/-! ### What calls depend on -/

/-- The records are the same, with `n` triggers, and so are the first `m` of these. -/
structure Same (m n : Nat) (b b' : Hart x) : Prop where
  d : b.d = b'.d
  count : b.d.count = n
  trigger : ∀ i < m, b.trigger i = b'.trigger i

variable {i : Nat}

theorem Same.setTrigger (hb : Same m n b b') {t t' : Trigger x} (ht : i < m → t = t') :
    Same m n (b.setTrigger i t) (b'.setTrigger i t') where
  d := hb.d
  count := hb.count
  trigger := by
    intro j hj
    by_cases hji : j = i
    · subst hji
      simpa [Hart.setTrigger] using ht hj
    · simpa [Hart.setTrigger, hji] using hb.trigger j hj

theorem Same.setState (hb : Same m n b b') (i : Nat) (v : Word x) :
    Same m n (b.setState i v) (b'.setState i v) where
  d := by rw [Hart.setState, Hart.setState, hb.d]
  count := hb.count
  trigger := hb.trigger

theorem Same.clear (hb : Same m n b b') (hw : Hardware x) (i : Nat) :
    Same m n (b.setTrigger i (hwClear hw i (b.trigger i)))
      (b'.setTrigger i (hwClear hw i (b'.trigger i))) := by
  apply hb.setTrigger
  intro hi
  rw [hb.trigger i hi]

theorem Same.giveBack (hb : Same m n b b') (hw : Hardware x) (spot : Nat → Nat) (i : Nat) :
    Same m n (giveBack hw spot i b) (giveBack hw spot i b') := by
  induction i generalizing b b' with
  | zero => exact hb
  | succ i ih => exact ih ((hb.clear hw (spot i)).setState (spot i) 0)

theorem Same.programAll (hb : Same n n b b') (hw : Hardware x) (mem : Nat → Entry x)
    {spot : Nat → Nat} {k : Nat} (hspot : ∀ j < i + k, spot j < n) :
    (programAll hw mem spot k i b).2 = (programAll hw mem spot k i b').2 ∧
      Same n n (programAll hw mem spot k i b).1 (programAll hw mem spot k i b').1 := by
  induction k generalizing i b b' with
  | zero => exact ⟨rfl, hb⟩
  | succ k ih =>
    rw [Dbtr.programAll, Dbtr.programAll, ← hb.d, ← hb.trigger _ (hspot i (by omega))]
    have hset := hb.setTrigger (i := spot i) (t := (hwProgram hw b.d.hasTdata3 (spot i) (mem i)
      (b.trigger (spot i))).1) fun _ => rfl
    split
    · apply ih (hset.setState _ _)
      intro j hj
      exact hspot j (by omega)
    · exact ⟨rfl, hset.giveBack hw spot i⟩

variable {d : DbtrHart x}

theorem Same.install (hb : Same n n b b') (hw : Hardware x) (count : Word x) (mem : Nat → Entry x) :
    (install hw b count mem).2 = (install hw b' count mem).2 ∧
      Same n n (install hw b count mem).1 (install hw b' count mem).1 := by
  unfold Dbtr.install
  rw [← hb.d]
  split
  · exact ⟨rfl, hb⟩
  · next hget =>
    rw [ne_eq, not_not] at hget
    split
    · exact ⟨rfl, hb⟩
    · split
      · exact ⟨rfl, hb⟩
      · next spot hplace =>
        have hspot : ∀ k < 0 + count.toNat, spot k < n := by
          intro k hk
          rw [← hb.count]
          exact (place_placed hplace).lt k (by omega)
        obtain ⟨hreply, hsame⟩ := hb.programAll hw mem hspot
        generalize Dbtr.programAll hw mem spot count.toNat 0 b = r at hreply hsame
        generalize Dbtr.programAll hw mem spot count.toNat 0 b' = r' at hreply hsame
        obtain ⟨c, o⟩ := r
        obtain ⟨c', o'⟩ := r'
        cases hreply
        cases o <;> exact ⟨rfl, hsame⟩

theorem Same.updateFrom (hb : Same n n b b') (hw : Hardware x) (mem : Nat → Entry x) (k i : Nat) :
    (updateFrom hw mem k i b).2 = (updateFrom hw mem k i b').2 ∧
      Same n n (updateFrom hw mem k i b).1 (updateFrom hw mem k i b').1 := by
  induction k generalizing i b b' with
  | zero => exact ⟨rfl, hb⟩
  | succ k ih =>
    rw [Dbtr.updateFrom, Dbtr.updateFrom, ← hb.d]
    dsimp only
    split
    · exact ⟨rfl, hb⟩
    · split
      · exact ⟨rfl, hb⟩
      · next hidx =>
        rw [hb.count] at hidx
        have htrigger := hb.trigger (mem i).idx.toNat (by omega)
        rw [← htrigger]
        split
        · exact ⟨rfl, hb⟩
        · split
          · exact ⟨rfl, hb⟩
          · have hset := hb.setTrigger (i := (mem i).idx.toNat)
              (t := (hwProgram hw b.d.hasTdata3 (mem i).idx.toNat (mem i)
                (b.trigger (mem i).idx.toNat)).1) fun _ => rfl
            split
            · exact ih (hset.setState _ _) (i + 1)
            · exact ⟨rfl, hset.setState _ _⟩

theorem Same.update (hb : Same n n b b') (hw : Hardware x) (count : Word x) (mem : Nat → Entry x) :
    (update hw b count mem).2 = (update hw b' count mem).2 ∧
      Same n n (update hw b count mem).1 (update hw b' count mem).1 := by
  obtain ⟨hreply, hsame⟩ := hb.updateFrom hw mem count.toNat 0
  unfold Dbtr.update
  rw [← hb.d]
  split
  · exact ⟨rfl, hb⟩
  · refine ⟨?_, hsame⟩
    simp only [hreply]

theorem Same.setOpOne (hb : Same m n b b') (hw : Hardware x) (op : SetOp) (idx : Word x) :
    Same m n (setOpOne hw op b idx) (setOpOne hw op b' idx) := by
  unfold Dbtr.setOpOne
  dsimp only
  split
  · exact (hb.clear hw _).setState _ _
  · apply hb.setTrigger
    intro hi
    rw [hb.trigger _ hi, hb.d]

theorem Same.setOpApply (hb : Same m n b b') (hw : Hardware x) (base mask : Word x) (op : SetOp) :
    (setOpApply hw b base mask op).2 = (setOpApply hw b' base mask op).2 ∧
      Same m n (setOpApply hw b base mask op).1 (setOpApply hw b' base mask op).1 := by
  have hall (idxs : List (Word x)) :
      Same m n (idxs.foldl (Dbtr.setOpOne hw op) b) (idxs.foldl (Dbtr.setOpOne hw op) b') := by
    induction idxs generalizing b b' with
    | nil => exact hb
    | cons idx idxs ih => exact ih (hb.setOpOne hw op idx)
  unfold Dbtr.setOpApply
  rw [← hb.d]
  split
  · exact ⟨rfl, hall _⟩
  · exact ⟨rfl, hb⟩

theorem Same.read (hb : Same n n b b') (base count : Word x) (mem : Nat → Entry x) :
    read b base count mem = read b' base count mem := by
  unfold Dbtr.read
  rw [← hb.d]
  split
  · rfl
  · split
    · rfl
    · next hrange =>
      rw [hb.count] at hrange
      refine congrArg (Reply.mk .success 0) (funext fun i => ?_)
      split
      · simp only [hb.trigger (base.toNat + i) (by omega)]
      · rfl

/-- A call is answered from the record and the triggers that it counts. -/
theorem Same.ecall (hb : Same n n b b') (cfg : Config x) (dom : Nat)
    (c : Call x × (Nat → Entry x)) :
    (ecall cfg dom b c).2 = (ecall cfg dom b' c).2 ∧
      Same n n (ecall cfg dom b c).1 (ecall cfg dom b' c).1 := by
  obtain ⟨c, mem⟩ := c
  cases c with
  | numTriggers tdata1 =>
    refine ⟨?_, hb⟩
    rw [Dbtr.ecall, Dbtr.ecall, hb.d]
  | setShmem lo hi flags =>
    simp only [Dbtr.ecall, ← hb.d]
    exact ⟨trivial, rfl, (setShmem_count ..).trans hb.count, hb.trigger⟩
  | read base count => exact ⟨hb.read base count mem, hb⟩
  | install count => exact hb.install cfg.hw count mem
  | update count => exact hb.update cfg.hw count mem
  | uninstall base mask | enable base mask | disable base mask =>
    have hop := hb.setOpApply cfg.hw base mask
    simp only [Dbtr.ecall, hop, and_self]

/-! ### A domain without memory to share -/

def CanRead (cfg : Config x) (dom : Nat) (d : DbtrHart x) : Prop :=
  d.shmem ≠ shmemNone ∨ ∃ lo : Word x, isAligned lo (BitVec.ofNat x.bits (x.bits / 8)) = true ∧
    cfg.smodeRangeOk dom lo (d.count * entrySize x) = true

variable {dom : Nat}

theorem setShmem_cannotRead {cfg : Config x} (hblind : ¬ CanRead cfg dom d) (lo hi flags : Word x) :
    ¬ CanRead cfg dom (setShmem cfg dom d lo hi flags).1 := by
  unfold setShmem
  split
  · exact hblind
  · split
    · rintro (hshmem | hlo)
      · exact hshmem rfl
      · exact hblind (.inr hlo)
    · split
      · exact hblind
      · next haligned =>
        split
        · exact hblind
        · next hrange =>
          rw [not_not] at haligned
          rw [not_or, Bool.not_eq_false] at hrange
          exact absurd (.inr ⟨lo, haligned, hrange.2⟩) hblind

theorem setOpApply_shmem (hw : Hardware x) (b : Hart x) (base mask : Word x) (op : SetOp) :
    (setOpApply hw b base mask op).1.d.shmem = b.d.shmem := by
  have hone (b : Hart x) (idx : Word x) : (setOpOne hw op b idx).d.shmem = b.d.shmem := by
    unfold setOpOne
    dsimp only
    split <;> rfl
  have hall (idxs : List (Word x)) : (idxs.foldl (setOpOne hw op) b).d.shmem = b.d.shmem := by
    induction idxs generalizing b with
    | nil => rfl
    | cons idx idxs ih => exact (ih _).trans (hone b idx)
  unfold Dbtr.setOpApply
  split
  · exact hall _
  · rfl

structure Blind (cfg : Config x) (dom n : Nat) (b b' : Hart x) : Prop where
  same : Same 0 n b b'
  blind : ¬ CanRead cfg dom b.d

section

variable {cfg : Config x} (hb : Blind cfg dom n b b')
include cfg hb

theorem Blind.entriesGet (count : Word x) : entriesGet b.d count = .noShmem := by
  have hnone : b.d.shmem = shmemNone := by
    by_contra hshmem
    exact hb.blind (.inl hshmem)
  rw [Dbtr.entriesGet, if_pos hnone]

theorem Blind.setOpApply (base mask : Word x) (op : SetOp) :
    (setOpApply cfg.hw b base mask op).2 = (setOpApply cfg.hw b' base mask op).2 ∧
      Blind cfg dom n (setOpApply cfg.hw b base mask op).1
        (setOpApply cfg.hw b' base mask op).1 := by
  obtain ⟨hreply, hsame⟩ := hb.same.setOpApply cfg.hw base mask op
  refine ⟨hreply, hsame, ?_⟩
  have hblind := hb.blind
  unfold CanRead at hblind ⊢
  rw [setOpApply_shmem, hsame.count]
  rw [hb.same.count] at hblind
  exact hblind

theorem Blind.ecall (c : Call x × (Nat → Entry x)) :
    (ecall cfg dom b c).2 = (ecall cfg dom b' c).2 ∧
      Blind cfg dom n (ecall cfg dom b c).1 (ecall cfg dom b' c).1 := by
  obtain ⟨c, mem⟩ := c
  have hrefused (count : Word x) : Dbtr.entriesGet b.d count ≠ .success := by
    rw [hb.entriesGet]
    exact nofun
  have hd := hb.same.d
  cases c with
  | numTriggers tdata1 =>
    refine ⟨?_, hb⟩
    rw [Dbtr.ecall, Dbtr.ecall, hd]
  | setShmem lo hi flags =>
    simp only [Dbtr.ecall, ← hd]
    exact ⟨trivial, ⟨rfl, (setShmem_count ..).trans hb.same.count, hb.same.trigger⟩,
      setShmem_cannotRead hb.blind lo hi flags⟩
  | read base count =>
    refine ⟨?_, hb⟩
    simp only [Dbtr.ecall, Dbtr.read, ← hd, if_pos (hrefused count)]
  | install count =>
    simp only [Dbtr.ecall, Dbtr.install, ← hd, if_pos (hrefused count)]
    exact ⟨trivial, hb⟩
  | update count =>
    simp only [Dbtr.ecall, Dbtr.update, ← hd, if_pos (hrefused count)]
    exact ⟨trivial, hb⟩
  | uninstall base mask | enable base mask | disable base mask =>
    have hop := hb.setOpApply base mask
    simp only [Dbtr.ecall, hop, and_self]

end

/-! ### What calls never touch -/

/-- A record says of `tdata3` what the hardware does, and without the register nothing in its
    place changes. -/
structure Tidy (hw : Hardware x) (t3 : Nat → Word x) (b : Hart x) : Prop where
  count : b.d.count ≤ 64
  known : b.d.count ≠ 0 → b.d.hasTdata3 = hw.hasTdata3
  fixed : hw.hasTdata3 = false → ∀ i, (b.trigger i).tdata3 = t3 i

section Tidy

variable {hw : Hardware x} {t3 : Nat → Word x}

theorem hwClear_tdata3 (h3 : hw.hasTdata3 = false) (i : Nat) (t : Trigger x) :
    (hwClear hw i t).tdata3 = t.tdata3 := by
  have hwrite := hw.noTdata3 h3 i
  unfold hwClear
  dsimp only
  split
  · rw [(hwrite _ _).2.1, (hwrite _ _).1]
  · rw [(hwrite _ _).2.1, (hwrite _ _).1, (hwrite _ _).1]

theorem hwProgram_tdata3 (h3 : hw.hasTdata3 = false) (hasTdata3 : Bool) (i : Nat) (cfg : Entry x)
    (t : Trigger x) : (hwProgram hw hasTdata3 i cfg t).1.tdata3 = t.tdata3 := by
  have hwrite := hw.noTdata3 h3 i
  have hclear := hwClear_tdata3 h3 i
  have hprogrammed : (hw.write1 i (if hasTdata3 then
      hw.write3 i (hw.write2 i (hwClear hw i t) cfg.tdata2) cfg.tdata3
      else hw.write2 i (hwClear hw i t) cfg.tdata2) cfg.tdata1).tdata3 = t.tdata3 := by
    rw [(hwrite _ _).1]
    split
    · rw [(hwrite _ _).2.2, (hwrite _ _).2.1, hclear]
    · rw [(hwrite _ _).2.1, hclear]
  unfold hwProgram
  dsimp only
  split
  · rw [(hwrite _ _).2.1, hclear]
  · generalize hw.write1 i (if hasTdata3 then
      hw.write3 i (hw.write2 i (hwClear hw i t) cfg.tdata2) cfg.tdata3
      else hw.write2 i (hwClear hw i t) cfg.tdata2) cfg.tdata1 = t' at hprogrammed
    split
    · exact (hclear t').trans hprogrammed
    · exact hprogrammed

section

variable (hb : Tidy hw t3 b)
include hb

theorem Tidy.setTrigger {t : Trigger x}
    (ht : hw.hasTdata3 = false → t.tdata3 = (b.trigger i).tdata3) :
    Tidy hw t3 (b.setTrigger i t) where
  count := hb.count
  known := hb.known
  fixed := by
    intro h3 j
    by_cases hji : j = i
    · subst hji
      simpa [Hart.setTrigger, ht h3] using hb.fixed h3 j
    · simpa [Hart.setTrigger, hji] using hb.fixed h3 j

theorem Tidy.setState (i : Nat) (v : Word x) : Tidy hw t3 (b.setState i v) :=
  ⟨hb.count, hb.known, hb.fixed⟩

theorem Tidy.clear (i : Nat) : Tidy hw t3 (b.setTrigger i (hwClear hw i (b.trigger i))) :=
  hb.setTrigger fun h3 => hwClear_tdata3 h3 i _

theorem Tidy.edit {c : Hart x} (h : Edit hw b c) : Tidy hw t3 c := by
  cases h with
  | shmem => exact ⟨hb.count, hb.known, hb.fixed⟩
  | clear => exact (hb.clear _).setState _ _
  | program | refuse => exact (hb.setTrigger fun h3 => hwProgram_tdata3 h3 ..).setState _ _
  | modes => exact hb.setTrigger fun h3 => (hw.noTdata3 h3 _ _ _).1

end

theorem Tidy.ecall {cfg : Config x} (hb : Tidy cfg.hw t3 b) (dom : Nat)
    (c : Call x × (Nat → Entry x)) : Tidy cfg.hw t3 (ecall cfg dom b c).1 :=
  (ecall_edits cfg dom b c).keep (fun hb => hb.edit) hb

theorem Tidy.switchOut (hb : Tidy hw t3 b) : Tidy hw t3 (switchOut hw b) where
  count := hb.count
  known := hb.known
  fixed := by
    intro h3 i
    unfold Dbtr.switchOut
    dsimp only
    split
    · rw [hwClear_tdata3 h3]
      exact hb.fixed h3 i
    · exact hb.fixed h3 i

theorem hartInit_tidy {cfg : Config x} {trigger : Nat → Trigger x}
    (hfixed : cfg.hw.hasTdata3 = false → ∀ i, (trigger i).tdata3 = t3 i) :
    Tidy cfg.hw t3 (hartInit cfg trigger) := by
  obtain ⟨hcount, hknown, -, htrigger⟩ := hartInit_spec cfg trigger
  refine ⟨Nat.le_trans hcount cfg.maxTriggers_le, hknown, fun h3 i => ?_⟩
  rw [htrigger, apply_ite Trigger.tdata3, hwClear_tdata3 h3, ite_self]
  exact hfixed h3 i

theorem Tidy.switchIn {cfg : Config x} (hb : Tidy cfg.hw t3 b) (fresh : Bool) :
    Tidy cfg.hw t3 (switchIn cfg fresh b) := by
  unfold Dbtr.switchIn
  split
  · exact hartInit_tidy hb.fixed
  · refine ⟨hb.count, hb.known, ?_⟩
    intro h3 i
    have hwrite := cfg.hw.noTdata3 h3 i
    dsimp only
    split
    · unfold writeBack
      dsimp only
      rw [(hwrite _ _).1]
      split
      · rw [(hwrite _ _).2.2, (hwrite _ _).2.1, hwClear_tdata3 h3]
        exact hb.fixed h3 i
      · rw [(hwrite _ _).2.1, hwClear_tdata3 h3]
        exact hb.fixed h3 i
    · exact hb.fixed h3 i

end Tidy

/-! ### Two histories -/

section Histories

variable {cfg : Config x} {t3 : Nat → Word x} {s s' : Sys x}

theorem put_hart (s : Sys x) (b : Hart x) : (s.put b).hart = b := by
  simp [Sys.put, Sys.hart]

def AllTidy (cfg : Config x) (t3 : Nat → Word x) (s : Sys x) : Prop :=
  ∀ d, Tidy cfg.hw t3 ⟨s.dbtr d, s.trigger⟩

theorem AllTidy.put (hs : AllTidy cfg t3 s) (hb : Tidy cfg.hw t3 b) :
    AllTidy cfg t3 (s.put b) := by
  intro d
  by_cases hd : d = s.domain
  · subst hd
    simpa [Sys.put] using hb
  · refine ⟨?_, ?_, hb.fixed⟩
    · simpa [Sys.put, hd] using (hs d).count
    · simpa [Sys.put, hd] using (hs d).known

theorem AllTidy.event (hs : AllTidy cfg t3 s) (e : Event x) : AllTidy cfg t3 (event cfg s e) := by
  cases e with
  | call c mem => exact hs.put ((hs s.domain).ecall s.domain (c, mem))
  | fires i tdata1 =>
    intro d
    exact (hs d).setTrigger (i := i) (t := { s.trigger i with tdata1 := tdata1 }) fun _ => rfl

theorem AllTidy.switch (hs : AllTidy cfg t3 s) (dom : Nat) (fresh : Bool) :
    AllTidy cfg t3 (switch cfg s dom fresh) := by
  have hout : AllTidy cfg t3 { s.put (switchOut cfg.hw s.hart) with domain := dom } :=
    hs.put (hs s.domain).switchOut
  exact hout.put ((hout dom).switchIn fresh)

theorem AllTidy.step (hs : AllTidy cfg t3 s) (e : Step x) : AllTidy cfg t3 (step cfg s e) := by
  cases e with
  | event e => exact hs.event e
  | switch dom fresh => exact hs.switch dom fresh

theorem AllTidy.foldl {E : Type*} {f : Sys x → E → Sys x}
    (hf : ∀ s e, AllTidy cfg t3 s → AllTidy cfg t3 (f s e)) (hs : AllTidy cfg t3 s)
    (es : List E) : AllTidy cfg t3 (es.foldl f s) := by
  induction es generalizing s with
  | nil => exact hs
  | cons e es ih => exact ih (hf s e hs)

theorem boot_tidy (cfg : Config x) (home : Nat) (trigger : Nat → Trigger x) :
    AllTidy cfg (fun i => (trigger i).tdata3) (boot cfg home trigger) := by
  apply AllTidy.put _ (hartInit_tidy fun _ _ => rfl)
  intro d
  exact ⟨Nat.zero_le _, fun hcount => absurd rfl hcount, fun _ _ => rfl⟩

attribute [ext] Trigger

theorem same_of_look (hb : Tidy cfg.hw t3 b) (hb' : Tidy cfg.hw t3 b') (hd : b.d = b'.d)
    (hlook : ∀ i < b.d.count, b.look i = b'.look i) : Same b.d.count b.d.count b b' := by
  refine ⟨hd, rfl, ?_⟩
  intro i hi
  have hshown := hlook i hi
  simp only [Hart.look, Trigger.mk.injEq, ← hd] at hshown
  obtain ⟨h1, h2, h3⟩ := hshown
  have h3 : (b.trigger i).tdata3 = (b'.trigger i).tdata3 := by
    by_cases hreg : cfg.hw.hasTdata3 = true
    · simpa [hb.known (by omega), hreg] using h3
    · rw [Bool.not_eq_true] at hreg
      rw [hb.fixed hreg, hb'.fixed hreg]
  exact Trigger.ext h1 h2 h3

theorem call_reply (cfg : Config x) (s : Sys x) (c : Call x × (Nat → Entry x)) :
    (call cfg s c).2 = (ecall cfg s.domain s.hart c).2 := rfl

theorem call_hart (cfg : Config x) (s : Sys x) (c : Call x × (Nat → Entry x)) :
    (call cfg s c).1.hart = (ecall cfg s.domain s.hart c).1 := put_hart ..

theorem alike_of_seen (hdomain : s.domain = s'.domain)
    (hseen : (∃ n, Same n n s.hart s'.hart) ∨ ∃ n, Blind cfg s.domain n s.hart s'.hart) :
    Alike (call cfg) s s' := by
  apply alike_of_kept (K := fun s s' : Sys x => s.domain = s'.domain ∧
    ((∃ n, Same n n s.hart s'.hart) ∨ ∃ n, Blind cfg s.domain n s.hart s'.hart)) _
    ⟨hdomain, hseen⟩
  rintro s s' c ⟨hdomain, hseen⟩
  rw [call_reply, call_reply, call_hart, call_hart, ← hdomain]
  rcases hseen with ⟨n, hsame⟩ | ⟨n, hblind⟩
  · obtain ⟨hreply, hnext⟩ := hsame.ecall cfg s.domain c
    exact ⟨hreply, hdomain, .inl ⟨n, hnext⟩⟩
  · obtain ⟨hreply, hnext⟩ := hblind.ecall c
    exact ⟨hreply, hdomain, .inr ⟨n, hnext⟩⟩

theorem read_one (hshmem : b.d.shmem ≠ shmemNone) (hi : i < b.d.count) (hcount : b.d.count ≤ 64)
    (mem : Nat → Entry x) :
    (read b (BitVec.ofNat x.bits i) 1 mem).mem 0 =
      ⟨b.d.state i, (b.look i).tdata1, (b.look i).tdata2, (b.look i).tdata3⟩ := by
  have hone : (1 : Word x).toNat = 1 := toNat_one
  have hbase : (BitVec.ofNat x.bits i).toNat = i := by
    rw [BitVec.toNat_ofNat]
    apply Nat.mod_eq_of_lt
    have hbits : 2 ^ 32 ≤ 2 ^ x.bits := Nat.pow_le_pow_right (by omega) (by cases x <;> decide)
    omega
  have hget : entriesGet b.d 1 = .success := by
    rw [entriesGet, if_neg hshmem, hone, if_neg (by omega)]
  unfold read
  rw [hbase, hone, if_neg (by rw [hget]; exact not_not.mpr rfl), if_neg (by omega)]
  rfl

theorem look_of_alike (hb : s.hart.d.count ≤ 64) (hd : s.hart.d = s'.hart.d)
    (hshmem : s.hart.d.shmem ≠ shmemNone) (halike : Alike (call cfg) s s')
    (hi : i < s.hart.d.count) : s.hart.look i = s'.hart.look i := by
  have hreply := halike.reply (.read (BitVec.ofNat x.bits i) 1, fun _ => ⟨0, 0, 0, 0⟩)
  have hmem := congrArg (fun r => r.mem 0) hreply
  simp only [call_reply, ecall] at hmem
  rw [read_one hshmem hi hb, read_one (hd ▸ hshmem) (hd ▸ hi) (hd ▸ hb)] at hmem
  simp only [Entry.mk.injEq] at hmem
  obtain ⟨-, h1, h2, h3⟩ := hmem
  exact Trigger.ext h1 h2 h3

theorem setShmem_taken {lo : Word x}
    (haligned : isAligned lo (BitVec.ofNat x.bits (x.bits / 8)) = true)
    (hrange : cfg.smodeRangeOk dom lo (d.count * entrySize x) = true) :
    (setShmem cfg dom d lo 0 0).1 = { d with shmem := lo } := by
  have hhi : (0 : Word x) ≠ -1 := by cases x <;> decide
  unfold setShmem
  rw [if_neg (by simp), if_neg fun hall => hhi hall.2, if_neg (not_not.mpr haligned),
    if_neg (by simp [hrange])]

theorem shmemNone_not_aligned :
    isAligned (shmemNone : Word x) (BitVec.ofNat x.bits (x.bits / 8)) = false := by
  cases x <;> decide

theorem look_of_alike_canRead (hb : s.hart.d.count ≤ 64) (hdomain : s.domain = s'.domain)
    (hd : s.hart.d = s'.hart.d) (hread : CanRead cfg s.domain s.hart.d)
    (halike : Alike (call cfg) s s') (hi : i < s.hart.d.count) :
    s.hart.look i = s'.hart.look i := by
  rcases hread with hshmem | ⟨lo, haligned, hrange⟩
  · exact look_of_alike hb hd hshmem halike hi
  · -- memory is shared first
    have hset (u : Sys x) (hu : u.domain = s.domain) (hud : u.hart.d = s.hart.d) :
        (call cfg u (.setShmem lo 0 0, fun _ => ⟨0, 0, 0, 0⟩)).1.hart =
          { u.hart with d := { u.hart.d with shmem := lo } } := by
      rw [call_hart]
      dsimp only [ecall]
      rw [setShmem_taken haligned (by rw [hu, hud]; exact hrange)]
    have hnext := halike.next (.setShmem lo 0 0, fun _ => ⟨0, 0, 0, 0⟩)
    have hlook := look_of_alike (i := i) ?_ ?_ ?_ hnext ?_
    · rw [hset s rfl rfl, hset s' hdomain.symm hd.symm] at hlook
      exact hlook
    · rw [hset s rfl rfl]
      exact hb
    · rw [hset s rfl rfl, hset s' hdomain.symm hd.symm]
      simp only [hd]
    · rw [hset s rfl rfl]
      intro hnone
      have hno := shmemNone_not_aligned (x := x)
      rw [← hnone] at hno
      exact absurd (hno.symm.trans haligned) Bool.false_ne_true
    · rw [hset s rfl rfl]
      exact hi

end Histories

/-- A domain makes its calls, its triggers fire, and the hart goes to domain `dom`. -/
def history (cfg : Config x) (s : Sys x) (es : List (Event x)) (dom : Nat) (fresh : Bool) :
    Sys x :=
  switch cfg (es.foldl (event cfg) s) dom fresh

theorem findTriggers_record {hw : Hardware x} (htinfo : ∀ i, (hw.tinfo i).isSome = true)
    (hd : b.d = b'.d) (k i : Nat) : (findTriggers hw k i b).d = (findTriggers hw k i b').d := by
  induction k generalizing i b b' with
  | zero => exact hd
  | succ k ih =>
    have htypes : typesFound hw i (b.trigger i) = typesFound hw i (b'.trigger i) := by
      obtain ⟨types, hsome⟩ := Option.isSome_iff_exists.mp (htinfo i)
      rw [typesFound, typesFound, hsome]
    rw [findTriggers, findTriggers, htypes, hd]
    split
    · dsimp only
      split
      · rfl
      · apply ih
        rfl
    · exact hd

/-- With `tinfo` a new context finds the same triggers whatever is in them. -/
theorem history_record {cfg : Config x} (htinfo : ∀ i, (cfg.hw.tinfo i).isSome = true)
    (s : Sys x) (es fs : List (Event x)) (dom : Nat) :
    (history cfg s es dom true).dbtr dom = (history cfg s fs dom true).dbtr dom := by
  have hinit (trigger trigger' : Nat → Trigger x) :
      (hartInit cfg trigger).d = (hartInit cfg trigger').d := by
    have hfound (d : DbtrHart x) : (findTriggers cfg.hw cfg.maxTriggers 0 ⟨d, trigger⟩).d =
        (findTriggers cfg.hw cfg.maxTriggers 0 ⟨d, trigger'⟩).d := by
      apply findTriggers_record htinfo
      rfl
    unfold hartInit
    dsimp only
    rw [hfound]
    split
    · exact hfound _
    · rfl
  have hrecord (es : List (Event x)) : ∃ trigger,
      (history cfg s es dom true).dbtr dom = (hartInit cfg trigger).d :=
    ⟨_, Function.update_self ..⟩
  obtain ⟨trigger, htrigger⟩ := hrecord es
  obtain ⟨trigger', htrigger'⟩ := hrecord fs
  rw [htrigger, htrigger', hinit trigger trigger']

def oneTrigger : Config .rv64 where
  maxTriggers := 16
  maxTriggers_le := by decide
  hw :=
    { tselect := fun i => i == 0
      tinfo := fun _ => some 0x40
      hasTdata3 := true
      write1 := fun _ t v => { t with tdata1 := v }
      write2 := fun _ t v => { t with tdata2 := v }
      write3 := fun _ t v => { t with tdata3 := v }
      noTdata3 := nofun }
  smodeRangeOk := fun _ _ _ => true

/-- A trigger for one context is installed and uninstalled again. -/
def installsForContext : List (Event .rv64) :=
  [.call (.setShmem 0x80400000 0 0) fun _ => ⟨0, 0, 0, 0⟩,
   .call (.install 1) fun _ => ⟨0, 0x6000000000000014, 0x80201000, 0x2a⟩,
   .call (.uninstall 0 1) fun _ => ⟨0, 0, 0, 0⟩]

/-- Domain 1 had the hart and made these calls; a new context of domain 2 has it now. -/
def oneTriggerAfter (es : List (Event .rv64)) : Sys .rv64 :=
  history oneTrigger (boot oneTrigger 1 fun _ => ⟨0, 0, 0⟩) es 2 true

end RiscvMonitor.Dbtr
