import RiscvMonitor.SmodeWindow

/-!
# The ranges the services hold

The list of the monitor's regions does not change once the boot is over, so a range
that passed its check passes it again.  `Machine.Safe` says that of every range that is
still held: open windows, shared memories of running and of parked contexts, MSI
addresses, fast channels.
-/

namespace RiscvMonitor.Windows

open Function (update update_eq_self update_idem update_of_ne update_self)

variable {x : Xlen}

/-! ### Ranges that a window can be opened on -/

/-- A window on the range does not end in a panic. -/
def Machine.Opens (s : Machine x) (addr size : Word x) : Prop :=
  size = 0 ∨ monitorRangeClear s.memregions addr size = true

/-- A range that is kept for later, or none. -/
def Machine.Holds (s : Machine x) (addr size : Word x) : Prop :=
  addr = shmemNone ∨ s.Opens addr size

variable {addr size : Word x}

theorem opens_of_domainRangeOk {s : Machine x} {dom : Option (Domain x)} {perm : Perm}
    (hok : domainRangeOk s.memregions dom addr size perm = true) :
    s.Opens addr size := by
  unfold domainRangeOk at hok
  by_cases hsize : size = 0
  · exact .inl hsize
  · right
    rw [if_neg hsize] at hok
    by_cases hbad : addr + size - 1 < addr ∨ monitorRangeClear s.memregions addr size = false
    · rw [if_pos hbad] at hok
      cases hok
    · rw [not_or, Bool.not_eq_false] at hbad
      exact hbad.2

theorem opens_of_smodeRangeOk {s : Machine x} {h : Nat}
    (hok : ¬ smodeRangeOk s h addr size = false) : s.Opens addr size := by
  apply opens_of_domainRangeOk
  exact Bool.not_eq_false _ ▸ hok

theorem smodeAccessBegin_eq {s : Machine x} (h : Nat) (hopens : s.Opens addr size) :
    smodeAccessBegin s h addr size = some (s.setWindow h ⟨addr, size⟩) := by
  unfold smodeAccessBegin
  rw [if_neg]
  rintro ⟨hsize, hclear⟩
  rcases hopens with hzero | hopens
  · exact hsize hzero
  · rw [hopens] at hclear
    cases hclear

theorem Machine.Opens.inside {s : Machine x} {addr' size' : Word x} (hopens : s.Opens addr size)
    (hsize : size ≠ 0) (hlow : addr.toNat ≤ addr'.toNat)
    (hhigh : addr'.toNat + size'.toNat ≤ addr.toNat + size.toNat) : s.Opens addr' size' := by
  rcases hopens with hzero | hclear
  · exact absurd hzero hsize
  · exact .inr (monitorRangeClear_mono hclear hlow hhigh (lt_of_monitorRangeClear hsize hclear))

/-! ### What the machine holds -/

/-- The hart's channels are in the region, as far as `fc_hart()` compares. -/
def FastChannels.Within (fc : FastChannels x) (c : FcHart x) : Prop :=
  (∃ off ≤ fc.size - 8, c.request = fc.base + off) ∧ ∃ off ≤ fc.size - 8, c.feedback = fc.base + off

structure Machine.Safe (s : Machine x) : Prop where
  window : ∀ h, s.Opens (s.windows h).addr (s.windows h).size
  shmem : ∀ h, s.mode h ≠ .stopped → s.Holds (s.shmem h) shmemSize
  present : ∀ h, s.mode h ≠ .stopped → (s.slots (s.domain h, h)).ran = true
  away : ∀ k h, k ≠ s.domain h → (s.slots (k, h)).ran = true →
    s.Holds (s.slots (k, h)).mpxyShmem shmemSize
  dbtr : ∀ i, (s.slots i).ran = true →
    s.Holds (s.slots i).dbtrShmem ((s.slots i).dbtrCount * dbtrEntrySize)
  snapshot : ∀ i, (s.slots i).ran = true → s.Holds (s.slots i).snapshot shmemSize
  msi : ∀ ch ∈ s.channels, ch.msiControl ≠ 0 → s.Opens (ch.msiAddr.setWidth x.bits) 4
  fc : s.fc.state = .ready → s.fc.atBoot = false →
    s.Opens s.fc.base s.fc.size ∧ s.Opens s.fc.dbAddr s.fc.dbBytes
  fcHart : ∀ h, (s.fcHarts h).known = true →
    s.fc.state = .ready ∧ ((s.fcHarts h).usable = true → s.fc.Within (s.fcHarts h))

namespace Machine.Safe

variable {s : Machine x} (hs : s.Safe)
include hs

theorem setWindow (h : Nat) {w : Window x} (hw : s.Opens w.addr w.size) :
    (s.setWindow h w).Safe := by
  refine { hs with window := ?_ }
  intro i
  show s.Opens ((update s.windows h w) i).addr ((update s.windows h w) i).size
  by_cases hi : i = h
  · rw [hi, update_self]
    exact hw
  · rw [update_of_ne hi]
    exact hs.window i

theorem setShmem (h : Nat) (hholds : s.mode h ≠ .stopped → s.Holds addr shmemSize) :
    (s.setShmem h addr).Safe := by
  refine { hs with shmem := ?_ }
  intro i hmode
  show s.Holds (update s.shmem h addr i) shmemSize
  by_cases hi : i = h
  · subst hi
    rw [update_self]
    exact hholds hmode
  · rw [update_of_ne hi]
    exact hs.shmem i hmode

theorem setMode_stopped (h : Nat) : (s.setMode h .stopped).Safe := by
  have hne : ∀ i, (s.setMode h .stopped).mode i ≠ .stopped → s.mode i ≠ .stopped := by
    intro i hmode
    by_cases hi : i = h
    · subst hi
      refine absurd ?_ hmode
      exact update_self ..
    · change update s.mode h .stopped i ≠ _ at hmode
      rw [update_of_ne hi] at hmode
      exact hmode
  exact { hs with
    shmem := fun i hi => hs.shmem i (hne i hi)
    present := fun i hi => hs.present i (hne i hi) }

theorem setMode (h : Nat) (mode : HartMode) (hholds : s.Holds (s.shmem h) shmemSize)
    (hran : (s.slots (s.domain h, h)).ran = true) : (s.setMode h mode).Safe := by
  refine { hs with shmem := ?_, present := ?_ }
  · intro i hmode
    by_cases hi : i = h
    · exact hi ▸ hholds
    · refine hs.shmem i fun hstopped => hmode ?_
      show update s.mode h mode i = _
      rw [update_of_ne hi, hstopped]
  · intro i hmode
    by_cases hi : i = h
    · exact hi ▸ hran
    · refine hs.present i fun hstopped => hmode ?_
      show update s.mode h mode i = _
      rw [update_of_ne hi, hstopped]

theorem setSlot (k h : Nat) {slot : Slot x}
    (hran : k = s.domain h → s.mode h ≠ .stopped → slot.ran = true)
    (haway : slot.ran = true → k ≠ s.domain h → s.Holds slot.mpxyShmem shmemSize)
    (hdbtr : slot.ran = true → s.Holds slot.dbtrShmem (slot.dbtrCount * dbtrEntrySize))
    (hsnapshot : slot.ran = true → s.Holds slot.snapshot shmemSize) : (s.setSlot k h slot).Safe := by
  -- an index is the slot's own, or still has what it had
  have hcases : ∀ i, ((s.setSlot k h slot).slots i = slot ∧ i = (k, h)) ∨
      ((s.setSlot k h slot).slots i = s.slots i ∧ i ≠ (k, h)) := by
    intro i
    by_cases hi : i = (k, h)
    · exact .inl ⟨hi ▸ update_self .., hi⟩
    · exact .inr ⟨update_of_ne hi .., hi⟩
  refine { hs with present := ?_, away := ?_, dbtr := ?_, snapshot := ?_ }
  · intro i hmode
    rcases hcases ((s.setSlot k h slot).domain i, i) with ⟨heq, hi⟩ | ⟨heq, hi⟩
    · rw [heq]
      obtain ⟨hk, rfl⟩ := Prod.mk.inj hi
      exact hran hk.symm hmode
    · rw [heq]
      exact hs.present i hmode
  · intro k' i hne
    rcases hcases (k', i) with ⟨heq, hi⟩ | ⟨heq, hi⟩
    · rw [heq]
      obtain ⟨rfl, rfl⟩ := Prod.mk.inj hi
      exact fun hr => haway hr hne
    · rw [heq]
      exact hs.away k' i hne
  · intro i
    rcases hcases i with ⟨heq, -⟩ | ⟨heq, -⟩
    · rw [heq]
      exact hdbtr
    · rw [heq]
      exact hs.dbtr i
  · intro i
    rcases hcases i with ⟨heq, -⟩ | ⟨heq, -⟩
    · rw [heq]
      exact hsnapshot
    · rw [heq]
      exact hs.snapshot i

end Machine.Safe

/-! ### Calls that check and use, or use what was checked -/

def Fine (o : Option (Machine x × SbiError)) : Prop := ∃ r, o = some r ∧ r.1.Safe

variable {s : Machine x} {h : Nat}

theorem access_eq (hopens : s.Opens addr size) :
    access s h addr size = some (s.setWindow h ⟨addr, 0⟩) := by
  unfold access
  rw [smodeAccessBegin_eq h hopens]
  show some ((s.setWindow h ⟨addr, size⟩).setWindow h _) = _
  simp only [Machine.setWindow, update_self, update_idem]

theorem Fine.same (hs : s.Safe) (rc : SbiError) : Fine (some (s, rc)) := ⟨_, rfl, hs⟩

theorem Fine.access (hs : s.Safe) (hopens : s.Opens addr size) (rc : SbiError) :
    Fine (do some (← access s h addr size, rc)) := by
  rw [access_eq hopens]
  exact ⟨_, rfl, hs.setWindow h (.inl rfl)⟩

theorem Machine.Holds.opens (hholds : s.Holds addr size) (hne : ¬ addr = shmemNone) :
    s.Opens addr size := hholds.resolve_left hne

theorem consoleWrite_fine (hs : s.Safe) (len lo hi : Word x) :
    Fine (consoleWrite s h len lo hi) := by
  unfold consoleWrite
  split
  · exact Fine.same hs _
  · next hok =>
    rw [not_or] at hok
    apply Fine.access hs
    apply opens_of_domainRangeOk
    exact Bool.not_eq_false _ ▸ hok.2

theorem consoleRead_fine (hs : s.Safe) (len lo hi : Word x) :
    Fine (consoleRead s h len lo hi) := by
  unfold consoleRead
  split
  · exact Fine.same hs _
  · next hok => exact Fine.access hs (opens_of_smodeRangeOk (not_or.mp hok).2) _

section

variable (hs : s.Safe) (hmode : s.mode h = .smode)
include hs hmode

theorem pmuSnapshot_fine (rc : SbiError) : Fine (pmuSnapshot s h rc) := by
  have hran := hs.present h (by rw [hmode]; nofun)
  unfold pmuSnapshot
  split
  · exact Fine.same hs _
  · next hne => exact Fine.access hs ((hs.snapshot _ hran).opens hne) _

theorem pmuCounterStart_fine (counterSetOk : Bool) (flags : Word x) (rc : SbiError) :
    Fine (pmuCounterStart s h counterSetOk flags rc) := by
  unfold pmuCounterStart
  split_ifs
  · exact Fine.same hs _
  · exact Fine.same hs _
  · exact pmuSnapshot_fine hs hmode rc
  · exact Fine.same hs _

theorem pmuCounterStop_fine (counterSetOk : Bool) (flags : Word x) (rc : SbiError) :
    Fine (pmuCounterStop s h counterSetOk flags rc) := by
  unfold pmuCounterStop
  split_ifs
  · exact Fine.same hs _
  · exact pmuSnapshot_fine hs hmode rc
  · exact Fine.same hs _

end

theorem pmuEventInfo_fine (hs : s.Safe) (addr count : Word x) :
    Fine (pmuEventInfo s h addr count) := by
  unfold pmuEventInfo
  split
  · exact Fine.same hs _
  · split
    · exact Fine.same hs _
    · next hok => exact Fine.access hs (opens_of_smodeRangeOk (not_or.mp hok).2) _

theorem opens_of_sseAttrsCheck {find : SbiError} {base count : Word x}
    (hok : sseAttrsCheck s h find base count addr = .success) :
    s.Opens addr (count * sizeofLong) := by
  unfold sseAttrsCheck at hok
  split_ifs at hok with hfind _ _ hrange
  · exact absurd hok hfind
  · exact opens_of_smodeRangeOk (not_or.mp hrange).2

theorem sseAttrs_fine (hs : s.Safe) (find : SbiError) (base count addr : Word x) (rc : SbiError) :
    Fine (sseAttrs s h find base count addr rc) := by
  unfold sseAttrs
  split
  · exact Fine.same hs _
  · next hok => exact Fine.access hs (opens_of_sseAttrsCheck (not_not.mp hok)) _

theorem dbtrEntries_fine (hs : s.Safe) (hmode : s.mode h = .smode) (count : Word x)
    (rc : SbiError) : Fine (dbtrEntries s h count rc) := by
  have hran := hs.present h (by rw [hmode]; nofun)
  unfold dbtrEntries
  dsimp only
  split
  · exact Fine.same hs _
  · next hne =>
    split
    · exact Fine.same hs _
    · exact Fine.access hs ((hs.dbtr _ hran).opens hne) _

/-! ### Calls that keep a range -/

section

variable (hs : s.Safe) (hmode : s.mode h = .smode)
include hs hmode

theorem Machine.Safe.setThisSlot {slot : Slot x} (hran : slot.ran = (s.slot h).ran)
    (hdbtr : s.Holds slot.dbtrShmem (slot.dbtrCount * dbtrEntrySize))
    (hsnapshot : s.Holds slot.snapshot shmemSize) : (s.setThisSlot h slot).Safe := by
  have hpresent := hs.present h (by rw [hmode]; nofun)
  refine hs.setSlot _ h ?_ ?_ (fun _ => hdbtr) (fun _ => hsnapshot)
  · intro _ _
    exact hran.trans hpresent
  · intro _ hne
    exact absurd rfl hne

theorem pmuSnapshotSetShmem_safe (lo hi flags : Word x) :
    (pmuSnapshotSetShmem s h lo hi flags).1.Safe := by
  have hran := hs.present h (by rw [hmode]; nofun)
  unfold pmuSnapshotSetShmem
  split_ifs with _ _ _ hrange
  · exact hs
  · exact hs.setThisSlot hmode rfl (hs.dbtr _ hran) (.inl rfl)
  · exact hs
  · exact hs
  · exact hs.setThisSlot hmode rfl (hs.dbtr _ hran)
      (.inr (opens_of_smodeRangeOk (not_or.mp hrange).2))

theorem dbtrSetShmem_safe (lo hi flags : Word x) : (dbtrSetShmem s h lo hi flags).1.Safe := by
  have hran := hs.present h (by rw [hmode]; nofun)
  unfold dbtrSetShmem
  dsimp only
  split_ifs with _ _ _ hrange
  · exact hs
  · exact hs.setThisSlot hmode rfl (.inl rfl) (hs.snapshot _ hran)
  · exact hs
  · exact hs
  · exact hs.setThisSlot hmode rfl (.inr (opens_of_smodeRangeOk (not_or.mp hrange).2))
      (hs.snapshot _ hran)

end

/-! ### The message proxy -/

theorem mpxyShmemBegin_eq (hs : s.Safe) (hholds : s.Holds (s.shmem h) shmemSize) :
    ∃ w, mpxyShmemBegin s h = some (s.setWindow h w) ∧ s.Opens w.addr w.size := by
  unfold mpxyShmemBegin
  split
  · refine ⟨s.windows h, ?_, hs.window h⟩
    simp only [Machine.setWindow, update_eq_self]
  · next hne =>
    rw [smodeAccessBegin_eq h (hholds.opens hne)]
    exact ⟨_, rfl, hholds.opens hne⟩

theorem mpxyShmemEnd_safe (hs : s.Safe) (h : Nat) : (mpxyShmemEnd s h).Safe := by
  unfold mpxyShmemEnd smodeAccessEnd
  split
  · exact hs
  · exact hs.setWindow h (.inl rfl)

theorem mpxyShmemEnd_mode (s : Machine x) (h : Nat) : (mpxyShmemEnd s h).mode = s.mode := by
  unfold mpxyShmemEnd smodeAccessEnd
  split <;> rfl

theorem mpxySwitchPending_safe (hs : s.Safe) {again : Bool}
    (hholds : again = true → s.Holds (s.shmem h) shmemSize) :
    ∃ t, mpxySwitchPending s h again = some t ∧ t.Safe := by
  unfold mpxySwitchPending
  split
  · next hagain =>
    obtain ⟨w, heq, hw⟩ := mpxyShmemBegin_eq hs (hholds hagain)
    rw [heq]
    exact ⟨_, rfl, mpxyShmemEnd_safe (hs.setWindow h hw) h⟩
  · exact ⟨s, rfl, hs⟩

theorem mpxyShmemCall_fine (hs : s.Safe) (hmode : s.mode h = .smode)
    {work : Machine x → Machine x × SbiError}
    (hwork : ∀ t : Machine x, t.Safe → (work t).1.Safe ∧ (work t).1.mode = t.mode) (again : Bool) :
    Fine (mpxyShmemCall s h work again) := by
  have hholds := hs.shmem h (by rw [hmode]; nofun)
  obtain ⟨w, heq, hw⟩ := mpxyShmemBegin_eq hs hholds
  obtain ⟨hdone, hkeep⟩ := hwork _ (hs.setWindow h hw)
  have hend := mpxyShmemEnd_safe hdone h
  have hmode' : (mpxyShmemEnd (work (s.setWindow h w)).1 h).mode h ≠ .stopped := by
    rw [mpxyShmemEnd_mode, hkeep]
    show s.mode h ≠ _
    rw [hmode]
    nofun
  obtain ⟨t, ht, hsafe⟩ := mpxySwitchPending_safe hend fun _ : again = true => hend.shmem h hmode'
  unfold mpxyShmemCall
  rw [heq]
  show Fine (do some (← mpxySwitchPending _ h again, _))
  rw [ht]
  exact ⟨_, rfl, hsafe⟩

theorem shmemSize_ne_zero : (shmemSize : Word x) ≠ 0 := by cases x <;> decide

theorem two_longs_le : (2 * sizeofLong : Word x).toNat ≤ (shmemSize : Word x).toNat := by
  cases x <;> decide

theorem mpxySetShmem_fine (hs : s.Safe) (lo hi flags : Word x) :
    Fine (mpxySetShmem s h lo hi flags) := by
  unfold mpxySetShmem
  dsimp only
  split_ifs with _ _ _ hrange
  · exact Fine.same hs _
  · exact Fine.same (hs.setShmem h fun _ => .inl rfl) _
  · exact Fine.same hs _
  · exact Fine.same hs _
  · -- the two words of the answer are the first of the page
    have hopens := opens_of_smodeRangeOk (not_or.mp hrange).2
    have hwords : s.Opens lo (2 * sizeofLong) :=
      hopens.inside shmemSize_ne_zero (Nat.le_refl _) (Nat.add_le_add_left two_longs_le _)
    exact Fine.access (hs.setShmem h fun _ => .inr hopens) hwords _
  · have hopens := opens_of_smodeRangeOk (not_or.mp hrange).2
    exact Fine.same (hs.setShmem h fun _ => .inr hopens) _

theorem Machine.Safe.setChannels (hs : s.Safe) {channels : List Channel} (due : Bool)
    (hmsi : ∀ ch ∈ channels, ch.msiControl ≠ 0 → s.Opens (ch.msiAddr.setWidth x.bits) 4) :
    { s with channels := channels, indicationsDue := due : Machine x }.Safe :=
  { hs with msi := hmsi }

theorem opens_of_msiTargetOk {ch : Channel} (hok : ¬ msiTargetOk s h ch = false)
    (hcontrol : ch.msiControl ≠ 0) : s.Opens (ch.msiAddr.setWidth x.bits) 4 := by
  rw [Bool.not_eq_false, msiTargetOk, Bool.or_eq_true, Bool.and_eq_true] at hok
  rcases hok with hzero | ⟨-, hrange⟩
  · exact absurd (beq_iff_eq.mp hzero) hcontrol
  · exact opens_of_domainRangeOk hrange

theorem mpxyWriteAttributes_safe (hs : s.Safe) (channelId base count : Word x)
    (mem : Nat → BitVec 32) (rc : SbiError) :
    (mpxyWriteAttributes s h channelId base count mem rc).1.Safe ∧
      (mpxyWriteAttributes s h channelId base count mem rc).1.mode = s.mode := by
  unfold mpxyWriteAttributes
  split
  · exact ⟨hs, rfl⟩
  · split
    · exact ⟨hs, rfl⟩
    · exact ⟨hs, rfl⟩
    · next ch _ =>
      dsimp only
      split
      · exact ⟨hs, rfl⟩
      · next staged _ =>
        split
        · exact ⟨hs, rfl⟩
        · next hok =>
          refine ⟨hs.setChannels s.indicationsDue ?_, rfl⟩
          intro c hc
          obtain ⟨c', hc', rfl⟩ := List.mem_map.mp hc
          split
          · exact opens_of_msiTargetOk hok
          · exact hs.msi c' hc'

/-- A poke leaves the hart with the window it had, or with none. -/
theorem smodePoke32_eq (hs : s.Safe) (hopens : s.Opens addr 4) :
    ∃ w, smodePoke32 s h addr = some (s.setWindow h w) ∧ s.Opens w.addr w.size := by
  unfold smodePoke32
  rw [smodeAccessBegin_eq h hopens]
  simp only [Option.bind_eq_bind, Option.bind_some, smodeAccessEnd, Machine.setWindow,
    update_self, update_idem]
  split
  · have houter := smodeAccessBegin_eq (s := s.setWindow h ⟨addr, 0⟩) h (hs.window h)
    simp only [Machine.setWindow, update_idem] at houter
    exact ⟨_, houter, hs.window h⟩
  · exact ⟨⟨addr, 0⟩, rfl, .inl rfl⟩

theorem indicateChannels_safe {chs : List Channel} (hs : s.Safe)
    (hmsi : ∀ ch ∈ chs, ch.msiControl ≠ 0 → s.Opens (ch.msiAddr.setWidth x.bits) 4) :
    ∃ t, indicateChannels h chs s = some t ∧ t.Safe := by
  induction chs generalizing s with
  | nil => exact ⟨s, rfl, hs⟩
  | cons ch chs ih =>
    have hrest : ∀ c ∈ chs, c.msiControl ≠ 0 → s.Opens (c.msiAddr.setWidth x.bits) 4 :=
      fun c hc => hmsi c (List.mem_cons_of_mem _ hc)
    rw [indicateChannels]
    split
    · next hdue =>
      obtain ⟨w, heq, hw⟩ := smodePoke32_eq (h := h) hs (hmsi ch List.mem_cons_self hdue.2)
      rw [heq]
      exact ih (hs.setWindow h hw) hrest
    · exact ih hs hrest

theorem mpxyIndicate_safe (hs : s.Safe) (h : Nat) : ∃ t, mpxyIndicate s h = some t ∧ t.Safe := by
  unfold mpxyIndicate
  split
  · exact ⟨s, rfl, hs⟩
  · refine indicateChannels_safe (hs.setChannels false ?_) hs.msi
    intro ch hch
    obtain ⟨c, hc, rfl⟩ := List.mem_map.mp hch
    exact hs.msi c hc

theorem mpxyChannelEventsDue_safe (hs : s.Safe) (id : Nat) : (mpxyChannelEventsDue s id).Safe := by
  unfold mpxyChannelEventsDue
  split
  · exact hs
  · split
    · exact hs
    · refine hs.setChannels true ?_
      intro ch hch
      obtain ⟨c, hc, rfl⟩ := List.mem_map.mp hch
      split
      · exact hs.msi c hc
      · exact hs.msi c hc

/-! ### Fast channels -/

theorem fcAccept_spec {memregions : List (MemRegion x)} {boot : Bool} {r : RegionResp}
    {fc : FastChannels x} (hfc : fcAccept memregions boot r = some fc) :
    fc.state = .ready ∧ fc.atBoot = boot ∧ monitorRangeClear memregions fc.base fc.size = true ∧
      (fc.dbBytes = 0 ∨ monitorRangeClear memregions fc.dbAddr fc.dbBytes = true) := by
  unfold fcAccept at hfc
  simp only [Option.bind_eq_bind, Option.bind_eq_some_iff] at hfc
  obtain ⟨base, -, size, -, db, -, hfc⟩ := hfc
  split at hfc
  · next husable =>
    cases hfc
    simp only [fcUsable, Bool.and_eq_true, Bool.or_eq_true, beq_iff_eq] at husable
    exact ⟨rfl, rfl, husable.1.2, husable.2⟩
  · cases hfc

/-- A region that is described after the boot, and clear, does not become anything
    else. -/
theorem fcDiscover_safe (hs : s.Safe) (answer : Answer RegionResp) :
    (fcDiscover s answer).Safe := by
  unfold fcDiscover
  split
  · exact hs
  · next hunknown =>
    have hnone : ∀ h, ¬ (s.fcHarts h).known = true := fun h hknown => by
      rw [(hs.fcHart h hknown).1] at hunknown
      exact hunknown nofun
    have hrefused : { s with fc := { s.fc with state := .none } : Machine x }.Safe :=
      { hs with fc := nofun, fcHart := fun h hknown => absurd hknown (hnone h) }
    split
    · exact hs
    · exact hrefused
    · split
      · exact hrefused
      · next fc hfc =>
        obtain ⟨-, -, hregion, hdb⟩ := fcAccept_spec hfc
        exact { hs with
          fc := fun _ _ => ⟨.inr hregion, hdb⟩
          fcHart := fun h hknown => absurd hknown (hnone h) }

theorem fcOffsets_usable {fc : FastChannels x} {r : OffsetResp}
    (husable : (fcOffsets fc r).usable = true) :
    ∃ off₀ off₁ : Word x, fcOffsets fc r = ⟨true, true, fc.base + off₀, fc.base + off₁⟩ ∧
      isAligned (off₀ ||| off₁) 8 = true ∧ off₀ ≠ off₁ ∧
      off₀ ≤ fc.size - 8 ∧ off₁ ≤ fc.size - 8 := by
  unfold fcOffsets at husable ⊢
  split
  · next off₀ off₁ hoff₀ hoff₁ =>
    rw [hoff₀, hoff₁] at husable
    dsimp only at husable
    refine ⟨off₀, off₁, by rw [husable], ?_⟩
    simpa [and_assoc] using husable
  · next hno =>
    split at husable
    · next hoff₀ hoff₁ => exact absurd hoff₁ (hno _ _ hoff₀)
    · cases husable

theorem within_fcOffsets {fc : FastChannels x} {r : OffsetResp}
    (husable : (fcOffsets fc r).usable = true) : fc.Within (fcOffsets fc r) := by
  obtain ⟨off₀, off₁, heq, -, -, hoff₀, hoff₁⟩ := fcOffsets_usable husable
  rw [heq]
  exact ⟨⟨off₀, hoff₀, rfl⟩, ⟨off₁, hoff₁, rfl⟩⟩

theorem Machine.Safe.setFcHart (hs : s.Safe) (hready : s.fc.state = .ready) {c : FcHart x}
    (hwithin : c.usable = true → s.fc.Within c) :
    { s with fcHarts := update s.fcHarts h c : Machine x }.Safe := by
  refine { hs with fcHart := ?_ }
  intro i
  dsimp only
  by_cases hi : i = h
  · rw [hi, update_self]
    exact fun _ => ⟨hready, hwithin⟩
  · rw [update_of_ne hi]
    exact hs.fcHart i

/-- What `fc_hart()` hands out is in the region, and the region is there. -/
theorem fcHart_spec (hs : s.Safe) (h : Nat) (region : Answer RegionResp)
    (offsets : Answer OffsetResp) :
    (fcHart s h region offsets).1.Safe ∧ ∀ c, (fcHart s h region offsets).2 = some c →
      (fcHart s h region offsets).1.fc.state = .ready ∧
        (fcHart s h region offsets).1.fc.Within c := by
  have hd := fcDiscover_safe hs region
  unfold fcHart
  generalize fcDiscover s region = s at hd ⊢
  dsimp only
  split
  · exact ⟨hd, nofun⟩
  · next hready =>
    have hready := not_not.mp hready
    split
    · next hknown =>
      refine ⟨hd, ?_⟩
      dsimp only
      intro c hc
      split at hc
      · next husable =>
        cases hc
        exact ⟨hready, (hd.fcHart h hknown).2 husable⟩
      · cases hc
    · split
      · exact ⟨hd, nofun⟩
      · exact ⟨hd.setFcHart hready nofun, nofun⟩
      · refine ⟨hd.setFcHart hready within_fcOffsets, ?_⟩
        dsimp only
        intro c hc
        split at hc
        · next husable =>
          cases hc
          exact ⟨hready, within_fcOffsets husable⟩
        · cases hc

/-- Fast channels that a window can be opened on: found after the boot, in a
    region that has room for one. -/
def FastChannels.Fits (fc : FastChannels x) : Prop := fc.atBoot = false ∧ 8 ≤ fc.size

instance (fc : FastChannels x) : Decidable fc.Fits := inferInstanceAs (Decidable (_ ∧ _))

theorem toNat_eight : (8 : Word x).toNat = 8 := by cases x <;> rfl

theorem opens_channel {base off : Word x} (hregion : s.Opens base size) (hroom : 8 ≤ size)
    (hoff : off ≤ size - 8) : s.Opens (base + off) 8 := by
  have hsize : size ≠ 0 := by
    rintro rfl
    rw [BitVec.le_def, toNat_eight] at hroom
    simp at hroom
  have hclear := hregion.resolve_left hsize
  have hfit := lt_of_monitorRangeClear hsize hclear
  rw [BitVec.le_def, BitVec.toNat_sub_of_le hroom, toNat_eight] at hoff
  rw [BitVec.le_def, toNat_eight] at hroom
  have hsum : (base + off).toNat = base.toNat + off.toNat := toNat_add_of_lt (by omega)
  refine hregion.inside hsize (by omega) ?_
  rw [hsum, toNat_eight]
  omega

theorem fcRing_safe (hs : s.Safe) (hready : s.fc.state = .ready) (hboot : s.fc.atBoot = false) :
    ∃ t, fcRing s h = some t ∧ t.Safe := by
  unfold fcRing
  split
  · exact ⟨s, rfl, hs⟩
  · rw [access_eq (hs.fc hready hboot).2]
    exact ⟨_, rfl, hs.setWindow h (.inl rfl)⟩

theorem cppcWrite_fine (hs : s.Safe) (reg : BitVec 32) (val : BitVec 64)
    (region : Answer RegionResp) (offsets : Answer OffsetResp) (reply : SbiError)
    (hfits : fcWrites s.fc reg val = true → (fcHart s h region offsets).2.isSome = true →
      (fcHart s h region offsets).1.fc.Fits) :
    Fine (cppcWrite s h reg val region offsets reply) := by
  obtain ⟨ht, hchan⟩ := fcHart_spec hs h region offsets
  unfold cppcWrite
  split
  · exact Fine.same hs _
  · next hwrites =>
    replace hfits := hfits (Bool.not_eq_false _ ▸ hwrites)
    generalize fcHart s h region offsets = r at ht hchan hfits ⊢
    obtain ⟨t, _ | c⟩ := r
    · exact Fine.same ht _
    · obtain ⟨hready, ⟨off, hoff, hreq⟩, -⟩ := hchan c rfl
      obtain ⟨hboot, hroom⟩ := hfits rfl
      have hopens : t.Opens c.request 8 :=
        hreq ▸ opens_channel (ht.fc hready hboot).1 hroom hoff
      have hclosed : (t.setWindow h ⟨c.request, 0⟩).Safe := ht.setWindow h (.inl rfl)
      obtain ⟨u, hu, hsafe⟩ := fcRing_safe (h := h) hclosed hready hboot
      dsimp only
      rw [access_eq hopens]
      show Fine (do some (← fcRing (t.setWindow h ⟨c.request, 0⟩) h, _))
      rw [hu]
      exact ⟨_, rfl, hsafe⟩

theorem cppcRead_fine (hs : s.Safe) (reg : BitVec 32) (region : Answer RegionResp)
    (offsets : Answer OffsetResp) (reply : SbiError)
    (hfits : s.feedbackAsDelivered = true → reg = 12 →
      (fcHart s h region offsets).2.isSome = true → (fcHart s h region offsets).1.fc.Fits) :
    Fine (cppcRead s h reg region offsets reply) := by
  obtain ⟨ht, hchan⟩ := fcHart_spec hs h region offsets
  unfold cppcRead
  split
  · exact Fine.same hs _
  · next hreads =>
    rw [not_or, Bool.not_eq_false, not_not] at hreads
    replace hfits := hfits hreads.1 hreads.2
    generalize fcHart s h region offsets = r at ht hchan hfits ⊢
    obtain ⟨t, _ | c⟩ := r
    · exact Fine.same ht _
    · obtain ⟨hready, -, ⟨off, hoff, hfeed⟩⟩ := hchan c rfl
      obtain ⟨hboot, hroom⟩ := hfits rfl
      refine Fine.access ht ?_ _
      exact hfeed ▸ opens_channel (ht.fc hready hboot).1 hroom hoff

end RiscvMonitor.Windows
