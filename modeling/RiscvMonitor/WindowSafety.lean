import RiscvMonitor.WindowCalls

/-!
# No window on the monitor's memory

Whole runs: harts start, stop and change domain between the calls.  From any boot on,
no step asks for a window on the monitor's memory, with one exception.  A fast channel
region found at boot is made the monitor's own by `fc_discover()`, and the first write
then asks for a window on it; and a region smaller than a channel passes the comparison
of the offsets, which wraps.
-/

namespace RiscvMonitor.Windows

open Function (update update_eq_self update_idem update_of_ne update_self)
open Runs

variable {x : Xlen} {s : Machine x} {h : Nat}

/-! ### Harts -/

theorem hartStart_safe (hs : s.Safe) (h : Nat) (triggers : Word x) :
    (hartStart s h triggers).Safe := by
  have hslot : (s.setThisSlot h ((s.slot h).init triggers)).Safe := by
    refine hs.setSlot _ h (fun _ _ => rfl) ?_ (fun _ => .inl rfl) (fun _ => .inl rfl)
    intro _ hne
    exact absurd rfl hne
  have hshmem : ((s.setThisSlot h ((s.slot h).init triggers)).setShmem h shmemNone).Safe :=
    hslot.setShmem h fun _ => .inl rfl
  refine hshmem.setMode h .smode (.inl ?_) ?_
  · exact update_self ..
  · show (update s.slots (s.domain h, h) _ (s.domain h, h)).ran = true
    rw [update_self]

theorem Machine.Safe.setDomain (hs : s.Safe) (k : Nat)
    (hran : s.mode h ≠ .stopped → (s.slots (k, h)).ran = true)
    (hleft : (s.slot h).ran = true → s.Holds (s.slot h).mpxyShmem shmemSize) :
    { s with domain := update s.domain h k : Machine x }.Safe := by
  refine { hs with present := ?_, away := ?_ }
  · intro i hmode
    dsimp only at hmode ⊢
    by_cases hi : i = h
    · subst hi
      rw [update_self]
      exact hran hmode
    · rw [update_of_ne hi]
      exact hs.present i hmode
  · intro k' i hne
    dsimp only at hne ⊢
    by_cases hi : i = h
    · subst hi
      by_cases hk : k' = s.domain i
      · rw [hk]
        exact hleft
      · exact hs.away k' i hk
    · rw [update_of_ne hi] at hne
      exact hs.away k' i hne

theorem setMode_smode_of_stopped {t : Machine x} (hmode : s.mode h = .smode)
    (ht : t.mode = update s.mode h .stopped) :
    t.setMode h .smode = { t with mode := s.mode } := by
  simp only [Machine.setMode, ht, update_idem]
  rw [← hmode, update_eq_self]

theorem Machine.Safe.startOver (hs : s.Safe) {k : Nat} (hne : k ≠ s.domain h) (slot : Slot x)
    (triggers : Word x) :
    ((s.setShmem h shmemNone).setSlot k h ({ slot with mpxyShmem := shmemNone }.init triggers)).Safe :=
  (hs.setShmem h fun _ => .inl rfl).setSlot k h (fun hk => absurd hk hne)
    (fun _ _ => .inl rfl) (fun _ => .inl rfl) fun _ => .inl rfl

theorem contextRestore_safe {k : Nat} (hs : (s.setMode h .stopped).Safe)
    (hmode : s.mode h = .smode) (hne : k ≠ s.domain h)
    (hleft : (s.slot h).ran = true → s.Holds (s.slot h).mpxyShmem shmemSize) (triggers : Word x) :
    (contextRestore s h k triggers).Safe := by
  unfold contextRestore
  dsimp only
  split
  · next hran =>
    have hholds := hs.away k h hne hran
    have hdomain := (hs.setDomain k (fun _ => hran) hleft).setShmem h fun _ => hholds
    have hback := hdomain.setMode h .smode ?_ ?_
    · rw [setMode_smode_of_stopped hmode rfl] at hback
      exact hback
    · show s.Holds (update s.shmem h _ h) shmemSize
      rw [update_self]
      exact hholds
    · show (s.slots (update s.domain h k h, h)).ran = true
      rw [update_self]
      exact hran
  · have hother : ∀ slot, update s.slots (k, h) slot (s.domain h, h) = s.slot h := by
      intro slot
      exact update_of_ne (fun heq => hne (Prod.mk.inj heq).1.symm) ..
    have hdomain := (hs.startOver hne (s.slots (k, h)) triggers).setDomain (h := h) k ?_ ?_
    · cases (s.domains k).elim false fun dom => dom.bootHart == some h with
      | false => exact hdomain
      | true =>
        have hback := hdomain.setMode h .smode (.inl ?_) ?_
        · simp only [Machine.setMode, Machine.setSlot, Machine.setShmem,
            update_idem] at hback
          exact hback
        · exact update_self ..
        · show (update s.slots (k, h) _ (update s.domain h k h, h)).ran = true
          rw [update_self, update_self]
          rfl
    · intro hstopped
      exact absurd (update_self ..) hstopped
    · show (update s.slots (k, h) _ (s.domain h, h)).ran = true → s.Holds _ _
      rw [hother]
      show _ → s.Holds (update s.slots (k, h) _ (s.domain h, h)).mpxyShmem _
      rw [hother]
      exact hleft

theorem contextRestore_mode {k : Nat} (hran : (s.slots (k, h)).ran = true) (triggers : Word x) :
    (contextRestore s h k triggers).mode = s.mode := by
  unfold contextRestore
  dsimp only
  rw [if_pos hran]
  rfl

theorem answer_safe {k : Nat} {triggers : Word x} (hs : (contextRestore s h k triggers).Safe)
    (hmode : s.mode h = .smode) {again : Bool}
    (hran : again = true → (s.slots (k, h)).ran = true) :
    ∃ t, mpxySwitchPending (contextRestore s h k triggers) h again = some t ∧ t.Safe := by
  apply mpxySwitchPending_safe hs
  intro hagain
  apply hs.shmem
  rw [contextRestore_mode (hran hagain), hmode]
  nofun

theorem domainSwitch_safe {k : Nat} (hs : s.Safe) (hmode : s.mode h = .smode)
    (hne : k ≠ s.domain h) (triggers : Word x) (resumed : Bool) :
    ∃ t, domainSwitch s h k triggers resumed = some t ∧ t.Safe := by
  have hholds := hs.shmem h (by rw [hmode]; nofun)
  have hran := hs.present h (by rw [hmode]; nofun)
  unfold domainSwitch
  dsimp only
  have hother : ∀ slot, update s.slots (s.domain h, h) slot (k, h) = s.slots (k, h) :=
    fun slot => update_of_ne (fun heq => hne (Prod.mk.inj heq).1) ..
  have hsaved : (s.setThisSlot h { s.slot h with mpxyShmem := s.shmem h }).Safe :=
    hs.setThisSlot hmode rfl (hs.dbtr _ hran) (hs.snapshot _ hran)
  have hbetween : (Machine.setShmem _ h shmemNone).Safe := hsaved.setShmem h fun _ => .inl rfl
  refine answer_safe (contextRestore_safe (hbetween.setMode_stopped h) hmode hne ?_ triggers) hmode ?_
  · intro _
    show s.Holds (update s.slots (s.domain h, h) _ (s.domain h, h)).mpxyShmem shmemSize
    rw [update_self]
    exact hholds
  · intro hagain
    show (update s.slots (s.domain h, h) _ (k, h)).ran = true
    rw [hother]
    rw [Bool.and_eq_true] at hagain
    simpa only [Bool.not_eq_true', decide_eq_false_iff_not, Bool.not_eq_false] using hagain.2

theorem domainStopSelf_safe (hs : s.Safe) (hmode : s.mode h = .smode) {back : Option Nat}
    (hback : ∀ k ∈ back, k ≠ s.domain h ∧ (s.slots (k, h)).ran = true) (resumed : Bool) :
    ∃ t, domainStopSelf s h back resumed = some t ∧ t.Safe := by
  have hgone : ((s.setThisSlot h { s.slot h with ran := false }).setMode h .stopped).Safe := by
    refine (hs.setMode_stopped h).setSlot (s.domain h) h ?_ nofun nofun nofun
    intro _ hstopped
    exact absurd (update_self ..) hstopped
  unfold domainStopSelf
  dsimp only
  cases back with
  | none => exact ⟨_, rfl, hgone⟩
  | some k =>
    obtain ⟨hne, hran⟩ := hback k rfl
    refine answer_safe (contextRestore_safe hgone hmode hne ?_ 0) hmode ?_
    · intro hleft
      change (update s.slots (s.domain h, h) _ (s.domain h, h)).ran = true at hleft
      rw [update_self] at hleft
      cases hleft
    · intro _
      show (update s.slots (s.domain h, h) _ (k, h)).ran = true
      rw [update_of_ne (fun heq => hne (Prod.mk.inj heq).1)]
      exact hran

/-- A call that goes by the fast channels finds some that fit. -/
def Call.Fits (s : Machine x) (h : Nat) : Call x → Prop
  | .cppcRead reg region offsets _ => s.feedbackAsDelivered = true → reg = 12 →
      (fcHart s h region offsets).2.isSome = true → (fcHart s h region offsets).1.fc.Fits
  | .cppcWrite reg val region offsets _ => fcWrites s.fc reg val = true →
      (fcHart s h region offsets).2.isSome = true → (fcHart s h region offsets).1.fc.Fits
  | _ => True

def Event.Fits (s : Machine x) : Event x → Prop
  | .call h c => s.mode h = .smode → c.Fits s h
  | _ => True

theorem ecall_fine (hs : s.Safe) (hmode : s.mode h = .smode) (c : Call x) (hfits : c.Fits s h) :
    Fine (ecall s h c) := by
  cases c with
  | consoleWrite len lo hi => exact consoleWrite_fine hs len lo hi
  | consoleRead len lo hi => exact consoleRead_fine hs len lo hi
  | pmuSnapshotSetShmem lo hi flags =>
    exact ⟨_, rfl, pmuSnapshotSetShmem_safe hs hmode lo hi flags⟩
  | pmuCounterStart ok flags rc => exact pmuCounterStart_fine hs hmode ok flags rc
  | pmuCounterStop ok flags rc => exact pmuCounterStop_fine hs hmode ok flags rc
  | pmuEventInfo addr count => exact pmuEventInfo_fine hs addr count
  | sseAttrs find base count addr rc => exact sseAttrs_fine hs find base count addr rc
  | dbtrSetShmem lo hi flags => exact ⟨_, rfl, dbtrSetShmem_safe hs hmode lo hi flags⟩
  | dbtrEntries count rc => exact dbtrEntries_fine hs hmode count rc
  | mpxySetShmem lo hi flags => exact mpxySetShmem_fine hs lo hi flags
  | mpxyRead rc again => exact mpxyShmemCall_fine hs hmode (fun _ ht => ⟨ht, rfl⟩) again
  | mpxyWriteAttributes id base count mem rc again =>
    exact mpxyShmemCall_fine hs hmode
      (fun _ ht => mpxyWriteAttributes_safe ht id base count mem rc) again
  | cppcRead reg region offsets reply => exact cppcRead_fine hs reg region offsets reply hfits
  | cppcWrite reg val region offsets reply =>
    exact cppcWrite_fine hs reg val region offsets reply hfits

theorem step_safe (hs : s.Safe) (e : Event x) (hfits : e.Fits s) : ∃ t, step s e = some t ∧ t.Safe := by
  have hsame : ∃ t, some s = some t ∧ t.Safe := ⟨s, rfl, hs⟩
  cases e with
  | call h c =>
    rw [step]
    split
    · next hmode =>
      obtain ⟨r, hr, hsafe⟩ := ecall_fine hs hmode c (hfits hmode)
      rw [hr]
      exact ⟨_, rfl, hsafe⟩
    · exact hsame
  | sendMessage h =>
    rw [step]
    split
    · next hsend =>
      have hholds := hs.shmem h (by rw [hsend.1]; nofun)
      obtain ⟨w, heq, hw⟩ := mpxyShmemBegin_eq hs hholds
      rw [heq]
      exact ⟨_, rfl, (hs.setWindow h hw).setMode h .waiting hholds
        (hs.present h (by rw [hsend.1]; nofun))⟩
    · exact hsame
  | sendDone h again =>
    rw [step]
    split
    · next hwaiting =>
      have hend := mpxyShmemEnd_safe hs h
      have hne : (mpxyShmemEnd s h).mode h ≠ .stopped := by
        rw [mpxyShmemEnd_mode, hwaiting]
        nofun
      have hback := hend.setMode h .smode (hend.shmem h hne) (hend.present h hne)
      exact mpxySwitchPending_safe hback fun _ => hend.shmem h hne
    · exact hsame
  | indicate h => exact mpxyIndicate_safe hs h
  | eventsDue id => exact ⟨_, rfl, mpxyChannelEventsDue_safe hs id⟩
  | hartStart h triggers =>
    refine ⟨_, rfl, ?_⟩
    split
    · exact hs
    · exact hartStart_safe hs h triggers
  | hartStop h =>
    refine ⟨_, rfl, ?_⟩
    split
    · exact hs
    · exact hs.setMode_stopped h
  | domainSwitch h k triggers resumed =>
    rw [step]
    split
    · next hok => exact domainSwitch_safe hs hok.1 hok.2 triggers resumed
    · exact hsame
  | domainStopSelf h back resumed =>
    rw [step]
    split
    · next hok => exact domainStopSelf_safe hs hok.1 hok.2 resumed
    · exact hsame
  | contextDropped k h =>
    refine ⟨_, rfl, ?_⟩
    split
    · exact hs
    · next hne => exact hs.setSlot k h (fun hk => absurd hk hne) nofun nofun nofun

theorem mpxyChannelRegister_msi {sseEvents : Nat} {channels : List Channel × Nat}
    (hoff : ∀ ch ∈ channels.1, ch.msiControl = 0) (node : ChannelNode) :
    ∀ ch ∈ (mpxyChannelRegister sseEvents channels node).1, ch.msiControl = 0 := by
  intro ch hch
  unfold mpxyChannelRegister at hch
  split at hch
  · exact hoff ch hch
  · dsimp only at hch
    rcases List.mem_append.mp hch with hch | hch
    · exact hoff ch ((List.takeWhile_sublist _).mem hch)
    · rcases List.mem_cons.mp hch with rfl | hch
      · rfl
      · exact hoff ch ((List.dropWhile_sublist _).mem hch)

theorem channels_off {sseEvents : Nat} (nodes : List ChannelNode) {channels : List Channel × Nat}
    (hoff : ∀ ch ∈ channels.1, ch.msiControl = 0) :
    ∀ ch ∈ (nodes.foldl (mpxyChannelRegister sseEvents) channels).1, ch.msiControl = 0 := by
  induction nodes generalizing channels with
  | nil => exact hoff
  | cons node nodes ih => exact ih (mpxyChannelRegister_msi hoff node)

theorem fcDiscoverBoot_atBoot {image : Image x} {memregions memregions' : List (MemRegion x)}
    {answer : Answer RegionResp} {fc : FastChannels x}
    (hfc : fcDiscoverBoot image memregions answer = some (memregions', fc))
    (hready : fc.state = .ready) : fc.atBoot = true := by
  unfold fcDiscoverBoot at hfc
  split at hfc
  · cases hfc
    cases hready
  · cases hfc
    cases hready
  · split at hfc
    · cases hfc
      cases hready
    · next hfc' =>
      obtain ⟨regions, -, heq⟩ := Option.bind_eq_some_iff.mp hfc
      cases heq
      exact (fcAccept_spec hfc').2.1

theorem Boot.machine_safe {b : Boot x} (hboot : b.machine = some s) : s.Safe := by
  unfold Boot.machine at hboot
  simp only [Option.bind_eq_bind, Option.bind_eq_some_iff] at hboot
  obtain ⟨regions, -, ⟨regions', fc⟩, hfc, regions'', -, heq⟩ := hboot
  cases heq
  exact
    { window := fun _ => .inl rfl
      shmem := fun _ hmode => absurd rfl hmode
      present := fun _ hmode => absurd rfl hmode
      away := nofun
      dbtr := nofun
      snapshot := nofun
      msi := fun ch hch hon => by
        refine absurd (channels_off b.channels ?_ ch hch) hon
        exact fun _ hnil => absurd hnil List.not_mem_nil
      fc := fun hready hno => by
        rw [fcDiscoverBoot_atBoot hfc hready] at hno
        cases hno
      fcHart := nofun }

/-- A boot of one hart in the root domain, the image its only region. -/
def plainBoot (answer : Answer RegionResp) : Boot .rv64 where
  image := ⟨0x80000000, 0x40000⟩
  before := [⟨0x80000000, 0x40000, .mmodeRw⟩]
  after := []
  answer := answer
  domains := fun _ => some (rootDomain {0} 0 0x80200000 .supervisor)
  home := fun _ => 0
  channels := []
  sseEvents := 0
  feedbackAsDelivered := false

def pageOfChannels : Answer RegionResp := .ok ⟨0, 0x90000000, 0, 0x1000, 0, 0, 0⟩

def desiredPerf : List (Event .rv64) :=
  [.hartStart 0 0, .call 0 (.cppcWrite 5 1 pageOfChannels (.ok ⟨0, 0, 8, 0⟩) .success)]

end RiscvMonitor.Windows
