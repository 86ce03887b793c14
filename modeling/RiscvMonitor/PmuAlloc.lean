import RiscvMonitor.PmuOwners

/-!
# Handing out a counter

`pmu_counter_config()` looks in a set of counters for a free one that can count the
event.  Neither it nor the calls that follow touch a counter that they do not name.
-/

namespace RiscvMonitor.Pmu

open Masks

variable {x : Xlen}

def canCount (cfg : Config x) (event : BitVec 32) (data : BitVec 64) (n : Nat) : Prop :=
  if eventType event = eventTypeFw then eventCode event < fwMax ∧ fwFirst ≤ n
  else n < fwFirst ∧ ((hwEventLookup cfg event data).1 &&& cfg.hwCounters).getLsbD n = true

instance (cfg : Config x) (event : BitVec 32) (data : BitVec 64) (n : Nat) :
    Decidable (canCount cfg event data n) := by
  unfold canCount
  infer_instance

section

variable {cfg : Config x} {b b' : Hart x} {base mask flags eventIdx : Word x} {data : BitVec 64}
  {c n : Nat} {event : BitVec 32}

theorem canCount_type (hcan : canCount cfg event data n) :
    eventType event = eventTypeFw ↔ fwFirst ≤ n := by
  unfold canCount at hcan
  split at hcan
  · next hfw => exact iff_of_true hfw hcan.2
  · next hhw => exact iff_of_false hhw (Nat.not_le.mpr hcan.1)

/-- What `pmu_counter_config()` comes to where it looks for a counter. -/
inductive Match (cfg : Config x) (b : Hart x) (base mask flags eventIdx : Word x)
    (data : BitVec 64) : Hart x × SbiError × Word x → Prop
  | invalid (hbad : counterSetOk cfg base mask = false ∨ 0xfffff < eventIdx.toNat) :
      Match cfg b base mask flags eventIdx data (b, .invalidParam, 0)
  | none (hnone : ∀ n ∈ named base mask, b.p.event n = eventNone →
        ¬ canCount cfg (eventIdx.setWidth 32) data n) :
      Match cfg b base mask flags eventIdx data (b, .notSupported, 0)
  | found {c : Nat} {select : BitVec 64} (hset : counterSetOk cfg base mask = true)
      (hidx : eventIdx.toNat ≤ 0xfffff) (hc : c ∈ named base mask)
      (hfree : b.p.event c = eventNone) (hcan : canCount cfg (eventIdx.setWidth 32) data c) :
      Match cfg b base mask flags eventIdx data
        (configOne cfg b c flags (eventIdx.setWidth 32) select, .success, BitVec.ofNat x.bits c)

theorem counterConfig_match (hmatch : cfgSkipMatch flags = false) :
    Match cfg b base mask flags eventIdx data
      (counterConfig cfg b base mask flags eventIdx data) := by
  unfold counterConfig
  dsimp only
  split
  · next hbad => exact .invalid hbad
  · next hok =>
    obtain ⟨hset, hidx⟩ := not_or.mp hok
    split
    · next hfw =>
      refine .none fun n _ _ hcan => ?_
      rw [canCount, if_pos (beq_iff_eq.mp hfw.1)] at hcan
      exact absurd hfw.2 (BitVec.not_le.mpr hcan.1)
    next hcode =>
    split
    · next hhw =>
      refine .none fun n _ _ hcan => ?_
      rw [canCount, if_neg (beq_eq_false_iff_ne.mp hhw.1), hhw.2] at hcan
      simp at hcan
    split
    · next rc htarget =>
      obtain ⟨rfl, hnone⟩ := configTarget_error htarget hmatch
      refine .none fun n hn hfree hcan => hnone n hn hfree ?_ fun hhw => ?_
      · rw [Bool.eq_iff_iff, beq_iff_eq, canCount_type hcan, decide_eq_true_eq]
      · rw [canCount, if_neg (beq_eq_false_iff_ne.mp hhw)] at hcan
        exact hcan.2
    · next c htarget =>
      obtain ⟨hc, hfw, hfound⟩ := configTarget_ok htarget
      obtain ⟨hfree, hbit⟩ := hfound hmatch
      refine .found (Bool.not_eq_false _ ▸ hset) (Nat.not_lt.mp hidx) hc hfree ?_
      unfold canCount
      split
      · next htype =>
        rw [beq_iff_eq.mpr htype] at hfw hcode
        exact ⟨BitVec.not_le.mp fun hge => hcode ⟨rfl, hge⟩, of_decide_eq_true hfw.symm⟩
      · next htype =>
        rw [beq_eq_false_iff_ne.mpr htype] at hfw hbit
        exact ⟨Nat.not_le.mp (of_decide_eq_false hfw.symm), hbit rfl⟩

/-! ### What is left alone -/

/-- Whose the counter is, its selector, its value and whether it counts are what they were. -/
structure Spared (cfg : Config x) (b b' : Hart x) (n : Nat) : Prop where
  counter : b'.counter cfg n = b.counter cfg n
  value : counterValue b' n = counterValue b n

theorem lt_of_counterExists (hc : counterExists cfg c = true) : c < counterCount := by
  rcases counterExists_iff.mp hc with ⟨-, hlt⟩ | ⟨hlt, -⟩
  · exact hlt
  · exact hlt.trans_le (Nat.le_add_right ..)

theorem fwSlot_ne (hc : c < counterCount) (hn : n < counterCount) (hcfw : fwFirst ≤ c)
    (hnfw : fwFirst ≤ n) (hne : n ≠ c) : fwSlot n ≠ fwSlot c := by
  simp only [counterCount, hwCounterCount, fwCounterCount, fwFirst] at *
  simp only [fwSlot, Fin.ofNat, ne_eq, Fin.mk.injEq, fwFirst, hwCounterCount]
  omega

theorem counterStartOne_value (n : Nat) :
    counterValue (counterStartOne cfg b c) n = counterValue b n := by
  unfold counterStartOne
  split
  · rfl
  · dsimp only
    split
    · simp only [counterValue, clearInhibit, (eventWrite_rest ..).2.1]
    · rfl

theorem stopOne_value (r : Hart x × SbiError × Mem) (c : Nat × Nat) (n : Nat) :
    counterValue (stopOne cfg flags r c).1 n = counterValue r.1 n := by
  have hstop : counterValue (stopCounter r.1 c.2) n = counterValue r.1 n := by
    unfold stopCounter
    split <;> rfl
  unfold stopOne resetCounter
  dsimp only
  rw [← hstop]
  split
  · split
    · rfl
    · split <;> simp only [counterValue, clearInhibit, (eventWrite_rest ..).2.1]
  · rfl

theorem setValue_value (hc : counterExists cfg c = true) (hn : n < counterCount) (hne : n ≠ c)
    (v : BitVec 64) : counterValue (setValue b c v) n = counterValue b n := by
  unfold counterValue setValue
  split
  · next hnfw =>
    split
    · next hcfw =>
      exact Function.update_of_ne (fwSlot_ne (lt_of_counterExists hc) hn hcfw hnfw hne) ..
    · rfl
  · split
    · rfl
    · exact Function.update_of_ne hne ..

theorem configOne_spared (hc : counterExists cfg c = true)
    (hcan : canCount cfg event data c) (hn : n < counterCount) (hne : n ≠ c) (flags : Word x)
    (select : BitVec 64) : Spared cfg b (configOne cfg b c flags event select) n := by
  have htype := canCount_type hcan
  refine ⟨(configOne_counter hc flags htype select n).trans (if_neg hne), ?_⟩
  have hauto : ∀ done : Hart x,
      counterValue (if cfgAutoStart flags then counterStartOne cfg done c else done) n =
        counterValue done n := by
    intro done
    split
    · exact counterStartOne_value n
    · rfl
  have hclear := setValue_value (b := b) hc hn hne 0
  unfold configOne configHw
  dsimp only
  rw [hauto]
  split
  · next hfw =>
    rw [setValue, if_pos (htype.mp hfw)] at hclear
    split
    · exact hclear
    · rfl
  · next hhw =>
    rw [setValue, if_neg (mt htype.mpr hhw)] at hclear
    split
    · simpa only [counterValue, counterWrite, setInhibit, (eventWrite_rest ..).2.1] using hclear
    · simp only [counterValue, setInhibit, (eventWrite_rest ..).2.1]

theorem foldl_spared {S : Type*} (hart : S → Hart x) (op : S → Nat × Nat → S)
    (l : List (Nat × Nat)) (hop : ∀ s, ∀ c ∈ l, Spared cfg (hart s) (hart (op s c)) n) (s : S) :
    Spared cfg (hart s) (hart (l.foldl op s)) n := by
  induction l generalizing s with
  | nil => exact ⟨rfl, rfl⟩
  | cons c l ih =>
    have hstep := hop s c List.mem_cons_self
    have hrest := ih (fun s c hc => hop s c (List.mem_cons_of_mem _ hc)) (op s c)
    exact ⟨hrest.counter.trans hstep.counter, hrest.value.trans hstep.value⟩

theorem counterStart_spared (hn : n < counterCount) (hout : n ∉ named base mask)
    (value : BitVec 64) (mem : Mem) :
    Spared cfg b (counterStart cfg b base mask flags value mem).1 n := by
  unfold counterStart
  split
  · exact ⟨rfl, rfl⟩
  · next hok =>
    split
    · exact ⟨rfl, rfl⟩
    split
    · exact ⟨rfl, rfl⟩
    refine foldl_spared Prod.fst (startOne cfg flags value mem) _ ?_ (b, .success)
    intro s c hc
    have hexists := counterExists_of_selected (Bool.not_eq_false _ ▸ hok) hc
    have hne : n ≠ c.2 := fun heq => hout (List.mem_map.mpr ⟨c, hc, heq.symm⟩)
    refine ⟨(startOne_counter hexists flags value mem s n).trans (if_neg hne), ?_⟩
    unfold startOne
    split
    · rfl
    split
    · rfl
    · dsimp only
      rw [counterStartOne_value]
      split
      · exact setValue_value hexists hn hne _
      · rfl

theorem counterStop_spared (hout : n ∉ named base mask) (mem : Mem) :
    Spared cfg b (counterStop cfg b base mask flags mem).1 n := by
  unfold counterStop
  split
  · exact ⟨rfl, rfl⟩
  · next hok =>
    split
    · exact ⟨rfl, rfl⟩
    refine foldl_spared Prod.fst (stopOne cfg flags) _ ?_ (b, .success, _)
    intro s c hc
    have hexists := counterExists_of_selected (Bool.not_eq_false _ ▸ hok) hc
    have hne : n ≠ c.2 := fun heq => hout (List.mem_map.mpr ⟨c, hc, heq.symm⟩)
    exact ⟨(stopOne_counter hexists flags s n).trans (if_neg hne), stopOne_value s c n⟩

end

/-- `pmu_counter_config()` without `SKIP_MATCH` hands out a counter of the set that was free and
    can count the event, if there is one; and neither it nor a start or a stop touches a counter
    that it does not name. -/
theorem counter_allocation (cfg : Config x) (b : Hart x) (base mask flags eventIdx : Word x)
    (data : BitVec 64) (hmatch : cfgSkipMatch flags = false) :
    let r := counterConfig cfg b base mask flags eventIdx data
    (r.2.1 = .success → r.2.2.toNat ∈ named base mask ∧ counterExists cfg r.2.2.toNat = true ∧
      b.p.event r.2.2.toNat = eventNone ∧ canCount cfg (eventIdx.setWidth 32) data r.2.2.toNat) ∧
    (r.2.1 = .notSupported → ∀ n ∈ named base mask, counterExists cfg n = true →
      b.p.event n = eventNone → ¬ canCount cfg (eventIdx.setWidth 32) data n) ∧
    (∀ n < counterCount, n ∉ named base mask → Spared cfg b r.1 n) ∧
    ∀ (b' : Hart x) (base mask flags : Word x), ∀ n < counterCount, n ∉ named base mask →
      (∀ value mem, Spared cfg b' (counterStart cfg b' base mask flags value mem).1 n) ∧
        ∀ mem, Spared cfg b' (counterStop cfg b' base mask flags mem).1 n := by
  intro r
  have hr : Match cfg b base mask flags eventIdx data r := counterConfig_match hmatch
  refine ⟨?_, ?_, ?_, fun b' base mask flags n hn hout => ⟨?_, ?_⟩⟩
  · intro hok
    generalize r = r at hr hok
    cases hr with
    | invalid | none => cases hok
    | @found c select hset hidx hc hfree hcan =>
      have hexists := counterExists_of_named hset hc
      have hnat : (BitVec.ofNat x.bits c).toNat = c := by
        rw [BitVec.toNat_ofNat]
        exact Nat.mod_eq_of_lt ((lt_of_counterExists hexists).trans (by cases x <;> decide))
      rw [hnat]
      exact ⟨hc, hexists, hfree, hcan⟩
  · intro hno n hn _ hfree
    generalize r = r at hr hno
    cases hr with
    | invalid | found => cases hno
    | none hnone => exact hnone n hn hfree
  · intro n hn hout
    generalize r = r at hr
    cases hr with
    | invalid | none => exact ⟨rfl, rfl⟩
    | found hset hidx hc hfree hcan =>
      refine configOne_spared (counterExists_of_named hset hc) hcan hn ?_ flags _
      rintro rfl
      exact hout hc
  · exact fun value mem => counterStart_spared hn hout value mem
  · exact fun mem => counterStop_spared hout mem

/-- `cycle` is handed out from a set of two. -/
theorem counter_allocation_cycle :
    ∃ r, counterConfig (fixedOnly true) ⟨emptyRecord, .zero⟩ 0 5 0 1 0 = r ∧ r.2.1 = .success ∧
      r.2.2 = 0 ∧ canCount (fixedOnly true) 1 0 0 ∧
      Spared (fixedOnly true) ⟨emptyRecord, .zero⟩ r.1 32 := by
  obtain ⟨hfound, -, hframe, -⟩ :=
    counter_allocation (fixedOnly true) ⟨emptyRecord, .zero⟩ 0 5 0 1 0 (by decide)
  exact ⟨_, rfl, rfl, rfl, (hfound rfl).2.2.2, hframe 32 (by decide) (by decide)⟩

/-! ### What there is a counter for -/

/-- `pmu_event_info()` takes an index beyond the twenty bits of one where the event is the
    firmware's. -/
def indexInRange (event : BitVec 32) : Prop :=
  event ≤ 0xfffff#32 ∨ eventType event ≠ eventTypeFw ∨ fwMax ≤ eventCode event

instance (event : BitVec 32) : Decidable (indexInRange event) :=
  inferInstanceAs (Decidable (_ ∨ _ ∨ _))

theorem exists_canCount {cfg : Config x} {base mask : Word x} {event : BitVec 32}
    {data : BitVec 64} (hall : ∀ n, counterExists cfg n = true →
      (eventType event = eventTypeFw ↔ fwFirst ≤ n) → n ∈ named base mask) :
    (∃ n ∈ named base mask, canCount cfg event data n) ↔
      if eventType event = eventTypeFw then eventCode event < fwMax
      else has (hwEventLookup cfg event data).1 cfg.hwCounters = true := by
  unfold canCount
  split
  · next hfw =>
    refine ⟨fun ⟨_, _, hcan⟩ => hcan.1, fun hlt => ⟨fwFirst, hall _ ?_ ?_, hlt, le_rfl⟩⟩
    · exact counterExists_iff.mpr (.inl ⟨le_rfl, by decide⟩)
    · exact iff_of_true hfw le_rfl
  · next hhw =>
    rw [has, bne_iff_ne]
    constructor
    · rintro ⟨n, -, -, hbit⟩ hzero
      rw [hzero] at hbit
      simp at hbit
    · intro hne
      obtain ⟨n, hbit⟩ : ∃ n,
          ((hwEventLookup cfg event data).1 &&& cfg.hwCounters).getLsbD n = true := by
        by_contra hno
        refine hne (BitVec.eq_of_getLsbD_eq fun n _ => ?_)
        rw [BitVec.ofNat_eq_ofNat, BitVec.getLsbD_zero]
        exact Bool.not_eq_true _ ▸ fun hbit => hno ⟨n, hbit⟩
      have hlt : n < fwFirst := BitVec.lt_of_getLsbD hbit
      refine ⟨n, hall n ?_ (iff_of_false hhw (Nat.not_le.mpr hlt)), hlt, hbit⟩
      rw [BitVec.getLsbD_and, Bool.and_eq_true] at hbit
      exact counterExists_iff.mpr (.inr ⟨hlt, hbit.2⟩)

section

variable {cfg : Config x} {b : Hart x} {base mask flags eventIdx : Word x} {data : BitVec 64}
  {event : BitVec 32}

theorem counterConfig_success_iff (hfree : ∀ n, b.p.event n = eventNone)
    (hmatch : cfgSkipMatch flags = false) (hset : counterSetOk cfg base mask = true) :
    (counterConfig cfg b base mask flags (event.setWidth x.bits) data).2.1 = .success ↔
      event ≤ 0xfffff#32 ∧ ∃ n ∈ named base mask, canCount cfg event data n := by
  have hback : ((event.setWidth x.bits).setWidth 32 : BitVec 32) = event := by
    cases x <;> simp [Xlen.bits]
  have hnat : (event.setWidth x.bits).toNat = event.toNat :=
    BitVec.toNat_setWidth_of_le (by cases x <;> decide)
  have hr : Match cfg b base mask flags (event.setWidth x.bits) data _ := counterConfig_match hmatch
  generalize counterConfig cfg b base mask flags (event.setWidth x.bits) data = r at hr
  cases hr with
  | invalid hbad =>
    refine iff_of_false (by rintro ⟨⟩) fun h => ?_
    rcases hbad with hno | hbig
    · rw [hset] at hno
      cases hno
    · rw [hnat] at hbig
      exact absurd (BitVec.le_def.mp h.1) (Nat.not_le.mpr hbig)
  | none hnone =>
    refine iff_of_false (by rintro ⟨⟩) ?_
    rintro ⟨-, n, hn, hcan⟩
    exact hnone n hn (hfree n) (by rwa [hback])
  | found _ hidx hc _ hcan =>
    rw [hnat] at hidx
    rw [hback] at hcan
    exact iff_of_true rfl ⟨BitVec.le_def.mpr hidx, _, hc, hcan⟩

theorem eventInfo_reports {addr count : Word x} {mem : Mem} {i : Nat} {out : BitVec 32}
    (hinfo : (eventInfo cfg addr count mem).1 = .success) (hi : i < count.toNat)
    (hentry : mem.info i = (event, data, out)) :
    ((eventInfo cfg addr count mem).2.info i).2.2 = 1 ↔
      if eventType event = eventTypeFw then eventCode event < fwMax
      else event ≤ 0xfffff#32 ∧ has (hwEventLookup cfg event data).1 cfg.hwCounters = true := by
  unfold eventInfo at hinfo ⊢
  split at hinfo
  · cases hinfo
  split at hinfo
  · cases hinfo
  next haligned hrange =>
  rw [if_neg haligned, if_neg hrange]
  simp only [if_pos hi, hentry]
  split <;> split <;> simp_all

end

/-- Where no counter is owned and the set names all counters of the event's kind,
    `pmu_event_info()` says that the event can be counted exactly where `pmu_counter_config()`
    then hands out a counter, for an index in range. -/
theorem eventInfo_agrees (cfg : Config x) (b : Hart x) (hfree : ∀ n, b.p.event n = eventNone)
    (base mask flags : Word x) (hmatch : cfgSkipMatch flags = false)
    (hset : counterSetOk cfg base mask = true) (addr count : Word x) (mem : Mem) (i : Nat)
    (hi : i < count.toNat) (hinfo : (eventInfo cfg addr count mem).1 = .success)
    (event : BitVec 32) (data : BitVec 64) (out : BitVec 32)
    (hentry : mem.info i = (event, data, out)) (hall : ∀ n, counterExists cfg n = true →
      (eventType event = eventTypeFw ↔ fwFirst ≤ n) → n ∈ named base mask) :
    (((eventInfo cfg addr count mem).2.info i).2.2 = 1 ↔
      (counterConfig cfg b base mask flags (event.setWidth x.bits) data).2.1 = .success) ↔
      indexInRange event := by
  rw [counterConfig_success_iff hfree hmatch hset, eventInfo_reports hinfo hi hentry,
    exists_canCount hall, indexInRange]
  split
  · next hfw =>
    have hcode : fwMax ≤ eventCode event ↔ ¬ eventCode event < fwMax := BitVec.not_lt.symm
    tauto
  · next hhw => simp [hhw]

/-- All of `cycle`, `instret` and the firmware counters, and what is asked of each event. -/
def everyCounter : Word .rv64 := 0xffff00000005

def infoOf (event : BitVec 32) : Mem := { noMem with info := fun _ => (event, 0, 0) }

theorem named_everyCounter (n : Nat) (hn : counterExists (fixedOnly true) n = true) :
    n ∈ named 0 everyCounter := by
  have hall : ∀ n < counterCount, counterExists (fixedOnly true) n = true →
      n ∈ named 0 everyCounter := by decide +kernel
  exact hall n (lt_of_counterExists hn) hn

theorem eventInfo_agrees_cycle :
    ((eventInfo (fixedOnly true) 0 1 (infoOf 1)).2.info 0).2.2 = 1 ↔
      (counterConfig (fixedOnly true) ⟨emptyRecord, .zero⟩ 0 everyCounter 0 1 0).2.1 = .success :=
  (eventInfo_agrees (fixedOnly true) ⟨emptyRecord, .zero⟩ (fun _ => rfl) 0 everyCounter 0
    (by decide) (by decide +kernel) 0 1 (infoOf 1) 0 (by decide) (by decide) 1 0 0 rfl
    fun n hn _ => named_everyCounter n hn).mpr (by decide)

/-- The firmware's first event, with a bit above the twenty of an index. -/
theorem eventInfo_beyond_index :
    (∀ n, (⟨emptyRecord, .zero⟩ : Hart .rv64).p.event n = eventNone) ∧
      (∀ n, counterExists (fixedOnly true) n = true → n ∈ named 0 everyCounter) ∧
      ((eventInfo (fixedOnly true) 0 1 (infoOf 0x1f0000)).2.info 0).2.2 = 1 ∧
      (counterConfig (fixedOnly true) ⟨emptyRecord, .zero⟩ 0 everyCounter 0 0x1f0000 0).2.1 =
        .invalidParam :=
  ⟨fun _ => rfl, named_everyCounter, by decide, by decide +kernel⟩

end RiscvMonitor.Pmu
