import RiscvMonitor.ServiceTrip

/-!
# What the calls do to one counter

Whose a counter is, whether it counts and what selects its event are three pieces
of state, and a call edits them for a set of counters.  Each call does one of a few
things to one counter, whatever it does to the others.
-/

namespace RiscvMonitor.Pmu

open Masks

variable {x : Xlen}

/-- Whose a counter is, whether it counts, and its selector, where it has one. -/
@[ext]
structure Counter where
  event : BitVec 32
  counting : Bool
  select : BitVec 64

def Hart.counter (cfg : Config x) (b : Hart x) (n : Nat) : Counter where
  event := b.p.event n
  counting := counterRunning b n
  select := if cfg.hasSelect n then b.hw.select n else 0

def armed (cfg : Config x) (n : Nat) (v : BitVec 64) : BitVec 64 :=
  if cfg.sscofpmf = true ∧ 3 ≤ n ∧ n < fwFirst then cfg.legal n (clear v hpmeventOf) else v

def Counter.started (cfg : Config x) (n : Nat) (k : Counter) : Counter :=
  { k with counting := true, select := armed cfg n k.select }

def Counter.stopped (k : Counter) : Counter := { k with counting := false }

/-- What a write of `v` to the selector leaves, where there is one. -/
def Config.selectAfter (cfg : Config x) (n : Nat) (v : BitVec 64) : BitVec 64 :=
  if cfg.hasSelect n then cfg.selectLegal n v else 0

/-- Stopped, and free: `cycle` and `instret` run by default. -/
def Counter.freed (cfg : Config x) (n : Nat) : Counter where
  event := eventNone
  counting := decide (n < 3)
  select := cfg.selectAfter n 0

/-- What `pmu_counter_config()` writes to the selector. -/
def configSelect (cfg : Config x) (n : Nat) (flags : Word x) (select : BitVec 64) : BitVec 64 :=
  if n < 3 then inhibitBits flags
  else if cfg.sscofpmf then select ||| inhibitBits flags ||| hpmeventOf
  else select

def Counter.configured (cfg : Config x) (n : Nat) (flags : Word x) (event : BitVec 32)
    (select : BitVec 64) (k : Counter) : Counter :=
  let k : Counter :=
    if fwFirst ≤ n then { k with event := event }
    else ⟨event, false, cfg.selectAfter n (configSelect cfg n flags select)⟩
  if cfgAutoStart flags then k.started cfg n else k

/-! ### One counter -/

section One

variable {cfg : Config x} {b : Hart x} {c : Nat}

theorem counterExists_iff :
    counterExists cfg c = true ↔
      (fwFirst ≤ c ∧ c < counterCount) ∨ (c < fwFirst ∧ cfg.hwCounters.getLsbD c = true) := by
  have hlt : cfg.hwCounters.getLsbD c = true → c < fwFirst := BitVec.lt_of_getLsbD
  simp only [counterExists, Bool.and_eq_true, Bool.or_eq_true, decide_eq_true_eq]
  simp only [fwFirst, counterCount, hwCounterCount, fwCounterCount] at hlt ⊢
  constructor
  · rintro ⟨hcount, hfw | hbit⟩
    · exact .inl ⟨hfw, hcount⟩
    · exact .inr ⟨hlt hbit, hbit⟩
  · rintro (⟨hfw, hcount⟩ | ⟨hhw, hbit⟩)
    · exact ⟨hcount, .inl hfw⟩
    · exact ⟨by omega, .inr hbit⟩

theorem hasSelect_fw {n : Nat} (hn : fwFirst ≤ n) : cfg.hasSelect n = false := by
  have hno : cfg.hwCounters.getLsbD n = false := BitVec.getLsbD_of_ge _ _ hn
  rw [Config.hasSelect, hno, Bool.false_and]

theorem getLsbD_bit (hc : c < 32) (n : Nat) : (1#32 <<< c).getLsbD n = decide (n = c) := by
  have htwo : 1#32 <<< c = BitVec.twoPow 32 c := rfl
  rw [htwo, BitVec.getLsbD_twoPow, decide_eq_true hc, Bool.true_and]
  exact decide_eq_decide.2 eq_comm

theorem running_setInhibit (hw : Hardware) (hc : c < fwFirst) (n : Nat) :
    running (setInhibit hw c) n = if n = c then false else running hw n := by
  rw [running, setInhibit, BitVec.getLsbD_or, getLsbD_bit hc]
  split
  · next hn => rw [decide_eq_true hn, Bool.or_true, Bool.not_true]
  · next hn => rw [decide_eq_false hn, Bool.or_false, running]

theorem running_clearInhibit (hw : Hardware) (hc : c < fwFirst) (n : Nat) :
    running (clearInhibit hw c) n = if n = c then true else running hw n := by
  rw [running, clearInhibit, getLsbD_clear, getLsbD_bit hc]
  split
  · next hn => rw [decide_eq_true hn, Bool.not_true, Bool.and_false, Bool.not_false]
  · next hn => rw [decide_eq_false hn, Bool.not_false, Bool.and_true, running]

theorem getLsbD_fw (hfw : fwFirst ≤ c) (hc : c < counterCount) {n : Nat} (hn : fwFirst ≤ n) :
    (1#32 <<< (c - fwFirst)).getLsbD (n - fwFirst) = decide (n = c) := by
  have hlt : c - fwFirst < 32 := by
    simp only [fwFirst, counterCount, hwCounterCount, fwCounterCount] at hc ⊢
    omega
  rw [getLsbD_bit hlt]
  exact decide_eq_decide.2 (by omega)

theorem counter_congr {b' : Hart x} {n : Nat} (hevent : b'.p.event n = b.p.event n)
    (hcounting : counterRunning b' n = counterRunning b n)
    (hselect : cfg.hasSelect n = true → b'.hw.select n = b.hw.select n) :
    b'.counter cfg n = b.counter cfg n := by
  unfold Hart.counter
  rw [hevent, hcounting]
  congr 1
  split
  · next hn => exact hselect hn
  · rfl

theorem stopCounter_counter (hc : counterExists cfg c = true) (n : Nat) :
    (stopCounter b c).counter cfg n =
      if n = c then (b.counter cfg c).stopped else b.counter cfg n := by
  have hcounting : counterRunning (stopCounter b c) n =
      if n = c then false else counterRunning b n := by
    rcases counterExists_iff.1 hc with ⟨hfw, hlt⟩ | ⟨hhw, -⟩
    · rw [stopCounter, if_pos hfw, counterRunning, counterRunning]
      split
      · next hn => rw [getLsbD_clear, getLsbD_fw hfw hlt hn]; split <;> simp_all
      · next hn => rw [if_neg (by rintro rfl; exact hn hfw)]
    · rw [stopCounter, if_neg (by omega), counterRunning, counterRunning]
      split
      · next hn => rw [if_neg (by omega)]
      · exact running_setInhibit _ hhw n
  have hrest : (stopCounter b c).p.event n = b.p.event n ∧
      (stopCounter b c).hw.select n = b.hw.select n := by
    unfold stopCounter
    split <;> exact ⟨rfl, rfl⟩
  split
  · next hn =>
    subst hn
    rw [if_pos rfl] at hcounting
    simp only [Hart.counter, Counter.stopped, hrest, hcounting]
  · next hn =>
    rw [if_neg hn] at hcounting
    exact counter_congr hrest.1 hcounting fun _ => hrest.2

theorem eventWrite_counter (hc : cfg.hwCounters.getLsbD c = true) (v : BitVec 64) (n : Nat) :
    (Hart.mk b.p (eventWrite cfg b.hw c v)).counter cfg n =
      if n = c then { b.counter cfg c with select := cfg.selectAfter c v }
      else b.counter cfg n := by
  have hcounting : counterRunning ⟨b.p, eventWrite cfg b.hw c v⟩ n = counterRunning b n := by
    simp only [counterRunning, running, (eventWrite_rest cfg b.hw c v).1]
  have hselect := eventWrite_select cfg b.hw hc v n
  split
  · next hn =>
    subst hn
    unfold Hart.counter Config.selectAfter
    rw [hcounting]
    congr 1
    split
    · next hsel => rw [hselect, if_pos ⟨rfl, hsel⟩]
    · rfl
  · next hn => exact counter_congr rfl hcounting fun _ => hselect.trans (if_neg fun h => hn h.1)

theorem clearInhibit_counter (hc : c < fwFirst) (n : Nat) :
    (Hart.mk b.p (clearInhibit b.hw c)).counter cfg n =
      if n = c then { b.counter cfg c with counting := true } else b.counter cfg n := by
  have hcounting : counterRunning ⟨b.p, clearInhibit b.hw c⟩ n =
      if n = c then true else counterRunning b n := by
    unfold counterRunning
    split
    · next hn => rw [if_neg (by omega)]
    · exact running_clearInhibit _ hc n
  split
  · next hn =>
    subst hn
    rw [if_pos rfl] at hcounting
    simp only [Hart.counter, hcounting]
    rfl
  · next hn =>
    rw [if_neg hn] at hcounting
    exact counter_congr rfl hcounting fun _ => rfl

variable (cfg b c) in
theorem event_counter (event : BitVec 32) (n : Nat) :
    (Hart.mk { b.p with event := Function.update b.p.event c event } b.hw).counter cfg n =
      if n = c then { b.counter cfg c with event := event } else b.counter cfg n := by
  split
  · next hn =>
    subst hn
    simp [Hart.counter, counterRunning]
  · next hn => exact counter_congr (Function.update_of_ne hn ..) rfl fun _ => rfl

theorem setValue_counter (v : BitVec 64) (n : Nat) :
    (setValue b c v).counter cfg n = b.counter cfg n := by
  unfold setValue
  split <;> rfl

theorem resetCounter_counter (hc : counterExists cfg c = true) (n : Nat) :
    (resetCounter cfg (stopCounter b c) c).counter cfg n =
      if n = c then .freed cfg c else b.counter cfg n := by
  have hfree := event_counter cfg (stopCounter b c) c eventNone
  have hstop := stopCounter_counter (b := b) hc
  unfold resetCounter
  rcases counterExists_iff.1 hc with ⟨hfw, -⟩ | ⟨hhw, hbit⟩
  · rw [if_pos hfw, hfree, hstop, hstop, if_pos rfl]
    have hlarge : ¬ c < 3 := by
      simp only [fwFirst, hwCounterCount] at hfw
      omega
    split
    · simp [Counter.freed, Counter.stopped, Hart.counter, Config.selectAfter, hasSelect_fw hfw,
        hlarge]
    · rfl
  · rw [if_neg (by omega)]
    let free : Hart x :=
      ⟨{ (stopCounter b c).p with
        event := Function.update (stopCounter b c).p.event c eventNone }, (stopCounter b c).hw⟩
    let written : Hart x := ⟨free.p, eventWrite cfg free.hw c 0⟩
    have hwritten : ∀ m, written.counter cfg m =
        if m = c then ⟨eventNone, false, cfg.selectAfter c 0⟩ else b.counter cfg m := by
      intro m
      rw [eventWrite_counter hbit, hfree, hfree, hstop, hstop, if_pos rfl, if_pos rfl]
      split <;> rfl
    by_cases hsmall : c < 3
    · dsimp only
      rw [if_pos hsmall]
      refine (clearInhibit_counter (b := written) hhw n).trans ?_
      rw [hwritten, hwritten, if_pos rfl]
      split
      · simp [Counter.freed, hsmall]
      · rfl
    · dsimp only
      rw [if_neg hsmall]
      refine (hwritten n).trans ?_
      split
      · simp [Counter.freed, hsmall]
      · rfl

theorem counterStartOne_counter (hc : counterExists cfg c = true) (n : Nat) :
    (counterStartOne cfg b c).counter cfg n =
      if n = c then (b.counter cfg c).started cfg c else b.counter cfg n := by
  unfold counterStartOne
  rcases counterExists_iff.1 hc with ⟨hfw, hlt⟩ | ⟨hhw, hbit⟩
  · have hunarmed : ¬ (cfg.sscofpmf = true ∧ 3 ≤ c ∧ c < fwFirst) := by omega
    have hcounting : ∀ started : BitVec 32, fwFirst ≤ n →
        (started ||| 1#32 <<< (c - fwFirst)).getLsbD (n - fwFirst) =
          if n = c then true else started.getLsbD (n - fwFirst) := by
      intro started hn
      rw [BitVec.getLsbD_or, getLsbD_fw hfw hlt hn]
      split <;> simp_all
    rw [if_pos hfw]
    split
    · next hn =>
      subst hn
      simp [Hart.counter, counterRunning, hfw, hcounting, Counter.started, armed, hunarmed]
    · next hn =>
      refine counter_congr rfl ?_ fun _ => rfl
      unfold counterRunning
      split
      · next hge => rw [hcounting _ hge, if_neg hn]
      · rfl
  · rw [if_neg (by omega)]
    let hw := if cfg.sscofpmf = true ∧ 3 ≤ c then
      eventWrite cfg b.hw c (clear (eventRead cfg b.hw c) hpmeventOf) else b.hw
    have harmed : ∀ m, (Hart.mk b.p hw).counter cfg m =
        if m = c then { b.counter cfg c with select := armed cfg c (b.counter cfg c).select }
        else b.counter cfg m := by
      intro m
      by_cases harm : cfg.sscofpmf = true ∧ 3 ≤ c
      · have hsel : cfg.hasSelect c = true := by simp [Config.hasSelect, hbit, harm.2]
        have hread : eventRead cfg b.hw c = (b.counter cfg c).select :=
          eventRead_eq cfg b.hw hbit
        have hlarge : ¬ c < 3 := by omega
        simp only [hw, if_pos harm]
        rw [eventWrite_counter hbit, hread]
        simp [Config.selectAfter, hsel, Config.selectLegal, hlarge, armed, harm, hhw]
      · have hunarmed : ¬ (cfg.sscofpmf = true ∧ 3 ≤ c ∧ c < fwFirst) := by tauto
        simp only [hw, if_neg harm, armed, if_neg hunarmed]
        split
        · next hm => rw [hm]
        · rfl
    refine (clearInhibit_counter (b := ⟨b.p, hw⟩) hhw n).trans ?_
    rw [harmed, harmed, if_pos rfl]
    split <;> rfl

theorem configOne_counter (hc : counterExists cfg c = true) (flags : Word x) {event : BitVec 32}
    (htype : eventType event = eventTypeFw ↔ fwFirst ≤ c) (select : BitVec 64) (n : Nat) :
    (configOne cfg b c flags event select).counter cfg n =
      if n = c then (b.counter cfg c).configured cfg c flags event select
      else b.counter cfg n := by
  let given : Hart x := ⟨{ b.p with event := Function.update b.p.event c event }, b.hw⟩
  have hgiven := event_counter cfg b c event
  let done : Hart x :=
    if eventType event = eventTypeFw then
      { b with
        p := if cfgClearValue flags then
            { given.p with fwValue := Function.update given.p.fwValue (fwSlot c) 0 }
          else given.p }
    else ⟨given.p, configHw cfg b.hw c flags select⟩
  let k : Counter :=
    if fwFirst ≤ c then { b.counter cfg c with event := event }
    else ⟨event, false, cfg.selectAfter c (configSelect cfg c flags select)⟩
  have hdone : ∀ m, done.counter cfg m = if m = c then k else b.counter cfg m := by
    intro m
    rcases counterExists_iff.1 hc with ⟨hfw, -⟩ | ⟨hhw, hbit⟩
    · simp only [done, k, if_pos (htype.2 hfw), if_pos hfw]
      rw [← hgiven]
      split <;> rfl
    · have hno : ¬ fwFirst ≤ c := by omega
      simp only [done, k, if_neg (mt htype.1 hno), if_neg hno]
      have hstopped : ∀ i, (Hart.mk given.p (setInhibit b.hw c)).counter cfg i =
          if i = c then { given.counter cfg c with counting := false }
          else given.counter cfg i := by
        intro i
        have hstop := stopCounter_counter (b := given) hc i
        rwa [stopCounter, if_neg hno] at hstop
      have hwritten : (Hart.mk given.p (eventWrite cfg (setInhibit b.hw c) c
          (configSelect cfg c flags select))).counter cfg m =
          if m = c then ⟨event, false, cfg.selectAfter c (configSelect cfg c flags select)⟩
          else b.counter cfg m := by
        refine (eventWrite_counter (b := ⟨given.p, setInhibit b.hw c⟩) hbit _ m).trans ?_
        rw [hstopped, hstopped, if_pos rfl, hgiven, hgiven, if_pos rfl]
        split <;> rfl
      rw [← hwritten]
      unfold configHw configSelect
      dsimp only
      split
      · rfl
      · rfl
  have hcase : configOne cfg b c flags event select =
      if cfgAutoStart flags then counterStartOne cfg done c else done := rfl
  have hkcase : (b.counter cfg c).configured cfg c flags event select =
      if cfgAutoStart flags then k.started cfg c else k := rfl
  rw [hcase, hkcase]
  split
  · rw [counterStartOne_counter hc, hdone, hdone, if_pos rfl]
    split <;> rfl
  · exact hdone n

end One

/-! ### Sets of counters -/

section Sets

variable {cfg : Config x} {b : Hart x} {base mask : Word x}

theorem selected_nodup (base mask : Word x) : ((selected base mask).map Prod.snd).Nodup := by
  unfold selected
  rw [List.map_map]
  refine List.Nodup.map_on ?_ (List.nodup_range.filter _)
  intro i hi j hj heq
  have hlti : i < x.bits := List.mem_range.1 (List.mem_filter.1 hi).1
  have hltj : j < x.bits := List.mem_range.1 (List.mem_filter.1 hj).1
  have hof : BitVec.ofNat x.bits i = BitVec.ofNat x.bits j :=
    (BitVec.add_right_inj _).1 (BitVec.eq_of_toNat_eq heq)
  have hpow : x.bits < 2 ^ x.bits := Nat.lt_two_pow_self
  have hnat := congrArg BitVec.toNat hof
  rwa [BitVec.toNat_ofNat, BitVec.toNat_ofNat, Nat.mod_eq_of_lt (hlti.trans hpow),
    Nat.mod_eq_of_lt (hltj.trans hpow)] at hnat

def named (base mask : Word x) : List Nat := (selected base mask).map Prod.snd

theorem counterExists_of_selected (hok : counterSetOk cfg base mask = true) {c : Nat × Nat}
    (hc : c ∈ selected base mask) : counterExists cfg c.2 = true := by
  rw [counterSetOk, Bool.and_eq_true, List.all_eq_true] at hok
  have hboth := hok.2 c hc
  rw [Bool.and_eq_true] at hboth
  exact hboth.2

theorem counterExists_of_named (hset : counterSetOk cfg base mask = true) {n : Nat}
    (hn : n ∈ named base mask) : counterExists cfg n = true := by
  obtain ⟨c, hc, rfl⟩ := List.mem_map.1 hn
  exact counterExists_of_selected hset hc

variable (cfg) in
theorem foldl_counter {S : Type*} (hart : S → Hart x) (op : S → Nat × Nat → S)
    (g : Nat → Counter → Counter) (l : List (Nat × Nat))
    (hop : ∀ s, ∀ c ∈ l, ∀ n, (hart (op s c)).counter cfg n =
      if n = c.2 then g c.2 ((hart s).counter cfg c.2) else (hart s).counter cfg n)
    (hnodup : (l.map Prod.snd).Nodup) (s : S) (n : Nat) :
    (hart (l.foldl op s)).counter cfg n =
      if n ∈ l.map Prod.snd then g n ((hart s).counter cfg n) else (hart s).counter cfg n := by
  induction l generalizing s with
  | nil => simp
  | cons c l ih =>
    rw [List.map_cons, List.nodup_cons] at hnodup
    have hstep := hop s c List.mem_cons_self
    rw [List.foldl_cons, ih (fun s c hc => hop s c (List.mem_cons_of_mem _ hc)) hnodup.2, hstep]
    by_cases hn : n = c.2
    · subst hn
      simp [hnodup.1]
    · simp only [List.map_cons, List.mem_cons, hn, if_false, false_or]

def Counter.tried (cfg : Config x) (n : Nat) (k : Counter) : Counter :=
  if k.event = eventNone ∨ k.counting = true then k else k.started cfg n

theorem startOne_counter {c : Nat × Nat} (hc : counterExists cfg c.2 = true) (flags : Word x)
    (value : BitVec 64) (mem : Mem) (r : Hart x × SbiError) (n : Nat) :
    (startOne cfg flags value mem r c).1.counter cfg n =
      if n = c.2 then (r.1.counter cfg c.2).tried cfg c.2 else r.1.counter cfg n := by
  have hkept : ∀ k : Counter, k = r.1.counter cfg c.2 →
      r.1.counter cfg n = if n = c.2 then k else r.1.counter cfg n := by
    rintro k rfl
    split
    · next hn => rw [hn]
    · rfl
  unfold startOne
  split
  · next hfree => exact hkept _ (if_pos (.inl hfree))
  · next howned =>
    split
    · next hcounting => exact hkept _ (if_pos (.inr hcounting))
    · next hstill =>
      have htried : (r.1.counter cfg c.2).tried cfg c.2 =
          (r.1.counter cfg c.2).started cfg c.2 :=
        if_neg fun h => h.elim howned hstill
      have hvalue : ∀ (set : Bool) (v : BitVec 64) (m : Nat),
          (if set = true then setValue r.1 c.2 v else r.1).counter cfg m =
            r.1.counter cfg m := by
        intro set v m
        split
        · exact setValue_counter v m
        · rfl
      rw [htried, counterStartOne_counter hc, hvalue, hvalue]

variable (cfg b base mask) in
theorem counterStart_counter (flags : Word x) (value : BitVec 64) (mem : Mem) (n : Nat) :
    (counterStart cfg b base mask flags value mem).1.counter cfg n = b.counter cfg n ∨
      counterExists cfg n = true ∧
        (counterStart cfg b base mask flags value mem).1.counter cfg n =
          (b.counter cfg n).tried cfg n := by
  unfold counterStart
  split
  · exact .inl rfl
  · next hok =>
    have hexists := @counterExists_of_selected _ cfg base mask (Bool.not_eq_false _ ▸ hok)
    split
    · exact .inl rfl
    split
    · exact .inl rfl
    · have hfold := foldl_counter cfg Prod.fst (startOne cfg flags value mem)
        (fun c k => k.tried cfg c) (selected base mask)
        (fun s c hc n => startOne_counter (hexists hc) flags value mem s n)
        (selected_nodup base mask) (b, .success) n
      rw [hfold]
      split
      · next hn =>
        obtain ⟨c, hc, rfl⟩ := List.mem_map.1 hn
        exact .inr ⟨hexists hc, rfl⟩
      · exact .inl rfl

theorem stopOne_counter {c : Nat × Nat} (hc : counterExists cfg c.2 = true) (flags : Word x)
    (r : Hart x × SbiError × Mem) (n : Nat) :
    (stopOne cfg flags r c).1.counter cfg n =
      if n = c.2 then
        if stopReset flags then .freed cfg c.2 else (r.1.counter cfg c.2).stopped
      else r.1.counter cfg n := by
  unfold stopOne
  dsimp only
  split
  · exact resetCounter_counter hc n
  · exact stopCounter_counter hc n

/-- The stop goes through, and names counter `n`. -/
def stopNames (cfg : Config x) (p : PmuHart x) (base mask flags : Word x) (n : Nat) : Prop :=
  counterSetOk cfg base mask = true ∧
    ¬ (stopTakeSnapshot flags = true ∧ p.snapshot = snapshotNone) ∧
    n ∈ (selected base mask).map Prod.snd

instance {p : PmuHart x} {flags : Word x} {n : Nat} :
    Decidable (stopNames cfg p base mask flags n) :=
  inferInstanceAs (Decidable (_ ∧ _ ∧ _))

variable (cfg b base mask) in
theorem counterStop_counter (flags : Word x) (mem : Mem) (n : Nat) :
    (counterStop cfg b base mask flags mem).1.counter cfg n =
      if stopNames cfg b.p base mask flags n then
        if stopReset flags then .freed cfg n else (b.counter cfg n).stopped
      else b.counter cfg n := by
  unfold counterStop stopNames
  split
  · next hok => simp [hok]
  · next hok =>
    have hset := Bool.not_eq_false _ ▸ hok
    have hexists := @counterExists_of_selected _ cfg base mask hset
    split
    · next hsnap => simp [hsnap]
    · next hsnap =>
      have hfold := fun s => foldl_counter cfg Prod.fst (stopOne cfg flags)
        (fun c k => if stopReset flags then .freed cfg c else k.stopped) (selected base mask)
        (fun s c hc n => stopOne_counter (hexists hc) flags s n)
        (selected_nodup base mask) s n
      dsimp only
      rw [hfold]
      simp only [hset, hsnap, not_false_eq_true, true_and]

theorem configTarget_ok {p : PmuHart x} {fw : Bool} {candidates : BitVec 32} {flags : Word x}
    {c : Nat} (hc : configTarget p fw candidates base mask flags = .ok c) :
    c ∈ named base mask ∧ fw = decide (fwFirst ≤ c) ∧ (cfgSkipMatch flags = false →
      p.event c = eventNone ∧ (fw = false → candidates.getLsbD c = true)) := by
  unfold configTarget at hc
  split at hc
  · next hskip =>
    split at hc
    · next i d hhead =>
      split at hc
      · cases hc
      · next hno =>
        cases hc
        have hmem := List.mem_of_mem_head? (Option.mem_def.2 hhead)
        exact ⟨List.mem_map_of_mem hmem, not_not.1 (not_or.1 hno).2,
          fun h => absurd hskip (Bool.not_eq_true _ ▸ h)⟩
    · cases hc
  · split at hc
    · next i d hfind =>
      cases hc
      have hpred := List.find?_some hfind
      rw [Bool.and_eq_true, beq_iff_eq] at hpred
      refine ⟨List.mem_map_of_mem (List.mem_of_find?_eq_some hfind), ?_⟩
      cases fw with
      | true => exact ⟨by simpa using hpred.2, fun _ => ⟨hpred.1, nofun⟩⟩
      | false =>
        have hlt := hpred.2
        simp only [Bool.false_eq_true, if_false, Bool.and_eq_true, decide_eq_true_eq] at hlt
        exact ⟨(decide_eq_false (Nat.not_le.2 hlt.1)).symm, fun _ => ⟨hpred.1, fun _ => hlt.2⟩⟩
    · cases hc

theorem configTarget_error {p : PmuHart x} {fw : Bool} {candidates : BitVec 32} {flags : Word x}
    {rc : SbiError} (hrc : configTarget p fw candidates base mask flags = .error rc)
    (hmatch : cfgSkipMatch flags = false) :
    rc = .notSupported ∧ ∀ n ∈ named base mask, p.event n = eventNone →
      (fw = decide (fwFirst ≤ n)) → (fw = false → candidates.getLsbD n = true) → False := by
  rw [configTarget, hmatch, if_neg Bool.false_ne_true] at hrc
  split at hrc
  · cases hrc
  · next hfind =>
    cases hrc
    refine ⟨rfl, fun n hn hfree hfw hbit => ?_⟩
    obtain ⟨c, hc, rfl⟩ := List.mem_map.1 hn
    have hno := List.find?_eq_none.1 hfind c hc
    rw [Bool.and_eq_true, beq_iff_eq] at hno
    refine hno ⟨hfree, ?_⟩
    cases fw with
    | true => exact hfw.symm
    | false =>
      have hlt := Nat.not_le.1 (of_decide_eq_false hfw.symm)
      simp [hlt, hbit rfl]

variable (cfg b base mask) in
theorem counterConfig_counter (flags eventIdx : Word x) (data : BitVec 64) (n : Nat) :
    (counterConfig cfg b base mask flags eventIdx data).1.counter cfg n = b.counter cfg n ∨
      counterExists cfg n = true ∧ ∃ event select, event ≠ eventNone ∧
        (counterConfig cfg b base mask flags eventIdx data).1.counter cfg n =
          (b.counter cfg n).configured cfg n flags event select := by
  unfold counterConfig
  dsimp only
  split
  · exact .inl rfl
  · next hok =>
    split
    · exact .inl rfl
    split
    · exact .inl rfl
    split
    · exact .inl rfl
    · next c hc =>
      have hset : counterSetOk cfg base mask = true := by
        by_contra hno
        exact hok (.inl (Bool.not_eq_true _ ▸ hno))
      obtain ⟨hmem, hfw, -⟩ := configTarget_ok hc
      have hexists := counterExists_of_named hset hmem
      have htype : eventType (eventIdx.setWidth 32) = eventTypeFw ↔ fwFirst ≤ c := by
        rw [← beq_iff_eq, hfw, decide_eq_true_eq]
      have hevent : (eventIdx.setWidth 32 : BitVec 32) ≠ eventNone := by
        intro hnone
        have hsmall : ¬ 0xfffff < eventIdx.toNat := fun hbig => hok (.inr hbig)
        have hnat := congrArg BitVec.toNat hnone
        have hall : eventNone.toNat = 0xffffffff := by decide
        rw [BitVec.toNat_setWidth, hall] at hnat
        omega
      rw [configOne_counter hexists flags htype]
      split
      · next hn =>
        subst hn
        exact .inr ⟨hexists, _, _, hevent, rfl⟩
      · exact .inl rfl

inductive Change (cfg : Config x) (b : Hart x) (c : Call x) (n : Nat) : Counter → Prop where
  | same : Change cfg b c n (b.counter cfg n)
  | starts (hexists : counterExists cfg n = true) (howned : b.p.event n ≠ eventNone) :
      Change cfg b c n ((b.counter cfg n).started cfg n)
  | configures (hexists : counterExists cfg n = true) (flags : Word x) {event : BitVec 32}
      (hevent : event ≠ eventNone) (select : BitVec 64) :
      Change cfg b c n ((b.counter cfg n).configured cfg n flags event select)
  | stops (base mask flags : Word x) (hcall : c = .counterStop base mask flags)
      (hnames : stopNames cfg b.p base mask flags n) (hkeep : stopReset flags = false) :
      Change cfg b c n (b.counter cfg n).stopped
  | frees (base mask flags : Word x) (hcall : c = .counterStop base mask flags)
      (hnames : stopNames cfg b.p base mask flags n) (hreset : stopReset flags = true) :
      Change cfg b c n (.freed cfg n)

theorem ecall_change (cfg : Config x) (b : Hart x) (mem : Mem) (c : Call x) (n : Nat) :
    Change cfg b c n ((ecall cfg b mem c).1.counter cfg n) := by
  cases c with
  | numCounters | counterGetInfo | fwRead | fwReadHi => exact .same
  | eventGetInfo lo hi count flags =>
    unfold ecall
    dsimp only
    split
    · exact .same
    split <;> exact .same
  | snapshotSetShmem lo hi flags =>
    have hsame : ((snapshotSetShmem cfg b lo hi flags).1.counter cfg n) = b.counter cfg n := by
      unfold snapshotSetShmem
      split
      · rfl
      split
      · rfl
      split
      · rfl
      split <;> rfl
    exact hsame ▸ .same
  | configMatching base mask flags eventIdx data =>
    rcases counterConfig_counter cfg b base mask flags eventIdx
      data n with hsame | ⟨hexists, event, select, hevent, heq⟩
    · exact hsame ▸ .same
    · exact heq ▸ .configures hexists flags hevent select
  | counterStart base mask flags value =>
    rcases counterStart_counter cfg b base mask flags value
      mem n with hsame | ⟨hexists, heq⟩
    · exact hsame ▸ .same
    · refine heq ▸ ?_
      unfold Counter.tried
      split
      · exact .same
      · next hno => exact .starts hexists fun hfree => hno (.inl hfree)
  | counterStop base mask flags =>
    have heq := counterStop_counter cfg b base mask flags mem n
    refine heq ▸ ?_
    split
    · next hnames =>
      split
      · next hreset => exact .frees base mask flags rfl hnames hreset
      · next hkeep => exact .stops base mask flags rfl hnames (Bool.not_eq_true _ ▸ hkeep)
    · exact .same

end Sets

end RiscvMonitor.Pmu
