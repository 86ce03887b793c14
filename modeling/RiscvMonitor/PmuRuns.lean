import RiscvMonitor.PmuCounter
import RiscvMonitor.Runs

/-!
# Counters along runs

One hart that calls, counts, changes domain and is started again.  A property of
single counters that a call, a switch and a start keep holds in every state that is
reached, of the counters of the hart and of those that wait in the records.
-/

namespace RiscvMonitor.Pmu

open Function (update update_of_ne update_self)
open Masks

variable {x : Xlen}

/-! ### Switches and starts -/

def Counter.fresh (cfg : Config x) (n : Nat) : Counter where
  event := eventNone
  counting := decide (n < fwFirst) && !cfg.stopped.getLsbD n
  select := cfg.selectAfter n ((freshHw cfg).select n)

theorem clear_loop (cfg : Config x) (hw : Hardware) (ns : List Nat) :
    let r := ns.foldl (fun hw n =>
      if cfg.hwCounters.getLsbD n then if n < 3 then hw else eventWrite cfg hw n 0 else hw) hw
    r.inhibit = hw.inhibit ∧ ∀ m, cfg.hasSelect m = true → r.select m =
      if m ∈ ns ∧ 3 ≤ m then cfg.selectLegal m 0 else hw.select m := by
  induction ns generalizing hw with
  | nil => simp
  | cons n ns ih =>
    rw [List.foldl_cons]
    split
    · next hn =>
      split
      · next hsmall =>
        obtain ⟨hinhibit, hselect⟩ := ih hw
        refine ⟨hinhibit, fun m hm => ?_⟩
        rw [hselect m hm]
        by_cases hmn : m = n
        · subst hmn
          simp [Nat.not_le.2 hsmall]
        · simp [hmn]
      · next hlarge =>
        obtain ⟨hinhibit, hselect⟩ := ih (eventWrite cfg hw n 0)
        refine ⟨hinhibit.trans (eventWrite_rest cfg hw n 0).1, fun m hm => ?_⟩
        rw [hselect m hm, eventWrite_select cfg hw hn]
        by_cases hmn : m = n
        · subst hmn
          simp [hm, Nat.le_of_not_lt hlarge]
        · simp [hmn]
    · next hn =>
      obtain ⟨hinhibit, hselect⟩ := ih hw
      refine ⟨hinhibit, fun m hm => ?_⟩
      have hmn : m ≠ n := by
        rintro rfl
        exact hn (hasSelect_exists cfg hm)
      rw [hselect m hm]
      simp [hmn]

section Switches

variable {cfg : Config x} (hon : cfg.haveInhibit = true) {b : Hart x}
include hon

theorem switchOut_counter (n : Nat) :
    (Hart.mk (switchOut cfg b).p (switchOut cfg b).p.hw).counter cfg n = b.counter cfg n := by
  obtain ⟨hinhibit, hcounters, -⟩ := switchOut_saved cfg b
  have hrecord := switchOut_record cfg b
  refine counter_congr (congrArg (·.event n) hrecord) ?_ ?_
  · have hstarted : (switchOut cfg b).p.fwStarted = b.p.fwStarted := congrArg (·.fwStarted) hrecord
    simp only [counterRunning, running, hinhibit hon, hstarted]
  · intro hsel
    have hn := hasSelect_exists cfg hsel
    refine (hcounters n hn).2.trans ?_
    rw [eventRead_eq cfg b.hw hn, if_pos hsel]

theorem switchIn_counter (n : Nat) :
    (switchIn cfg false b).counter cfg n =
      { (Hart.mk b.p b.p.hw).counter cfg n with
        select := cfg.selectAfter n ((Hart.mk b.p b.p.hw).counter cfg n).select } := by
  have hseen := seen_switchIn cfg b
  have hinhibit : (switchIn cfg false b).hw.inhibit = b.p.hw.inhibit := by
    have heq := congrArg Seen.inhibit hseen
    simpa only [seen, hon, if_true] using heq
  unfold Hart.counter counterRunning running
  rw [switchIn_record cfg b, hinhibit]
  congr 1
  unfold Config.selectAfter
  split
  · next hsel =>
    have hn := hasSelect_exists cfg hsel
    have heq := congrFun (congrArg Seen.select hseen) n
    simpa only [seen, hn, hsel, if_true, eventRead_eq cfg _ hn] using heq
  · rfl

theorem hartInit_counter (n : Nat) : (hartInit cfg b).counter cfg n = .fresh cfg n := by
  obtain ⟨h0, -, h2⟩ := cfg.fixed hon
  let hw := cfg.forEach (fun hw n => if n < 3 then hw else eventWrite cfg hw n 0)
    { b.hw with inhibit := cfg.stopped }
  obtain ⟨hinhibit, hselect⟩ := clear_loop cfg { b.hw with inhibit := cfg.stopped }
    (List.range hwCounterCount)
  let cleared : Hart x := ⟨(hartInit cfg b).p, hw⟩
  let first : Hart x := ⟨cleared.p, eventWrite cfg cleared.hw 0 hpmeventMinh⟩
  have hinit : hartInit cfg b = ⟨first.p, eventWrite cfg first.hw 2 hpmeventMinh⟩ := by
    simp only [first, cleared, hartInit_record]
    simp only [hartInit, hon, Bool.true_eq_false, if_false]
    rfl
  have hcounting : ∀ m, counterRunning cleared m =
      (decide (m < fwFirst) && !cfg.stopped.getLsbD m) := by
    intro m
    simp only [counterRunning, running, cleared, hartInit_record]
    split
    · next hm => simp [Nat.not_lt.2 hm]
    · next hm =>
      rw [decide_eq_true (Nat.lt_of_not_le hm), Bool.true_and]
      exact congrArg (fun i : BitVec 32 => !i.getLsbD m) hinhibit
  have hcleared : ∀ m, cleared.counter cfg m =
      ⟨eventNone, decide (m < fwFirst) && !cfg.stopped.getLsbD m,
        if cfg.hasSelect m then hw.select m else 0⟩ := by
    intro m
    rw [Hart.counter, hcounting]
    simp only [cleared, hartInit_record]
  rw [hinit, eventWrite_counter h2, eventWrite_counter h0, eventWrite_counter h0, hcleared,
    hcleared, hcleared]
  by_cases hn2 : n = 2
  · subst hn2
    rfl
  · by_cases hn0 : n = 0
    · subst hn0
      rfl
    · have hzero : (freshHw cfg).select n = 0 := by simp [freshHw, hn0, hn2]
      rw [if_neg hn2, if_neg hn0, Counter.fresh, hzero, Config.selectAfter]
      congr 1
      split
      · next hsel =>
        have hn := hasSelect_exists cfg hsel
        have hne := ne_one_of_exists cfg hn
        refine (hselect n hsel).trans (if_pos ⟨mem_range_of_exists cfg hn, ?_⟩)
        omega
      · rfl

theorem switchIn_fresh_counter (n : Nat) :
    (switchIn cfg true b).counter cfg n = .fresh cfg n := by
  let start : Hart x := hartInit cfg { b with p := { b.p with hw := freshHw cfg } }
  have hsame : switchIn cfg true b = switchIn cfg false start := rfl
  have hrecord := hartInit_record cfg { b with p := { b.p with hw := freshHw cfg } }
  have hhw : start.p.hw = freshHw cfg := congrArg PmuHart.hw hrecord
  have hevent : start.p.event n = eventNone := congrArg (PmuHart.event · n) hrecord
  have hstarted : start.p.fwStarted = 0 := congrArg PmuHart.fwStarted hrecord
  have hcounting : counterRunning ⟨start.p, freshHw cfg⟩ n =
      (decide (n < fwFirst) && !cfg.stopped.getLsbD n) := by
    simp only [counterRunning, running, hstarted, freshHw]
    split
    · next hn => simp [Nat.not_lt.2 hn]
    · next hn => rw [decide_eq_true (Nat.lt_of_not_le hn), Bool.true_and]
  rw [hsame, switchIn_counter hon, hhw]
  simp only [Hart.counter, Counter.fresh, hcounting, hevent, Config.selectAfter]
  split <;> rfl

end Switches

/-! ### Runs of one hart -/

structure Machine (x : Xlen) where
  domain : Nat
  record : Nat → PmuHart x
  hw : Hardware
  left : Nat → Bool

inductive Act (x : Xlen) where
  | call (c : Call x) (mem : Mem)
  | fwEvent (event : BitVec 32)
  /-- Counter `n` counts. -/
  | counts (n : Nat) (k : BitVec 64)
  | sseEnable (enable : Bool)
  /-- The overflow interrupt is pending, or taken, or S-mode turns it on or off. -/
  | interrupt (enabled delegated pending : Bool)
  /-- The hart changes domain. -/
  | switch (target : Nat) (fresh : Bool)
  | start (hw : Hardware)

def Machine.hart (m : Machine x) : Hart x := ⟨m.record m.domain, m.hw⟩

def Machine.put (m : Machine x) (b : Hart x) : Machine x :=
  { m with record := update m.record m.domain b.p, hw := b.hw }

def Machine.switch (cfg : Config x) (m : Machine x) (target : Nat) (fresh : Bool) : Machine x :=
  let out := m.put (switchOut cfg m.hart)
  let into := { out with domain := target, left := update m.left m.domain true }
  into.put (switchIn cfg fresh into.hart)

def step (cfg : Config x) (m : Machine x) : Act x → Option (Machine x)
  | .call c mem => some (m.put (ecall cfg m.hart mem c).1)
  | .fwEvent event => some (m.put (fwEvent m.hart event))
  | .counts n k => some { m with hw := counts cfg m.hw n k }
  | .sseEnable enable => some (m.put (sseEnable m.hart enable))
  | .interrupt enabled delegated pending =>
    some { m with
      hw := { m.hw with
        irqEnabled := enabled, irqDelegated := delegated, irqPending := pending } }
  | .switch target fresh =>
    if target = m.domain ∨ (fresh = false ∧ m.left target = false) then none
    else some (m.switch cfg target fresh)
  | .start hw => some (m.put (hartInit cfg ⟨m.record m.domain, hw⟩))

def boot (cfg : Config x) (domain : Nat) (record : Nat → PmuHart x) (hw : Hardware) :
    Machine x :=
  let m : Machine x := ⟨domain, record, hw, fun _ => false⟩
  m.put (hartInit cfg m.hart)

/-- A property of single counters that is kept, where the calls meet the condition `P`. -/
structure Keeps (cfg : Config x) (Q : Nat → Counter → Prop) (P : Hart x → Call x → Prop) :
    Prop where
  fresh : ∀ n, Q n (.fresh cfg n)
  change : ∀ {b c n k}, P b c → Q n (b.counter cfg n) → Change cfg b c n k → Q n k
  settles : ∀ {n k}, cfg.hasSelect n = true → Q n k →
    Q n { k with select := cfg.selectLegal n k.select }
  overflows : ∀ {n k}, cfg.hasSelect n = true → 3 ≤ n → k.counting = true → Q n k →
    Q n { k with select := k.select ||| hpmeventOf }

structure Holds (cfg : Config x) (Q : Nat → Counter → Prop) (m : Machine x) : Prop where
  here : ∀ n, Q n (m.hart.counter cfg n)
  elsewhere : ∀ d, d ≠ m.domain → m.left d = true →
    ∀ n, Q n ((Hart.mk (m.record d) (m.record d).hw).counter cfg n)

section Keeps

variable {cfg : Config x} {Q : Nat → Counter → Prop} {P : Hart x → Call x → Prop}
variable {m : Machine x}

theorem put_hart (b : Hart x) : (m.put b).hart = b := by
  simp only [Machine.put, Machine.hart, update_self]

theorem Holds.put (h : Holds cfg Q m) {b : Hart x} (hb : ∀ n, Q n (b.counter cfg n)) :
    Holds cfg Q (m.put b) where
  here := by
    rw [put_hart]
    exact hb
  elsewhere d hd hleft := by
    have hrecord : (m.put b).record d = m.record d := update_of_ne hd ..
    rw [hrecord]
    exact h.elsewhere d hd hleft

variable (cfg) in
theorem counts_counter (p : PmuHart x) (hw : Hardware) (n : Nat) (k : BitVec 64) (i : Nat) :
    (Hart.mk p (counts cfg hw n k)).counter cfg i = (Hart.mk p hw).counter cfg i ∨
      cfg.hasSelect i = true ∧ 3 ≤ i ∧ ((Hart.mk p hw).counter cfg i).counting = true ∧
        (Hart.mk p (counts cfg hw n k)).counter cfg i =
          { (Hart.mk p hw).counter cfg i with
            select := ((Hart.mk p hw).counter cfg i).select ||| hpmeventOf } := by
  unfold counts
  split
  · next hcounts =>
    dsimp only
    split
    · next hover =>
      by_cases hi : i = n
      · subst hi
        have hlt : ¬ fwFirst ≤ i := Nat.not_le.2 (BitVec.lt_of_getLsbD hcounts.1)
        have hsel : cfg.hasSelect i = true := by simp [Config.hasSelect, hcounts.1, hover.2.1]
        refine .inr ⟨hsel, hover.2.1, ?_, ?_⟩
        · simp only [Hart.counter, counterRunning, if_neg hlt, hcounts.2]
        · simp only [Hart.counter, hsel, if_true, update_self]
          rfl
      · exact .inl (counter_congr rfl rfl fun _ => update_of_ne hi ..)
    · exact .inl rfl
  · exact .inl rfl

theorem Keeps.switch (h : Keeps cfg Q P) (hon : cfg.haveInhibit = true) (hm : Holds cfg Q m)
    {target : Nat} {fresh : Bool} (hto : target ≠ m.domain)
    (hleft : fresh = true ∨ m.left target = true) : Holds cfg Q (m.switch cfg target fresh) := by
  set into : Machine x :=
    { m.put (switchOut cfg m.hart) with
      domain := target, left := update m.left m.domain true } with hinto
  have hrecord : ∀ d, d ≠ m.domain → into.record d = m.record d :=
    fun d hd => update_of_ne hd ..
  have hkept : ∀ d, d ≠ target → into.left d = true →
      ∀ n, Q n ((Hart.mk (into.record d) (into.record d).hw).counter cfg n) := by
    intro d _ hd n
    by_cases hdm : d = m.domain
    · have hout : into.record d = (switchOut cfg m.hart).p := by
        rw [hinto, hdm]
        exact update_self ..
      rw [hout, switchOut_counter hon]
      exact hm.here n
    · rw [hrecord d hdm]
      refine hm.elsewhere d hdm ?_ n
      have hsame : into.left d = m.left d := update_of_ne hdm ..
      rwa [hsame] at hd
  have hswitch : m.switch cfg target fresh = into.put (switchIn cfg fresh into.hart) := rfl
  have hhere : ∀ n, Q n ((switchIn cfg fresh into.hart).counter cfg n) := by
    intro n
    cases fresh with
    | true =>
      rw [switchIn_fresh_counter hon]
      exact h.fresh n
    | false =>
      have hold := hm.elsewhere target hto (hleft.resolve_left Bool.false_ne_true) n
      have hinrecord : into.hart.p = m.record target := hrecord target hto
      rw [switchIn_counter hon, hinrecord]
      by_cases hsel : cfg.hasSelect n = true
      · simp only [Config.selectAfter, if_pos hsel]
        exact h.settles hsel hold
      · have hnone : ∀ b : Hart x, b.counter cfg n = { b.counter cfg n with select := 0 } := by
          intro b
          simp only [Hart.counter, if_neg hsel]
        simp only [Config.selectAfter, if_neg hsel]
        rw [hnone] at hold
        exact hold
  rw [hswitch]
  refine ⟨by rw [put_hart]; exact hhere, ?_⟩
  intro d hd hdleft
  have hsame : (into.put (switchIn cfg fresh into.hart)).record d = into.record d :=
    update_of_ne hd ..
  rw [hsame]
  exact hkept d hd hdleft

def Act.meets (P : Hart x → Call x → Prop) (m : Machine x) : Act x → Prop
  | .call c _ => P m.hart c
  | _ => True

instance Act.meets.decidable [∀ b c, Decidable (P b c)] (m : Machine x) :
    ∀ a : Act x, Decidable (a.meets P m)
  | .call c _ => inferInstanceAs (Decidable (P m.hart c))
  | .fwEvent _ | .counts .. | .sseEnable _ | .interrupt .. | .switch .. | .start _ =>
    inferInstanceAs (Decidable True)

section

variable (h : Keeps cfg Q P) (hon : cfg.haveInhibit = true)
include h hon

theorem Keeps.step {a : Act x} {t : Machine x} (hm : Holds cfg Q m) (hmeets : a.meets P m)
    (hstep : step cfg m a = some t) : Holds cfg Q t := by
  cases a with
  | call c mem =>
    cases hstep
    exact hm.put fun n => h.change hmeets (hm.here n) (ecall_change cfg m.hart mem c n)
  | fwEvent event =>
    cases hstep
    exact hm.put hm.here
  | counts n k =>
    cases hstep
    refine ⟨fun i => ?_, hm.elsewhere⟩
    have hold := hm.here i
    rcases counts_counter cfg (m.record m.domain) m.hw n k i with
      hsame | ⟨hsel, hlarge, hcounting, hover⟩
    · exact hsame ▸ hold
    · exact hover ▸ h.overflows hsel hlarge hcounting hold
  | sseEnable enable =>
    cases hstep
    refine hm.put fun n => ?_
    have hsame : (Pmu.sseEnable m.hart enable).counter cfg n = m.hart.counter cfg n := by
      unfold Pmu.sseEnable
      split
      · rfl
      split <;> rfl
    exact hsame ▸ hm.here n
  | interrupt enabled delegated pending =>
    cases hstep
    exact ⟨hm.here, hm.elsewhere⟩
  | switch target fresh =>
    simp only [Pmu.step] at hstep
    split at hstep
    · cases hstep
    · next hcan =>
      cases hstep
      push Not at hcan
      refine h.switch hon hm hcan.1 ?_
      cases fresh with
      | true => exact .inl rfl
      | false => exact .inr (Bool.not_eq_false _ ▸ hcan.2 rfl)
  | start hw =>
    cases hstep
    refine hm.put fun n => ?_
    rw [hartInit_counter hon]
    exact h.fresh n

theorem Keeps.boot (domain : Nat) (record : Nat → PmuHart x) (hw : Hardware) :
    Holds cfg Q (boot cfg domain record hw) := by
  refine ⟨fun n => ?_, nofun⟩
  rw [Pmu.boot, put_hart, hartInit_counter hon]
  exact h.fresh n

theorem Keeps.run {domain : Nat} {record : Nat → PmuHart x} {hw : Hardware} {acts : List (Act x)}
    (halong : Runs.Along (Pmu.step cfg) (fun m a => a.meets P m)
      (Pmu.boot cfg domain record hw) acts)
    (hrun : Runs.run (Pmu.step cfg) (Pmu.boot cfg domain record hw) acts = some m) :
    Holds cfg Q m :=
  halong.invariant (fun _ _ _ hs hP hstep => h.step hon hs hP hstep) (h.boot hon domain record hw)
    hrun

end

end Keeps

end RiscvMonitor.Pmu
