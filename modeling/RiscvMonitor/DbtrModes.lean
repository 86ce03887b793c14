import RiscvMonitor.DbtrLeak
import RiscvMonitor.DbtrWarl
import RiscvMonitor.Runs

/-!
# Triggers that are S-mode's alone

Along any calls and switches of a hart: an installed trigger matches in modes that
its configuration had, one that is free in none, and no trigger has `dmode` or the
bit of M-mode.  The triggers of the other domains wait in their records.
-/

namespace RiscvMonitor.Dbtr

open Masks

variable {x : Xlen}

/-- The triggers of a hart: the installed ones match as recorded, the other ones of `known`
    do not match. -/
structure Kept {hw : Hardware x} (w : Warl hw) (known : Nat → Prop) (b : Hart x) : Prop where
  armed : ∀ i < b.d.count, b.d.mapped i = true → Armed w i (b.d.state i) (b.trigger i).tdata1
  off : ∀ i, known i → ¬ (i < b.d.count ∧ b.d.mapped i = true) → Off (b.trigger i).tdata1

variable {p i : Nat} {t : Trigger x} {op : SetOp}

section Calls

variable {hw : Hardware x} {w : Warl hw} {known : Nat → Prop} {b : Hart x}

theorem mapped_stateOf (i : Nat) (v : Word x) : (stateOf i v).getLsbD 0 = true := by
  have hbit : (bit 0 : Word x).getLsbD 0 = true := by cases x <;> decide
  simp [stateOf, stateMapped, hbit]

section

variable (hb : Kept w known b)
include hb

theorem Kept.change {c : Hart x} (hcount : c.d.count = b.d.count)
    (hcases : ∀ i, ((c.trigger i).tdata1 = (b.trigger i).tdata1 ∧ c.d.state i = b.d.state i) ∨
      i < b.d.count ∧
        ((c.d.state i).getLsbD 0 = true → Armed w i (c.d.state i) (c.trigger i).tdata1) ∧
        ((c.d.state i).getLsbD 0 = false → Off (c.trigger i).tdata1)) : Kept w known c := by
  constructor
  · intro i hi hm
    rw [mapped_iff] at hm
    rcases hcases i with ⟨htdata1, hstate⟩ | ⟨-, harmed, -⟩
    · rw [hstate] at hm
      rw [htdata1, hstate]
      exact hb.armed i (hcount ▸ hi) ((mapped_iff _ _).trans hm)
    · exact harmed hm
  · intro i hknown hno
    rw [mapped_iff, hcount] at hno
    rcases hcases i with ⟨htdata1, hstate⟩ | ⟨hi, -, hoff⟩
    · rw [hstate] at hno
      rw [htdata1]
      exact hb.off i hknown (by rw [mapped_iff]; exact hno)
    · exact hoff (Bool.not_eq_true _ ▸ fun hm => hno ⟨hi, hm⟩)

theorem Kept.put (hp : p < b.d.count) {state : Word x}
    (hmapped : state.getLsbD 0 = true → Armed w p state t.tdata1)
    (hfree : state.getLsbD 0 = false → Off t.tdata1) :
    Kept w known ((b.setTrigger p t).setState p state) := by
  set c := (b.setTrigger p t).setState p state
  refine hb.change (c := c) rfl fun i => ?_
  by_cases hip : i = p
  · subst hip
    have htrigger : c.trigger i = t := Function.update_self ..
    have hstate : c.d.state i = state := Function.update_self ..
    rw [htrigger, hstate]
    exact .inr ⟨hp, hmapped, hfree⟩
  · refine .inl ⟨congrArg Trigger.tdata1 ?_, Function.update_of_ne hip ..⟩
    exact Function.update_of_ne hip ..

end

theorem Armed.setOp {state v : Word x} (h : Armed w i state v) (op : SetOp) (t : Trigger x) :
    (hw.write1 i t (setOpModes op state v)).tdata1 = setOpModes op state v ∧
      Armed w i state (setOpModes op state v) := by
  unfold setOpModes
  split
  · exact ⟨w.takes (h.enable w).1, (h.enable w).2⟩
  · have hdisable := h.disable w
    have hnone : clear v (modeBits v) ||| 0 = clear v (modeBits v) := BitVec.or_zero
    rw [hnone]
    exact ⟨w.takes hdisable.1, hdisable.2⟩

theorem Kept.edit {c : Hart x} (hb : Kept w known b) (h : Edit hw b c) : Kept w known c := by
  have hfree {i : Nat} {state : Word x} {t : Trigger x} (hi : i < b.d.count)
      (hstate : state.getLsbD 0 = false) (ht : Off t.tdata1) :
      Kept w known ((b.setTrigger i t).setState i state) :=
    hb.put hi (fun h => absurd (hstate.symm.trans h) nofun) fun _ => ht
  cases h with
  | shmem => exact ⟨hb.armed, hb.off⟩
  | clear hi => exact hfree hi BitVec.getLsbD_zero (hwClear_off w _ _)
  | refuse hi hno hstate => exact hfree hi hstate (hwProgram_off w hno)
  | @program i hi cfg hcheck htook =>
    refine hb.put hi (fun _ => hwProgram_armed w hcheck htook) fun hno => ?_
    rw [mapped_stateOf] at hno
    cases hno
  | @modes i hi hmapped op =>
    obtain ⟨htaken, harmed⟩ := (hb.armed i hi hmapped).setOp op (b.trigger i)
    rw [mapped_iff] at hmapped
    have hput := hb.put hi (fun _ => htaken ▸ harmed)
      fun hno => absurd (hmapped.symm.trans hno) nofun
    simpa only [Hart.setState, Hart.setTrigger, Function.update_eq_self] using hput

def Exact (b : Hart x) (i : Nat) : Prop :=
  (b.trigger i).tdata1 &&& modeBits (b.trigger i).tdata1 =
    recorded (typeOf (b.trigger i).tdata1) (b.d.state i)

theorem exact_setOpModes (state v : Word x) :
    setOpModes .enable state v &&& modeBits (setOpModes .enable state v) =
      recorded (typeOf (setOpModes .enable state v)) state := by
  have hmodes : recorded (typeOf v) state &&& modeBits v = recorded (typeOf v) state :=
    recorded_and_modes _ _
  have halike := alike_replace hmodes
  have hself := replace_and_self (v := v) hmodes
  unfold setOpModes
  rw [if_pos rfl, halike.modeBits, halike.typeOf, hself]

theorem exact_setOps (hb : Kept w known b) {idxs : List (Word x)}
    (hidxs : ∀ idx ∈ idxs, idx.toNat < b.d.count ∧ b.d.mapped idx.toNat = true)
    (hi : i ∈ idxs.map BitVec.toNat ∨ Exact b i) :
    Exact (idxs.foldl (setOpOne hw .enable) b) i := by
  induction idxs generalizing b with
  | nil => exact hi.resolve_left List.not_mem_nil
  | cons idx idxs ih =>
    obtain ⟨hidx, hmapped⟩ := hidxs idx List.mem_cons_self
    have hnext : Kept w known (setOpOne hw .enable b idx) :=
      hb.edit (setOpOne_edit hidx fun _ => hmapped)
    have hrecord : (setOpOne hw .enable b idx).d = b.d := setOpOne_record (by decide) b idx
    refine ih hnext (fun other hother => ?_) ?_
    · rw [hrecord]
      exact hidxs other (List.mem_cons_of_mem _ hother)
    · by_cases heq : i = idx.toNat
      · right
        subst heq
        have htaken := ((hb.armed _ hidx hmapped).setOp .enable (b.trigger idx.toNat)).1
        unfold Exact
        rw [hrecord, setOpOne_eq _ (by decide), Hart.setTrigger]
        dsimp only
        rw [Function.update_self, htaken]
        exact exact_setOpModes _ _
      · rcases hi with hmem | hexact
        · rw [List.map_cons, List.mem_cons] at hmem
          exact .inl (hmem.resolve_left heq)
        · right
          unfold Exact at hexact ⊢
          rw [hrecord, setOpOne_eq _ (by decide), Hart.setTrigger]
          dsimp only
          rwa [Function.update_of_ne heq]

end Calls

/-! ### Switches -/

section Switches

variable {hw : Hardware x} {known : Nat → Prop} {b : Hart x}

theorem Kept.hartInit {cfg : Config x} (w : Warl cfg.hw) (trigger : Nat → Trigger x)
    (hoff : ∀ i, known i → (hartInit cfg trigger).d.count ≤ i → Off (trigger i).tdata1) :
    Kept w known (hartInit cfg trigger) := by
  obtain ⟨-, -, hstate, htrigger⟩ := hartInit_spec cfg trigger
  constructor
  · intro i _ hm
    rw [mapped_iff, hstate] at hm
    cases BitVec.getLsbD_zero.symm.trans hm
  · intro i hknown _
    rw [htrigger]
    split
    · exact hwClear_off w _ _
    · next hi => exact hoff i hknown (Nat.le_of_not_lt hi)

theorem Kept.switchOut_off {w : Warl hw} (hb : Kept w known b) (hknown : known i) :
    Off ((switchOut hw b).trigger i).tdata1 := by
  by_cases htaken : (decide (i < b.d.count) && b.d.mapped i) = true
  · have hclear : (switchOut hw b).trigger i = hwClear hw i (b.trigger i) := if_pos htaken
    rw [hclear]
    exact hwClear_off w _ _
  · have hsame : (switchOut hw b).trigger i = b.trigger i := if_neg htaken
    rw [hsame]
    refine hb.off i hknown fun hm => htaken ?_
    rw [decide_eq_true hm.1, hm.2, Bool.true_and]

theorem Kept.switchOut_saved {w : Warl hw} (hb : Kept w known b) (hi : i < b.d.count)
    (hm : b.d.mapped i = true) :
    Armed w i (b.d.state i) ((switchOut hw b).d.saved i).tdata1 := by
  have htaken : (decide (i < b.d.count) && b.d.mapped i) = true := by
    rw [decide_eq_true hi, hm, Bool.true_and]
  have hsaved : ((switchOut hw b).d.saved i).tdata1 = (b.trigger i).tdata1 := by
    simp only [switchOut, if_pos htaken]
  rw [hsaved]
  exact hb.armed i hi hm

theorem Kept.switchIn {cfg : Config x} {w : Warl cfg.hw}
    (hsaved : ∀ i < b.d.count, b.d.mapped i = true →
      Armed w i (b.d.state i) (b.d.saved i).tdata1)
    (hoff : ∀ i, known i → Off (b.trigger i).tdata1) :
    Kept w known (switchIn cfg false b) := by
  constructor
  · intro i hi hm
    have hback : (Dbtr.switchIn cfg false b).trigger i =
        writeBack cfg.hw b.d i (b.trigger i) := by
      refine if_pos ?_
      rw [decide_eq_true (show i < b.d.count from hi), show b.d.mapped i = true from hm,
        Bool.true_and]
    have harmed := hsaved i hi hm
    have htaken : (writeBack cfg.hw b.d i (b.trigger i)).tdata1 = (b.d.saved i).tdata1 :=
      w.takes harmed.legal
    rw [hback, htaken]
    exact harmed
  · intro i hknown hno
    have hsame : (Dbtr.switchIn cfg false b).trigger i = b.trigger i := by
      refine if_neg fun htaken => hno ?_
      rwa [Bool.and_eq_true, decide_eq_true_eq] at htaken
    rw [hsame]
    exact hoff i hknown

end Switches

def Known (n : Nat) (s : Sys x) (i : Nat) : Prop := i < n ∨ ∃ d, i < (s.dbtr d).count

structure Safe {hw : Hardware x} (w : Warl hw) (n : Nat) (s : Sys x) : Prop where
  live : Kept w (Known n s) s.hart
  parked : ∀ d, d ≠ s.domain → ∀ i < (s.dbtr d).count, (s.dbtr d).mapped i = true →
    Armed w i ((s.dbtr d).state i) ((s.dbtr d).saved i).tdata1

/-- The hardware notes a match in a way that leaves the type, the modes and whose it is. -/
def Step.natural {hw : Hardware x} (w : Warl hw) (s : Sys x) : Step x → Prop
  | .event (.fires i v) =>
    w.legal i v ∧ v &&& guard (s.trigger i).tdata1 =
      (s.trigger i).tdata1 &&& guard (s.trigger i).tdata1
  | _ => True

section Runs

variable {cfg : Config x} {w : Warl cfg.hw} {n : Nat} {s : Sys x}

theorem Kept.mono {hw : Hardware x} {w : Warl hw} {known known' : Nat → Prop} {b : Hart x}
    (hb : Kept w known b) (hsub : ∀ i, known' i → known i) : Kept w known' b :=
  ⟨hb.armed, fun i hi hno => hb.off i (hsub i hi) hno⟩

theorem put_dbtr_of_ne {b : Hart x} {d : Nat} (hd : d ≠ s.domain) :
    (s.put b).dbtr d = s.dbtr d := Function.update_of_ne hd ..

theorem put_dbtr_self (b : Hart x) : (s.put b).dbtr s.domain = b.d := Function.update_self ..

theorem put_count {b : Hart x} (hb : b.d.count = (s.dbtr s.domain).count) (d : Nat) :
    ((s.put b).dbtr d).count = (s.dbtr d).count := by
  by_cases hd : d = s.domain
  · rw [hd, put_dbtr_self, hb]
  · rw [put_dbtr_of_ne hd]

theorem Safe.call (hs : Safe w n s) (c : Call x) (mem : Nat → Entry x) :
    Safe w n (event cfg s (.call c mem)) := by
  have hedits := ecall_edits cfg s.domain s.hart (c, mem)
  set b := (ecall cfg s.domain s.hart (c, mem)).1
  have hevent : event cfg s (.call c mem) = s.put b := rfl
  rw [hevent]
  constructor
  · rw [put_hart]
    refine (hedits.keep (fun hb => hb.edit) hs.live).mono fun i hi => ?_
    exact hi.imp_right fun ⟨d, hi⟩ => ⟨d, put_count hedits.count d ▸ hi⟩
  · intro d hd
    rw [put_dbtr_of_ne (s := s) hd]
    exact hs.parked d hd

theorem Safe.fires (hs : Safe w n s) {v : Word x} (hlegal : w.legal i v)
    (hguard : v &&& guard (s.trigger i).tdata1 =
      (s.trigger i).tdata1 &&& guard (s.trigger i).tdata1) :
    Safe w n (event cfg s (.fires i v)) := by
  set t := event cfg s (.fires i v)
  have htdata1 (j : Nat) : (t.hart.trigger j).tdata1 =
      if j = i then v else (s.trigger j).tdata1 := by
    simp only [t, event, Sys.hart, Function.update_apply]
    split <;> rfl
  refine ⟨⟨?_, ?_⟩, hs.parked⟩
  · intro j hj hm
    have hold := hs.live.armed j hj hm
    rw [htdata1]
    split
    · next heq =>
      subst heq
      exact hold.fires w hlegal hguard
    · exact hold
  · intro j hknown hno
    have hold := hs.live.off j hknown hno
    rw [htdata1]
    split
    · next heq =>
      subst heq
      exact hold.fires hguard
    · exact hold

theorem Safe.switch (hs : Safe w n s) (dom : Nat) (fresh : Bool) :
    Safe w n (Dbtr.switch cfg s dom fresh) := by
  set out : Sys x := { s.put (switchOut cfg.hw s.hart) with domain := dom } with hout
  have hswitch : Dbtr.switch cfg s dom fresh = out.put (switchIn cfg fresh out.hart) := rfl
  have hrecords : ∀ d, (out.dbtr d).count = (s.dbtr d).count :=
    put_count (b := switchOut cfg.hw s.hart) rfl
  -- all that is installed is in the records now
  have hparked : ∀ d, ∀ i < (out.dbtr d).count, (out.dbtr d).mapped i = true →
      Armed w i ((out.dbtr d).state i) ((out.dbtr d).saved i).tdata1 := by
    intro d i hi hm
    by_cases hd : d = s.domain
    · have hrecord : out.dbtr d = (switchOut cfg.hw s.hart).d :=
        hd ▸ put_dbtr_self (switchOut cfg.hw s.hart)
      rw [hrecord] at hi hm ⊢
      exact hs.live.switchOut_saved hi hm
    · have hrecord : out.dbtr d = s.dbtr d := put_dbtr_of_ne hd
      rw [hrecord] at hi hm ⊢
      exact hs.parked d hd i hi hm
  have hoff : ∀ i, Known n s i → Off (out.trigger i).tdata1 :=
    fun i hi => hs.live.switchOut_off hi
  have hknown : ∀ i, Known n (out.put (switchIn cfg fresh out.hart)) i →
      Known n s i ∨ i < (switchIn cfg fresh out.hart).d.count := by
    rintro i (hi | ⟨d, hi⟩)
    · exact .inl (.inl hi)
    · by_cases hd : d = out.domain
      · rw [hd, put_dbtr_self] at hi
        exact .inr hi
      · rw [put_dbtr_of_ne hd, hrecords] at hi
        exact .inl (.inr ⟨d, hi⟩)
  rw [hswitch]
  constructor
  · rw [put_hart]
    cases fresh with
    | true =>
      refine Kept.hartInit w out.trigger fun i hi hge => ?_
      rcases hknown i hi with hold | hlt
      · exact hoff i hold
      · exact absurd hge (Nat.not_le.2 hlt)
    | false =>
      refine Kept.switchIn (hparked dom) fun i hi => ?_
      rcases hknown i hi with hold | hlt
      · exact hoff i hold
      · exact hoff i (.inr ⟨dom, (hrecords dom) ▸ hlt⟩)
  · intro d hd
    rw [put_dbtr_of_ne (s := out) hd]
    exact hparked d

theorem Safe.step (hs : Safe w n s) {a : Step x} (hnatural : a.natural w s) :
    Safe w n (Dbtr.step cfg s a) := by
  cases a with
  | event e =>
    cases e with
    | call c mem => exact hs.call c mem
    | fires i v => exact hs.fires hnatural.1 hnatural.2
  | switch dom fresh => exact hs.switch dom fresh

theorem Safe.boot (w : Warl cfg.hw) (home : Nat) (trigger : Nat → Trigger x) :
    Safe w (boot cfg home trigger).hart.d.count (boot cfg home trigger) := by
  have hhart : (Dbtr.boot cfg home trigger).hart = hartInit cfg trigger := by
    rw [Dbtr.boot, put_hart]
  have hnone : ∀ d, d ≠ home → ((Dbtr.boot cfg home trigger).dbtr d).count = 0 := by
    intro d hd
    simp only [Dbtr.boot, Sys.put, Function.update_of_ne hd]
  have hhome : (Dbtr.boot cfg home trigger).dbtr home = (hartInit cfg trigger).d := by
    rw [Dbtr.boot]
    exact Function.update_self ..
  constructor
  · rw [hhart]
    refine Kept.hartInit w trigger fun i hi hge => ?_
    rcases hi with hi | ⟨d, hi⟩
    · exact absurd hge (Nat.not_le.2 hi)
    · by_cases hd : d = home
      · rw [hd, hhome] at hi
        exact absurd hge (Nat.not_le.2 hi)
      · rw [hnone d hd] at hi
        exact absurd hi (Nat.not_lt_zero i)
  · intro d hd i hi
    rw [hnone d hd] at hi
    exact absurd hi (Nat.not_lt_zero i)

/-- Trigger `i` is S-mode's, and none of any other. -/
structure SModeOnly (cfg : Config x) (s : Sys x) (i : Nat) : Prop where
  dmode : has (s.trigger i).tdata1 tdata1Dmode = false
  m : has (s.trigger i).tdata1 (typeOf (s.trigger i).tdata1).m = false
  free : ¬ (i < s.hart.d.count ∧ s.hart.d.mapped i = true) →
    (s.trigger i).tdata1 &&& modeBits (s.trigger i).tdata1 = 0
  within : i < s.hart.d.count → s.hart.d.mapped i = true →
    clear ((s.trigger i).tdata1 &&& modeBits (s.trigger i).tdata1)
      (recorded (typeOf (s.trigger i).tdata1) (s.hart.d.state i)) = 0#x.bits
  /-- Disabled and enabled again, in all of them. -/
  restored : ∀ (base mask base' mask' : Word x) (mem mem' : Nat → Entry x),
    let disabled := call cfg s (.disable base mask, mem)
    let enabled := call cfg disabled.1 (.enable base' mask', mem')
    disabled.2.error = .success → enabled.2.error = .success →
    i ∈ (selected base mask).map BitVec.toNat → i ∈ (selected base' mask').map BitVec.toNat →
    enabled.1.hart.d.state i = s.hart.d.state i ∧
      (enabled.1.trigger i).tdata1 &&& modeBits (enabled.1.trigger i).tdata1 =
        recorded (typeOf (enabled.1.trigger i).tdata1) (s.hart.d.state i)

theorem setOpApply_record {hw : Hardware x} (hop : op ≠ .uninstall) (b : Hart x)
    (base mask : Word x) : (setOpApply hw b base mask op).1.d = b.d := by
  rcases setOpApply_cases hw b base mask op with heq | ⟨-, heq⟩
  · rw [heq]
  · rw [heq]
    exact setOps_record hop _ b

theorem Safe.sModeOnly (hs : Safe w n s) (hi : Known n s i) : SModeOnly cfg s i := by
  have hplain : Plain (s.trigger i).tdata1 := by
    by_cases hm : i < s.hart.d.count ∧ s.hart.d.mapped i = true
    · exact (hs.live.armed i hm.1 hm.2).toPlain
    · exact (hs.live.off i hi hm).toPlain
  refine ⟨hplain.dmode, hplain.m, ?_, ?_, ?_⟩
  · exact fun hno => (hs.live.off i hi hno).modes
  · exact fun hlt hm => (hs.live.armed i hlt hm).within
  · intro base mask base' mask' mem mem' disabled enabled _ hon _ hnamed
    set b := (setOpApply cfg.hw s.hart base mask .disable).1
    have hb : Kept w (Known n s) b :=
      (setOpApply_edits cfg.hw s.hart base mask .disable).keep (fun hb => hb.edit) hs.live
    have hrecord : b.d = s.hart.d := setOpApply_record (by decide) s.hart base mask
    have hdisabled : disabled.1.hart = b := put_hart s b
    have henabled : enabled.1.hart = (setOpApply cfg.hw b base' mask' .enable).1 := by
      rw [← hdisabled]
      exact put_hart _ _
    have hreply : enabled.2.error = (setOpApply cfg.hw b base' mask' .enable).2 := by
      rw [← hdisabled]
      rfl
    rcases setOpApply_cases cfg.hw b base' mask' .enable with heq | ⟨hidxs, heq⟩
    · rw [hreply, heq] at hon
      cases hon
    · have hexact := exact_setOps hb hidxs (.inl hnamed)
      have hstate : ((selected base' mask').foldl (setOpOne cfg.hw .enable) b).d.state =
          b.d.state := congrArg DbtrHart.state (setOps_record (by decide) _ b)
      rw [heq] at henabled
      have htrigger : enabled.1.trigger i = enabled.1.hart.trigger i := rfl
      rw [Exact, congrFun hstate i, hrecord] at hexact
      rw [htrigger, henabled, congrFun hstate i, hrecord]
      exact ⟨rfl, hexact⟩

/-- In every state that any calls and switches reach, the triggers are S-mode's. -/
theorem run_sModeOnly (w : Warl cfg.hw) {home : Nat} {trigger : Nat → Trigger x}
    {steps : List (Step x)} {s : Sys x}
    (hnatural : Runs.Along (fun s a => some (step cfg s a)) (fun s a => a.natural w s)
      (boot cfg home trigger) steps)
    (hrun : Runs.run (fun s a => some (step cfg s a)) (boot cfg home trigger) steps = some s)
    {i : Nat} (hi : Known (boot cfg home trigger).hart.d.count s i) : SModeOnly cfg s i := by
  have hsafe : Safe w (boot cfg home trigger).hart.d.count s := by
    refine hnatural.invariant (fun s a t hs ha hstep => ?_) (Safe.boot w home trigger) hrun
    cases hstep
    exact hs.step ha
  exact hsafe.sModeOnly hi

end Runs

def oneTriggerWarl : Warl oneTrigger.hw where
  legal _ _ := True
  takes _ := rfl
  leaves _ _ _ := trivial
  write2 _ _ _ := rfl
  write3 _ _ _ := rfl
  off _ := trivial
  modes _ _ _ := trivial

/-- A trigger is installed and disabled, fires in between, and waits for the hart to come back. -/
def installsAndLeaves : List (Step .rv64) :=
  [.event (.call (.setShmem 0x80400000 0 0) fun _ => ⟨0, 0, 0, 0⟩),
   .event (.call (.install 1) fun _ => ⟨0, 0x6000000000000014, 0x80201000, 0⟩),
   .event (.fires 0 0x6000000000400014),
   .event (.call (.disable 0 1) fun _ => ⟨0, 0, 0, 0⟩), .switch 2 true, .switch 1 false]

theorem run_sModeOnly_oneTrigger :
    ∃ s, Runs.run (fun s a => some (step oneTrigger s a))
        (boot oneTrigger 1 fun _ => ⟨0, 0, 0⟩) installsAndLeaves = some s ∧
      s.hart.d.mapped 0 = true ∧ SModeOnly oneTrigger s 0 := by
  have hnatural : Runs.Along (fun s a => some (step oneTrigger s a))
      (fun s a => a.natural oneTriggerWarl s) (boot oneTrigger 1 fun _ => ⟨0, 0, 0⟩)
      installsAndLeaves := by
    refine ⟨trivial, fun _ h₁ => ⟨trivial, fun _ h₂ => ⟨⟨trivial, ?_⟩, fun _ _ => ⟨trivial,
      fun _ _ => ⟨trivial, fun _ _ => ⟨trivial, fun _ _ => trivial⟩⟩⟩⟩⟩⟩
    cases h₁
    cases h₂
    decide +kernel
  exact ⟨_, rfl, by decide +kernel,
    run_sModeOnly oneTriggerWarl hnatural rfl (.inl (by decide +kernel))⟩

end RiscvMonitor.Dbtr
