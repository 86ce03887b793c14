import RiscvMonitor.EventNames

/-!
# Events nest like a stack

`sse.c` keeps no stack of the events that run on a hart.  A completion takes the one
that outranks the others for the one that was delivered last.  That is so: an event is
delivered only if it outranks all that run there, and as long as it runs, its priority
and its hart stay as they are.
-/

namespace RiscvMonitor.Sse

variable {x : Xlen}

/-! ### Ranks -/

theorem outranks_iff {a b : Event x} : outranks a b = true ↔
    (a.attr .priority).toNat < (b.attr .priority).toNat ∨
      (a.attr .priority).toNat = (b.attr .priority).toNat ∧ a.id < b.id := by
  unfold outranks
  split
  · next hne =>
    have hne : (a.attr .priority).toNat ≠ (b.attr .priority).toNat :=
      fun heq => hne (BitVec.eq_of_toNat_eq heq)
    rw [decide_eq_true_eq, BitVec.lt_def]
    exact ⟨.inl, fun hor => hor.resolve_right fun hno => hne hno.1⟩
  · next heq =>
    rw [not_not] at heq
    rw [decide_eq_true_eq, heq]
    exact ⟨fun hid => .inr ⟨rfl, hid⟩, fun hor => hor.elim (fun hno => absurd hno (lt_irrefl _))
      And.right⟩

theorem outranks_trans {a b c : Event x} (hab : outranks a b = true) (hbc : outranks b c = true) :
    outranks a c = true := by
  rw [outranks_iff] at hab hbc ⊢
  omega

theorem outranks_total {a b : Event x} (hid : a.id ≠ b.id) :
    outranks a b = true ∨ outranks b a = true := by
  rw [outranks_iff, outranks_iff]
  omega

theorem outranks_congr {a b a' b' : Event x} (ha : a'.id = a.id)
    (hap : a'.attr .priority = a.attr .priority) (hb : b'.id = b.id)
    (hbp : b'.attr .priority = b.attr .priority) : outranks a' b' = outranks a b := by
  rw [outranks, outranks, ha, hap, hb, hbp]

namespace Machine

variable {cfg : Config x} {m m' : Machine x} {h : Nat} {a : Move x}

theorem topEvent_outranks (hnamed : Named cfg m) {state : EventState} (hstate : state ≠ .unused)
    {top : Slot} (htop : topEvent cfg m.sys h state = some top) :
    ∀ q ∈ cfg.slots h, candidate m.sys h state q = true → q ≠ top →
      outranks (m.sys.event (m.sys.domain h) top) (m.sys.event (m.sys.domain h) q) = true := by
  rw [topEvent_eq_best] at htop
  have hname : ∀ q, candidate m.sys h state q = true →
      (m.sys.event (m.sys.domain h) q).id = cfg.nameOf q := by
    intro q hq
    apply hnamed.used
    rw [(candidate_iff.mp hq).1]
    exact hstate
  intro q hq hcand hne
  refine (Scan.best_better ?_ ?_ htop q hq hcand).resolve_left hne
  · exact fun _ _ _ => outranks_trans
  · intro p hp r hr hcandP hcandR
    by_cases hpr : p = r
    · exact .inl hpr
    · right
      apply outranks_total
      rw [hname p hcandP, hname r hcandR]
      exact fun hsame => hpr (nameOf_injective hp hr hsame)

/-! ### When events were delivered -/

structure Stamps where
  now : Nat
  time : Nat → Slot → Nat

def Stamps.note (cfg : Config x) (w : Stamps) (m : Machine x) (e : Nat × Move x) : Stamps where
  now := w.now + 1
  time := fun d slot =>
    if delivers cfg m e.1 e.2 = true ∧ d = m.sys.domain e.1 ∧ injects cfg m.sys e.1 = some slot then
      w.now
    else w.time d slot

def stamps (cfg : Config x) (home : Nat → Nat) (es : List (Nat × Move x)) : Stamps :=
  Runs.watch (fun m e => step cfg m e.1 e.2) (Stamps.note cfg) ⟨0, fun _ _ => 0⟩ (init home) es

def RunningOn (s : Sys x) (d h : Nat) (slot : Slot) : Prop :=
  (s.event d slot).state = .running ∧ (s.event d slot).hart = h

/-- The events that run on a hart were delivered one after the other, and each of them
    outranks those before it. -/
structure Nested (cfg : Config x) (m : Machine x) (w : Stamps) : Prop where
  past : ∀ d h slot, RunningOn m.sys d h slot → w.time d slot < w.now
  distinct : ∀ d h p q, p ∈ cfg.slots h → q ∈ cfg.slots h → RunningOn m.sys d h p →
    RunningOn m.sys d h q → p ≠ q → w.time d p ≠ w.time d q
  order : ∀ d h p q, p ∈ cfg.slots h → q ∈ cfg.slots h → RunningOn m.sys d h p →
    RunningOn m.sys d h q → w.time d p < w.time d q →
    outranks (m.sys.event d q) (m.sys.event d p) = true

theorem injects_outranks (hnamed : Named cfg m) {slot : Slot}
    (hinjects : injects cfg m.sys h = some slot) {q : Slot} (hq : q ∈ cfg.slots h)
    (hrunning : RunningOn m.sys (m.sys.domain h) h q) :
    outranks (m.sys.event (m.sys.domain h) slot) (m.sys.event (m.sys.domain h) q) = true := by
  obtain ⟨-, -, hfirst⟩ := injects_spec hinjects
  have hstate : EventState.running ≠ .unused := nofun
  have hcand : candidate m.sys h .running q = true :=
    candidate_iff.mpr ⟨hrunning.1, hrunning.2, nofun⟩
  cases htop : topEvent cfg m.sys h .running with
  | none => exact absurd ((topEvent_none htop q hq).symm.trans hcand) Bool.false_ne_true
  | some top =>
    by_cases hqtop : q = top
    · subst hqtop
      exact hfirst q htop
    · have htopQ := topEvent_outranks hnamed hstate htop q hq hcand hqtop
      exact outranks_trans (hfirst top htop) htopQ

theorem step_nested {w : Stamps} (hnamed : Named cfg m) (hnested : Nested cfg m w)
    (hstep : step cfg m h a = some m') : Nested cfg m' (w.note cfg m (h, a)) := by
  -- the stamp of an event that runs is the old one, or new
  have hcases : ∀ {d i slot}, RunningOn m'.sys d i slot →
      (RunningOn m.sys d i slot ∧ (w.note cfg m (h, a)).time d slot = w.time d slot) ∨
        ((w.note cfg m (h, a)).time d slot = w.now ∧ injects cfg m.sys h = some slot) := by
    intro d i slot hr
    rcases running_before hstep hr.1 hr.2 with ⟨hold, -, -, hno⟩ | ⟨-, hd, hdelivers, hinjects, -⟩
    · exact .inl ⟨hold, if_neg hno⟩
    · exact .inr ⟨if_pos ⟨hdelivers, hd, hinjects⟩, hinjects⟩
  constructor
  case past =>
    intro d i slot hrunning
    show (w.note cfg m (h, a)).time d slot < w.now + 1
    rcases hcases hrunning with ⟨hold, heq⟩ | ⟨heq, -⟩
    · rw [heq]
      exact Nat.lt_succ_of_lt (hnested.past d i slot hold)
    · rw [heq]
      exact Nat.lt_succ_self _
  case distinct =>
    intro d i p q hp hq hrunP hrunQ hne
    rcases hcases hrunP with ⟨holdP, heqP⟩ | ⟨heqP, hinjP⟩ <;>
      rcases hcases hrunQ with ⟨holdQ, heqQ⟩ | ⟨heqQ, hinjQ⟩ <;> rw [heqP, heqQ]
    · exact hnested.distinct d i p q hp hq holdP holdQ hne
    · exact Nat.ne_of_lt (hnested.past d i p holdP)
    · exact (Nat.ne_of_lt (hnested.past d i q holdQ)).symm
    · cases hinjP.symm.trans hinjQ
      exact absurd rfl hne
  case order =>
    intro d i p q hp hq hrunP hrunQ hlt
    rcases running_before hstep hrunP.1 hrunP.2 with
      ⟨holdP, hidP, hprioP, hnoP⟩ | ⟨-, hdP, hdelP, hinjP, -⟩
    · rw [show (w.note cfg m (h, a)).time d p = _ from if_neg hnoP] at hlt
      rcases running_before hstep hrunQ.1 hrunQ.2 with
        ⟨holdQ, hidQ, hprioQ, hnoQ⟩ | ⟨rfl, rfl, -, hinjQ, saved, heq⟩
      · rw [show (w.note cfg m (h, a)).time d q = _ from if_neg hnoQ] at hlt
        rw [outranks_congr hidQ hprioQ hidP hprioP]
        exact hnested.order d i p q hp hq holdP holdQ hlt
      · have hout := injects_outranks hnamed hinjQ hp holdP
        rw [heq, ← hout]
        exact outranks_congr rfl rfl hidP hprioP
    · -- nothing is delivered later than what is delivered just now
      rw [show (w.note cfg m (h, a)).time d p = _ from if_pos ⟨hdelP, hdP, hinjP⟩] at hlt
      rcases hcases hrunQ with ⟨holdQ, heqQ⟩ | ⟨heqQ, -⟩
      · have hpast := hnested.past d i q holdQ
        omega
      · omega

/-! ### The stack -/

theorem run_nested {home : Nat → Nat} {es : List (Nat × Move x)}
    (hrun : run cfg (init home) es = some m) :
    Named cfg m ∧ Nested cfg m (stamps cfg home es) := by
  have hinit : Named cfg (init home) ∧ Nested cfg (init home) ⟨0, fun _ _ => 0⟩ := by
    have hidle : ∀ d h slot, ¬ RunningOn (init home : Machine x).sys d h slot := by
      intro d h slot hrunning
      cases slot <;> cases hrunning.1
    exact ⟨init_named cfg home, fun d h slot hr => absurd hr (hidle d h slot),
      fun d h p _ _ _ hr => absurd hr (hidle d h p), fun d h p _ _ _ hr => absurd hr (hidle d h p)⟩
  exact (Runs.along_true _ _ es).watch_invariant (J := fun m w => Named cfg m ∧ Nested cfg m w)
    (fun _ _ _ _ hold _ hstep => ⟨step_named hold.1 hstep, step_nested hold.1 hold.2 hstep⟩)
    hinit hrun

/-- What it means that the events of a domain nest like a stack on every hart. -/
structure Stacked (cfg : Config x) (w : Stamps) (m : Machine x) : Prop where
  /-- In the order of their delivery the running events go up in rank. -/
  order : ∀ d h, ∀ p ∈ cfg.slots h, ∀ q ∈ cfg.slots h, RunningOn m.sys d h p →
    RunningOn m.sys d h q → p ≠ q →
    (w.time d p < w.time d q ∧ outranks (m.sys.event d q) (m.sys.event d p) = true) ∨
      (w.time d q < w.time d p ∧ outranks (m.sys.event d p) (m.sys.event d q) = true)
  /-- What a step delivers goes to a hart that takes events, is the best of what is due
      there, and outranks what runs there. -/
  injects : ∀ h a m', step cfg m h a = some m' → ∀ d slot,
    (m.sys.event d slot).state ≠ .running → (m'.sys.event d slot).state = .running →
    d = m.sys.domain h ∧ slot ∈ cfg.slots h ∧ m.sys.unmasked d h = true ∧
      Due (m.sys.event d slot) h ∧
      (∀ q ∈ cfg.slots h, Due (m.sys.event d q) h → q ≠ slot →
        outranks (m.sys.event d slot) (m.sys.event d q) = true) ∧
      ∀ r ∈ cfg.slots h, RunningOn m.sys d h r →
        outranks (m.sys.event d slot) (m.sys.event d r) = true
  /-- A completion is that of the event delivered last. -/
  completes : ∀ h d slot, (m.sys.event d slot).state = .running →
    ((sseComplete cfg m.sys h).1.event d slot).state ≠ .running →
    d = m.sys.domain h ∧ slot ∈ cfg.slots h ∧ RunningOn m.sys d h slot ∧
      ∀ q ∈ cfg.slots h, RunningOn m.sys d h q → q ≠ slot → w.time d q < w.time d slot

theorem sseComplete_changed {d : Nat} {slot : Slot} {s : Sys x}
    (hchanged : ((sseComplete cfg s h).1.event d slot) ≠ s.event d slot) :
    d = s.domain h ∧ topEvent cfg s h .running = some slot := by
  unfold sseComplete at hchanged
  cases htop : topEvent cfg s h .running with
  | none =>
    rw [htop] at hchanged
    exact absurd rfl hchanged
  | some top =>
    rw [htop] at hchanged
    dsimp only at hchanged
    rw [setKick_event, event_setEvent_eq] at hchanged
    split at hchanged
    · next hat =>
      obtain ⟨rfl, rfl⟩ := hat
      exact ⟨rfl, rfl⟩
    · exact absurd rfl hchanged

/-- The global software event is delivered to hart 0, and in its handler the local one. -/
def twoHandlers : List (Nat × Move .rv64) :=
  [(0, .hsm .started), (0, .starts), (0, .call (.sseRegister 0xffff8000 0x80200000 0)),
   (0, .call (.sseEnable 0xffff8000)), (0, .call (.sseRegister 0xffff0000 0x80200000 0)),
   (0, .call (.sseEnable 0xffff0000)), (0, .call .sseHartUnmask), (0, .flags),
   (0, .call (.sseInject 0xffff8000 0)), (0, .trapEnd), (0, .takes ⟨0, 0, 0, 0⟩),
   (0, .call (.sseInject 0xffff0000 0)), (0, .trapEnd), (0, .takes ⟨0, 0, 0, 0⟩)]

end Machine

end RiscvMonitor.Sse
