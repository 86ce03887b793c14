import RiscvMonitor.MpxyCalls
import RiscvMonitor.MpxyIndicate
import RiscvMonitor.Replies

/-!
# Other domains' MPXY channels

A domain's calls are the same whatever channels other domains have.  What a call may
do to a channel of another domain is to deliver something to it; what it passes on
from another domain is that domain's answer to a request that is forwarded to it.
-/

namespace RiscvMonitor.Mpxy

open Rpmi (Rc Msg)

variable {x : Xlen} {W α : Type} {st : Setup x W} {caller : Caller} {own : Option (BitVec 32)}
  {p : BitVec 32} {s t : Mon x W}

/-! ### Deliveries -/

/-- Notification events arrive or get lost; a forwarded message is announced. -/
inductive Backend.Delivered : Backend x → Backend x → Prop
  | rpmi (r : RpmiBack x) (events : List Event) (n : BitVec 32) :
      Delivered (.rpmi r) (.rpmi { r with events := r.events ++ events, lost := r.lost + n })
  | fw (f : FwBack) (new : Bool) (hnew : f.newMessage = true → new = true) :
      Delivered (.fw f) (.fw { f with newMessage := new })

theorem Backend.Delivered.refl (b : Backend x) : b.Delivered b := by
  cases b with
  | rpmi r =>
    have h := Backend.Delivered.rpmi r [] 0#32
    simpa only [List.append_nil, BitVec.add_zero] using h
  | fw f => exact .fw f f.newMessage id

theorem Backend.Delivered.trans {a b c : Backend x} (hab : a.Delivered b) (hbc : b.Delivered c) :
    a.Delivered c := by
  cases hab with
  | rpmi r events n =>
    cases hbc with
    | rpmi _ events' n' =>
      have h := Backend.Delivered.rpmi r (events ++ events') (n + n')
      simpa only [List.append_assoc, BitVec.add_assoc] using h
  | fw f new hnew =>
    cases hbc with
    | fw _ new' hnew' => exact .fw f new' fun h => hnew' (hnew h)

/-- All that happens to a channel is that something is delivered, and that its domain is to be
    told or has been. -/
structure Chan.Delivered (c c' : Chan x) : Prop where
  ch : c'.ch = { c.ch with eventsDue := c'.ch.eventsDue }
  back : c.back.Delivered c'.back

theorem Chan.Delivered.refl (c : Chan x) : c.Delivered c := ⟨rfl, .refl _⟩

theorem Chan.Delivered.trans {a b c : Chan x} (hab : a.Delivered b) (hbc : b.Delivered c) :
    a.Delivered c := by
  refine ⟨?_, hab.back.trans hbc.back⟩
  rw [hbc.ch, hab.ch]

namespace Chan.Delivered

variable {c c' : Chan x} (h : c.Delivered c')
include h

theorem id_eq : c'.ch.id = c.ch.id := by rw [h.ch]

theorem owner_eq : c'.ch.owner = c.ch.owner := by rw [h.ch]

theorem aimsAt_iff (page : Option Nat) : c'.ch.aimsAt x page ↔ c.ch.aimsAt x page := by
  rw [h.ch]
  rfl

end Chan.Delivered

/-! ### What a domain sees -/

def Chan.visible (dom : Nat) (c : Chan x) : Bool := channelVisible dom c.ch

variable {dom : Nat}

theorem Chan.visible_congr {c c' : Chan x} (h : c'.ch.owner = c.ch.owner) :
    c'.visible dom = c.visible dom := by
  simp only [Chan.visible, channelVisible, h]

def Mon.visible (s : Mon x W) (dom : Nat) : List (Chan x) := s.channels.filter (Chan.visible dom)

theorem filter_visible_map {f : Chan x → Chan x} (hf : ∀ c, (f c).ch.owner = c.ch.owner)
    (cs : List (Chan x)) :
    (cs.map f).filter (Chan.visible dom) = (cs.filter (Chan.visible dom)).map f := by
  have hvisible : Chan.visible dom ∘ f = Chan.visible dom := by
    funext c
    exact Chan.visible_congr (hf c)
  rw [List.filter_map, hvisible]

/-- Channels of other domains only get deliveries. -/
def Spared (dom : Nat) (s s' : Mon x W) : Prop :=
  List.Forall₂ (fun c c' => c.visible dom = true ∨ c.Delivered c') s.channels s'.channels

theorem Spared.of_map {s' : Mon x W} {f : Chan x → Chan x}
    (hf : ∀ c ∈ s.channels, c.visible dom = true ∨ c.Delivered (f c))
    (hs' : s'.channels = s.channels.map f) : Spared dom s s' := by
  unfold Spared
  rw [hs', List.forall₂_map_right_iff, List.forall₂_same]
  exact hf

theorem Spared.of_eq {s' : Mon x W} (hs' : s'.channels = s.channels) :
    Spared dom s s' := by
  apply Spared.of_map (f := id)
  · intro c _
    exact .inr (.refl c)
  · rw [hs', List.map_id]

instance (dom : Nat) : Std.Refl (Spared dom : Mon x W → Mon x W → Prop) := ⟨fun _ => .of_eq rfl⟩

instance (dom : Nat) : IsTrans (Mon x W) (Spared dom) := by
  constructor
  intro a b c hab hbc
  unfold Spared at hab hbc ⊢
  generalize a.channels = as, b.channels = bs, c.channels = cs at hab hbc
  induction hab generalizing cs with
  | nil =>
    cases hbc
    exact .nil
  | cons hfirst _ ih =>
    cases hbc with
    | cons hsecond hrest =>
      refine .cons ?_ (ih _ hrest)
      rcases hfirst with hvisible | hfirst
      · exact .inl hvisible
      · rcases hsecond with hvisible | hsecond
        · exact .inl ((Chan.visible_congr hfirst.owner_eq).symm.trans hvisible)
        · exact .inr (hfirst.trans hsecond)

/-! ### Agreement -/

/-- What holds between calls.  No other domain's MSI is aimed at the caller's own page. -/
structure Mon.Sound (caller : Caller) (s : Mon x W) : Prop where
  sorted : (s.channels.map fun c => c.ch.id.toNat).Pairwise (· < ·)
  flagged : ∀ c ∈ s.channels, c.ch.eventsDue = true → s.indicationsDue = true
  offPage : ∀ c ∈ s.channels, c.visible caller.domain = false → ¬ c.ch.aimsAt x caller.shmem

/-- The channel of a pointer that the caller has got is one it sees. -/
def Mon.Owned (dom : Nat) (own : Option (BitVec 32)) (s : Mon x W) : Prop :=
  ∀ c ∈ s.channels, own = some c.ch.id → c.visible dom = true

structure Agree (caller : Caller) (own : Option (BitVec 32)) (s t : Mon x W) : Prop where
  rest : s.rest = t.rest
  visible : s.visible caller.domain = t.visible caller.domain
  left : s.Sound caller
  right : t.Sound caller
  ownLeft : s.Owned caller.domain own
  ownRight : t.Owned caller.domain own

abbrev ConfinedTo (caller : Caller) (own : Option (BitVec 32)) (m : Op x W α) : Prop :=
  Confined (Agree caller own) (Spared caller.domain) m

structure Mapped (caller : Caller) (own : Option (BitVec 32)) (f : Chan x → Chan x)
    (s s' : Mon x W) : Prop where
  channels : s'.channels = s.channels.map f
  id : ∀ c, (f c).ch.id = c.ch.id
  owner : ∀ c, (f c).ch.owner = c.ch.owner
  flagged : ∀ c ∈ s.channels, (f c).ch.eventsDue = true → s'.indicationsDue = true
  others : ∀ c ∈ s.channels, c.visible caller.domain = false → c.Delivered (f c)

namespace Mapped

variable {f : Chan x → Chan x} {s' t' : Mon x W}

theorem sound (hmap : Mapped caller own f s s') (h : s.Sound caller) : s'.Sound caller := by
  refine ⟨?_, ?_, ?_⟩
  · rw [hmap.channels, List.map_map]
    have hids : ((fun c : Chan x => c.ch.id.toNat) ∘ f) = fun c => c.ch.id.toNat := by
      funext c
      exact congrArg BitVec.toNat (hmap.id c)
    rw [hids]
    exact h.sorted
  · rw [hmap.channels]
    intro c hc hdue
    obtain ⟨d, hd, rfl⟩ := List.mem_map.mp hc
    exact hmap.flagged d hd hdue
  · rw [hmap.channels]
    intro c hc hhidden
    obtain ⟨d, hd, rfl⟩ := List.mem_map.mp hc
    have hhidden' : d.visible caller.domain = false :=
      (Chan.visible_congr (hmap.owner d)).symm.trans hhidden
    rw [(hmap.others d hd hhidden').aimsAt_iff]
    exact h.offPage d hd hhidden'

theorem owned (hmap : Mapped caller own f s s') (h : s.Owned caller.domain own) :
    s'.Owned caller.domain own := by
  unfold Mon.Owned
  rw [hmap.channels]
  intro c hc hid
  obtain ⟨d, hd, rfl⟩ := List.mem_map.mp hc
  rw [Chan.visible_congr (hmap.owner d)]
  exact h d hd (hid.trans (congrArg some (hmap.id d)))

theorem spared (hmap : Mapped caller own f s s') : Spared caller.domain s s' := by
  apply Spared.of_map (f := f) _ hmap.channels
  intro c hc
  cases hvisible : c.visible caller.domain with
  | true => exact .inl rfl
  | false => exact .inr (hmap.others c hc hvisible)

theorem agree (hs : Mapped caller own f s s') (ht : Mapped caller own f t t')
    (hrest : s'.rest = t'.rest) (h : Agree caller own s t) : Agree caller own s' t' := by
  refine ⟨hrest, ?_, hs.sound h.left, ht.sound h.right, hs.owned h.ownLeft, ht.owned h.ownRight⟩
  unfold Mon.visible
  rw [hs.channels, ht.channels, filter_visible_map hs.owner, filter_visible_map hs.owner]
  exact congrArg (List.map f) h.visible

end Mapped

theorem confined_mapped {f : Chan x → Chan x} {g : Mon x W → Mon x W}
    (hmap : ∀ s : Mon x W, s.Sound caller → s.Owned caller.domain own → Mapped caller own f s (g s))
    (hrest : ∀ s t, Agree caller own s t → (g s).rest = (g t).rest) :
    ConfinedTo caller own (modify g : Op x W PUnit) := by
  refine Confined.modify (fun s t hst => ?_) fun s t hst => (hmap s hst.left hst.ownLeft).spared
  exact (hmap s hst.left hst.ownLeft).agree (hmap t hst.right hst.ownRight) (hrest s t hst) hst

/-! ### The accesses -/

theorem confined_onRest (m : StateM (Rest W) α) :
    ConfinedTo caller own (onRest m : Op x W α) := by
  intro s t hst
  have hvalue : (m s.rest).1 = (m t.rest).1 := by rw [hst.rest]
  have hrest : (m s.rest).2 = (m t.rest).2 := by rw [hst.rest]
  refine ⟨hvalue, ⟨hrest, hst.visible, ?_, ?_, hst.ownLeft, hst.ownRight⟩, .of_eq rfl⟩
  · exact ⟨hst.left.sorted, hst.left.flagged, hst.left.offPage⟩
  · exact ⟨hst.right.sorted, hst.right.flagged, hst.right.offPage⟩

section

variable {m : StateM W α} {f : W → α} {mem : Msg}

instance : Fact (ConfinedTo caller own (inWorld m : Op x W α)) := ⟨confined_onRest _⟩
instance : Fact (ConfinedTo caller own (askWorld f : Op x W α)) := ⟨confined_onRest _⟩
instance : Fact (ConfinedTo caller own (bounce : Op x W Msg)) := ⟨confined_onRest _⟩
instance : Fact (ConfinedTo caller own (setBounce mem : Op x W Unit)) := ⟨confined_onRest _⟩
instance : Fact (ConfinedTo caller own (Mpxy.mem : Op x W Msg)) := ⟨confined_onRest _⟩
instance : Fact (ConfinedTo caller own (setMem mem : Op x W Unit)) := ⟨confined_onRest _⟩

instance {k : Switching} : Fact (ConfinedTo caller own (switchRequest k p : Op x W Unit)) :=
  ⟨confined_onRest _⟩

instance {key : Nat} {slot : Slot} : Fact (ConfinedTo caller own (setSlot key slot : Op x W Unit)) :=
  ⟨confined_onRest _⟩

instance : Fact (ConfinedTo caller own (slotFor st p)) := ⟨confined_onRest _⟩

end

theorem chan_eq_visible (h : s.Owned dom (some p)) :
    s.chan p = ((s.visible dom).find? fun c => c.ch.id = p).getD default := by
  unfold Mon.chan Mon.visible
  rw [List.find?_filter]
  congr 1
  apply List.find?_congr
  intro c hc
  by_cases hid : c.ch.id = p
  · have hvisible := h c hc (congrArg some hid.symm)
    simp [hid, hvisible]
  · simp [hid]

instance : Fact (ConfinedTo caller (some p) (deref p : Op x W (Chan x))) := by
  refine ⟨Confined.gets fun s t hst => ?_⟩
  rw [chan_eq_visible hst.ownLeft, chan_eq_visible hst.ownRight, hst.visible]

structure OwnChange (f : Chan x → Chan x) : Prop where
  id : ∀ c, (f c).ch.id = c.ch.id
  owner : ∀ c, (f c).ch.owner = c.ch.owner
  eventsDue : ∀ c, (f c).ch.eventsDue = c.ch.eventsDue

theorem OwnChange.mapped {f : Chan x → Chan x} (hf : OwnChange f) (h : s.Sound caller)
    (hown : s.Owned caller.domain (some p)) :
    Mapped caller (some p) (updateAt p f) s
      { s with channels := s.channels.map (updateAt p f) } := by
  refine ⟨rfl, ?_, ?_, ?_, ?_⟩
  · intro c
    unfold updateAt
    split
    · exact hf.id c
    · rfl
  · intro c
    unfold updateAt
    split
    · exact hf.owner c
    · rfl
  · intro c hc hdue
    apply h.flagged c hc
    unfold updateAt at hdue
    split at hdue
    · exact (hf.eventsDue c).symm.trans hdue
    · exact hdue
  · intro c hc hhidden
    have hother : c.ch.id ≠ p := by
      intro hid
      have hvisible := hown c hc (congrArg some hid.symm)
      rw [hvisible] at hhidden
      cases hhidden
    rw [updateAt, if_neg hother]
    exact .refl c

instance {f : Chan x → Chan x} [hf : Fact (OwnChange f)] :
    Fact (ConfinedTo caller (some p) (modifyAt p f : Op x W Unit)) :=
  ⟨confined_mapped (fun _ h hown => hf.out.mapped h hown) fun _ _ hst => hst.rest⟩

instance (f : RpmiBack x → RpmiBack x) : Fact (OwnChange (Chan.setRpmi f)) := by
  refine ⟨?_, ?_, ?_⟩ <;> intro c <;> unfold Chan.setRpmi <;> split <;> rfl

instance (f : FwBack → FwBack) : Fact (OwnChange (Chan.setFw f : Chan x → Chan x)) := by
  refine ⟨?_, ?_, ?_⟩ <;> intro c <;> unfold Chan.setFw <;> split <;> rfl

/-! ### Deliveries to any channel -/

section

variable {f : Chan x → Chan x} {due : Chan x → Bool} {notices : Chan x → List Notice}
  (hf : ∀ c : Chan x, c.Delivered (f c))
  (hdue : ∀ c, (f c).ch.eventsDue = true → c.ch.eventsDue = true ∨ due c = true)
include hf hdue

theorem touch_mapped (h : s.Sound caller) : Mapped caller own f s (s.touch f due notices) := by
  refine ⟨rfl, fun c => (hf c).id_eq, fun c => (hf c).owner_eq, ?_, fun c _ _ => hf c⟩
  intro c hc hflag
  simp only [Mon.touch, Bool.or_eq_true, List.any_eq_true]
  rcases hdue c hflag with hbefore | hnow
  · exact .inl (h.flagged c hc hbefore)
  · exact .inr ⟨c, hc, hnow⟩

theorem confined_touch :
    ConfinedTo caller own (modify fun s => s.touch f due notices : Op x W PUnit) :=
  confined_mapped (fun _ h _ => touch_mapped hf hdue h) fun _ _ hst => hst.rest

end

theorem delivered_eventsDue {c c' : Chan x} (h : c.Delivered c') : c.Delivered c'.eventsDue := by
  unfold Chan.eventsDue
  split
  · refine ⟨?_, h.back⟩
    rw [h.ch]
  · exact h

theorem eventsDue_of_eventsDue {c : Chan x} (h : c.eventsDue.ch.eventsDue = true) :
    c.ch.eventsDue = true ∨ c.ch.indicates = true := by
  unfold Chan.eventsDue at h
  split at h
  · next hindicates => exact .inr hindicates
  · exact .inl h

theorem delivered_take (size : Nat) (r : RpmiBack x) (e : Event) :
    (Backend.rpmi r).Delivered (.rpmi (r.take size e)) := by
  unfold RpmiBack.take
  split
  · have h := Backend.Delivered.rpmi r [e] 0#32
    simpa only [BitVec.add_zero] using h
  · have h := Backend.Delivered.rpmi r [] 1
    simpa only [List.append_nil] using h

theorem delivered_takes (size : Nat) (events : List Event) (r : RpmiBack x) :
    (Backend.rpmi r).Delivered (.rpmi (events.foldl (RpmiBack.take size) r)) := by
  induction events generalizing r with
  | nil => exact .refl _
  | cons e events ih => exact (delivered_take size r e).trans (ih _)

theorem delivered_eventSink (size : Nat) (events : List Event) (c : Chan x) :
    c.Delivered (c.eventSink size events) := by
  unfold Chan.eventSink
  split
  · next r hback =>
    apply delivered_eventsDue
    refine ⟨rfl, ?_⟩
    rw [hback]
    exact delivered_takes size events r
  · exact .refl c

theorem delivered_announced (c : Chan x) : c.Delivered c.announced := by
  unfold Chan.announced
  split
  · exact .refl c
  · next f hback =>
    split
    · apply delivered_eventsDue
      refine ⟨rfl, ?_⟩
      rw [hback]
      exact .fw f true fun _ => rfl
    · exact .refl c

theorem delivered_updateAt {f : Chan x → Chan x} (hf : ∀ c : Chan x, c.Delivered (f c))
    (c : Chan x) : c.Delivered (updateAt p f c) := by
  unfold updateAt
  split
  · exact hf c
  · exact .refl c

instance (events : List Event) : Fact (ConfinedTo caller own (sinkAt st p events)) := by
  refine ⟨confined_touch (delivered_updateAt (delivered_eventSink _ _)) ?_⟩
  intro c hdue
  unfold updateAt at hdue
  split at hdue
  · next hid =>
    unfold Chan.eventSink at hdue
    split at hdue
    · rcases eventsDue_of_eventsDue hdue with hbefore | hindicates
      · exact .inl hbefore
      · refine .inr ?_
        simp only [hid, decide_true, Bool.true_and]
        exact hindicates
    · exact .inl hdue
  · exact .inl hdue

instance : Fact (ConfinedTo caller own (notify p : Op x W Unit)) := by
  refine ⟨confined_touch (delivered_updateAt delivered_announced) ?_⟩
  intro c hdue
  unfold updateAt at hdue
  split at hdue
  · next hid =>
    unfold Chan.announced at hdue
    split at hdue
    · exact .inl hdue
    · next f hback =>
      split at hdue
      · next henabled =>
        rcases eventsDue_of_eventsDue hdue with hbefore | hindicates
        · exact .inl hbefore
        · refine .inr ?_
          have hfw : c.fw = f := by simp only [Chan.fw, hback]
          simp only [hid, hfw, henabled, ne_eq, not_false_eq_true, and_self, decide_true,
            Bool.true_and]
          exact hindicates
      · exact .inl hdue
  · exact .inl hdue

instance (puc : Nat) (notes : List Note) : Fact (ConfinedTo caller own (deliver st puc notes)) := by
  unfold deliver
  infer_instance

/-! ### Indications -/

theorem told_of_not_due {c : Chan x} (h : c.ch.eventsDue = false) : c.told = c := by
  unfold Chan.told
  rw [← h]

theorem delivered_told (c : Chan x) : c.Delivered c.told := ⟨rfl, .refl _⟩

theorem not_due (h : s.Sound caller) (hflag : s.indicationsDue = false) :
    ∀ c ∈ s.channels, c.ch.eventsDue = false := by
  intro c hc
  cases hdue : c.ch.eventsDue with
  | false => rfl
  | true =>
    have := h.flagged c hc hdue
    rw [hflag] at this
    cases this

theorem indicate_channels (keys : Nat) (page : Option Nat) (h : s.Sound caller) :
    (s.indicate keys page).channels = s.channels.map Chan.told := by
  unfold Mon.indicate
  split
  · rfl
  · next hflag =>
    have hsame : ∀ c ∈ s.channels, id c = c.told := by
      intro c hc
      exact (told_of_not_due (not_due h (by simpa using hflag) c hc)).symm
    exact (List.map_id _).symm.trans (List.map_congr_left hsame)

theorem foldl_poke_filter (page : Option Nat) (dom : Nat) (cs : List (Chan x))
    (hoff : ∀ c ∈ cs, c.visible dom = false → ¬ c.ch.aimsAt x page) (m : Msg) :
    (due cs).foldl (poke x page) m =
      (due (cs.filter (Chan.visible dom))).foldl (poke x page) m := by
  induction cs generalizing m with
  | nil => rfl
  | cons c cs ih =>
    have hrest := ih fun d hd => hoff d (List.mem_cons_of_mem _ hd)
    cases hvisible : c.visible dom with
    | true =>
      rw [List.filter_cons_of_pos hvisible]
      cases hdue : c.ch.eventsDue with
      | true => simpa [due, hdue] using hrest (poke x page m c.ch)
      | false => simpa [due, hdue] using hrest m
    | false =>
      have hmiss : poke x page m c.ch = m := if_neg (hoff c List.mem_cons_self hvisible)
      rw [List.filter_cons_of_neg (by simp [hvisible])]
      cases hdue : c.ch.eventsDue with
      | true => simpa [due, hdue, hmiss] using hrest m
      | false => simpa [due, hdue] using hrest m

theorem indicate_rest (keys : Nat) (h : s.Sound caller) :
    (s.indicate keys caller.shmem).rest =
      { s.rest with
        mem := (due (s.visible caller.domain)).foldl (poke x caller.shmem) s.rest.mem } := by
  have hmem := foldl_poke_filter caller.shmem caller.domain s.channels h.offPage s.rest.mem
  unfold Mon.indicate
  split
  · exact congrArg (fun m => { s.rest with mem := m }) hmem
  · next hflag =>
    have hnone : due s.channels = [] := by
      unfold due
      rw [List.filter_eq_nil_iff]
      intro c hc
      obtain ⟨d, hd, rfl⟩ := List.mem_map.mp hc
      simp [not_due h (by simpa using hflag) d hd]
    rw [hnone] at hmem
    exact congrArg (fun m => { s.rest with mem := m }) hmem

theorem indicate_mapped (keys : Nat) (page : Option Nat) (h : s.Sound caller) :
    Mapped caller own Chan.told s (s.indicate keys page) := by
  refine ⟨indicate_channels keys page h, fun _ => rfl, fun _ => rfl, ?_, fun c _ _ =>
    delivered_told c⟩
  intro c _ hdue
  cases hdue

theorem confined_indicate (keys : Nat) :
    ConfinedTo caller own (modify fun s => s.indicate keys caller.shmem : Op x W PUnit) := by
  refine confined_mapped (fun _ h _ => indicate_mapped keys _ h) fun s t hst => ?_
  rw [indicate_rest keys hst.left, indicate_rest keys hst.right, hst.rest, hst.visible]

/-! ### Requests to the PuC -/

section

variable {id index len respMax max queue start puc : Nat} {prot wantsResp : Bool}
  {service : BitVec 8} {group : BitVec 16} {msgId event timeoutUs : BitVec 32}
  {req msg servers : List (BitVec 32)} {rc : Rc}

instance (c : Rpmi.Call) : Fact (ConfinedTo caller own (rpmiRequest st puc c)) := by
  unfold rpmiRequest
  infer_instance

instance : Fact (ConfinedTo caller own (rpmiPoll st puc)) := by
  unfold rpmiPoll
  infer_instance

instance (service : BitVec 8) (words : Nat) :
    Fact (ConfinedTo caller own (rpmiCall st puc group service req words)) := by
  unfold rpmiCall
  infer_instance

instance (service : BitVec 8) : Fact (ConfinedTo caller own (rpmiBaseGet st puc service req)) := by
  unfold rpmiBaseGet
  infer_instance

instance : Fact (ConfinedTo caller (some p) (sysmsiAsk st p puc index)) := by
  unfold sysmsiAsk
  infer_instance

instance : Fact (ConfinedTo caller (some p) (sysmsiSetup st p puc)) := by
  unfold sysmsiSetup
  infer_instance

instance : Fact (ConfinedTo caller (some p) (questions st p puc group)) := by
  unfold questions
  infer_instance

instance (v : Versions) : Fact (OwnChange (Chan.probed v : Chan x → Chan x)) := by
  refine ⟨?_, ?_, ?_⟩ <;> intro c <;> unfold Chan.probed Chan.setRpmi <;> split <;> rfl

instance : Fact (ConfinedTo caller (some p) (mpxyRpmiAskPuc st p)) := by
  refine ⟨.bind Fact.out fun c => .ite Fact.out (.bind Fact.out fun r => ?_)⟩
  cases r <;> exact Fact.out

/-! ### RPMI channels -/

instance : Fact (ConfinedTo caller (some p) (mpxyRpmiReadAttr st p id)) := by
  refine ⟨.bind Fact.out fun c => .ite Fact.out (.ite Fact.out (.bind Fact.out fun e => ?_))⟩
  split <;> exact Fact.out

instance (r : RpmiBack x) (service : BitVec 8) :
    Fact (ConfinedTo caller own (mpxyRpmiPass st r service len respMax wantsResp)) := by
  unfold mpxyRpmiPass
  infer_instance

instance (dom : Nat) :
    Fact (ConfinedTo caller (some p) (mpxyRpmiSend st dom p msgId len respMax wantsResp)) := by
  refine ⟨.bind Fact.out fun c => ?_⟩
  split
  · refine .bind Fact.out fun e => ?_
    split
    · refine .bind Fact.out fun c => .bind Fact.out fun buf => ?_
      split <;> exact Fact.out
    · exact Fact.out
  · exact Fact.out

instance : Fact (ConfinedTo caller (some p) (mpxyRpmiGetEvents st p max)) := by
  unfold mpxyRpmiGetEvents
  infer_instance

/-! ### The groups that the monitor serves -/

instance : Fact (ConfinedTo caller (some p) (fwReadAttr st p id)) := by
  unfold fwReadAttr
  infer_instance

instance (words : List (BitVec 32)) :
    Fact (ConfinedTo caller own (respond words : Op x W (SbiError × Nat))) := by
  unfold respond
  infer_instance

instance : Fact (ConfinedTo caller own (statusOnly rc : Op x W (SbiError × Nat))) := by
  unfold statusOnly
  infer_instance

instance : Fact (ConfinedTo caller own (mmOut rc : Op x W (SbiError × Nat))) := by
  unfold mmOut
  infer_instance

instance : Fact (ConfinedTo caller (some p) (enableNotification p len event : Op x W _)) := by
  unfold enableNotification
  infer_instance

instance : Fact (ConfinedTo caller own (retrieveCurrent st p queue start max)) := by
  refine ⟨.bind Fact.out fun slot => ?_⟩
  split <;> exact Fact.out

instance : Fact (ConfinedTo caller (some p) (reqfwdRetrieve st p len respMax)) := by
  refine ⟨.bind Fact.out fun c => .bind Fact.out fun buf => .ite Fact.out (.bind Fact.out fun r => ?_)⟩
  split <;> exact Fact.out

instance : Fact (ConfinedTo caller (some p) (reqfwdComplete st p len)) := by
  refine ⟨.bind Fact.out fun c => .bind Fact.out fun buf => .ite Fact.out (.bind Fact.out fun s => ?_)⟩
  split <;> exact Fact.out

instance (service : Nat) :
    Fact (ConfinedTo caller (some p) (reqfwdService st p service len respMax)) := by
  unfold reqfwdService
  split <;> infer_instance

instance : Fact (ConfinedTo caller (some p) (fwGetEvents st p max)) := by
  refine ⟨.bind Fact.out fun c => ?_⟩
  split <;> exact Fact.out

/-- The domain that a request is forwarded to answers the same, however it is told of it. -/
def Outside.AnswersAlike (o : Outside W) : Prop :=
  ∀ queue timeoutUs told told', o.answer queue timeoutUs told = o.answer queue timeoutUs told'

section

variable [halike : Fact st.AnswersAlike]

instance : Fact (ConfinedTo caller own (reqfwdSend st caller queue servers msg timeoutUs)) := by
  have hanswer : (fun s => (inWorld (st.answer queue timeoutUs s.told)).run s : Op x W _) =
      inWorld (st.answer queue timeoutUs []) := by
    funext s
    rw [halike.out queue timeoutUs s.told []]
    rfl
  refine ⟨.bind Fact.out fun first => .bind Fact.out fun _ => .bind Fact.out fun waits => .bind ?_ ?_⟩
  · cases waits with
    | true => exact confined_indicate _
    | false => exact Confined.modify (fun _ _ hst => hst) fun _ _ _ => .of_eq rfl
  · rw [hanswer]
    exact fun _ => Fact.out

instance : Fact (ConfinedTo caller (some p) (mmCommunicate st caller p len)) := by
  refine ⟨.bind Fact.out fun c => .bind Fact.out fun buf => .ite Fact.out (.ite Fact.out ?_)⟩
  refine .bind Fact.out fun _ => .bind Fact.out fun enterable => .ite Fact.out ?_
  split
  · exact Fact.out
  · refine .bind Fact.out fun r => ?_
    split <;> exact Fact.out

instance (service : Nat) :
    Fact (ConfinedTo caller (some p) (mmService st caller p service len)) := by
  unfold mmService
  split <;> infer_instance

instance : Fact (ConfinedTo caller (some p) (fwSend st caller p msgId len respMax wantsResp)) := by
  unfold fwSend
  infer_instance

end

/-! ### The calls, for a channel that has been found -/

instance : Fact (ConfinedTo caller (some p) (readAttr st p id)) := by
  refine ⟨.bind Fact.out fun c => ?_⟩
  split <;> exact Fact.out

instance [Fact st.AnswersAlike] :
    Fact (ConfinedTo caller (some p) (send st caller p msgId len respMax wantsResp)) := by
  refine ⟨.bind Fact.out fun c => ?_⟩
  split <;> exact Fact.out

instance : Fact (ConfinedTo caller (some p) (getEvents st p max)) := by
  refine ⟨.bind Fact.out fun c => ?_⟩
  split <;> exact Fact.out

instance (base count : Nat) :
    Fact (ConfinedTo caller (some p) (readAttrs st p prot base count)) := by
  unfold readAttrs
  infer_instance

instance (dom : Nat) (staged : Channel) :
    Fact (OwnChange fun c : Chan x => { c with ch := Channel.commit dom staged c.ch }) :=
  ⟨fun _ => rfl, fun _ => rfl, fun _ => rfl⟩

instance (base count : Nat) :
    Fact (ConfinedTo caller (some p) (writeAttrs st caller p prot base count)) := by
  refine ⟨.ite Fact.out (.bind Fact.out fun c => .bind Fact.out fun m => ?_)⟩
  split <;> exact Fact.out

instance [Fact st.AnswersAlike] (msgId len : Word x) :
    Fact (ConfinedTo caller (some p) (sendMessage st caller p msgId len wantsResp)) := by
  unfold sendMessage
  infer_instance

instance : Fact (ConfinedTo caller (some p) (getNotifications st p)) := by
  unfold getNotifications
  infer_instance

end

/-! ### Finding a channel -/

theorem channelFind_isSome_iff (dom id : Nat) {cs : List Channel}
    (hsorted : (cs.map fun c => c.id.toNat).Pairwise (· < ·)) :
    (channelFind dom id cs).isSome = true ↔
      ∃ c ∈ cs.filter (channelVisible dom), c.id.toNat = id := by
  induction cs with
  | nil => simp [channelFind]
  | cons c cs ih =>
    rw [List.map_cons, List.pairwise_cons] at hsorted
    obtain ⟨hfirst, hsorted⟩ := hsorted
    by_cases hid : c.id.toNat = id
    · have hothers : ∀ d ∈ cs, d.id.toNat ≠ id := by
        intro d hd heq
        have hlt := hfirst _ (List.mem_map_of_mem hd)
        omega
      cases hvisible : channelVisible dom c with
      | true => simp [channelFind, hid, hvisible]
      | false =>
        simp only [channelFind, hid, if_true, hvisible, Bool.false_eq_true, if_false,
          Option.isSome_none, false_iff]
        rw [List.filter_cons_of_neg (by simp [hvisible])]
        rintro ⟨d, hd, heq⟩
        exact hothers d (List.mem_filter.mp hd).1 heq
    · rw [channelFind, if_neg hid, Option.isSome_map, ih hsorted]
      cases hvisible : channelVisible dom c with
      | true => simp [List.filter_cons_of_pos hvisible, hid]
      | false => rw [List.filter_cons_of_neg (by simp [hvisible])]

theorem filter_channelVisible_map (cs : List (Chan x)) :
    (cs.map Chan.ch).filter (channelVisible dom) = (cs.filter (Chan.visible dom)).map Chan.ch :=
  List.filter_map ..

theorem find_eq (h : s.Sound caller) (channelId : Word x) :
    s.find caller.domain channelId =
      if channelId.toNat ≤ 0xffffffff ∧
          ∃ c ∈ s.visible caller.domain, c.ch.id.toNat = channelId.toNat then
        some (channelId.setWidth 32)
      else none := by
  unfold Mon.find
  by_cases hbig : 0xffffffff < channelId.toNat
  · rw [if_pos hbig, if_neg (by omega)]
    rfl
  have hsorted : ((s.channels.map Chan.ch).map fun c => c.id.toNat).Pairwise (· < ·) := by
    rw [List.map_map]
    exact h.sorted
  have hiff := channelFind_isSome_iff caller.domain channelId.toNat hsorted
  rw [filter_channelVisible_map] at hiff
  simp only [List.mem_map, exists_exists_and_eq_and] at hiff
  rw [if_neg hbig]
  cases hfind : channelFind caller.domain channelId.toNat (s.channels.map Chan.ch) with
  | none =>
    rw [hfind] at hiff
    have hnone := mt hiff.mpr (by simp)
    rw [if_neg fun hboth => hnone hboth.2]
    rfl
  | some i =>
    obtain ⟨c, hget, hid, _⟩ := channelFind_some hfind
    rw [hfind] at hiff
    rw [if_pos ⟨by omega, hiff.mp rfl⟩, Option.bind_some, hget, Option.map_some]
    congr 1
    apply BitVec.eq_of_toNat_eq
    rw [hid, BitVec.toNat_setWidth, Nat.mod_eq_of_lt (by omega)]

theorem find_agree (hst : Agree caller own s t) (channelId : Word x) :
    s.find caller.domain channelId = t.find caller.domain channelId := by
  rw [find_eq hst.left, find_eq hst.right, hst.visible]

variable {channelId : Word x}

theorem owned_of_find (h : s.Sound caller) (hfind : s.find caller.domain channelId = some p) :
    s.Owned caller.domain (some p) := by
  rw [find_eq h] at hfind
  split at hfind
  · next hthere =>
    obtain ⟨hsmall, c, hc, hid⟩ := hthere
    obtain ⟨hmem, hvisible⟩ := List.mem_filter.mp hc
    intro d hd hp
    have hwidth : (channelId.setWidth 32).toNat = channelId.toNat := by
      rw [BitVec.toNat_setWidth, Nat.mod_eq_of_lt (by omega)]
    have hsame : d.ch.id.toNat = c.ch.id.toNat := by
      rw [hid, ← hwidth, Option.some.inj (hfind.trans hp)]
    have hnodup := h.sorted.imp fun hlt => Nat.ne_of_lt hlt
    rw [List.inj_on_of_nodup_map hnodup hd hmem hsame]
    exact hvisible
  · cases hfind

theorem Agree.found (hst : Agree caller own s t) (hfind : s.find caller.domain channelId = some p) :
    Agree caller (some p) s t :=
  ⟨hst.rest, hst.visible, hst.left, hst.right, owned_of_find hst.left hfind,
    owned_of_find hst.right ((find_agree hst channelId).symm.trans hfind)⟩

theorem rangeCheck_eq (s : Mon x W) (dom : Nat) (channelId base count : Word x) :
    s.rangeCheck dom channelId base count =
      match s.find dom channelId with
      | none => .error .notSupported
      | some p =>
        if count = 0 ∨ shmemSize / 4 < count.toNat ∨ 0xffffffff < base.toNat then
          .error .invalidParam
        else
          let prot := decide (attrMsgProtStart ≤ base.toNat)
          if attrsBeyond prot base.toNat count.toNat then .error .badRange
          else .ok (p, prot) := by
  unfold Mon.rangeCheck Mon.find attrRangeCheck
  cases hfind : if 0xffffffff < channelId.toNat then none
      else channelFind dom channelId.toNat (s.channels.map Chan.ch) with
  | none => rfl
  | some i =>
    have hplace : channelFind dom channelId.toNat (s.channels.map Chan.ch) = some i := by
      split at hfind
      · cases hfind
      · exact hfind
    obtain ⟨c, hget, _, _⟩ := channelFind_some hplace
    dsimp only
    rw [Option.bind_some, hget]
    dsimp only [Option.map_some]
    split
    · rfl
    · split
      · rfl
      · simp only [Except.map, hget, Option.map_some, Option.getD_some]

theorem rangeCheck_agree (hst : Agree caller own s t) (channelId base count : Word x) :
    s.rangeCheck caller.domain channelId base count =
      t.rangeCheck caller.domain channelId base count := by
  rw [rangeCheck_eq, rangeCheck_eq, find_agree hst]

theorem find_of_rangeCheck {base count : Word x} {prot : Bool}
    (hcheck : s.rangeCheck dom channelId base count = .ok (p, prot)) :
    s.find dom channelId = some p := by
  rw [rangeCheck_eq] at hcheck
  split at hcheck
  · cases hcheck
  · next q hfind =>
    split_ifs at hcheck
    dsimp only at hcheck
    split at hcheck
    · cases hcheck
    · cases hcheck
      exact hfind

/-! ### The list of channels -/

theorem listIds_filter (dom start max : Nat) (cs : List Channel) (i n : Nat) (m : Msg) :
    listIds dom start max cs i n m =
      listIds dom start max (cs.filter (channelVisible dom)) i n m := by
  induction cs generalizing i n m with
  | nil => rfl
  | cons c cs ih =>
    cases hvisible : channelVisible dom c with
    | true =>
      rw [List.filter_cons_of_pos hvisible]
      simp only [listIds, hvisible, Bool.true_eq_false, if_false, ih]
    | false =>
      rw [List.filter_cons_of_neg (by simp [hvisible])]
      simp only [listIds, hvisible, if_true]
      exact ih i n m

theorem channelIds_filter (dom start : Nat) (cs : List Channel) (m : Msg) :
    channelIds dom start cs m = channelIds dom start (cs.filter (channelVisible dom)) m := by
  unfold channelIds
  rw [List.countP_filter, ← listIds_filter]
  simp only [Bool.and_self]

theorem confined_mpxyGetChannelIds (start : Word x) :
    ConfinedTo caller none (mpxyGetChannelIds caller start : Op x W _) := by
  have hlist : ∀ s t : Mon x W, Agree caller none s t → ∀ m,
      channelIds caller.domain start.toNat (s.channels.map Chan.ch) m =
        channelIds caller.domain start.toNat (t.channels.map Chan.ch) m := by
    intro s t hst m
    rw [channelIds_filter, filter_channelVisible_map, channelIds_filter _ _ (t.channels.map _),
      filter_channelVisible_map]
    exact congrArg (fun cs => channelIds _ _ (cs.map Chan.ch) m) hst.visible
  unfold mpxyGetChannelIds
  refine .read (fun s => .bind Fact.out fun m => ?_) ?_
  · split <;> exact Fact.out
  · intro s t hst
    simp only [hlist s t hst]

theorem owned_none (dom : Nat) (s : Mon x W) : s.Owned dom none := by
  intro c _ hnone
  cases hnone

theorem forget_own {m : Op x W α} (hm : ConfinedTo caller (some p) m)
    (hst : Agree caller (some p) s t) :
    (m.run s).1 = (m.run t).1 ∧ Agree caller none (m.run s).2 (m.run t).2 ∧
      Spared caller.domain s (m.run s).2 := by
  obtain ⟨hvalue, hagree, hdone⟩ := hm s t hst
  exact ⟨hvalue, ⟨hagree.rest, hagree.visible, hagree.left, hagree.right, owned_none _ _,
    owned_none _ _⟩, hdone⟩

theorem confined_whenFound (channelId : Word x) {k : BitVec 32 → Op x W (SbiError × Nat)}
    (hk : ∀ p, ConfinedTo caller (some p) (k p)) :
    ConfinedTo caller none (whenFound caller.domain channelId k) := by
  intro s t hst
  have hrun : ∀ u : Mon x W, (whenFound caller.domain channelId k).run u =
      match u.find caller.domain channelId with
      | none => ((.notSupported, 0), u)
      | some p => (k p).run u := by
    intro u
    simp only [whenFound, StateT.run_bind, StateT.run_get, pure_bind]
    cases u.find caller.domain channelId <;> rfl
  rw [hrun s, hrun t, ← find_agree hst channelId]
  cases hfind : s.find caller.domain channelId with
  | none => exact ⟨rfl, hst, .of_eq rfl⟩
  | some p => exact forget_own (hk p) (hst.found hfind)

theorem confined_whenChecked (channelId base count : Word x)
    {k : BitVec 32 → Bool → Op x W (SbiError × Nat)}
    (hk : ∀ p prot, ConfinedTo caller (some p) (k p prot)) :
    ConfinedTo caller none (whenChecked caller.domain channelId base count k) := by
  intro s t hst
  have hrun : ∀ u : Mon x W, (whenChecked caller.domain channelId base count k).run u =
      match u.rangeCheck caller.domain channelId base count with
      | .error e => ((e, 0), u)
      | .ok r => (k r.1 r.2).run u := by
    intro u
    simp only [whenChecked, StateT.run_bind, StateT.run_get, pure_bind]
    cases u.rangeCheck caller.domain channelId base count <;> rfl
  rw [hrun s, hrun t, ← rangeCheck_agree hst channelId base count]
  cases hcheck : s.rangeCheck caller.domain channelId base count with
  | error e => exact ⟨rfl, hst, .of_eq rfl⟩
  | ok r => exact forget_own (hk r.1 r.2) (hst.found (find_of_rangeCheck hcheck))

theorem confined_call (halike : st.AnswersAlike) (call : Call x) :
    ConfinedTo caller none (call.run st caller : Op x W _) := by
  apply Confined.ite
  · exact .pure _
  cases call with
  | getChannelIds start => exact confined_mpxyGetChannelIds start
  | readAttributes channelId base count =>
    refine confined_whenChecked channelId base count fun p prot => .bind Fact.out fun e => ?_
    cases e <;> exact Fact.out
  | writeAttributes channelId base count =>
    exact confined_whenChecked channelId base count fun p prot => Fact.out
  | sendMessage channelId msgId len wantsResp =>
    have := Fact.mk halike
    exact confined_whenFound channelId fun p => Fact.out
  | getNotifications channelId =>
    exact confined_whenFound channelId fun p => Fact.out

/-! ### Where the states come from -/

theorem mem_of_insertById {c : Chan x} {cs cs' : List (Chan x)}
    (hinsert : insertById c cs = .ok cs') : ∀ d ∈ cs', d = c ∨ d ∈ cs := by
  induction cs generalizing cs' with
  | nil =>
    cases hinsert
    intro d hd
    exact .inl (List.mem_singleton.mp hd)
  | cons e es ih =>
    unfold insertById at hinsert
    split_ifs at hinsert
    · cases hrest : insertById c es with
      | error e => rw [hrest] at hinsert; cases hinsert
      | ok es' =>
        rw [hrest] at hinsert
        cases hinsert
        intro d hd
        rcases List.mem_cons.mp hd with rfl | hd
        · exact .inr List.mem_cons_self
        · rcases ih hrest d hd with heq | hmem
          · exact .inl heq
          · exact .inr (List.mem_cons_of_mem _ hmem)
    · cases hinsert
      intro d hd
      exact (List.mem_cons.mp hd)

theorem insertById_sorted {c : Chan x} {cs cs' : List (Chan x)}
    (hsorted : (cs.map fun c => c.ch.id.toNat).Pairwise (· < ·))
    (hinsert : insertById c cs = .ok cs') :
    (cs'.map fun c => c.ch.id.toNat).Pairwise (· < ·) := by
  induction cs generalizing cs' with
  | nil =>
    cases hinsert
    exact List.pairwise_singleton _ _
  | cons e es ih =>
    have hall := hsorted
    rw [List.map_cons, List.pairwise_cons] at hsorted
    obtain ⟨hfirst, hrest⟩ := hsorted
    unfold insertById at hinsert
    split at hinsert
    · next hle =>
      split at hinsert
      · cases hinsert
      · next hne =>
        have hlt : e.ch.id.toNat < c.ch.id.toNat := by
          have hle' : e.ch.id.toNat ≤ c.ch.id.toNat := hle
          have hne' : e.ch.id.toNat ≠ c.ch.id.toNat := fun h => hne (BitVec.eq_of_toNat_eq h)
          omega
        cases hins : insertById c es with
        | error e => rw [hins] at hinsert; cases hinsert
        | ok es' =>
          rw [hins] at hinsert
          cases hinsert
          rw [List.map_cons, List.pairwise_cons]
          refine ⟨?_, ih hrest hins⟩
          intro n hn
          obtain ⟨d, hd, rfl⟩ := List.mem_map.mp hn
          rcases mem_of_insertById hins d hd with rfl | hmem
          · exact hlt
          · exact hfirst _ (List.mem_map_of_mem hmem)
    · next hgt =>
      cases hinsert
      have hlt : c.ch.id.toNat < e.ch.id.toNat := Nat.lt_of_not_le hgt
      rw [List.map_cons, List.pairwise_cons]
      refine ⟨?_, hall⟩
      intro n hn
      rw [List.map_cons] at hn
      rcases List.mem_cons.mp hn with rfl | hn
      · exact hlt
      · exact hlt.trans (hfirst n hn)

theorem channelRegister_sorted {sseEvents msgMaxLen : Nat} {reg reg' : List (Chan x) × Nat}
    {c : Chan x} (hsorted : (reg.1.map fun c => c.ch.id.toNat).Pairwise (· < ·))
    (hregister : channelRegister sseEvents msgMaxLen reg c = .ok reg') :
    (reg'.1.map fun c => c.ch.id.toNat).Pairwise (· < ·) := by
  unfold channelRegister at hregister
  dsimp only at hregister
  generalize hnew : ({ c with ch := _ } : Chan x) = new at hregister
  cases hinsert : insertById new reg.1 with
  | error e => rw [hinsert] at hregister; cases hregister
  | ok cs =>
    rw [hinsert] at hregister
    cases hregister
    exact insertById_sorted hsorted hinsert

/-! ### Sequences of calls -/

/-- S-mode puts something into the shared memory and calls.  What it gets is the result and the
    memory. -/
def answered (st : Setup x W) (caller : Caller) (s : Mon x W) (turn : Msg × Call x) :
    Mon x W × ((SbiError × Nat) × Msg) :=
  let r := (do setMem turn.1; turn.2.run st caller : Op x W _).run s
  (r.2, (r.1, r.2.rest.mem))

theorem confined_turn (halike : st.AnswersAlike) (turn : Msg × Call x) :
    ConfinedTo caller none (do setMem turn.1; turn.2.run st caller : Op x W _) :=
  (confined_onRest _).bind fun _ => confined_call halike turn.2

theorem calls_alike (halike : st.AnswersAlike) (hst : Agree caller none s t) :
    Replies.Alike (answered st caller) s t := by
  apply Replies.alike_of_kept (K := Agree caller none) _ hst
  intro s t turn hst
  obtain ⟨hvalue, hagree, _⟩ := confined_turn halike turn s t hst
  exact ⟨Prod.ext hvalue (congrArg Rest.mem hagree.rest), hagree⟩

theorem calls_spare (halike : st.AnswersAlike) (h : s.Sound caller) (turns : List (Msg × Call x)) :
    (Replies.after (answered st caller) s turns).Sound caller ∧
      Spared caller.domain s (Replies.after (answered st caller) s turns) := by
  apply Replies.after_invariant (I := fun u => u.Sound caller ∧ Spared caller.domain s u) _
    ⟨h, .of_eq rfl⟩
  intro u turn hu
  have hself : Agree caller none u u := ⟨rfl, rfl, hu.1, hu.1, owned_none _ _, owned_none _ _⟩
  obtain ⟨_, hagree, hspared⟩ := confined_turn halike turn u u hself
  exact ⟨hagree.left, IsTrans.trans _ _ _ hu.2 hspared⟩

/-- States that agree on what the caller sees give the same result and the same shared memory, and
    other domains' channels only get deliveries. -/
theorem call_ignores_other_domains (st : Setup x W) (caller : Caller) (call : Call x)
    (halike : st.AnswersAlike) {s t : Mon x W} (hs : s.Sound caller) (ht : t.Sound caller)
    (hrest : s.rest = t.rest) (hvisible : s.visible caller.domain = t.visible caller.domain) :
    ((call.run st caller).run s).1 = ((call.run st caller).run t).1 ∧
      ((call.run st caller).run s).2.rest.mem = ((call.run st caller).run t).2.rest.mem ∧
      Spared caller.domain s ((call.run st caller).run s).2 := by
  have hst : Agree caller none s t := ⟨hrest, hvisible, hs, ht, owned_none _ _, owned_none _ _⟩
  obtain ⟨hvalue, hagree, hspared⟩ := confined_call halike call s t hst
  exact ⟨hvalue, congrArg Rest.mem hagree.rest, hspared⟩

/-- No sequence of calls of a domain shows it what channels others have, or does more to these
    than to deliver something. -/
theorem calls_ignore_other_domains (st : Setup x W) (caller : Caller) (halike : st.AnswersAlike)
    {s t : Mon x W} (hs : s.Sound caller) (ht : t.Sound caller) (hrest : s.rest = t.rest)
    (hvisible : s.visible caller.domain = t.visible caller.domain) :
    Replies.Alike (answered st caller) s t ∧
      ∀ turns, Spared caller.domain s (Replies.after (answered st caller) s turns) := by
  have hst : Agree caller none s t := ⟨hrest, hvisible, hs, ht, owned_none _ _, owned_none _ _⟩
  exact ⟨calls_alike halike hst, fun turns => (calls_spare halike hs turns).2⟩

/-- Both domains have the megabyte at 0x90000000; domain 1 serves requests with the channel 4.
    How it answers is open. -/
def twoDomains (answer : List Notice → Rc × List (BitVec 32)) : Setup .rv64 (List Note) where
  monitor := twoMegabytes.monitor
  domain := fun _ => twoMegabytes.domain 1
  request := fun _ _ => pure ⟨.success, fun _ => 0, 8, []⟩
  poll := fun _ notes => (notes, [])
  sinks := fun _ => [(0x0008, 1), (0x0009, 2)]
  retrieve := fun _ _ _ => pure (.error .noData)
  complete := fun _ _ => pure (.noData, 0)
  count := fun _ _ => 0
  peek := fun _ _ _ => []
  servers := fun key => if key = 1 then some [4] else none
  enqueue := fun _ _ => pure true
  waits := fun _ _ => true
  answer := fun _ _ told => pure (answer told)
  enterable := fun _ _ => false
  callerKey := fun _ => none
  doorbell := fun _ => 0xffffffff
  maxSysmsi := 128
  eventBufSize := 512
  bounceSize := 1024
  domainKeys := 2
  sbiImplId := 0xff
  sbiImplVersion := 0x100

def notifying (id : BitVec 32) (owner : Nat) : Channel :=
  ⟨id, 0, 0x10000, 256, 0, 0, capMsi ||| capSendWithResp ||| capGetNotifications, 0, 0, 0, 0, 0, 0,
    0, owner, false⟩

def pucChannel (id : BitVec 32) (owner : Nat) (group : BitVec 16) : Chan .rv64 :=
  ⟨notifying id owner, .rpmi { (default : RpmiBack .rv64) with group := group }⟩

def mmChannel : Chan .rv64 :=
  ⟨notifying 3 1, .fw { (default : FwBack) with group := 0x000b, target := 1, shmemSize := 0x1000 }⟩

/-- Domain 1's REQUEST_FORWARD channel, with notifications enabled or not, and its MSI. -/
def forwardChannel (enabled control low data : BitVec 32) : Chan .rv64 :=
  ⟨{ notifying 4 2 with msiControl := control, msiAddrLow := low, msiData := data },
    .fw { (default : FwBack) with
      group := 0x000d, queue := some 1, owner := 1, notifyEnabled := enabled }⟩

/-- An MM_COMMUNICATE is in the shared memory; the PuC has an event for each group. -/
def monitorWith (channels : List (Chan .rv64)) : Mon .rv64 (List Note) where
  channels := channels
  indicationsDue := false
  told := []
  rest :=
    { mem := fun i => if i = 0 then 0 else 8
      bounce := fun _ => 0
      slots := fun _ => ⟨.free, .success, none, 0, 0, 0, fun _ => 0, fun _ => 0⟩
      switching := none
      world := [⟨0x0008, [0x10000]⟩, ⟨0x0009, [0x10000]⟩] }

def domain0 : Caller := ⟨0, some 0x90000000⟩

def communicate : Call .rv64 := .sendMessage 3 3 16 true

theorem call_ignores_other_domains_forwarded :
    let st := twoDomains fun _ => (.success, [0, 4])
    let s := monitorWith
      [pucChannel 1 1 0x0008, pucChannel 2 2 0x0009, mmChannel, forwardChannel 1 1 0xa0000000 5]
    let t := monitorWith [pucChannel 1 1 0x0008, mmChannel]
    ((communicate.run st domain0).run s).1 = (.success, 8) ∧
      ((communicate.run st domain0).run s).1 = ((communicate.run st domain0).run t).1 ∧
      ((communicate.run st domain0).run s).2.rest.mem =
        ((communicate.run st domain0).run t).2.rest.mem ∧
      Spared 0 s ((communicate.run st domain0).run s).2 := by
  refine ⟨by decide +kernel, ?_⟩
  apply call_ignores_other_domains
  · intro _ _ _ _
    rfl
  · exact ⟨by decide, by decide, by decide +kernel⟩
  · exact ⟨by decide, by decide, by decide⟩
  · rfl
  · rfl

theorem calls_ignore_other_domains_forwarded :
    Replies.Alike (answered (twoDomains fun _ => (.success, [0, 4])) domain0)
      (monitorWith [mmChannel, forwardChannel 1 1 0xa0000000 5]) (monitorWith [mmChannel]) := by
  apply And.left
  apply calls_ignore_other_domains
  · intro _ _ _ _
    rfl
  · exact ⟨by decide, by decide, by decide +kernel⟩
  · exact ⟨by decide, by decide, by decide⟩
  · rfl
  · rfl

/-- Fetching domain 0's events delivers domain 1's.  Whether domain 1 is told of a forwarded
    request is up to its channel, and it may answer only then.  And an MSI of domain 1's may be
    aimed at memory that both domains have. -/
theorem other_domains_channels_show :
    (let st := twoDomains fun _ => (.success, [0, 4])
      let s := monitorWith [pucChannel 1 1 0x0008, pucChannel 2 2 0x0009]
      let s' := (((Call.getNotifications 1).run st domain0).run s).2
      (s.chan 2).visible 0 = false ∧ (s.chan 2).rpmi.events = [] ∧
        (s'.chan 2).rpmi.events = [⟨0x10000, []⟩] ∧ (s'.chan 2).ch.eventsDue = true) ∧
    (let st := twoDomains fun told => if told = [] then (.timeout, []) else (.success, [0, 4])
      let s := monitorWith [mmChannel, forwardChannel 1 1 0xa0000000 5]
      let t := monitorWith [mmChannel, forwardChannel 0 1 0xa0000000 5]
      s.rest = t.rest ∧ s.visible 0 = t.visible 0 ∧
        ((communicate.run st domain0).run s).2.rest.mem 0 = 0 ∧
        ((communicate.run st domain0).run t).2.rest.mem 0 = statusWord .timeout) ∧
    (let st := twoDomains fun _ => (.success, [0, 4])
      let s := monitorWith [mmChannel, forwardChannel 1 1 0x90000800 5]
      let t := monitorWith [mmChannel, forwardChannel 1 1 0x90000800 6]
      s.rest = t.rest ∧ s.visible 0 = t.visible 0 ∧
        msiTargetOk st.toConfig 1 (forwardChannel 1 1 0x90000800 5).ch = true ∧
        ((communicate.run st domain0).run s).2.rest.mem 0x200 = 5 ∧
        ((communicate.run st domain0).run t).2.rest.mem 0x200 = 6) := by
  refine ⟨⟨?_, ?_, ?_, ?_⟩, ⟨rfl, rfl, ?_, ?_⟩, ⟨rfl, rfl, ?_, ?_, ?_⟩⟩ <;> decide +kernel

end RiscvMonitor.Mpxy
