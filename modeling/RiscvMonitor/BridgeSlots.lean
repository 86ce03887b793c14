import RiscvMonitor.Bridge
import RiscvMonitor.HartWalk
import RiscvMonitor.PendingCalls

/-!
# Whose message is in a slot

A slot that is not free belongs to the call that filled it: the hart is still in
that call, or the context of the source domain was left by it and waits.  It stays
so unless a domain is stopped with a message of its own under way:
`domain_stop()` drops the context and leaves the slot.
-/

namespace RiscvMonitor.Bridge

open Lifecycle (Call Act Pc Contexts Effect ecall)
open Lifecycle.Sys

variable {x : Xlen}

/-! ### Moves of the harts, seen from the slots -/

variable {i target : Nat}

section Life

variable {cfg : Lifecycle.Config x} {s t : Lifecycle.Sys x} {h : Nat} {a : Act x}

theorem calling_after (hc : Contexts cfg s) (he : Effect cfg s h a t) {d : Nat}
    (hcalling : (s.ctx d i).state = .calling) :
    (t.ctx d i).state = .calling ∨ (i = h ∧ t.domain h = d) ∨
      (s.pc h = .stopSection d ∧ a = .go) := by
  have hcur (hat : d = s.domain h ∧ i = h) : False := by
    obtain ⟨rfl, rfl⟩ := hat
    exact hc.cur_not_calling _ hcalling
  have hmoved {target : Nat} {w : Lifecycle.Farewell} (hm : Lifecycle.Moved s t h target w) :
      (t.ctx d i).state = .calling ∨ (i = h ∧ t.domain h = d) := by
    by_cases hi : i = h
    · subst hi
      by_cases hd : d = target
      · exact .inr ⟨rfl, hm.domain.trans hd.symm⟩
      · left
        rw [hm.state, if_neg hd, if_neg fun hd' => hcur ⟨hd', rfl⟩]
        exact hcalling
    · left
      rw [hm.other d i hi]
      exact hcalling
  cases he with
  | own | boot | unboot | lock | cleared | unlocked => exact .inl hcalling
  | started =>
    left
    rw [Lifecycle.contextStarted, goto, setHart_ctx, setCtx_ctx,
      Lifecycle.update_update_apply, if_neg hcur]
    exact hcalling
  | entered _ _ _ hm | left _ _ _ _ _ hm | returned _ _ _ hm =>
    rcases hmoved hm with hstill | hback
    · exact .inl hstill
    · exact .inr (.inl hback)
  | @refused d' _ _ _ _ _ hstate =>
    left
    rw [goto, setHart_ctx, setCtx_ctx, Lifecycle.update_update_apply]
    split
    · next hat =>
      rw [hat.1, hat.2] at hcalling
      exact hcalling
    · exact hcalling
  | halted =>
    left
    rw [goto, setHart_ctx, setCtx_ctx, Lifecycle.update_update_apply, if_neg hcur]
    exact hcalling
  | @domainStart d' _ _ _ _ hok =>
    left
    have hd : d ≠ d' := by
      rintro rfl
      exact hc.domainStart_none hok i (.inl hcalling)
    simp [goto, hd, hcalling]
  | @stopSection d' hpc hact =>
    by_cases hd : d = d'
    · subst hd
      exact .inr (.inr ⟨hpc, hact⟩)
    · left
      rw [Lifecycle.stopSection_ctx, if_neg hd]
      exact hcalling

theorem step_switchTo {d : Nat} (hc : Contexts cfg s) (hstep : Lifecycle.step cfg s h a = some t)
    (hpc : t.pc h = .switchTo d) : a = .call (.switchTo d) := by
  obtain ⟨hgo, -⟩ := (Lifecycle.step_walk (hc.cur_not_calling h) hstep).bridge (.inl ⟨d, hpc⟩)
  exact (hgo.switchTo hpc).1

theorem step_at_switchTo (hpc : s.pc h = .switchTo target)
    (hstep : Lifecycle.step cfg s h a = some t) :
    a = .go ∧ t = (Lifecycle.enter cfg s h target 0 true).1 := by
  unfold Lifecycle.step at hstep
  split at hstep
  · rw [hpc] at hstep
    cases a with
    | go =>
      cases hstep
      exact ⟨rfl, rfl⟩
    | call | platform | power => cases hstep
  · cases hstep

theorem step_to_switchTo (hpc : s.pc h = .smode) (hbridge : cfg.bridge (s.domain h) target = true)
    (henterable : Lifecycle.domainEnterable cfg s h target = true)
    (hstep : Lifecycle.step cfg s h (.call (.switchTo target)) = some t) :
    t = s.goto h (.switchTo target) := by
  unfold Lifecycle.step at hstep
  split at hstep
  · rw [hpc] at hstep
    cases hstep
    exact if_pos ⟨hbridge, henterable⟩
  · cases hstep

theorem enter_calling {arg : Word x} {quiet : Bool}
    (hne : (Lifecycle.enter cfg s h target arg quiet).1.domain h ≠ s.domain h) :
    ((Lifecycle.enter cfg s h target arg quiet).1.ctx (s.domain h) h).state = .calling := by
  by_cases hok : Lifecycle.enterCheck cfg s h target quiet = .success
  · have hother := (Lifecycle.enterCheck_success hok).1
    rw [(Lifecycle.enter_moved hok).state, if_neg hother.symm, if_pos rfl]
  · rw [Lifecycle.enterCheck_refused hok, Lifecycle.goto_domain] at hne
    exact absurd rfl hne

theorem other_after (he : Effect cfg s h a t) (hi : i ≠ h) :
    t.pc i = s.pc i ∧ t.domain i = s.domain i := by
  exact ⟨he.pc_other hi, (he.other hi).domain⟩

end Life

/-! ### The invariant -/

/-- The hart is between the slot and the switch, in a call of domain `d`. -/
def Inside (b : Sys x) (d h : Nat) : Prop :=
  b.life.domain h = d ∧ ∃ target, b.life.pc h = .switchTo target

/-- The hart is in the call that filled the slot of domain `d`. -/
def Sending (b : Sys x) (d h : Nat) : Prop :=
  Inside b d h ∧ b.current h = (b.slot d h).sender

structure Sound (cfg : Config x) (b : Sys x) : Prop where
  contexts : Contexts cfg.life b.life
  owned : ∀ d h, (b.slot d h).state ≠ .free →
    Inside b d h ∨ b.waitsIn d h = some (b.slot d h).sender
  inside : ∀ d h, Inside b d h → b.current h = (b.slot d h).sender
  answers : ∀ a ∈ b.answers, a.call = a.sender
  deliveries : ∀ r ∈ b.deliveries, r.waits = some r.sender

theorem waitsIn_eq_some {b : Sys x} {d h call : Nat} :
    b.waitsIn d h = some call ↔ (b.life.ctx d h).state = .calling ∧ b.leftBy d h = call := by
  unfold Sys.waitsIn
  split_ifs with hcalling
  · simp [hcalling]
  · simp [hcalling]

theorem setSlot_slot (b : Sys x) (d h : Nat) (s : Slot) (d' i : Nat) :
    (b.setSlot d h s).slot d' i = if d' = d ∧ i = h then s else b.slot d' i :=
  Lifecycle.update_update_apply ..

section Resumed

variable (b : Sys x) (d h call : Nat)

theorem contextResumed_rest :
    (contextResumed b d h call).life = b.life ∧
      (contextResumed b d h call).current = b.current ∧
      (contextResumed b d h call).leftBy = b.leftBy ∧
      (contextResumed b d h call).deliveries = b.deliveries := by
  unfold contextResumed
  dsimp only
  split <;> exact ⟨rfl, rfl, rfl, rfl⟩

theorem contextResumed_sender (d' i : Nat) :
    ((contextResumed b d h call).slot d' i).sender = (b.slot d' i).sender := by
  unfold contextResumed
  dsimp only
  split
  · rfl
  · rw [setSlot_slot]
    split
    · next hat => rw [hat.1, hat.2]
    · rfl

theorem contextResumed_state {d' : Nat}
    (hstate : ((contextResumed b d h call).slot d' i).state ≠ .free) :
    (b.slot d' i).state ≠ .free ∧ ¬ (d' = d ∧ i = h) := by
  unfold contextResumed at hstate
  dsimp only at hstate
  split at hstate
  · next hfree =>
    refine ⟨hstate, ?_⟩
    rintro ⟨rfl, rfl⟩
    exact hstate hfree
  · rw [setSlot_slot] at hstate
    split at hstate
    · exact absurd rfl hstate
    · next hat => exact ⟨hstate, hat⟩

theorem contextResumed_answers (hb : ∀ a ∈ b.answers, a.call = a.sender)
    (hcall : (b.slot d h).state ≠ .free → call = (b.slot d h).sender) :
    ∀ a ∈ (contextResumed b d h call).answers, a.call = a.sender := by
  unfold contextResumed
  dsimp only
  split
  · exact hb
  · next hstate =>
    intro a ha
    rcases List.mem_cons.mp ha with rfl | ha
    · exact hcall hstate
    · exact hb a ha

end Resumed

variable {channel : Nat}

section Steps

variable {cfg : Config x} {b b' : Sys x} {h : Nat} {a : Act x} {t : Lifecycle.Sys x}

/-- No domain is stopped while a message of its own is under way. -/
def StopsIdle (b : Sys x) (h : Nat) (a : Act x) : Prop :=
  ∀ d, b.life.pc h = .stopSection d → a = .go →
    ∀ i, (b.slot d i).state ≠ .free → (b.life.ctx d i).state ≠ .calling

section

variable (hs : Sound cfg b) (hstep : Lifecycle.step cfg.life b.life h a = some t)
include hs hstep

/-- What a move of hart `h` makes of a slot that is not free: another hart is still in the call
    that filled it, this one was, its context gets the hart, or it waits on. -/
theorem owned_after (hstop : StopsIdle b h a) {d : Nat} (hstate : (b.slot d i).state ≠ .free) :
    (i ≠ h ∧ t.domain i = d ∧ ∃ target, t.pc i = .switchTo target) ∨ (i = h ∧ Inside b d h) ∨
      (i = h ∧ t.domain h = d ∧ d ≠ b.life.domain h) ∨
      ((t.ctx d i).state = .calling ∧ b.leftBy d i = (b.slot d i).sender ∧
        ¬ (d = b.life.domain h ∧ i = h)) := by
  have heffect := hs.contexts.step_effect hstep
  rcases hs.owned d i hstate with hin | hwaits
  · by_cases hi : i = h
    · subst hi
      exact .inr (.inl ⟨rfl, hin⟩)
    · obtain ⟨hpc, hdomain⟩ := other_after heffect hi
      obtain ⟨hd, target, htarget⟩ := hin
      exact .inl ⟨hi, hdomain.trans hd, target, hpc.trans htarget⟩
  · obtain ⟨hcalling, hleft⟩ := waitsIn_eq_some.mp hwaits
    have hcur : ¬ (d = b.life.domain h ∧ i = h) := by
      rintro ⟨rfl, rfl⟩
      exact hs.contexts.cur_not_calling _ hcalling
    rcases calling_after hs.contexts heffect hcalling with hstill | ⟨rfl, hback⟩ | ⟨hpc, ha⟩
    · exact .inr (.inr (.inr ⟨hstill, hleft, hcur⟩))
    · exact .inr (.inr (.inl ⟨rfl, hback, fun hd => hcur ⟨hd, rfl⟩⟩))
    · exact absurd hcalling (hstop d hpc ha i hstate)

theorem inside_after (hplain : ∀ target, a ≠ .call (.switchTo target)) {d : Nat}
    (hdomain : t.domain i = d) (hpc : ∃ target, t.pc i = .switchTo target) :
    i ≠ h ∧ Inside b d i := by
  obtain ⟨target, hpc⟩ := hpc
  have hi : i ≠ h := by
    rintro rfl
    exact hplain target (step_switchTo hs.contexts hstep hpc)
  obtain ⟨hpc', hdomain'⟩ := other_after (hs.contexts.step_effect hstep) hi
  exact ⟨hi, hdomain'.symm.trans hdomain, target, hpc'.symm.trans hpc⟩

theorem Sound.stays (hstop : StopsIdle b h a) (hplain : ∀ target, a ≠ .call (.switchTo target))
    (hsame : t.domain h = b.life.domain h) (hpc : ∀ target, b.life.pc h ≠ .switchTo target) :
    Sound cfg { b with life := t } where
  contexts := hs.contexts.step hstep
  owned := by
    intro d i hstate
    rcases owned_after hs hstep hstop hstate with
      ⟨-, hin⟩ | ⟨-, -, target, hat⟩ | ⟨-, hback, hne⟩ | ⟨hcalling, hleft, -⟩
    · exact .inl hin
    · exact absurd hat (hpc target)
    · exact absurd (hback.symm.trans hsame) hne
    · exact .inr (waitsIn_eq_some.mpr ⟨hcalling, hleft⟩)
  inside := by
    rintro d i ⟨hdomain, hat⟩
    obtain ⟨-, hin⟩ := inside_after hs hstep hplain hdomain hat
    exact hs.inside d i hin
  answers := hs.answers
  deliveries := hs.deliveries

end

theorem Sound.refused (hs : Sound cfg b) (hpc : b.life.pc h = .switchTo target)
    (hstep : Lifecycle.step cfg.life b.life h a = some t) (hstop : StopsIdle b h a)
    (hsame : t.domain h = b.life.domain h) (s : Slot)
    (hsender : s.sender = (b.slot (b.life.domain h) h).sender) :
    Sound cfg (contextResumed ({ b with life := t }.setSlot (b.life.domain h) h s)
      (b.life.domain h) h (b.current h)) := by
  obtain ⟨rfl, -⟩ := step_at_switchTo hpc hstep
  have hcurrent := hs.inside _ h ⟨rfl, target, hpc⟩
  obtain ⟨hlife, hcur, hleftBy, hdeliveries⟩ := contextResumed_rest
    ({ b with life := t }.setSlot (b.life.domain h) h s) (b.life.domain h) h (b.current h)
  constructor
  case contexts =>
    rw [hlife]
    exact hs.contexts.step hstep
  case owned =>
    intro d i hstate
    obtain ⟨hstate, hat⟩ := contextResumed_state _ _ _ _ hstate
    rw [setSlot_slot, if_neg hat] at hstate
    rw [contextResumed_sender, setSlot_slot, if_neg hat, waitsIn_eq_some, hleftBy, Inside, hlife]
    rcases owned_after hs hstep hstop hstate with
      ⟨-, hin⟩ | ⟨hi, hd, -⟩ | ⟨-, hback, hne⟩ | ⟨hcalling, hleft, -⟩
    · exact .inl hin
    · exact absurd ⟨hd.symm, hi⟩ hat
    · exact absurd (hback.symm.trans hsame) hne
    · exact .inr ⟨hcalling, hleft⟩
  case inside =>
    rintro d i ⟨hdomain, hin⟩
    rw [hlife] at hdomain hin
    obtain ⟨hi, hin⟩ := inside_after hs hstep nofun hdomain hin
    rw [hcur, contextResumed_sender, setSlot_slot, if_neg fun hat => hi hat.2]
    exact hs.inside d i hin
  case answers =>
    refine contextResumed_answers _ _ _ _ ?_ ?_
    · exact hs.answers
    · intro _
      rw [setSlot_slot, if_pos ⟨rfl, rfl⟩, hsender]
      exact hcurrent
  case deliveries =>
    rw [hdeliveries]
    exact hs.deliveries

def noted (b : Sys x) (h : Nat) (t : Lifecycle.Sys x) : Sys x :=
  let cur := b.life.domain h
  { b with
    life := t
    leftBy := Function.update b.leftBy cur (Function.update (b.leftBy cur) h
      (if (t.ctx cur h).state = .calling then b.current h else b.leftBy cur h)) }

theorem noted_leftBy (b : Sys x) (h : Nat) (t : Lifecycle.Sys x) (d i : Nat) :
    (noted b h t).leftBy d i =
      if d = b.life.domain h ∧ i = h then
        if (t.ctx (b.life.domain h) h).state = .calling then b.current h
        else b.leftBy (b.life.domain h) h
      else b.leftBy d i :=
  Lifecycle.update_update_apply ..

section

variable (hs : Sound cfg b)
include hs

/-- The hart goes to another domain: but for the slot of that domain the messages are where
    they belong. -/
theorem noted_owned (hstep : Lifecycle.step cfg.life b.life h a = some t)
    (hstop : StopsIdle b h a) (hmoved : t.domain h ≠ b.life.domain h) {d : Nat}
    (hstate : (b.slot d i).state ≠ .free) (hat : ¬ (d = t.domain h ∧ i = h)) :
    Inside (noted b h t) d i ∨ (noted b h t).waitsIn d i = some (b.slot d i).sender := by
  rcases owned_after hs hstep hstop hstate with
    ⟨-, hin⟩ | ⟨rfl, hin⟩ | ⟨hi, hback, -⟩ | ⟨hcalling, hleft, hcur⟩
  · exact .inl hin
  · -- the context has just been left, by the call that filled the slot
    right
    have hsender := hs.inside d i hin
    obtain ⟨rfl, target, hpc⟩ := hin
    obtain ⟨-, rfl⟩ := step_at_switchTo hpc hstep
    have hcalling := enter_calling hmoved
    rw [waitsIn_eq_some, noted_leftBy, if_pos ⟨rfl, rfl⟩, if_pos hcalling]
    exact ⟨hcalling, hsender⟩
  · exact absurd ⟨hback.symm, hi⟩ hat
  · right
    rw [waitsIn_eq_some, noted_leftBy, if_neg hcur]
    exact ⟨hcalling, hleft⟩

theorem Sound.returns_to {d : Nat} (hd : d ≠ b.life.domain h)
    (hstate : (b.slot d h).state ≠ .free) :
    (b.life.ctx d h).state = .calling ∧ b.leftBy d h = (b.slot d h).sender := by
  rcases hs.owned d h hstate with ⟨hin, -⟩ | hwaits
  · exact absurd hin.symm hd
  · exact waitsIn_eq_some.mp hwaits

theorem Sound.moves (hstep : Lifecycle.step cfg.life b.life h a = some t)
    (hstop : StopsIdle b h a) (hplain : ∀ target, a ≠ .call (.switchTo target))
    (hmoved : t.domain h ≠ b.life.domain h) :
    Sound cfg (if (b.life.ctx (t.domain h) h).state = .none then noted b h t
      else contextResumed (noted b h t) (t.domain h) h (b.leftBy (t.domain h) h)) := by
  have hinside : ∀ d i, Inside (noted b h t) d i → b.current i = (b.slot d i).sender := by
    rintro d i ⟨hdomain, hin⟩
    obtain ⟨-, hin⟩ := inside_after hs hstep hplain hdomain hin
    exact hs.inside d i hin
  split
  · next hnone =>
    refine ⟨hs.contexts.step hstep, ?_, hinside, hs.answers, hs.deliveries⟩
    intro d i hstate
    apply noted_owned hs hstep hstop hmoved hstate
    rintro ⟨rfl, rfl⟩
    have hcalling := (hs.returns_to hmoved hstate).1
    rw [hnone] at hcalling
    cases hcalling
  · obtain ⟨hlife, hcur, hleftBy, hdeliveries⟩ := contextResumed_rest (noted b h t) (t.domain h) h
      (b.leftBy (t.domain h) h)
    constructor
    case contexts =>
      rw [hlife]
      exact hs.contexts.step hstep
    case owned =>
      intro d i hstate
      obtain ⟨hstate, hat⟩ := contextResumed_state _ _ _ _ hstate
      have howned := noted_owned hs hstep hstop hmoved hstate hat
      rw [contextResumed_sender]
      unfold Inside Sys.waitsIn at howned ⊢
      rw [hlife, hleftBy]
      exact howned
    case inside =>
      intro d i hin
      unfold Inside at hin
      rw [hlife] at hin
      rw [hcur, contextResumed_sender]
      exact hinside d i hin
    case answers =>
      refine contextResumed_answers _ _ _ _ ?_ ?_
      · exact hs.answers
      · intro hstate
        exact (hs.returns_to hmoved hstate).2
    case deliveries =>
      rw [hdeliveries]
      exact hs.deliveries

theorem Sound.advance (hstop : StopsIdle b h a) (hplain : ∀ target, a ≠ .call (.switchTo target))
    (hadvance : advance cfg b h a = some b') : Sound cfg b' := by
  rw [Bridge.advance, Option.map_eq_some_iff] at hadvance
  obtain ⟨t, hstep, rfl⟩ := hadvance
  unfold settle
  dsimp only
  split
  · next hsame =>
    split
    · next target hpc => exact hs.refused hpc hstep hstop hsame _ rfl
    · next hpc => exact hs.stays hstep hstop hplain hsame fun target hat => hpc target hat
  · next hmoved => exact hs.moves hstep hstop hplain hmoved

theorem Sound.stamp (hpc : ∀ target, b.life.pc h ≠ .switchTo target) :
    Sound cfg (b.stamp h) where
  contexts := hs.contexts
  owned := hs.owned
  inside := by
    intro d i hin
    have hi : i ≠ h := by
      rintro rfl
      obtain ⟨-, target, hat⟩ := hin
      exact hpc target hat
    exact (Function.update_of_ne hi _ _).trans (hs.inside d i hin)
  answers := hs.answers
  deliveries := hs.deliveries

theorem Sound.setSlot {d : Nat} {s : Slot} (hstate : (b.slot d h).state ≠ .free)
    (hsender : s.sender = (b.slot d h).sender) :
    Sound cfg (b.setSlot d h s) where
  contexts := hs.contexts
  owned := by
    intro d' i hstate'
    rw [setSlot_slot] at hstate' ⊢
    split at hstate'
    · next hat =>
      obtain ⟨rfl, rfl⟩ := hat
      rw [if_pos ⟨rfl, rfl⟩, hsender]
      exact hs.owned d' i hstate
    · next hat =>
      rw [if_neg hat]
      exact hs.owned d' i hstate'
  inside := by
    intro d' i hin
    rw [setSlot_slot]
    split
    · next hat =>
      obtain ⟨rfl, rfl⟩ := hat
      rw [hsender]
      exact hs.inside d' i hin
    · exact hs.inside d' i hin
  answers := hs.answers
  deliveries := hs.deliveries

end

theorem slotFor_spec {d : Nat} (hslot : slotFor b h channel = some d) :
    (b.life.ctx d h).state = .calling ∧ (b.slot d h).state ≠ .free := by
  unfold slotFor at hslot
  split at hslot
  · next hwaits =>
    obtain ⟨hcaller, hmsg⟩ := Option.filter_eq_some_iff.mp hslot
    obtain ⟨c, hc, hcalling⟩ := Lifecycle.Sys.callerWaits_iff.mp hwaits
    cases hcaller.symm.trans hc
    refine ⟨hcalling, ?_⟩
    intro hfree
    simp [hfree] at hmsg
  · cases hslot

theorem Sound.call (hs : Sound cfg b) (hpc : b.life.pc h = .smode)
    (hadvance : Bridge.advance cfg b h a = some b')
    (hplain : ∀ target, a ≠ .call (.switchTo target)) : Sound cfg b' := by
  apply hs.advance _ hplain hadvance
  intro d hat
  rw [hpc] at hat
  cases hat

theorem Sound.deliver (hs : Sound cfg b) {r : Delivery} (hr : r.waits = some r.sender) :
    Sound cfg { b with deliveries := r :: b.deliveries } where
  contexts := hs.contexts
  owned := hs.owned
  inside := hs.inside
  answers := hs.answers
  deliveries := by
    intro q hq
    rcases List.mem_cons.mp hq with rfl | hq
    · exact hr
    · exact hs.deliveries q hq

theorem crosses_spec {bridge : Nat} {data : List (BitVec 32)} {c : MmChannel}
    {outSize : BitVec 32} (hcrosses : crosses cfg b h channel data = some (c, bridge, outSize)) :
    cfg.life.bridge (b.life.domain h) c.target = true ∧
      Lifecycle.domainEnterable cfg.life b.life h c.target = true := by
  unfold crosses at hcrosses
  split at hcrosses
  · next _ _ _ _ _ hchannel =>
    split at hcrosses
    · next hbridge =>
      split at hcrosses
      · next hok =>
        cases hcrosses
        refine ⟨?_, hok.2.2.2⟩
        rw [← hok.1]
        apply cfg.joined channel _ hchannel
        rw [hbridge]
        exact nofun
      · cases hcrosses
    · cases hcrosses
  · cases hcrosses

theorem Sound.sends (hs : Sound cfg b) (hpc : b.life.pc h = .smode) (target : Nat) {s : Slot}
    (hsender : s.sender = b.current h) :
    Sound cfg { b.setSlot (b.life.domain h) h s with life := b.life.goto h (.switchTo target) } := by
  have hother {d i : Nat} (hi : i ≠ h) : Inside b d i ↔
      Inside { b.setSlot (b.life.domain h) h s with life := b.life.goto h (.switchTo target) } d i := by
    unfold Inside
    rw [Lifecycle.goto_domain, Lifecycle.goto_pc_of_ne _ _ hi]
  constructor
  case contexts =>
    exact hs.contexts.same (fun i => Lifecycle.goto_domain ..) rfl rfl rfl
  case owned =>
    intro d i hstate
    have hstate : ((b.setSlot (b.life.domain h) h s).slot d i).state ≠ .free := hstate
    by_cases hat : d = b.life.domain h ∧ i = h
    · obtain ⟨rfl, rfl⟩ := hat
      exact .inl ⟨Lifecycle.goto_domain .., target, Lifecycle.goto_pc_self ..⟩
    · rw [setSlot_slot, if_neg hat] at hstate
      have hsame : (b.setSlot (b.life.domain h) h s).slot d i = b.slot d i := by
        rw [setSlot_slot, if_neg hat]
      rcases hs.owned d i hstate with hin | hwaits
      · have hi : i ≠ h := by
          rintro rfl
          obtain ⟨-, _, hin⟩ := hin
          rw [hpc] at hin
          cases hin
        exact .inl ((hother hi).mp hin)
      · right
        rw [← hsame] at hwaits
        exact hwaits
  case inside =>
    intro d i hin
    show b.current i = ((b.setSlot (b.life.domain h) h s).slot d i).sender
    rw [setSlot_slot]
    by_cases hi : i = h
    · subst hi
      have hd : d = b.life.domain i := hin.1.symm.trans (Lifecycle.goto_domain ..)
      rw [if_pos ⟨hd, rfl⟩, hsender]
    · rw [if_neg fun hat => hi hat.2]
      exact hs.inside d i ((hother hi).mpr hin)
  case answers => exact hs.answers
  case deliveries => exact hs.deliveries

theorem settle_smode (hpc : b.life.pc h = .smode) (pc : Pc x) :
    settle b h (b.life.goto h pc) = { b with life := b.life.goto h pc } := by
  unfold settle
  dsimp only
  rw [if_pos (Lifecycle.goto_domain ..), hpc]

theorem Sound.communicate {data : List (BitVec 32)} (hs : Sound cfg b)
    (hpc : b.life.pc h = .smode) (hstep : communicate cfg b h channel data = some b') :
    Sound cfg b' := by
  unfold Bridge.communicate at hstep
  split at hstep
  · next c bridge outSize hcrosses =>
    obtain ⟨hbridge, henterable⟩ := crosses_spec hcrosses
    dsimp only at hstep
    rw [Bridge.advance, Option.map_eq_some_iff] at hstep
    obtain ⟨t, hlife, rfl⟩ := hstep
    have ht : t = b.life.goto h (.switchTo c.target) :=
      step_to_switchTo hpc hbridge henterable hlife
    subst ht
    have htoken (token : Nat → BitVec 16) : Sound cfg { b with token := token } :=
      ⟨hs.contexts, hs.owned, hs.inside, hs.answers, hs.deliveries⟩
    refine (congrArg (Sound cfg) (settle_smode ?_ _)).mpr ?_
    · exact hpc
    · have hnext := htoken (Function.update b.token channel (b.token channel + 1))
      refine hnext.sends hpc c.target ?_
      rfl
  · exact hs.call hpc hstep nofun

theorem Sound.retrieve {start max : Nat} {queued : Bool} (hs : Sound cfg b)
    (hpc : b.life.pc h = .smode) (hstep : retrieve cfg b h channel start max queued = some b') :
    Sound cfg b' := by
  unfold Bridge.retrieve at hstep
  dsimp only at hstep
  repeat' split at hstep
  all_goals first | exact hs.call hpc hstep nofun | skip
  next d hslot _ =>
  obtain ⟨hcalling, hstate⟩ := slotFor_spec hslot
  have hd : d ≠ b.life.domain h := by
    rintro rfl
    exact hs.contexts.cur_not_calling h hcalling
  have hmarked := hs.setSlot (s := { b.slot d h with state := .retrieved }) hstate rfl
  exact (hmarked.deliver (waitsIn_eq_some.mpr (hs.returns_to hd hstate))).call hpc hstep nofun

theorem Sound.complete {rsp : List (BitVec 32)} (hs : Sound cfg b) (hpc : b.life.pc h = .smode)
    (hstep : complete cfg b h channel rsp = some b') :
    Sound cfg b' := by
  unfold Bridge.complete at hstep
  split at hstep
  · exact hs.call hpc hstep nofun
  · exact hs.call hpc hstep nofun
  · split at hstep
    · next d hslot =>
      obtain ⟨-, hstate⟩ := slotFor_spec (Option.filter_eq_some_iff.mp hslot).1
      dsimp only at hstep
      refine Sound.call (hs.setSlot hstate ?_) hpc hstep nofun
      split <;> rfl
    · exact hs.call hpc hstep nofun

theorem settle_life (b : Sys x) (h : Nat) (t : Lifecycle.Sys x) : (settle b h t).life = t := by
  unfold settle
  dsimp only
  split
  · split
    · exact (contextResumed_rest ..).1
    · rfl
  · split
    · rfl
    · exact (contextResumed_rest ..).1

theorem advance_life {c : Sys x} (hadvance : Bridge.advance cfg c h a = some b')
    (hsame : c.life = b.life) : Lifecycle.step cfg.life b.life h a = some b'.life := by
  rw [Bridge.advance, Option.map_eq_some_iff] at hadvance
  obtain ⟨t, hstep, rfl⟩ := hadvance
  rw [settle_life, ← hsame]
  exact hstep

/-- Below the messages every step is one of the harts. -/
theorem step_life {op : Op x} (hstep : step cfg b h op = some b') :
    ∃ a, Lifecycle.step cfg.life b.life h a = some b'.life := by
  unfold Bridge.step Bridge.communicate Bridge.retrieve Bridge.complete at hstep
  dsimp only at hstep
  split at hstep
  -- whatever it is, it ends in an `advance`
  all_goals repeat' first | cases hstep | split at hstep
  all_goals exact ⟨_, advance_life hstep rfl⟩

def Unsent (cfg : Config x) (b : Sys x) (e : Nat × Op x) : Prop :=
  (step cfg b e.1 e.2).isSome = true → ∀ a, e.2 = .life a → StopsIdle b e.1 a

theorem Sound.life (hs : Sound cfg b) (hstop : StopsIdle b h a)
    (hstep : step cfg b h (.life a) = some b') : Sound cfg b' := by
  rw [Bridge.step] at hstep
  split at hstep
  · cases hstep
  · next hplain =>
    have hplain : ∀ target, a ≠ .call (.switchTo target) := by
      rintro target rfl
      exact hplain rfl
    split at hstep
    · next hcall =>
      have hpc : ∀ target, b.life.pc h ≠ .switchTo target := by
        intro target hpc
        obtain ⟨rfl, -⟩ := step_at_switchTo hpc (advance_life hstep rfl)
        cases hcall
      exact (hs.stamp hpc).advance hstop hplain hstep
    · exact hs.advance hstop hplain hstep

theorem Sound.step {e : Nat × Op x} (hs : Sound cfg b) (hunsent : Unsent cfg b e)
    (hstep : step cfg b e.1 e.2 = some b') : Sound cfg b' := by
  obtain ⟨h, op⟩ := e
  have hsmode (hpc : b.life.pc h = .smode) : Sound cfg (b.stamp h) := by
    apply hs.stamp
    intro target hat
    rw [hpc] at hat
    cases hat
  cases op with
  | life a =>
    refine hs.life (hunsent ?_ a rfl) hstep
    rw [hstep]
    rfl
  | communicate | retrieve | complete =>
    rw [Bridge.step] at hstep
    split_ifs at hstep with hpc
    first
      | exact (hsmode hpc).communicate hpc hstep
      | exact (hsmode hpc).retrieve hpc hstep
      | exact (hsmode hpc).complete hpc hstep

theorem init_sound (cfg : Config x) (home : Nat → Nat) (bootHart : Nat) :
    Sound cfg (init home bootHart) where
  contexts := Lifecycle.init_contexts cfg.life home bootHart
  owned := fun _ _ hstate => absurd rfl hstate
  inside := by
    rintro d h ⟨-, target, hpc⟩
    rcases Lifecycle.init_pc home bootHart h with heq | heq <;> cases heq.symm.trans hpc
  answers := nofun
  deliveries := nofun

/-- A stop that finds a message under way leaves a slot that belongs to nobody. -/
theorem stopsIdle_of_owned (hc : Contexts cfg.life b.life)
    (hstep : Bridge.step cfg b h (.life a) = some b')
    (howned : ∀ d i, (b'.slot d i).state ≠ .free → ¬ Sending b' d i →
      b'.waitsIn d i = some (b'.slot d i).sender) : StopsIdle b h a := by
  rintro d hpc rfl i hstate hcalling
  have hb' : b' = { b with life := Lifecycle.stopSection b.life h d } := by
    have hstep : Bridge.advance cfg b h .go = some b' := hstep
    rw [Bridge.advance, Option.map_eq_some_iff] at hstep
    obtain ⟨t, hlife, rfl⟩ := hstep
    unfold Lifecycle.step at hlife
    split at hlife
    · rw [hpc] at hlife
      cases hlife
      unfold settle
      dsimp only
      rw [if_pos (Lifecycle.stopSection_domain ..), hpc]
    · cases hlife
  subst hb'
  have hnot : ¬ Sending { b with life := Lifecycle.stopSection b.life h d } d i := by
    rintro ⟨⟨hdomain, -⟩, -⟩
    rw [Lifecycle.stopSection_domain] at hdomain
    subst hdomain
    exact hc.cur_not_calling i hcalling
  obtain ⟨hwaits, -⟩ := waitsIn_eq_some.mp (howned d i hstate hnot)
  dsimp only at hwaits
  rw [Lifecycle.stopSection_ctx, if_pos rfl, Lifecycle.dropWaiting, if_pos (.inl hcalling)] at hwaits
  cases hwaits

theorem run_contexts {home : Nat → Nat} {bootHart : Nat} {es : List (Nat × Op x)}
    (hrun : run cfg (init home bootHart) es = some b) : Contexts cfg.life b.life := by
  apply (Runs.along_true _ _ es).invariant (I := fun b => Contexts cfg.life b.life) _
    (Lifecycle.init_contexts cfg.life home bootHart) hrun
  rintro b e t hc - hstep
  obtain ⟨a, hlife⟩ := step_life hstep
  exact hc.step hlife

end Steps

/-- No domain is stopped along a run with a message of its own under way, exactly if in every
    state each slot that is not free belongs to the call that the hart is in, or by which the
    source's waiting context was left; then every answer was written to the call that sent the
    message. -/
theorem messages_belong_iff (cfg : Config x) (home : Nat → Nat) (bootHart : Nat)
    (es : List (Nat × Op x)) :
    Runs.Along (fun b e => step cfg b e.1 e.2) (Unsent cfg) (init home bootHart) es ↔
      ∀ fs gs b, es = fs ++ gs → run cfg (init home bootHart) fs = some b →
        (∀ d h, (b.slot d h).state ≠ .free → ¬ Sending b d h →
          b.waitsIn d h = some (b.slot d h).sender) ∧
        (∀ a ∈ b.answers, a.call = a.sender) ∧
        ∀ r ∈ b.deliveries, r.waits = some r.sender := by
  constructor
  · rintro halong fs gs b rfl hrun
    have hsound : Sound cfg b := halong.of_append.1.invariant
      (fun _ _ _ hs hunsent hstep => hs.step hunsent hstep) (init_sound cfg home bootHart) hrun
    refine ⟨?_, hsound.answers, hsound.deliveries⟩
    intro d h hstate hnot
    rcases hsound.owned d h hstate with hin | hwaits
    · exact absurd ⟨hin, hsound.inside d h hin⟩ hnot
    · exact hwaits
  · intro hall
    apply Runs.along_of_forall
    rintro fs ⟨h, op⟩ gs b heq hrun hsome a rfl
    obtain ⟨b', hstep⟩ := Option.isSome_iff_exists.mp hsome
    have hafter := hall (fs ++ [(h, .life a)]) gs b' (by rw [heq, List.append_assoc]; rfl)
      (Runs.run_concat hrun hstep)
    exact stopsIdle_of_owned (run_contexts hrun) hstep hafter.1

/-- As `relay`, with a bridge from domain 1 to domain 2. -/
def bridged : Config .rv64 where
  life := { Lifecycle.relay with bridge := fun d target => d == 1 && target == 2 }
  channel := fun id =>
    if id = 0 then some (.mm ⟨1, 2, some 1, 4096⟩)
    else if id = 1 then some (.fwd ⟨2, true, [1]⟩)
    else none
  joined := by
    intro id c hchannel _
    split at hchannel
    · cases hchannel
      rfl
    · split at hchannel <;> cases hchannel

/-- Domain 1 sends a message to domain 2 and is stopped while it waits. -/
def stoppedSender : List (Nat × Op .rv64) :=
  Lifecycle.relayBoot.map (fun e => (e.1, .life e.2)) ++
    [(0, .communicate 0 [0, 16, 0, 16]), (0, .life .go), (0, .life .go),
     (1, .life (.call (.domainStop 1))), (1, .life .go), (1, .life .go), (1, .life .go),
     (1, .life .go), (1, .life .go), (1, .life .go), (1, .life .go)]

/-- Domain 1 comes to the hart anew and enters domain 2, with no message. -/
def entersAgain : List (Nat × Op .rv64) :=
  [(0, .life (.call (.exit 0))), (0, .life .go), (0, .life (.call (.enter 2 0))), (0, .life .go),
   (0, .retrieve 1 0 256 false), (0, .life .go), (0, .life (.call (.exit 0)))]

/-- The slot outlives the context that it belongs to.  Domain 2 is then given the old
    message, and the answer of the plain call is overwritten by that of the message. -/
theorem stopped_sender_is_answered :
    ∃ b b', run bridged (init Lifecycle.relayHome 0) stoppedSender = some b ∧
      (b.slot 1 0).state = .sent ∧ (b.life.ctx 1 0).state = .none ∧
      run bridged b entersAgain = some b' ∧
      (∃ r ∈ b'.deliveries, r.waits ≠ some r.sender) ∧ ∃ a ∈ b'.answers, a.call ≠ a.sender := by
  have hview : ∃ b ∈ run bridged (init Lifecycle.relayHome 0) stoppedSender,
      (b.slot 1 0).state = .sent ∧ (b.life.ctx 1 0).state = .none ∧
      ∃ b' ∈ run bridged b entersAgain,
        (∃ r ∈ b'.deliveries, r.waits ≠ some r.sender) ∧
          ∃ a ∈ b'.answers, a.call ≠ a.sender := by decide +kernel
  obtain ⟨b, hb, hstate, hctx, b', hb', hdelivered, hanswered⟩ := hview
  exact ⟨b, b', hb, hstate, hctx, hb', hdelivered, hanswered⟩

end RiscvMonitor.Bridge
