import RiscvMonitor.Rpmi

/-!
# Whose answer a request gets

`wait_ack()` takes the first acknowledgement that carries the token, group and service
of its request.  One that is already in the queue when the token is taken can be
another's: after a boot the tokens start over, and a posted request takes a token
without looking at the queue.
-/

namespace RiscvMonitor.Rpmi

open Function (update update_of_ne update_self)

/-- Every response that a call has returned is the data of the acknowledgement that the PuC
    gave to that very request. -/
def Sys.OwnAnswers (s : Sys) : Prop :=
  ∀ r ∈ s.results, ∀ data, r.resp = some data →
    ∃ k m, r.serial = some k ∧ s.given k = some m ∧ data = m.payload

def Hdr.names (a b : Hdr) : Prop := b.token = a.token ∧ b.group = a.group ∧ b.service = a.service

instance (a b : Hdr) : Decidable (a.names b) := inferInstanceAs (Decidable (_ ∧ _))

/-- No acknowledgement in the queue would do for `h`, and no request of an earlier firmware that
    is still to be answered. -/
structure Sys.Unmatched (t : Transport) (s : Sys) (h : Hdr) : Prop where
  queued : ∀ m ∈ s.ack.pending t.ackSlots, ¬ h.answers m.hdr
  held : ∀ x ∈ s.held, x.serial = none → ¬ h.names x.hdr
  left : ∀ i ∈ s.req.used t.reqSlots, s.origin i = none → ¬ h.names (s.req.slot i).hdr

instance (t : Transport) (s : Sys) (h : Hdr) : Decidable (s.Unmatched t h) :=
  decidable_of_iff
    ((∀ m ∈ s.ack.pending t.ackSlots, ¬ h.answers m.hdr) ∧
      (∀ x ∈ s.held, x.serial = none → ¬ h.names x.hdr) ∧
      ∀ i ∈ s.req.used t.reqSlots, s.origin i = none → ¬ h.names (s.req.slot i).hdr)
    ⟨fun ⟨h₁, h₂, h₃⟩ => ⟨h₁, h₂, h₃⟩, fun h => ⟨h.queued, h.held, h.left⟩⟩

/-- A normal request takes its token when nothing matches it yet. -/
def Act.fresh (t : Transport) (s : Sys) : Act → Prop
  | .call c => c.posted = false → s.Unmatched t (c.hdr s.nextToken)
  | _ => True

instance (t : Transport) (s : Sys) : (a : Act) → Decidable (a.fresh t s)
  | .call c => inferInstanceAs (Decidable (_ → s.Unmatched t (c.hdr s.nextToken)))
  | .send _ | .poll _ | .take | .acknowledge _ _ | .stray _ => inferInstanceAs (Decidable True)

/-! ### What the loops do in one round -/

section Rounds

variable {t : Transport} {q : Queue} {r : Request} {ack : Hdr} {resp : Msg} {expired : Bool}

theorem shmemSend_success {slots : Nat} {h : Hdr} {data : Msg} {q' : Queue}
    (hsent : shmemSend t slots q h data = (q', .success)) :
    q.InRange slots ∧ (q.tail + 1) % slots ≠ q.head ∧
      q' = q.put slots (message h data (q.slot q.tail)) := by
  unfold shmemSend at hsent
  split at hsent
  · simp at hsent
  · next hrange =>
    split at hsent
    · simp at hsent
    · next hroom =>
      split at hsent
      · simp at hsent
      · simp only [Prod.mk.injEq, and_true] at hsent
        exact ⟨not_not.mp hrange, hroom, hsent.symm⟩

theorem sendLocked_success {q' : Queue}
    (hsent : sendLocked t q r expired = (q', .done .success)) :
    q.InRange t.reqSlots ∧ (q.tail + 1) % t.reqSlots ≠ q.head ∧
      q' = q.put t.reqSlots (message r.hdr r.call.req (q.slot q.tail)) := by
  apply shmemSend_success
  unfold sendLocked at hsent
  split at hsent
  · split at hsent <;> simp at hsent
  · next heq =>
    simp only [Prod.mk.injEq, Turn.done.injEq] at hsent
    rw [heq, hsent.1, hsent.2]

theorem shmemRecv_cases (t : Transport) (slots : Nat) (q : Queue) (h : Hdr) (data : Msg)
    (max : Nat) :
    let got := shmemRecv t slots q h data max
    (got.queue = q ∧ got.rc ≠ .success) ∨
      q.InRange slots ∧ q.head ≠ q.tail ∧ got.queue = q.drop slots ∧
        got.hdr = (q.slot q.head).hdr ∧
        (got.rc = .success →
          ∀ i < got.hdr.datalen.toNat / 4, got.data i = q.slot q.head (2 + i)) := by
  dsimp only
  unfold shmemRecv
  split
  · simp
  · next hrange =>
    split
    · simp
    · next hsome =>
      right
      dsimp only
      split
      · refine ⟨not_not.mp hrange, hsome, rfl, rfl, ?_⟩
        intro _ i hi
        exact if_pos hi
      · refine ⟨not_not.mp hrange, hsome, rfl, rfl, ?_⟩
        simp

theorem waitAck_fst :
    (waitAck t q r ack resp expired).1 = shmemRecv t t.ackSlots q ack resp r.call.max := by
  unfold waitAck
  dsimp only
  split
  · rfl
  · split_ifs <;> rfl
  · rfl
  · rfl

theorem waitAck_pending :
    (waitAck t q r ack resp expired).1.queue.pending t.ackSlots ⊆ q.pending t.ackSlots := by
  rw [waitAck_fst]
  rcases shmemRecv_cases t t.ackSlots q ack resp r.call.max with
    ⟨heq, -⟩ | ⟨hrange, hsome, heq, -⟩
  · rw [heq]
    exact List.Subset.refl _
  · rw [heq, SharedQueue.pending_drop hrange hsome]
    exact List.subset_cons_self _ _

theorem waitAck_done {got : Received}
    (hdone : waitAck t q r ack resp expired = (got, .done .success)) :
    got.rc = .success ∧ r.hdr.answers got.hdr := by
  unfold waitAck at hdone
  dsimp only at hdone
  split at hdone
  case h_1 => split at hdone <;> simp at hdone
  case h_2 hrc =>
    split at hdone
    · simp at hdone
    · next hours =>
      split at hdone
      · simp at hdone
      · cases hdone
        exact ⟨hrc, not_not.mp hours⟩
  case h_3 => split at hdone <;> simp at hdone
  case h_4 => simp_all

theorem waitAck_success {got : Received}
    (hdone : waitAck t q r ack resp expired = (got, .done .success)) :
    ∃ m ∈ q.pending t.ackSlots, r.hdr.answers m.hdr ∧
      (List.range (got.hdr.datalen.toNat / 4)).map got.data = m.payload := by
  obtain ⟨hrc, hours⟩ := waitAck_done hdone
  have hgot : got = shmemRecv t t.ackSlots q ack resp r.call.max := by
    rw [← @waitAck_fst t q r ack resp expired, hdone]
  rcases shmemRecv_cases t t.ackSlots q ack resp r.call.max with
    ⟨-, hne⟩ | ⟨hrange, hsome, -, hhdr, hdata⟩
  · exact absurd (hgot ▸ hrc) hne
  · rw [← hgot] at hhdr hdata
    refine ⟨q.slot q.head, ?_, hhdr ▸ hours, ?_⟩
    · rw [SharedQueue.pending_drop hrange hsome]
      exact List.mem_cons_self
    · unfold Msg.payload
      rw [← hhdr]
      apply List.map_congr_left
      intro i hi
      exact hdata hrc i (List.mem_range.mp hi)

end Rounds

/-! ### The invariant -/

/-- The tokens are the numbers of the requests, as far as 16 bits go. -/
structure Sys.Counted (s : Sys) : Prop where
  next : s.nextToken = BitVec.ofNat 16 s.issued
  slots : ∀ i k, s.origin i = some k →
    k < s.issued ∧ (s.req.slot i).hdr.token = BitVec.ofNat 16 k
  held : ∀ x ∈ s.held, ∀ k, x.serial = some k →
    k < s.issued ∧ x.hdr.token = BitVec.ofNat 16 k
  later : ∀ k, s.issued ≤ k → s.given k = none

structure Sys.Latest (s : Sys) (r : Request) : Prop where
  serial : r.serial + 1 = s.issued
  token : r.hdr.token = BitVec.ofNat 16 r.serial

structure Sys.Alone (t : Transport) (s : Sys) (r : Request) : Prop where
  queued : ∀ m ∈ s.ack.pending t.ackSlots, r.hdr.answers m.hdr → s.given r.serial = some m
  held : ∀ x ∈ s.held, x.serial = none → ¬ r.hdr.names x.hdr
  left : ∀ i ∈ s.req.used t.reqSlots, s.origin i = none → ¬ r.hdr.names (s.req.slot i).hdr

def Sys.InFlight (t : Transport) (s : Sys) : Phase → Prop
  | .idle => True
  | .sending r => s.Latest r ∧ (r.call.posted = false → s.Alone t r)
  | .waiting r _ _ => s.Latest r ∧ s.Alone t r

structure Sys.Safe (t : Transport) (s : Sys) : Prop where
  counted : s.Counted
  inFlight : s.InFlight t s.phase
  own : s.OwnAnswers

variable {u : Sys}

/-- What changes the requests and the acknowledgements only so far as it keeps `Alone` keeps what
    is known of the request in flight. -/
theorem Sys.InFlight.mono {t : Transport} {s : Sys} {p : Phase} (hp : s.InFlight t p)
    (hissued : u.issued = s.issued) (halone : ∀ r, s.Latest r → s.Alone t r → u.Alone t r) :
    u.InFlight t p := by
  have hlatest : ∀ r, s.Latest r → u.Latest r := fun r hr => ⟨hissued ▸ hr.serial, hr.token⟩
  cases p with
  | idle => trivial
  | sending r => exact ⟨hlatest r hp.1, fun hnormal => halone r hp.1 (hp.2 hnormal)⟩
  | waiting r ack resp => exact ⟨hlatest r hp.1, halone r hp.1 hp.2⟩

theorem Sys.Safe.boot (t : Transport) (req ack : Queue) (held : List Hdr) :
    (boot req ack held).Safe t := by
  constructor
  · constructor
    · rfl
    · intro i k hk
      cases hk
    · intro x hx k hk
      obtain ⟨h, -, rfl⟩ := List.mem_map.mp hx
      cases hk
    · intro k _
      rfl
  · trivial
  · intro r hr
    cases hr

variable {r : Request} {m : Msg}

section Steps

variable {t : Transport} {s : Sys}

theorem Sys.OwnAnswers.finish_none (hs : s.OwnAnswers) (serial : Option Nat) (rc : Rc) :
    (s.finish serial rc none).OwnAnswers := by
  intro r hr data hdata
  rcases List.mem_append.mp hr with hr | hr
  · exact hs r hr data hdata
  · cases List.mem_singleton.mp hr
    cases hdata

theorem Sys.Safe.finish_none (hs : s.Safe t) (serial : Option Nat) (rc : Rc) :
    (s.finish serial rc none).Safe t :=
  ⟨⟨hs.counted.next, hs.counted.slots, hs.counted.held, hs.counted.later⟩, trivial,
    hs.own.finish_none serial rc⟩

theorem Sys.Safe.call (hs : s.Safe t) {c : Call} (hfresh : (Act.call c).fresh t s) :
    (s.call t c).Safe t := by
  unfold Sys.call
  split
  · constructor
    · constructor
      · simp only [hs.counted.next, BitVec.ofNat_add]
        rfl
      · intro i k hk
        obtain ⟨hlt, htoken⟩ := hs.counted.slots i k hk
        exact ⟨hlt.trans (Nat.lt_succ_self _), htoken⟩
      · intro x hx k hk
        obtain ⟨hlt, htoken⟩ := hs.counted.held x hx k hk
        exact ⟨hlt.trans (Nat.lt_succ_self _), htoken⟩
      · intro k hk
        exact hs.counted.later k (Nat.le_of_succ_le hk)
    · refine ⟨⟨rfl, hs.counted.next⟩, ?_⟩
      intro hnormal
      have hclear := hfresh hnormal
      exact ⟨fun m hm hmatch => absurd hmatch (hclear.queued m hm), hclear.held, hclear.left⟩
    · exact hs.own
  · exact hs.finish_none none _

theorem Sys.Safe.sent (hs : s.Safe t) (hphase : s.phase = .sending r)
    (hrange : s.req.InRange t.reqSlots) (hroom : (s.req.tail + 1) % t.reqSlots ≠ s.req.head) :
    (s.sent r
      (s.req.put t.reqSlots (message r.hdr r.call.req (s.req.slot s.req.tail)))).Safe t := by
  have hflight := hs.inFlight
  rw [hphase] at hflight
  obtain ⟨hlatest, halone⟩ := hflight
  have hcounted : ∀ p, ({ s with
      req := s.req.put t.reqSlots (message r.hdr r.call.req (s.req.slot s.req.tail))
      origin := update s.origin s.req.tail (some r.serial)
      phase := p } : Sys).Counted := by
    intro p
    refine ⟨hs.counted.next, ?_, hs.counted.held, hs.counted.later⟩
    intro i k hk
    dsimp only [SharedQueue.put] at hk ⊢
    by_cases hi : i = s.req.tail
    · subst hi
      rw [update_self] at hk ⊢
      cases hk
      rw [hdr_message]
      exact ⟨by have := hlatest.serial; omega, hlatest.token⟩
    · rw [update_of_ne hi] at hk ⊢
      exact hs.counted.slots i k hk
  unfold Sys.sent
  dsimp only
  split
  · next hposted =>
    refine ⟨?_, trivial, hs.own.finish_none _ _⟩
    obtain ⟨h₁, h₂, h₃, h₄⟩ := hcounted .idle
    exact ⟨h₁, h₂, h₃, h₄⟩
  · next hnormal =>
    have hr := halone (Bool.eq_false_iff.mpr hnormal)
    refine ⟨hcounted _, ⟨⟨hlatest.serial, hlatest.token⟩, hr.queued, hr.held, ?_⟩, hs.own⟩
    intro i hi hnone
    dsimp only at hi hnone ⊢
    rw [SharedQueue.used_put hrange hroom] at hi
    by_cases htail : i = s.req.tail
    · subst htail
      rw [update_self] at hnone
      cases hnone
    · rw [update_of_ne htail] at hnone
      have hold : i ∈ s.req.used t.reqSlots := by simpa [htail] using hi
      dsimp only [SharedQueue.put]
      rw [update_of_ne htail]
      exact hr.left i hold hnone

theorem Sys.Safe.send (hs : s.Safe t) (hphase : s.phase = .sending r) (expired : Bool) :
    (s.send t r expired).Safe t := by
  unfold Sys.send
  split
  · exact hs
  · next q hsent =>
    obtain ⟨hrange, hroom, rfl⟩ := sendLocked_success hsent
    exact hs.sent hphase hrange hroom
  · exact hs.finish_none _ _

theorem Sys.Safe.poll (hs : s.Safe t) {ack : Hdr} {resp : Msg}
    (hphase : s.phase = .waiting r ack resp) (expired : Bool) :
    (s.poll t r ack resp expired).Safe t := by
  have hflight := hs.inFlight
  rw [hphase] at hflight
  obtain ⟨hlatest, halone⟩ := hflight
  have hsubset := @waitAck_pending t s.ack r ack resp expired
  have hcounted := hs.counted
  unfold Sys.poll
  cases hround : waitAck t s.ack r ack resp expired with
  | mk got turn =>
    rw [hround] at hsubset
    dsimp only
    split
    · refine ⟨⟨hcounted.next, hcounted.slots, hcounted.held, hcounted.later⟩,
        ⟨⟨hlatest.serial, hlatest.token⟩, ?_, halone.held, halone.left⟩, hs.own⟩
      intro m hm hmatch
      exact halone.queued m (hsubset hm) hmatch
    · refine ⟨⟨hcounted.next, hcounted.slots, hcounted.held, hcounted.later⟩, trivial, ?_⟩
      intro x hx data hdata
      rcases List.mem_append.mp hx with hx | hx
      · exact hs.own x hx data hdata
      · cases List.mem_singleton.mp hx
        cases hdata
        obtain ⟨m, hm, hmatch, hpayload⟩ := waitAck_success hround
        exact ⟨r.serial, m, rfl, halone.queued m hm hmatch, hpayload⟩
    · refine ⟨⟨hcounted.next, hcounted.slots, hcounted.held, hcounted.later⟩, trivial, ?_⟩
      exact hs.own.finish_none _ _

theorem Sys.Safe.take (hs : s.Safe t) (hrange : s.req.InRange t.reqSlots)
    (hsome : s.req.head ≠ s.req.tail) :
    ({ s with
      req := s.req.drop t.reqSlots
      held := s.held ++ [⟨s.origin s.req.head, (s.req.slot s.req.head).hdr⟩] } : Sys).Safe t := by
  have hused := SharedQueue.used_drop hrange hsome
  refine ⟨⟨hs.counted.next, hs.counted.slots, ?_, hs.counted.later⟩, ?_, hs.own⟩
  · intro x hx k hk
    rcases List.mem_append.mp hx with hx | hx
    · exact hs.counted.held x hx k hk
    · cases List.mem_singleton.mp hx
      exact hs.counted.slots _ k hk
  · refine hs.inFlight.mono rfl ?_
    intro r _ halone
    refine ⟨halone.queued, ?_, ?_⟩
    · intro x hx hnone
      rcases List.mem_append.mp hx with hx | hx
      · exact halone.held x hx hnone
      · cases List.mem_singleton.mp hx
        exact halone.left _ (hused ▸ List.mem_cons_self) hnone
    · intro i hi hnone
      exact halone.left i (hused ▸ List.mem_cons_of_mem _ hi) hnone

/-- Two requests less than 65536 apart have two tokens. -/
theorem token_ne {j k : Nat} (hjk : j < k) (hk : k < j + 65536) :
    BitVec.ofNat 16 j ≠ BitVec.ofNat 16 k := by
  intro heq
  have hmod := congrArg BitVec.toNat heq
  simp only [BitVec.toNat_ofNat] at hmod
  omega

/-- What comes into the acknowledgement queue is the answer to `r`, or does not match it. -/
theorem Sys.Alone.put (halone : s.Alone t r) (hroom : s.room t)
    (hack : u.ack = s.ack.put t.ackSlots m) (hreq : u.req = s.req) (horigin : u.origin = s.origin)
    (hheld : ∀ x ∈ u.held, x ∈ s.held)
    (hgiven : ∀ a, s.given r.serial = some a → u.given r.serial = some a)
    (hm : r.hdr.answers m.hdr → u.given r.serial = some m) : u.Alone t r := by
  refine ⟨?_, fun x hx => halone.held x (hheld x hx), ?_⟩
  · intro a ha hmatch
    rw [hack, SharedQueue.pending_put hroom.1 hroom.2] at ha
    rcases List.mem_append.mp ha with ha | ha
    · exact hgiven a (halone.queued a ha hmatch)
    · cases List.mem_singleton.mp ha
      exact hm hmatch
  · rw [hreq, horigin]
    exact halone.left

theorem Sys.Alone.answers_held {x : Held} (hcounted : s.Counted) (hlatest : s.Latest r)
    (halone : s.Alone t r) (hx : x ∈ s.held) (hdue : s.due x) (hx' : x.hdr.answers m.hdr)
    (hr : r.hdr.answers m.hdr) : x.serial = some r.serial := by
  have htoken : r.hdr.token = x.hdr.token := hr.1.symm.trans hx'.1
  cases hserial : x.serial with
  | none =>
    -- An earlier firmware's request: none of those that are left has these names.
    refine absurd ⟨htoken.symm, ?_, ?_⟩ (halone.held x hx hserial)
    · exact hx'.2.1.symm.trans hr.2.1
    · exact hx'.2.2.1.symm.trans hr.2.2.1
  | some j =>
    obtain ⟨hlt, hj⟩ := hcounted.held x hx j hserial
    obtain ⟨-, hbound⟩ := hdue.2 j hserial
    have hlast := hlatest.serial
    by_contra hne
    have hjr : j ≠ r.serial := fun heq => hne (congrArg some heq)
    refine token_ne (show j < r.serial by omega) (by omega) ?_
    rw [← hj, ← htoken, hlatest.token]

theorem Sys.given_acknowledge (i : Nat) (x : Held) (m : Msg) (k : Nat) :
    (s.acknowledge t i x m).given k = if x.serial = some k then some m else s.given k := by
  unfold Sys.acknowledge
  dsimp only
  cases x.serial with
  | none => rfl
  | some j =>
    by_cases hk : k = j
    · simp [hk]
    · simp [update_of_ne hk, Ne.symm hk]

theorem Sys.Safe.acknowledge (hs : s.Safe t) {i : Nat} {x : Held} (hx : x ∈ s.held)
    (hroom : s.room t) (hdue : s.due x) (hmatch : x.hdr.answers m.hdr) :
    (s.acknowledge t i x m).Safe t := by
  have hsubset : ∀ y ∈ s.held.eraseIdx i, y ∈ s.held := fun y hy => List.mem_of_mem_eraseIdx hy
  -- What has been given stays given: it is not given twice.
  have hgiven : ∀ k a, s.given k = some a → (s.acknowledge t i x m).given k = some a := by
    intro k a hk
    rw [Sys.given_acknowledge, if_neg]
    · exact hk
    · intro hserial
      have hnone := Option.isNone_iff_eq_none.mp (hdue.2 k hserial).1
      rw [hnone] at hk
      cases hk
  constructor
  · refine ⟨hs.counted.next, hs.counted.slots, fun y hy => hs.counted.held y (hsubset y hy), ?_⟩
    intro k hk
    rw [Sys.given_acknowledge, if_neg]
    · exact hs.counted.later k hk
    · intro hserial
      exact Nat.not_lt_of_le hk (hs.counted.held x hx k hserial).1
  · refine hs.inFlight.mono rfl ?_
    intro r hlatest halone
    refine halone.put hroom rfl rfl rfl hsubset (hgiven r.serial) ?_
    intro hr
    have hserial := halone.answers_held hs.counted hlatest hx hdue hmatch hr
    rw [Sys.given_acknowledge, if_pos hserial]
  · intro r hr data hdata
    obtain ⟨k, a, hserial, hk, hpayload⟩ := hs.own r hr data hdata
    exact ⟨k, a, hserial, hgiven k a hk, hpayload⟩

theorem Sys.Safe.stray (hs : s.Safe t) (hroom : s.room t) (hm : ¬ m.hdr.is .acknowledgement) :
    ({ s with ack := s.ack.put t.ackSlots m } : Sys).Safe t := by
  refine ⟨⟨hs.counted.next, hs.counted.slots, hs.counted.held, hs.counted.later⟩, ?_, hs.own⟩
  refine hs.inFlight.mono rfl ?_
  intro r _ halone
  refine halone.put hroom rfl rfl rfl (fun x hx => hx) (fun a ha => ha) ?_
  intro hr
  exact absurd hr.2.2.2 hm

theorem Sys.Safe.step (hs : s.Safe t) {a : Act} (hfresh : a.fresh t s)
    (hstep : Rpmi.step t s a = some u) : u.Safe t := by
  unfold Rpmi.step at hstep
  split at hstep
  all_goals repeat' first | cases hstep | split at hstep
  · exact hs.call hfresh
  · next hphase => exact hs.send hphase _
  · next hphase => exact hs.poll hphase _
  · next hsome => exact hs.take hsome.1 hsome.2
  · next hx hok => exact hs.acknowledge (List.mem_of_getElem? hx) hok.1 hok.2.1 hok.2.2
  · next hok => exact hs.stray hok.1 hok.2

end Steps

/-- Whatever the queues hold at boot and whatever the PuC still has to answer: as long as normal
    requests take their tokens when nothing matches them, every response is the answer to its
    request. -/
theorem run_ownAnswers {t : Transport} {req ack : Queue} {held : List Hdr} {acts : List Act}
    {s : Sys}
    (halong : Runs.Along (step t) (fun s a => a.fresh t s) (boot req ack held) acts)
    (hrun : Runs.run (step t) (boot req ack held) acts = some s) : s.OwnAnswers := by
  have hsafe : s.Safe t := by
    apply halong.invariant _ (Sys.Safe.boot t req ack held) hrun
    intro s a u hs hfresh hstep
    exact hs.step hfresh hstep
  exact hsafe.own

def small : Transport := ⟨64, 3, 3, 248⟩

/-- `BASE_GET_IMPL_VERSION`, or a posted request of the same service. -/
def getVersion (posted : Bool) : Call := ⟨posted, 1, 2, fun _ => 0, 0, fun _ => 0, 8⟩

/-- An acknowledgement of it with SUCCESS and a value. -/
def version (token : BitVec 16) (value : BitVec 32) : Msg :=
  message ⟨1, 2, 2, 8, token⟩ (fun i => if i = 1 then value else 0) fun _ => 0

def emptyQueue : Queue := ⟨0, 0, fun _ _ => 0⟩

/-- The first queue after the PuC of an earlier boot has answered into it. -/
def leftover (token : BitVec 16) : Queue := emptyQueue.put 3 (version token 0x10000)

/-- A leftover of token 9 is dropped, a timeout and a posted request pass, and a late answer is
    dropped while the third request waits. -/
def latecomer : List Act :=
  [.call (getVersion false), .send false, .poll false, .poll true,
   .call (getVersion true), .send false,
   .call (getVersion false), .take, .acknowledge 0 (version 0 0x20000), .send false,
   .take, .take, .acknowledge 1 (version 2 0x30000), .poll false, .poll false]

theorem run_ownAnswers_latecomer :
    ∃ s, Runs.run (step small) (boot emptyQueue (leftover 9) []) latecomer = some s ∧
      s.results.map Result.resp = [none, none, some [0, 0x30000]] ∧ s.OwnAnswers := by
  have halong : Runs.Along (step small) (fun s a => a.fresh small s)
      (boot emptyQueue (leftover 9) []) latecomer := by
    decide +kernel
  exact ⟨_, rfl, by decide +kernel, run_ownAnswers halong rfl⟩

/-- The first request after a boot has token 0 again, and takes what an earlier firmware's first
    request has left for its own answer; the PuC has not even seen it. -/
theorem leftover_taken_for_answer :
    ∃ s ∈ Runs.run (step small) (boot emptyQueue (leftover 0) [])
        [.call (getVersion false), .send false, .poll false],
      s.held.length = 0 ∧ s.given 0 = none ∧
        s.results.map (fun r => (r.serial, r.rc, r.resp)) =
          [(some 0, .success, some [0, 0x10000])] ∧ ¬ s.OwnAnswers := by
  refine ⟨_, rfl, by decide +kernel, rfl, by decide +kernel, ?_⟩
  intro hown
  obtain ⟨k, m, hk, hgiven, -⟩ := hown _ (List.mem_singleton_self _) _ rfl
  cases hgiven

end RiscvMonitor.Rpmi
