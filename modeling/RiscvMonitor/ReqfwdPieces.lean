import RiscvMonitor.Reqfwd

/-!
# Whose request is answered

The current message is the head of the queue, and it changes when a producer gives up
or a hart completes it; a hart in the middle of a message then goes on with the middle
of another one.  As long as that does not happen, and the first piece that is retrieved
of a message is its first, a reading is of one message and an answer is to what was
read.
-/

namespace RiscvMonitor.Reqfwd

open Function (update update_of_ne update_self)
open Rpmi (Rc)

variable {n : Nat}

/-- What a hart has read to the end are the pieces of one message, and all of it. -/
def Sys.WholeReadings (s : Sys n) : Prop :=
  ∀ r ∈ s.read, ∃ id, (∀ p ∈ r.pieces, p.id = id) ∧ r.bytes = (s.message id).msg

/-- What a producer gets as the response is the data of a complete that was made after its message
    had been retrieved from its beginning. -/
def Sys.OwnResponses (s : Sys n) : Prop :=
  ∀ a ∈ s.answers, a.rc = .success →
    ∃ c ∈ s.completed, c.id = a.id ∧ c.rsp = a.rsp ∧ c.begun = true

def Sys.Idle (s : Sys n) (id : Nat) : Prop := ∀ h, ∀ r ∈ s.reading h, r.id ≠ id

instance (s : Sys n) (id : Nat) : Decidable (s.Idle id) :=
  inferInstanceAs (Decidable (∀ h, ∀ r ∈ s.reading h, r.id ≠ id))

/-- A message leaves the queue while no hart is in the middle of it, and a retrieve from further
    on finds one that has been retrieved. -/
def Act.orderly (s : Sys n) : Act n → Prop
  | .timeout id => s.Idle id
  | .complete _ _ => ∀ m ∈ s.queue.head?, s.Idle m
  | .retrieve _ _ start => 0 < start → ∀ m ∈ s.queue.head?, (s.message m).state = .retrieved
  | _ => True

instance (s : Sys n) : (a : Act n) → Decidable (a.orderly s)
  | .timeout id => inferInstanceAs (Decidable (s.Idle id))
  | .complete _ _ => inferInstanceAs (Decidable (∀ m ∈ s.queue.head?, s.Idle m))
  | .retrieve _ _ start =>
    inferInstanceAs
      (Decidable (0 < start → ∀ m ∈ s.queue.head?, (s.message m).state = .retrieved))
  | .send _ _ | .poll _ => inferInstanceAs (Decidable True)

/-! ### The invariant -/

structure Sys.Follows (s : Sys n) (r : Reading) : Prop where
  current : s.queue.head? = some r.id
  one : ∀ p ∈ r.pieces, p.id = r.id
  next : r.bytes = (s.message r.id).msg.take r.next
  inside : r.next ≤ (s.message r.id).msg.length

structure Sys.Safe (s : Sys n) : Prop where
  known : ∀ id ∈ s.queue, id < s.next
  nodup : s.queue.Nodup
  begun : ∀ id ∈ s.queue, (s.message id).state = .retrieved → s.begun id = true
  follows : ∀ h r, s.reading h = some r → s.Follows r
  read : ∀ r ∈ s.read, ∃ id < s.next,
    (∀ p ∈ r.pieces, p.id = id) ∧ r.bytes = (s.message id).msg
  done : ∀ id < s.next, (s.message id).state = .completed →
    ∃ c ∈ s.completed, c.id = id ∧ c.rsp = (s.message id).rsp ∧ c.begun = true
  waiting : ∀ id, s.waiting id = true → id < s.next
  own : s.OwnResponses

theorem Sys.Safe.boot : (boot : Sys n).Safe := by
  constructor
  · intro id hid
    cases hid
  · exact List.nodup_nil
  · intro id hid
    cases hid
  · intro h r hr
    cases hr
  · intro r hr
    cases hr
  · intro id hid
    exact absurd hid (Nat.not_lt_zero id)
  · intro id hid
    cases hid
  · intro a ha
    cases ha

variable {r : Reading} {id m : Nat} {hart : Fin n}

section Steps

variable {s : Sys n}

theorem Sys.Follows.congr {t : Sys n} (hr : s.Follows r) (hcurrent : t.queue.head? = some r.id)
    (hmsg : (t.message r.id).msg = (s.message r.id).msg) : t.Follows r :=
  ⟨hcurrent, hr.one, hmsg ▸ hr.next, hmsg ▸ hr.inside⟩

theorem Sys.Safe.reply (hs : s.Safe) (hart : Fin n) (r : Reply) : (s.reply hart r).Safe := by
  refine ⟨hs.known, hs.nodup, hs.begun, ?_, hs.read, hs.done, hs.waiting, hs.own⟩
  intro h r hr
  exact (hs.follows h r hr).congr (hs.follows h r hr).current rfl

/-! ### The producer's steps -/

theorem Sys.Safe.send (hs : s.Safe) (msg : List Byte) (rspMax : Nat) :
    (s.send msg rspMax).Safe := by
  have hold : ∀ id < s.next, (s.send msg rspMax).message id = s.message id :=
    fun id hid => update_of_ne (Nat.ne_of_lt hid) _ _
  have hnew : (s.send msg rspMax).message s.next = ⟨.queued, msg, rspMax, []⟩ :=
    update_self ..
  refine ⟨?_, ?_, ?_, ?_, ?_, ?_, ?_, hs.own⟩
  · intro id hid
    rcases List.mem_append.mp hid with hid | hid
    · exact (hs.known id hid).trans (Nat.lt_succ_self _)
    · cases List.mem_singleton.mp hid
      exact Nat.lt_succ_self _
  · refine List.nodup_append.mpr ⟨hs.nodup, List.nodup_singleton _, ?_⟩
    intro a ha b hb
    cases List.mem_singleton.mp hb
    exact Nat.ne_of_lt (hs.known a ha)
  · intro id hid hstate
    rcases List.mem_append.mp hid with hid | hid
    · rw [hold id (hs.known id hid)] at hstate
      exact hs.begun id hid hstate
    · cases List.mem_singleton.mp hid
      rw [hnew] at hstate
      cases hstate
  · intro h r hr
    have hcurrent := (hs.follows h r hr).current
    apply (hs.follows h r hr).congr
    · simp [Sys.send, List.head?_append, hcurrent]
    · rw [hold r.id (hs.known r.id (List.mem_of_head? hcurrent))]
  · intro r hr
    obtain ⟨id, hid, hpieces⟩ := hs.read r hr
    refine ⟨id, hid.trans (Nat.lt_succ_self _), ?_⟩
    rw [hold id hid]
    exact hpieces
  · intro id hid hstate
    rcases Nat.lt_succ_iff_lt_or_eq.mp hid with hlt | rfl
    · rw [hold id hlt] at hstate ⊢
      exact hs.done id hlt hstate
    · rw [hnew] at hstate
      cases hstate
  · intro id hid
    by_cases heq : id = s.next
    · rw [heq]
      exact Nat.lt_succ_self _
    · have hwaiting : s.waiting id = true := by
        simpa [Sys.send, update_of_ne heq] using hid
      exact (hs.waiting id hwaiting).trans (Nat.lt_succ_self _)

theorem Sys.Safe.answer (hs : s.Safe) {rc : Rc} {rsp : List Byte}
    (hrsp : rc = .success → ∃ c ∈ s.completed, c.id = id ∧ c.rsp = rsp ∧ c.begun = true) :
    (s.answer id rc rsp).Safe := by
  refine ⟨hs.known, hs.nodup, hs.begun, ?_, hs.read, hs.done, ?_, ?_⟩
  · intro h r hr
    exact (hs.follows h r hr).congr (hs.follows h r hr).current rfl
  · intro k hk
    by_cases heq : k = id
    · rw [heq] at hk
      simp [Sys.answer] at hk
    · exact hs.waiting k (by simpa [Sys.answer, update_of_ne heq] using hk)
  · intro a ha hsuccess
    rcases List.mem_append.mp ha with ha | ha
    · exact hs.own a ha hsuccess
    · cases List.mem_singleton.mp ha
      exact hrsp hsuccess

theorem Sys.Safe.finish (hs : s.Safe) (hid : id < s.next) : (s.finish id).Safe := by
  unfold Sys.finish
  apply hs.answer
  intro hsuccess
  split_ifs at hsuccess with hstate
  exact hs.done id hid hstate

theorem Sys.Safe.erase (hs : s.Safe) (hidle : s.Idle id) :
    ({ s with queue := s.queue.erase id } : Sys n).Safe := by
  have hsub : s.queue.erase id ⊆ s.queue := List.erase_subset
  refine ⟨fun k hk => hs.known k (hsub hk), hs.nodup.erase id, fun k hk => hs.begun k (hsub hk), ?_,
    hs.read, hs.done, hs.waiting, hs.own⟩
  intro h r hr
  have hcurrent := (hs.follows h r hr).current
  have hne : r.id ≠ id := hidle h r hr
  refine (hs.follows h r hr).congr ?_ rfl
  cases hqueue : s.queue with
  | nil =>
    rw [hqueue] at hcurrent
    cases hcurrent
  | cons m rest =>
    rw [hqueue] at hcurrent
    cases hcurrent
    simp [hne]

/-! ### The target's steps -/

theorem Reading.extend_eq {old : Option Reading} {p : Piece} (h : Reading.extend old p = some r) :
    r.id = p.id ∧ r.next = p.start + p.bytes.length ∧
      (p.start = 0 ∧ r.pieces = [p] ∨
        ∃ o, old = some o ∧ p.start = o.next ∧ r.pieces = o.pieces ++ [p]) := by
  unfold Reading.extend at h
  split at h
  · next hstart =>
    cases h
    exact ⟨rfl, by rw [hstart, Nat.zero_add], .inl ⟨hstart, rfl⟩⟩
  · split at h
    · cases h
    · next o =>
      split at h
      · next hstart =>
        cases h
        exact ⟨rfl, rfl, .inr ⟨o, rfl, hstart, rfl⟩⟩
      · cases h

theorem Sys.Follows.extend (hs : s.Safe) {start max : Nat} (hcurrent : s.queue.head? = some m)
    (hstart : start ≤ (s.message m).msg.length) (hr : Reading.extend (s.reading hart)
      ⟨m, start, ((s.message m).msg.drop start).take max⟩ = some r) : s.Follows r := by
  obtain ⟨hid, hnext, hpieces⟩ := Reading.extend_eq hr
  dsimp only at hid hnext hpieces
  have hinside : r.next ≤ (s.message r.id).msg.length := by
    rw [hnext, hid, List.length_take, List.length_drop]
    omega
  have htake : (s.message m).msg.take start ++ ((s.message m).msg.drop start).take max =
      (s.message m).msg.take r.next := by
    rw [hnext, List.take_add, List.length_take, ← List.take_eq_take_min]
  rcases hpieces with ⟨h0, hpieces⟩ | ⟨o, ho, h0, hpieces⟩
  · refine ⟨by rw [hid, hcurrent], ?_, ?_, hinside⟩
    · intro p hp
      rw [hpieces] at hp
      cases List.mem_singleton.mp hp
      exact hid.symm
    · rw [hid, ← htake, h0, Reading.bytes, hpieces]
      simp [h0]
  · obtain ⟨hocurrent, hone, honext, -⟩ := hs.follows hart o ho
    have hsame : o.id = m := Option.some.inj (hocurrent.symm.trans hcurrent)
    refine ⟨by rw [hid, hcurrent], ?_, ?_, hinside⟩
    · intro p hp
      rw [hpieces] at hp
      rcases List.mem_append.mp hp with hp | hp
      · rw [hone p hp, hsame, hid]
      · cases List.mem_singleton.mp hp
        exact hid.symm
    · have hbytes : r.bytes = o.bytes ++ ((s.message m).msg.drop start).take max := by
        simp [Reading.bytes, hpieces]
      rw [hbytes, honext, hsame, hid, ← htake, h0]

theorem Sys.setState_msg (m : Nat) (st : MsgState) (id : Nat) :
    ((s.setState m st).message id).msg = (s.message id).msg := by
  unfold Sys.setState
  dsimp only
  by_cases hid : id = m
  · rw [hid, update_self]
  · rw [update_of_ne hid]

theorem Sys.setState_of_ne (st : MsgState) (hid : id ≠ m) :
    (s.setState m st).message id = s.message id :=
  update_of_ne hid _ _

theorem Sys.setState_self (m : Nat) (st : MsgState) :
    ((s.setState m st).message m).state = st := by
  simp [Sys.setState]

section

variable (hs : s.Safe)
include hs

/-- The current message has been retrieved, from its beginning if it is for the first time. -/
theorem Sys.Safe.setRetrieved (hm : s.begun m = true) : (s.setState m .retrieved).Safe := by
  refine ⟨hs.known, hs.nodup, ?_, ?_, ?_, ?_, hs.waiting, hs.own⟩
  · intro id hid hstate
    by_cases heq : id = m
    · rw [heq]
      exact hm
    · rw [Sys.setState_of_ne _ heq] at hstate
      exact hs.begun id hid hstate
  · intro h r hr
    exact (hs.follows h r hr).congr (hs.follows h r hr).current (Sys.setState_msg ..)
  · intro r hr
    obtain ⟨id, hid, hone, hbytes⟩ := hs.read r hr
    refine ⟨id, hid, hone, ?_⟩
    rw [Sys.setState_msg]
    exact hbytes
  · intro id hid hstate
    by_cases heq : id = m
    · rw [heq, Sys.setState_self] at hstate
      cases hstate
    · rw [Sys.setState_of_ne _ heq] at hstate ⊢
      exact hs.done id hid hstate

theorem Sys.Safe.setBegun (m : Nat) : ({ s with begun := update s.begun m true } : Sys n).Safe := by
  refine ⟨hs.known, hs.nodup, ?_, ?_, hs.read, hs.done, hs.waiting, hs.own⟩
  · intro id hid hstate
    dsimp only
    by_cases heq : id = m
    · rw [heq, update_self]
    · rw [update_of_ne heq]
      exact hs.begun id hid hstate
  · intro h r hr
    exact (hs.follows h r hr).congr (hs.follows h r hr).current rfl

theorem Sys.Safe.setReading (hart : Fin n) (r : Option Reading) (ended : Prop) [Decidable ended]
    (hfollows : ∀ o ∈ r, s.Follows o)
    (hended : ended → ∀ o ∈ r, o.next = (s.message o.id).msg.length) :
    ({ s with
      reading := update s.reading hart (if ended then none else r)
      read := if ended then s.read ++ r.toList else s.read } : Sys n).Safe := by
  refine ⟨hs.known, hs.nodup, hs.begun, ?_, ?_, hs.done, hs.waiting, hs.own⟩
  · intro h o ho
    have hold : s.Follows o := by
      dsimp only at ho
      by_cases heq : h = hart
      · rw [heq, update_self] at ho
        split_ifs at ho
        exact hfollows o ho
      · rw [update_of_ne heq] at ho
        exact hs.follows h o ho
    exact hold.congr hold.current rfl
  · intro o ho
    dsimp only at ho
    split at ho
    · next hend =>
      rcases List.mem_append.mp ho with ho | ho
      · exact hs.read o ho
      · have hr : o ∈ r := Option.mem_toList.mp ho
        obtain ⟨hcurrent, hone, hnext, -⟩ := hfollows o hr
        refine ⟨o.id, hs.known o.id (List.mem_of_head? hcurrent), hone, ?_⟩
        rw [hnext, hended hend o hr, List.take_length]
    · exact hs.read o ho

theorem Sys.Safe.retrieve {start max : Nat}
    (horderly : 0 < start → ∀ m ∈ s.queue.head?, (s.message m).state = .retrieved) :
    (s.retrieve hart start max).Safe := by
  unfold Sys.retrieve
  split
  · exact hs.reply _ _
  · next m rest hqueue =>
    have hcurrent : s.queue.head? = some m := by rw [hqueue]; rfl
    dsimp only
    split
    · exact hs.reply _ _
    · next hlt =>
      apply Sys.Safe.reply
      have hstart : start ≤ (s.message m).msg.length := Nat.le_of_not_le hlt
      have hfollows : ∀ r ∈ Reading.extend (s.reading hart)
          ⟨m, start, ((s.message m).msg.drop start).take max⟩, s.Follows r :=
        fun r hr => Sys.Follows.extend hs hcurrent hstart hr
      -- The message counts as retrieved from here on, and it is so from its beginning.
      have hretrieved : ({ s with
          begun := if start = 0 then update s.begun m true else s.begun } : Sys n).Safe ∧
          (if start = 0 then update s.begun m true else s.begun) m = true := by
        split
        · exact ⟨hs.setBegun m, update_self ..⟩
        · next hne =>
          have hstate := horderly (Nat.pos_of_ne_zero hne) m hcurrent
          exact ⟨hs, hs.begun m (List.mem_of_head? hcurrent) hstate⟩
      have hset := hretrieved.1.setRetrieved hretrieved.2
      have hread := hset.setReading hart (Reading.extend (s.reading hart)
          ⟨m, start, ((s.message m).msg.drop start).take max⟩)
        ((s.message m).msg.length - start -
          (((s.message m).msg.drop start).take max).length = 0) ?_ ?_
      · exact hread
      · intro r hr
        exact (hfollows r hr).congr (hfollows r hr).current (Sys.setState_msg ..)
      · intro hend r hr
        obtain ⟨hid, hnext, -⟩ := Reading.extend_eq hr
        dsimp only at hid hnext
        rw [Sys.setState_msg, hnext, hid]
        dsimp only
        have hle := List.length_take_le' max ((s.message m).msg.drop start)
        rw [List.length_drop] at hle
        omega

theorem Sys.Safe.setDone {f : Message} {d : List Completion} (hm : m ∉ s.queue)
    (hmsg : f.msg = (s.message m).msg) (hmono : ∀ c ∈ s.completed, c ∈ d)
    (hf : f.state = .completed → ∃ c ∈ d, c.id = m ∧ c.rsp = f.rsp ∧ c.begun = true) :
    ({ s with message := update s.message m f, completed := d } : Sys n).Safe := by
  have hsame : ∀ id, (update s.message m f id).msg = (s.message id).msg := by
    intro id
    by_cases hid : id = m
    · rw [hid, update_self, hmsg]
    · rw [update_of_ne hid]
  refine ⟨hs.known, hs.nodup, ?_, ?_, ?_, ?_, hs.waiting, ?_⟩
  · intro id hid hstate
    have hne : id ≠ m := ne_of_mem_of_not_mem hid hm
    dsimp only at hstate
    rw [update_of_ne hne] at hstate
    exact hs.begun id hid hstate
  · intro h r hr
    exact (hs.follows h r hr).congr (hs.follows h r hr).current (hsame r.id)
  · intro r hr
    obtain ⟨id, hid, hone, hbytes⟩ := hs.read r hr
    exact ⟨id, hid, hone, hbytes.trans (hsame id).symm⟩
  · intro id hid hstate
    dsimp only at hstate ⊢
    by_cases heq : id = m
    · rw [heq, update_self] at hstate ⊢
      exact hf hstate
    · rw [update_of_ne heq] at hstate ⊢
      obtain ⟨c, hc, hrest⟩ := hs.done id hid hstate
      exact ⟨c, hmono c hc, hrest⟩
  · intro a ha hsuccess
    obtain ⟨c, hc, hrest⟩ := hs.own a ha hsuccess
    exact ⟨c, hmono c hc, hrest⟩

theorem Sys.Safe.complete {rsp : List Byte} (horderly : ∀ m ∈ s.queue.head?, s.Idle m) :
    (s.complete hart rsp).Safe := by
  unfold Sys.complete
  split
  · exact hs.reply _ _
  · next m rest hqueue =>
    have hcurrent : s.queue.head? = some m := by rw [hqueue]; rfl
    have hmem : m ∈ s.queue := List.mem_of_head? hcurrent
    dsimp only
    split
    · exact hs.reply _ _
    · next hstate =>
      have hout : ({ s with queue := s.queue.erase m } : Sys n).Safe :=
        hs.erase (horderly m hcurrent)
      have hgone : m ∉ s.queue.erase m := hs.nodup.not_mem_erase
      have hbegun : s.begun m = true := hs.begun m hmem (not_not.mp hstate)
      split
      · have hdone := hout.setDone (m := m)
          (f := { s.message m with state := .completed, rsp := rsp })
          (d := s.completed ++ [⟨m, rsp, s.begun m⟩]) hgone rfl
          (fun c hc => List.mem_append_left _ hc)
          (fun _ => ⟨_, List.mem_append_right _ (List.mem_singleton_self _), rfl, rfl, hbegun⟩)
        exact hdone.reply _ _
      · have hdone := hout.setDone (m := m) (f := { s.message m with state := .failed, rsp := [] })
          (d := s.completed) hgone rfl (fun c hc => hc) (fun h => by cases h)
        exact hdone.reply _ _

theorem Sys.Safe.step {c : Limits} {a : Act n} {t : Sys n} (horderly : a.orderly s)
    (hstep : Reqfwd.step c s a = some t) : t.Safe := by
  cases a with
  | send msg rspMax =>
    cases hstep
    exact hs.send msg rspMax
  | poll id =>
    simp only [Reqfwd.step] at hstep
    split_ifs at hstep with hwaiting hopen <;> cases hstep
    · exact hs
    · exact hs.finish (hs.waiting id hwaiting)
  | timeout id =>
    simp only [Reqfwd.step] at hstep
    split_ifs at hstep with hwaiting hopen <;> cases hstep
    · apply (hs.erase horderly).answer
      intro hrc
      cases hrc
    · exact hs.finish (hs.waiting id hwaiting)
  | retrieve hart len start =>
    simp only [Reqfwd.step] at hstep
    split_ifs at hstep <;> cases hstep
    · exact hs.reply _ _
    · exact hs.retrieve horderly
  | complete hart rsp =>
    simp only [Reqfwd.step] at hstep
    split_ifs at hstep <;> cases hstep
    · exact hs.reply _ _
    · exact hs.complete horderly

end

end Steps

/-- In every interleaving in which messages leave the queue and are retrieved in an orderly way,
    readings are of one message and responses are to what was read. -/
theorem run_ownResponses {c : Limits} {acts : List (Act n)} {s : Sys n}
    (halong : Runs.Along (step c) (fun s a => a.orderly s) boot acts)
    (hrun : Runs.run (step c) boot acts = some s) : s.WholeReadings ∧ s.OwnResponses := by
  have hsafe : s.Safe := by
    apply halong.invariant _ Sys.Safe.boot hrun
    intro s a t hs horderly hstep
    exact hs.step horderly hstep
  refine ⟨?_, hsafe.own⟩
  intro r hr
  obtain ⟨id, -, hone, hbytes⟩ := hsafe.read r hr
  exact ⟨id, hone, hbytes⟩

def narrow : Limits := ⟨20, 64⟩

def filled (b : Byte) : List Byte := List.replicate 24 b

/-- One message is read by hart 0 and completed by hart 1; the next is read in part, again from
    its beginning, and completed; a third times out. -/
def inTurn : List (Act 2) :=
  [.send (filled 1) 8, .retrieve 0 4 0, .send (filled 2) 8, .retrieve 0 4 8, .retrieve 0 4 16,
   .complete 1 (List.replicate 8 7), .poll 0, .retrieve 1 4 0, .retrieve 1 4 0, .retrieve 1 4 8,
   .retrieve 1 4 16, .complete 1 (List.replicate 8 9), .send (filled 3) 8, .timeout 1, .timeout 2]

theorem run_ownResponses_inTurn :
    ∃ s, Runs.run (step narrow) (boot : Sys 2) inTurn = some s ∧
      s.answers.map (fun a => (a.id, a.rc)) = [(0, .success), (1, .success), (2, .timeout)] ∧
      s.read.map Reading.bytes = [filled 1, filled 2] ∧ s.WholeReadings ∧ s.OwnResponses := by
  have halong : Runs.Along (step narrow) (fun s a => a.orderly s) (boot : Sys 2) inTurn := by
    decide +kernel
  exact ⟨_, rfl, by decide +kernel, by decide +kernel, run_ownResponses halong rfl⟩

/-- The first message times out when hart 0 has two pieces of it.  The third piece is of the next
    message, which is answered for it. -/
theorem timeout_mixes_messages :
    ∃ s ∈ Runs.run (step narrow) (boot : Sys 1)
        [.send (filled 1) 8, .retrieve 0 4 0, .retrieve 0 4 8, .timeout 0, .send (filled 2) 8,
         .retrieve 0 4 16, .complete 0 (List.replicate 8 7), .poll 1],
      s.read.map (fun r => r.pieces.map fun p => (p.id, p.start)) = [[(0, 0), (0, 8), (1, 16)]] ∧
      s.answers.map (fun a => (a.id, a.rc, a.rsp)) =
        [(0, .timeout, []), (1, .success, List.replicate 8 7)] ∧
      s.begun 1 = false ∧ ¬ s.WholeReadings ∧ ¬ s.OwnResponses := by
  refine ⟨_, rfl, by decide +kernel, by decide +kernel, by decide +kernel, ?_, ?_⟩
  · intro hwhole
    obtain ⟨id, hone, -⟩ := hwhole _ (List.mem_singleton_self _)
    have hfirst : 0 = id := hone _ List.mem_cons_self
    have hlast : 1 = id :=
      hone _ (List.mem_cons_of_mem _ (List.mem_cons_of_mem _ List.mem_cons_self))
    exact absurd (hfirst.trans hlast.symm) (by decide)
  · intro hown
    obtain ⟨c, hc, -, -, hbegun⟩ := hown _ (List.mem_cons_of_mem _ List.mem_cons_self) rfl
    cases List.mem_singleton.mp hc
    cases hbegun

end RiscvMonitor.Reqfwd
