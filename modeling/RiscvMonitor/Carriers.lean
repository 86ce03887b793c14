import RiscvMonitor.MpxyCalls
import RiscvMonitor.Runs

/-!
# The two ways of a forwarded request

MM_COMMUNICATE travels with the hart, in a bridge slot, or through the queue of the
target domain while another hart serves that.  `mpxy_rpmi_fw.c` has the target find
either as "its current message"; here the two are run next to each other.
-/

namespace RiscvMonitor.Carriers

open Rpmi (Rc Msg)
open Reqfwd (Byte Limits Reply MsgState Act)
open Mpxy (FwBack SlotState statusWord)
open Runs (run run_cons)

variable {n : Nat}

/-- `struct bridge_slot`, with as much of the response as there is -/
structure Slot where
  state : SlotState
  error : Rc
  outSize : BitVec 32
  msg : List Byte
  rsp : List Byte

/-- RETRIEVE_CURRENT_MESSAGE of a hart that has come with the message -/
def Slot.retrieve (c : Limits) (s : Slot) (start : Nat) : Slot × Reply :=
  if s.msg.length ≤ start then (s, .status .invalidParam)
  else
    let bytes := (s.msg.drop start).take c.pieceMax
    ({ s with state := .retrieved }, .piece (s.msg.length - start - bytes.length) bytes)

def Slot.retrieves (c : Limits) : Slot → List (BitVec 32) → Slot × List Reply
  | s, [] => (s, [])
  | s, start :: starts =>
    let (s, r) := s.retrieve c start.toNat
    let (s, rs) := s.retrieves c starts
    (s, r :: rs)

/-- What `reqfwd_service()` does not take for a response. -/
def Malformed (rsp : List Byte) : Prop := rsp.length < 4 ∨ rsp.length % 4 ≠ 0

instance (rsp : List Byte) : Decidable (Malformed rsp) := inferInstanceAs (Decidable (_ ∨ _))

/-- COMPLETE_CURRENT_MESSAGE of that hart, with nothing in the queue of its domain -/
def Slot.complete (s : Slot) (rsp : List Byte) : Slot × Reply :=
  if Malformed rsp then (s, .status .invalidParam)
  else if s.state = .retrieved then
    if rsp.length ≤ 8 then ({ s with state := .completed, rsp := rsp }, .done .success 0)
    else ({ s with state := .failed, error := .badRange }, .done .badRange 0)
  else
    -- The call goes to `reqfwd_complete()`, which finds no message and none left.
    (s, .done .noData 0)

def word (bytes : List Byte) (i : Nat) : BitVec 32 := Mpxy.writeBytes (fun _ => 0) 0 bytes i

/-- `mpxy_context_resumed()` -/
def Slot.resumed (s : Slot) : List (BitVec 32) :=
  if s.state = .failed then [statusWord s.error, 0]
  else if s.state ≠ .completed ∨ s.rsp.length ≠ 8 ∨ s.outSize < word s.rsp 1 then
    [statusWord .io, 0]
  else [word s.rsp 0, word s.rsp 1]

/-- The end of `mm_service()`, after `reqfwd_send()` -/
def sent (outSize : BitVec 32) (rc : Rc) (rsp : List Byte) : List (BitVec 32) :=
  if rc ≠ .success then [statusWord rc, 0]
  else if rsp.length ≠ 8 ∨ outSize < word rsp 1 then [statusWord .io, 0]
  else [word rsp 0, word rsp 1]

structure Outcome where
  replies : List Reply
  answer : Option (List (BitVec 32))

/-- A completion takes the hart back; before one the caller has no answer. -/
def Slot.answer (s : Slot) : Option (List (BitVec 32)) :=
  if s.state = .completed ∨ s.state = .failed then some s.resumed else none

def Slot.fresh (outSize : BitVec 32) (msg : List Byte) : Slot := ⟨.sent, .success, outSize, msg, []⟩

def bridged (c : Limits) (starts : List (BitVec 32)) (rsp : List Byte) (outSize : BitVec 32)
    (msg : List Byte) : Outcome :=
  let (s, replies) := (Slot.fresh outSize msg).retrieves c starts
  let (s, last) := s.complete rsp
  ⟨replies ++ [last], s.answer⟩

def told (q s : Reqfwd.Sys n) (outSize : BitVec 32) : Outcome :=
  ⟨(s.replies.drop q.replies.length).map Prod.snd,
    ((s.answers.drop q.answers.length).head?).map fun a => sent outSize a.rc a.rsp⟩

/-- Through a queue, of which `q` is the state before; at last the producer looks at its message. -/
def queued (q : Reqfwd.Sys n) (hart : Fin n) (c : Limits) (starts : List (BitVec 32))
    (rsp : List Byte) (outSize : BitVec 32) (msg : List Byte) : Option Outcome :=
  (run (Reqfwd.step c) q (.send msg 8 :: (starts.map (fun a => .retrieve hart 4 a.toNat) ++
    [.complete hart rsp, .poll q.next]))).map (told q · outSize)

def Refused (f : FwBack) (len : Nat) (buf : Msg) : Prop :=
  len ≠ 16 ∨ (Mpxy.mmRangeOk f (buf 0) (buf 1) && Mpxy.mmRangeOk f (buf 2) (buf 3)) = false

/-- `mm_service()` for MM_COMMUNICATE -/
def mmCommunicate {α : Type} (f : FwBack) (len : Nat) (buf : Msg)
    (refuse : List (BitVec 32) → α) (carry : BitVec 32 → List Byte → α) : α :=
  if len ≠ 16 then refuse [statusWord .invalidParam]
  else if (Mpxy.mmRangeOk f (buf 0) (buf 1) && Mpxy.mmRangeOk f (buf 2) (buf 3)) = false then
    refuse [statusWord .invalidAddr, 0]
  else
    let msg := Mpxy.mmMessage (f.token + 1) buf
    carry (buf 3) (Mpxy.readBytes (Mpxy.writeWords (fun _ => 0) 0 msg) 0 24)

def viaSlot (f : FwBack) (len : Nat) (buf : Msg) (c : Limits) (starts : List (BitVec 32))
    (rsp : List Byte) : Option Outcome :=
  mmCommunicate f len buf (fun a => some ⟨[], some a⟩) fun size msg =>
    some (bridged c starts rsp size msg)

def viaQueue (q : Reqfwd.Sys n) (hart : Fin n) (f : FwBack) (len : Nat) (buf : Msg) (c : Limits)
    (starts : List (BitVec 32)) (rsp : List Byte) : Option Outcome :=
  mmCommunicate f len buf (fun a => some ⟨[], some a⟩) (queued q hart c starts rsp)

/-! ### The slot and the queue, call by call -/

def Slot.msgState (s : Slot) : MsgState := if s.state = .retrieved then .retrieved else .queued

structure Carried (q : Reqfwd.Sys n) (hart : Fin n) (slot : Slot) (replies : List Reply)
    (s : Reqfwd.Sys n) : Prop where
  queue : s.queue = [q.next]
  message : s.message q.next = ⟨slot.msgState, slot.msg, 8, []⟩
  waiting : s.waiting q.next = true
  answers : s.answers = q.answers
  replies : s.replies = q.replies ++ replies.map (Prod.mk hart)

variable {q s : Reqfwd.Sys n} {hart : Fin n} {slot : Slot} {replies : List Reply} {c : Limits}
  {rsp : List Byte}

theorem Carried.retrieve (h : Carried q hart slot replies s) (start : Nat) :
    Carried q hart (slot.retrieve c start).1 (replies ++ [(slot.retrieve c start).2])
      (s.retrieve hart start c.pieceMax) := by
  unfold Reqfwd.Sys.retrieve Slot.retrieve
  rw [h.queue]
  simp only [h.message]
  split
  · exact ⟨h.queue, h.message, h.waiting, h.answers, by simp [Reqfwd.Sys.reply, h.replies]⟩
  · refine ⟨h.queue, ?_, h.waiting, h.answers, ?_⟩
    · simp [Reqfwd.Sys.reply, Reqfwd.Sys.note, Reqfwd.Sys.setState, h.message, Slot.msgState]
    · simp [Reqfwd.Sys.reply, Reqfwd.Sys.note, Reqfwd.Sys.setState, h.replies]

theorem Carried.retrieves (h : Carried q hart slot replies s) (starts : List (BitVec 32)) :
    ∃ t, (∀ es, run (Reqfwd.step c) s (starts.map (fun a => .retrieve hart 4 a.toNat) ++ es) =
        run (Reqfwd.step c) t es) ∧
      Carried q hart (slot.retrieves c starts).1 (replies ++ (slot.retrieves c starts).2) t := by
  induction starts generalizing slot replies s with
  | nil => exact ⟨s, fun _ => rfl, by simpa [Slot.retrieves] using h⟩
  | cons start starts ih =>
    obtain ⟨t, ht, hc⟩ := ih (h.retrieve (c := c) start.toNat)
    refine ⟨t, fun es => ?_, by simpa [Slot.retrieves] using hc⟩
    simpa [run, Reqfwd.step] using ht es

theorem retrieves_slot (slot : Slot) (starts : List (BitVec 32)) :
    (slot.retrieves c starts).1 =
      { slot with state :=
          if ∃ a ∈ starts, a.toNat < slot.msg.length then .retrieved else slot.state } := by
  induction starts generalizing slot with
  | nil => simp [Slot.retrieves]
  | cons start starts ih =>
    simp only [Slot.retrieves, ih, Slot.retrieve, List.exists_mem_cons_iff]
    by_cases hin : slot.msg.length ≤ start.toNat
    · simp [if_pos hin, Nat.not_lt.mpr hin]
    · simp [if_neg hin, Nat.not_le.mp hin]

def lastReply (retrieved : Bool) (rsp : List Byte) : Reply :=
  if Malformed rsp then .status .invalidParam
  else if retrieved then .done (if rsp.length ≤ 8 then .success else .badRange) 0
  else .done .noData 1

theorem told_poll {t : Reqfwd.Sys n} (outSize : BitVec 32) (hart : Fin n) (replies : List Reply)
    (hwaiting : t.waiting q.next = true)
    (hanswers : t.answers = q.answers)
    (hreplies : t.replies = q.replies ++ replies.map (Prod.mk hart)) :
    (run (Reqfwd.step c) t [.poll q.next]).map (told q · outSize) =
      some ⟨replies, if (t.message q.next).state.isOpen then none else
        some (sent outSize (if (t.message q.next).state = .completed then .success else .badRange)
          (t.message q.next).rsp)⟩ := by
  have hsnd : (replies.map (Prod.mk hart)).map Prod.snd = replies := by
    simp [Function.comp_def]
  by_cases hisOpen : (t.message q.next).state.isOpen = true
  · simp [run, Reqfwd.step, hwaiting, hisOpen, told, hanswers, hreplies, hsnd]
  · simp [run, Reqfwd.step, hwaiting, hisOpen, told, hanswers, hreplies, hsnd,
      Reqfwd.Sys.finish, Reqfwd.Sys.answer]

theorem Carried.complete (h : Carried q hart slot replies s)
    (hopen : slot.state = .sent ∨ slot.state = .retrieved) :
    (run (Reqfwd.step c) s [.complete hart rsp, .poll q.next]).map (told q · slot.outSize) =
      some ⟨replies ++ [lastReply (decide (slot.state = .retrieved)) rsp],
        (slot.complete rsp).1.answer⟩ := by
  have htold (t : Reqfwd.Sys n) (r : Reply) (hw : t.waiting q.next = true)
      (ha : t.answers = q.answers) (hr : t.replies = s.replies ++ [(hart, r)]) :=
    told_poll (c := c) slot.outSize hart (replies ++ [r]) hw ha (by simp [hr, h.replies])
  have hrun (t : Reqfwd.Sys n) (ht : Reqfwd.step c s (.complete hart rsp) = some t) :
      run (Reqfwd.step c) s [.complete hart rsp, .poll q.next] =
        run (Reqfwd.step c) t [.poll q.next] := by
    rw [run, ht, Option.bind_some]
  by_cases hbad : Malformed rsp
  · rw [hrun _ (if_pos hbad), htold (s.reply hart _) (.status .invalidParam) h.waiting h.answers rfl]
    rcases hopen with hs | hs <;>
    simp [lastReply, hbad, Slot.complete, Slot.answer, hs, Reqfwd.Sys.reply, h.message,
      Slot.msgState, MsgState.isOpen]
  rw [hrun _ (if_neg hbad)]
  rcases hopen with hs | hs
  · have hmsg : s.message q.next = ⟨.queued, slot.msg, 8, []⟩ := by
      simpa [Slot.msgState, hs] using h.message
    have hcomplete : s.complete hart rsp = s.reply hart (.done .noData 1) := by
      simp [Reqfwd.Sys.complete, h.queue, hmsg]
    rw [hcomplete, htold (s.reply hart _) (.done .noData 1) h.waiting h.answers rfl]
    simp [lastReply, hbad, Slot.complete, Slot.answer, hs, Reqfwd.Sys.reply, hmsg, MsgState.isOpen]
  · have hmsg : s.message q.next = ⟨.retrieved, slot.msg, 8, []⟩ := by
      simpa [Slot.msgState, hs] using h.message
    by_cases hfits : rsp.length ≤ 8
    · rw [htold _ (.done .success 0)] <;>
      simp [Reqfwd.Sys.complete, Reqfwd.Sys.reply, h.queue, hmsg, hfits, h.waiting, h.answers,
        lastReply, hbad, Slot.complete, Slot.answer, Slot.resumed, sent, hs, MsgState.isOpen]
    · rw [htold _ (.done .badRange 0)] <;>
      simp [Reqfwd.Sys.complete, Reqfwd.Sys.reply, h.queue, hmsg, hfits, h.waiting, h.answers,
        lastReply, hbad, Slot.complete, Slot.answer, Slot.resumed, sent, hs, MsgState.isOpen]

/-- The replies to a completion differ for a message that has not been retrieved. -/
theorem lastReply_eq_iff :
    lastReply (decide (slot.state = .retrieved)) rsp = (slot.complete rsp).2 ↔
      slot.state = .retrieved ∨ Malformed rsp := by
  unfold lastReply Slot.complete
  by_cases hbad : Malformed rsp
  · simp [hbad]
  · by_cases hs : slot.state = .retrieved
    · by_cases hfits : rsp.length ≤ 8 <;> simp [hbad, hs, hfits]
    · simp [hbad, hs]

theorem queued_eq (hq : q.queue = []) (starts : List (BitVec 32)) (outSize : BitVec 32)
    (msg : List Byte) :
    let s := (Slot.fresh outSize msg).retrieves c starts
    queued q hart c starts rsp outSize msg =
      some ⟨s.2 ++ [lastReply (decide (s.1.state = .retrieved)) rsp],
        (s.1.complete rsp).1.answer⟩ := by
  have hsent : Carried q hart (Slot.fresh outSize msg) [] (q.send msg 8) :=
    ⟨by simp [Reqfwd.Sys.send, hq], by simp [Reqfwd.Sys.send, Slot.msgState, Slot.fresh],
      by simp [Reqfwd.Sys.send], rfl, by simp [Reqfwd.Sys.send]⟩
  obtain ⟨t, hrun, hcarried⟩ := hsent.retrieves (c := c) starts
  have hslot := retrieves_slot (c := c) (Slot.fresh outSize msg) starts
  have houtSize : ((Slot.fresh outSize msg).retrieves c starts).1.outSize = outSize := by
    rw [hslot, Slot.fresh]
  have hend : (run (Reqfwd.step c) t [.complete hart rsp, .poll q.next]).map _ = some _ :=
    hcarried.complete (by rw [hslot, Slot.fresh]; dsimp only; split <;> simp)
  rw [queued, run, Reqfwd.step, Option.bind_some, hrun]
  rwa [houtSize] at hend

theorem Slot.answer_written (s : Slot) :
    ∀ a ∈ s.answer, ∀ w ∈ a[1]?, w.toNat ≤ s.outSize.toNat := by
  unfold Slot.answer Slot.resumed
  split_ifs with _ _ hpassed
  · simp
  · simp
  · simpa [BitVec.lt_def] using (not_or.mp (not_or.mp hpassed).2).2
  · simp

theorem Slot.complete_outSize (s : Slot) (rsp : List Byte) :
    (s.complete rsp).1.outSize = s.outSize := by
  unfold Slot.complete
  split_ifs <;> rfl

theorem forwarded_agree_iff (hart : Fin n) (rsp : List Byte) (hq : q.queue = [])
    (starts : List (BitVec 32)) (size : BitVec 32) (msg : List Byte) :
    (some (bridged c starts rsp size msg) = queued q hart c starts rsp size msg ↔
        (∃ a ∈ starts, a.toNat < msg.length) ∨ Malformed rsp) ∧
      ∀ o, some (bridged c starts rsp size msg) = some o ∨
          queued q hart c starts rsp size msg = some o →
        ∀ a ∈ o.answer, ∀ w ∈ a[1]?, w.toNat ≤ size.toNat := by
  rw [queued_eq hq]
  have hslot := retrieves_slot (c := c) (Slot.fresh size msg) starts
  have hbridged : bridged c starts rsp size msg =
    let s := (Slot.fresh size msg).retrieves c starts
    ⟨s.2 ++ [(s.1.complete rsp).2], (s.1.complete rsp).1.answer⟩ := rfl
  rw [hbridged]
  generalize (Slot.fresh size msg).retrieves c starts = s at hslot
  have hretrieved : s.1.state = .retrieved ↔ ∃ a ∈ starts, a.toNat < msg.length := by
    rw [hslot, Slot.fresh]
    simp
  have hsize : s.1.outSize = size := by rw [hslot, Slot.fresh]
  have hwritten := (s.1.complete rsp).1.answer_written
  rw [Slot.complete_outSize, hsize] at hwritten
  rw [← hretrieved, ← lastReply_eq_iff]
  constructor
  · simp [eq_comm]
  · rintro o (ho | ho) <;> cases ho <;> exact hwritten

/-- The two ways agree on what the target and the caller are told, unless a message is completed
    of which the target has retrieved nothing: the message is then left, and one of the two says
    that none is. -/
theorem carriers_agree_iff (f : FwBack) (len : Nat) (buf : Msg) (c : Limits)
    (starts : List (BitVec 32)) (rsp : List Byte) (q : Reqfwd.Sys n) (hart : Fin n)
    (hq : q.queue = []) :
    (viaSlot f len buf c starts rsp = viaQueue q hart f len buf c starts rsp ↔
        Refused f len buf ∨ (∃ a ∈ starts, a.toNat < 24) ∨ Malformed rsp) ∧
      ∀ o, viaSlot f len buf c starts rsp = some o ∨
          viaQueue q hart f len buf c starts rsp = some o →
        ∀ a ∈ o.answer, ∀ w ∈ a[1]?, w.toNat ≤ (buf 3).toNat := by
  unfold viaSlot viaQueue mmCommunicate Refused
  by_cases hlen : len ≠ 16
  · simp [hlen]
  have hmsg := forwarded_agree_iff (c := c) hart rsp hq starts (buf 3)
    (Mpxy.readBytes (Mpxy.writeWords (fun _ => 0) 0 (Mpxy.mmMessage (f.token + 1) buf)) 0 24)
  rw [show (Mpxy.readBytes _ 0 24).length = 24 by simp [Mpxy.readBytes]] at hmsg
  by_cases hrange : (Mpxy.mmRangeOk f (buf 0) (buf 1) && Mpxy.mmRangeOk f (buf 2) (buf 3)) = false
  · simp [hlen, hrange]
  · simpa only [hlen, hrange, if_false, false_or, Bool.true_eq_false] using hmsg

def mmChannel : FwBack :=
  ⟨0x000b, none, 0, false, 0, false, false, some 1, 1, 0x80000000, 0x1000, 0⟩

theorem retrieved_message_agrees :
    viaSlot mmChannel 16 (fun _ => 0) ⟨256, 4096⟩ [0] (.replicate 8 0) =
      viaQueue (n := 1) Reqfwd.boot 0 mmChannel 16 (fun _ => 0) ⟨256, 4096⟩ [0] (.replicate 8 0) :=
  (carriers_agree_iff mmChannel 16 (fun _ => 0) ⟨256, 4096⟩ [0] (.replicate 8 0) Reqfwd.boot 0
    rfl).1.mpr (.inr (.inl ⟨0, by simp, by decide⟩))

/-- A completion comes first: there is no message left, and there is one. -/
theorem unretrieved_message_differs :
    viaSlot mmChannel 16 (fun _ => 0) ⟨256, 4096⟩ [] (.replicate 8 0) =
        some ⟨[.done .noData 0], none⟩ ∧
      viaQueue (n := 1) Reqfwd.boot 0 mmChannel 16 (fun _ => 0) ⟨256, 4096⟩ [] (.replicate 8 0) =
        some ⟨[.done .noData 1], none⟩ :=
  ⟨rfl, rfl⟩

end RiscvMonitor.Carriers
