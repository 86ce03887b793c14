import RiscvMonitor.Rpmi

/-!
# The queue of forwarded requests

`reqfwd.c`.  A producer puts a message into the queue of the target domain and waits
for its completion; harts of the target domain retrieve the oldest message, a piece
at a time, and complete it.  What is done under the queue's lock is one step.
-/

namespace RiscvMonitor.Reqfwd

open Function (update)
open Rpmi (Rc)

variable {n : Nat}

abbrev Byte := BitVec 8

inductive MsgState
  | queued | retrieved | completed | failed
  deriving DecidableEq, Repr

/-- `struct reqfwd_message`, with as much of the response as there is -/
structure Message where
  state : MsgState
  msg : List Byte
  rspMax : Nat
  rsp : List Byte

structure Answer where
  id : Nat
  rc : Rc
  rsp : List Byte

inductive Reply
  | status (rc : Rc)
  | piece (remaining : Nat) (bytes : List Byte)
  | done (rc : Rc) (left : Nat)

/-! ### What has happened -/

structure Piece where
  id : Nat
  start : Nat
  bytes : List Byte

structure Reading where
  /-- The message of the last piece. -/
  id : Nat
  next : Nat
  pieces : List Piece

def Reading.bytes (r : Reading) : List Byte := r.pieces.flatMap Piece.bytes

structure Completion where
  id : Nat
  rsp : List Byte
  begun : Bool

structure Sys (n : Nat) where
  message : Nat → Message
  /-- The list from `head` on. -/
  queue : List Nat
  next : Nat
  /-- The producer is in `reqfwd_send()`. -/
  waiting : Nat → Bool
  answers : List Answer
  replies : List (Fin n × Reply)
  begun : Nat → Bool
  completed : List Completion
  reading : Fin n → Option Reading
  /-- What the harts have read to the end. -/
  read : List Reading

def boot : Sys n where
  message := fun _ => ⟨.queued, [], 0, []⟩
  queue := []
  next := 0
  waiting := fun _ => false
  answers := []
  replies := []
  begun := fun _ => false
  completed := []
  reading := fun _ => none
  read := []

/-! ### The target's side -/

def Reading.extend (r : Option Reading) (p : Piece) : Option Reading :=
  if p.start = 0 then some ⟨p.id, p.bytes.length, [p]⟩
  else
    match r with
    | none => none
    | some r =>
      if p.start = r.next then some ⟨p.id, p.start + p.bytes.length, r.pieces ++ [p]⟩ else none

namespace Sys

def setState (s : Sys n) (id : Nat) (st : MsgState) : Sys n :=
  { s with message := update s.message id { s.message id with state := st } }

def reply (s : Sys n) (hart : Fin n) (r : Reply) : Sys n :=
  { s with replies := s.replies ++ [(hart, r)] }

def note (s : Sys n) (hart : Fin n) (p : Piece) (remaining : Nat) : Sys n :=
  let r := Reading.extend (s.reading hart) p
  { s with
    begun := if p.start = 0 then update s.begun p.id true else s.begun
    reading := update s.reading hart (if remaining = 0 then none else r)
    read := if remaining = 0 then s.read ++ r.toList else s.read }

def retrieve (s : Sys n) (hart : Fin n) (start max : Nat) : Sys n :=
  match s.queue with
  | [] => s.reply hart (.status .noData)
  | m :: _ =>
    let msg := (s.message m).msg
    if msg.length ≤ start then s.reply hart (.status .invalidParam)
    else
      let bytes := (msg.drop start).take max
      let remaining := msg.length - start - bytes.length
      ((s.setState m .retrieved).note hart ⟨m, start, bytes⟩ remaining).reply hart
        (.piece remaining bytes)

def complete (s : Sys n) (hart : Fin n) (rsp : List Byte) : Sys n :=
  match s.queue with
  | [] => s.reply hart (.done .noData s.queue.length)
  | m :: _ =>
    let f := s.message m
    if f.state ≠ .retrieved then s.reply hart (.done .noData s.queue.length)
    else
      let queue := s.queue.erase m
      if rsp.length ≤ f.rspMax then
        { s.reply hart (.done .success queue.length) with
          queue := queue
          message := update s.message m { f with state := .completed, rsp := rsp }
          completed := s.completed ++ [⟨m, rsp, s.begun m⟩] }
      else
        { s.reply hart (.done .badRange queue.length) with
          queue := queue
          message := update s.message m { f with state := .failed, rsp := [] } }

/-! ### The producer's side -/

/-- `reqfwd_send()` up to its wait -/
def send (s : Sys n) (msg : List Byte) (rspMax : Nat) : Sys n :=
  { s with
    message := update s.message s.next ⟨.queued, msg, rspMax, []⟩
    queue := s.queue ++ [s.next]
    next := s.next + 1
    waiting := update s.waiting s.next true }

def answer (s : Sys n) (id : Nat) (rc : Rc) (rsp : List Byte) : Sys n :=
  { s with
    waiting := update s.waiting id false
    answers := s.answers ++ [⟨id, rc, rsp⟩] }

/-- The end of `reqfwd_send()` for a message that is done. -/
def finish (s : Sys n) (id : Nat) : Sys n :=
  let f := s.message id
  s.answer id (if f.state = .completed then .success else .badRange) f.rsp

end Sys

def MsgState.isOpen : MsgState → Bool
  | .queued | .retrieved => true
  | .completed | .failed => false

inductive Act (n : Nat)
  | send (msg : List Byte) (rspMax : Nat)
  /-- A round of the wait, before and after the timeout. -/
  | poll (id : Nat)
  | timeout (id : Nat)
  /-- RETRIEVE_CURRENT_MESSAGE with `len` bytes of request, and COMPLETE_CURRENT_MESSAGE. -/
  | retrieve (hart : Fin n) (len start : Nat)
  | complete (hart : Fin n) (rsp : List Byte)

structure Limits where
  msgDataMaxLen : Nat
  respMax : Nat

def Limits.pieceMax (c : Limits) : Nat := (min c.msgDataMaxLen c.respMax - 12) / 4 * 4

def step (c : Limits) (s : Sys n) : Act n → Option (Sys n)
  | .send msg rspMax => some (s.send msg rspMax)
  | .poll id =>
    if ¬ s.waiting id then none
    else if (s.message id).state.isOpen then some s
    else some (s.finish id)
  | .timeout id =>
    if ¬ s.waiting id then none
    else if (s.message id).state.isOpen then
      some ({ s with queue := s.queue.erase id }.answer id .timeout [])
    else some (s.finish id)
  | .retrieve hart len start =>
    if len ≠ 4 then some (s.reply hart (.status .invalidParam))
    else some (s.retrieve hart start c.pieceMax)
  | .complete hart rsp =>
    if rsp.length < 4 ∨ rsp.length % 4 ≠ 0 then some (s.reply hart (.status .invalidParam))
    else some (s.complete hart rsp)

end RiscvMonitor.Reqfwd
