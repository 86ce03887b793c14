import RiscvMonitor.Runs
import RiscvMonitor.SharedQueue
import Mathlib.Data.BitVec

/-!
# The RPMI client and its shared memory transport

`rpmi.c` and `rpmi_shmem.c`.  A request takes the next 16-bit token, goes into the
"a2p-req" queue and then polls the "p2a-ack" queue; the context's lock is held
throughout.  PuC is the platform microcontroller at the other end.  The queues are
memory that outlives a reboot.  The token counter is not.
-/

namespace RiscvMonitor.Rpmi

/-! ### Messages -/

abbrev Msg := Nat → BitVec 32

structure Hdr where
  group : BitVec 16
  service : BitVec 8
  flags : BitVec 8
  datalen : BitVec 16
  token : BitVec 16
  deriving DecidableEq, Repr

inductive MsgType
  | normalRequest | postedRequest | acknowledgement | notification
  deriving DecidableEq, Repr

def MsgType.code : MsgType → BitVec 8
  | .normalRequest => 0
  | .postedRequest => 1
  | .acknowledgement => 2
  | .notification => 3

def flagsTypeMask : BitVec 8 := 0x07

def msgHdrSize : Nat := 8

def Hdr.is (h : Hdr) (k : MsgType) : Prop := h.flags &&& flagsTypeMask = k.code

instance (h : Hdr) (k : MsgType) : Decidable (h.is k) := inferInstanceAs (Decidable (_ = _))

/-- `FLAGS[31:24] SERVICE_ID[23:16] SERVICEGROUP_ID[15:0]` -/
def Hdr.word0 (h : Hdr) : BitVec 32 :=
  h.group.setWidth 32 ||| h.service.setWidth 32 <<< 16 ||| h.flags.setWidth 32 <<< 24

def Hdr.word1 (h : Hdr) : BitVec 32 := h.datalen.setWidth 32 ||| h.token.setWidth 32 <<< 16

def Hdr.ofWords (w0 w1 : BitVec 32) : Hdr where
  group := w0.setWidth 16
  service := (w0 >>> 16).setWidth 8
  flags := (w0 >>> 24).setWidth 8
  datalen := w1.setWidth 16
  token := (w1 >>> 16).setWidth 16

theorem Hdr.ofWords_words (h : Hdr) : Hdr.ofWords h.word0 h.word1 = h := by
  cases h
  simp only [Hdr.ofWords, Hdr.word0, Hdr.word1, Hdr.mk.injEq]
  refine ⟨?_, ?_, ?_, ?_, ?_⟩ <;> ext i hi <;> simp <;> grind

def Msg.hdr (m : Msg) : Hdr := .ofWords (m 0) (m 1)

def Msg.payload (m : Msg) : List (BitVec 32) :=
  (List.range (m.hdr.datalen.toNat / 4)).map fun i => m (2 + i)

/-- The slot after a message is written over `old`. -/
def message (h : Hdr) (data old : Msg) : Msg
  | 0 => h.word0
  | 1 => h.word1
  | i + 2 => if i < h.datalen.toNat / 4 then data i else old (i + 2)

@[simp]
theorem hdr_message (h : Hdr) (data old : Msg) : (message h data old).hdr = h :=
  h.ofWords_words

/-! ### The transport -/

/-- `RPMI_SUCCESS` and `RPMI_ERR_*`, of an acknowledgement, of the client and of the transport.
    -/
inductive Rc
  | success | failed | notSupported | invalidParam | denied | invalidAddr | already | extension
  | hwFault | busy | invalidState | badRange | timeout | io | noData
  deriving DecidableEq, Repr

def Rc.code : Rc → Int
  | .success => 0
  | .failed => -1
  | .notSupported => -2
  | .invalidParam => -3
  | .denied => -4
  | .invalidAddr => -5
  | .already => -6
  | .extension => -7
  | .hwFault => -8
  | .busy => -9
  | .invalidState => -10
  | .badRange => -11
  | .timeout => -12
  | .io => -13
  | .noData => -14

structure Transport where
  slotSize : Nat
  reqSlots : Nat
  ackSlots : Nat
  /-- `CONFIG_RPMI_MAX_DATA_LEN` -/
  configMax : Nat

def Transport.maxDataLen (t : Transport) : Nat := min (t.slotSize - msgHdrSize) t.configMax

abbrev Queue := SharedQueue Msg

def shmemSend (t : Transport) (slots : Nat) (q : Queue) (h : Hdr) (data : Msg) : Queue × Rc :=
  if ¬ q.InRange slots then (q, .io)
  else if (q.tail + 1) % slots = q.head then (q, .busy)
  else if t.slotSize - msgHdrSize < h.datalen.toNat then (q, .invalidParam)
  else (q.put slots (message h data (q.slot q.tail)), .success)

structure Received where
  queue : Queue
  hdr : Hdr
  data : Msg
  rc : Rc

/-- A message of that length is copied to a buffer of `max` bytes. -/
def Transport.fits (t : Transport) (max : Nat) (h : Hdr) : Prop :=
  h.datalen.toNat % 4 = 0 ∧ h.datalen.toNat ≤ t.slotSize - msgHdrSize ∧ h.datalen.toNat ≤ max

instance (t : Transport) (max : Nat) (h : Hdr) : Decidable (t.fits max h) :=
  inferInstanceAs (Decidable (_ ∧ _))

/-- `rpmi_shmem_recv()`: a message that does not fit is consumed all the same. -/
def shmemRecv (t : Transport) (slots : Nat) (q : Queue) (h : Hdr) (data : Msg) (max : Nat) :
    Received :=
  if ¬ q.InRange slots then ⟨q, h, data, .io⟩
  else if q.head = q.tail then ⟨q, h, data, .noData⟩
  else
    let m := q.slot q.head
    if t.fits max m.hdr then
      ⟨q.drop slots, m.hdr, fun i => if i < m.hdr.datalen.toNat / 4 then m (2 + i) else data i,
        .success⟩
    else ⟨q.drop slots, m.hdr, data, .badRange⟩

/-! ### The client -/

/-- `request_check()`, for a context that is there. -/
def requestCheck (t : Transport) (len : Nat) : Rc :=
  if len % 4 ≠ 0 ∨ t.maxDataLen < len then .invalidParam else .success

/-- A call of `rpmi_request()`, or of `rpmi_post()`, which has no response. -/
structure Call where
  posted : Bool
  group : BitVec 16
  service : BitVec 8
  req : Msg
  len : Nat
  resp : Msg
  max : Nat

def Call.kind (c : Call) : MsgType := if c.posted then .postedRequest else .normalRequest

def Call.hdr (c : Call) (token : BitVec 16) : Hdr :=
  ⟨c.group, c.service, c.kind.code, BitVec.ofNat 16 c.len, token⟩

/-- A call that has its token.  `serial` counts the tokens since the boot. -/
structure Request where
  serial : Nat
  call : Call
  hdr : Hdr

/-- What `wait_ack()` compares. -/
def Hdr.answers (req ack : Hdr) : Prop :=
  ack.token = req.token ∧ ack.group = req.group ∧ ack.service = req.service ∧
    ack.is .acknowledgement

instance (req ack : Hdr) : Decidable (req.answers ack) := inferInstanceAs (Decidable (_ ∧ _))

structure Result where
  /-- Missing where the call did not get as far as a token. -/
  serial : Option Nat
  rc : Rc
  /-- `resp`, as far as `resp_len`. -/
  resp : Option (List (BitVec 32))

inductive Turn
  | again
  | done (rc : Rc)

/-- A round of `send_locked()`. -/
def sendLocked (t : Transport) (q : Queue) (r : Request) (expired : Bool) : Queue × Turn :=
  match shmemSend t t.reqSlots q r.hdr r.call.req with
  | (q, .busy) => (q, if expired then .done .timeout else .again)
  | (q, rc) => (q, .done rc)

/-- A round of `wait_ack()`. -/
def waitAck (t : Transport) (q : Queue) (r : Request) (ack : Hdr) (resp : Msg) (expired : Bool) :
    Received × Turn :=
  let got := shmemRecv t t.ackSlots q ack resp r.call.max
  match got.rc with
  | .noData => (got, if expired then .done .timeout else .again)
  | .success =>
    if ¬ r.hdr.answers got.hdr then (got, .again)
    else if got.hdr.datalen.toNat < 4 then (got, .done .io)
    else (got, .done .success)
  | .badRange => (got, if ¬ r.hdr.answers got.hdr then .again else .done .io)
  | rc => (got, .done rc)

/-! ### The context, the PuC and who has sent what -/

inductive Phase
  | idle
  | sending (r : Request)
  | waiting (r : Request) (ack : Hdr) (resp : Msg)

/-- A request that the PuC has taken, and whose it is: of an earlier firmware if there is
    no number. -/
structure Held where
  serial : Option Nat
  hdr : Hdr

structure Sys where
  req : Queue
  ack : Queue
  nextToken : BitVec 16
  phase : Phase
  issued : Nat
  /-- The request that was written last to a slot of `req`. -/
  origin : Nat → Option Nat
  held : List Held
  /-- The acknowledgement that the PuC has given to a request. -/
  given : Nat → Option Msg
  results : List Result

/-- After a boot.  The queues are what they are, and the PuC may not be through with what an
    earlier firmware has asked it. -/
def boot (req ack : Queue) (held : List Hdr) : Sys where
  req := req
  ack := ack
  nextToken := 0
  phase := .idle
  issued := 0
  origin := fun _ => none
  held := held.map (Held.mk none)
  given := fun _ => none
  results := []

inductive Act
  /-- `rpmi_request()` or `rpmi_post()`, up to the token. -/
  | call (c : Call)
  | send (expired : Bool)
  | poll (expired : Bool)
  | take
  /-- The PuC acknowledges one of those it has taken. -/
  | acknowledge (i : Nat) (m : Msg)
  | stray (m : Msg)

def Sys.finish (s : Sys) (serial : Option Nat) (rc : Rc) (resp : Option (List (BitVec 32))) :
    Sys :=
  { s with phase := .idle, results := s.results ++ [⟨serial, rc, resp⟩] }

def Sys.call (t : Transport) (s : Sys) (c : Call) : Sys :=
  match requestCheck t c.len with
  | .success =>
    { s with
      nextToken := s.nextToken + 1
      issued := s.issued + 1
      phase := .sending ⟨s.issued, c, c.hdr s.nextToken⟩ }
  | rc => s.finish none rc none

def Sys.sent (s : Sys) (r : Request) (q : Queue) : Sys :=
  let t := { s with req := q, origin := Function.update s.origin s.req.tail (some r.serial) }
  if r.call.posted then t.finish r.serial .success none
  else { t with phase := .waiting r ⟨0, 0, 0, 0, 0⟩ r.call.resp }

def Sys.send (t : Transport) (s : Sys) (r : Request) (expired : Bool) : Sys :=
  match sendLocked t s.req r expired with
  | (_, .again) => s
  | (q, .done .success) => s.sent r q
  | (_, .done rc) => s.finish r.serial rc none

def Sys.poll (t : Transport) (s : Sys) (r : Request) (ack : Hdr) (resp : Msg) (expired : Bool) :
    Sys :=
  let (got, turn) := waitAck t s.ack r ack resp expired
  let u := { s with ack := got.queue }
  match turn with
  | .again => { u with phase := .waiting r got.hdr got.data }
  | .done .success =>
    u.finish r.serial .success
      (some ((List.range (got.hdr.datalen.toNat / 4)).map got.data))
  | .done rc => u.finish r.serial rc none

def Sys.room (t : Transport) (s : Sys) : Prop :=
  s.ack.InRange t.ackSlots ∧ (s.ack.tail + 1) % t.ackSlots ≠ s.ack.head

instance (t : Transport) (s : Sys) : Decidable (s.room t) := inferInstanceAs (Decidable (_ ∧ _))

/-- The PuC may acknowledge `x`: it is a normal request, not acknowledged yet, and less than
    65536 tokens old. -/
def Sys.due (s : Sys) (x : Held) : Prop :=
  x.hdr.is .normalRequest ∧
    ∀ k ∈ x.serial, (s.given k).isNone = true ∧ s.issued ≤ k + 65536

instance (s : Sys) (x : Held) : Decidable (s.due x) := inferInstanceAs (Decidable (_ ∧ _))

def Sys.acknowledge (t : Transport) (s : Sys) (i : Nat) (x : Held) (m : Msg) : Sys :=
  { s with
    ack := s.ack.put t.ackSlots m
    held := s.held.eraseIdx i
    given := match x.serial with
      | none => s.given
      | some k => Function.update s.given k (some m) }

/-- A step has no result if it is not the turn of its party, or if a PuC that keeps to the
    protocol does not take it. -/
def step (t : Transport) (s : Sys) : Act → Option Sys
  | .call c =>
    match s.phase with
    | .idle => some (s.call t c)
    | _ => none
  | .send expired =>
    match s.phase with
    | .sending r => some (s.send t r expired)
    | _ => none
  | .poll expired =>
    match s.phase with
    | .waiting r ack resp => some (s.poll t r ack resp expired)
    | _ => none
  | .take =>
    if s.req.InRange t.reqSlots ∧ s.req.head ≠ s.req.tail then
      some { s with
        req := s.req.drop t.reqSlots
        held := s.held ++ [⟨s.origin s.req.head, (s.req.slot s.req.head).hdr⟩] }
    else none
  | .acknowledge i m =>
    match s.held[i]? with
    | none => none
    | some x =>
      if s.room t ∧ s.due x ∧ x.hdr.answers m.hdr then some (s.acknowledge t i x m) else none
  | .stray m =>
    if s.room t ∧ ¬ m.hdr.is .acknowledgement then
      some { s with ack := s.ack.put t.ackSlots m }
    else none

end RiscvMonitor.Rpmi
