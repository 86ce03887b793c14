import RiscvMonitor.AccessProg
import RiscvMonitor.Rpmi
import RiscvMonitor.Word

/-!
# The shared memory transport, access by access

`rpmi_shmem.c`.  The queues are memory that the PuC writes to as well, at any time.
Slot 0 of a queue holds the head index, slot 1 the tail index, the others a message
each.  `rpmi_shmem_send()` and `rpmi_shmem_recv()` are programs of accesses to it.
-/

namespace RiscvMonitor.RpmiShmem

open Rpmi (Hdr Msg Rc msgHdrSize)
open AccessProg (readAll writeAll)

variable {x : Xlen}

/-! ### The probe -/

inductive QueueId
  | a2pReq | p2aAck | p2aReq | a2pAck
  deriving DecidableEq, Repr

def queueIds : List QueueId := [.a2pReq, .p2aAck, .p2aReq, .a2pAck]

/-- What the device tree node says; the queues and the doorbell are entries of "reg". -/
structure Node where
  slotSize : Option (BitVec 32)
  queue : QueueId → Option (BitVec 64 × BitVec 64)
  doorbell : Option (BitVec 64)
  doorbellValue : Option (BitVec 32)

structure Shmem (x : Xlen) where
  queue : QueueId → Word x
  msgSlots : QueueId → BitVec 32
  slotSize : BitVec 32
  doorbell : Word x
  doorbellValue : BitVec 32

def slotSizeMin : BitVec 32 := 64

def Node.slot (node : Node) : BitVec 32 := node.slotSize.getD slotSizeMin

def queueOk (slot : BitVec 32) (size : BitVec 64) : Bool :=
  size % slot.setWidth 64 = 0 && 3 ≤ size / slot.setWidth 64

def Node.shmem (node : Node) : Shmem x where
  queue := fun q => ((node.queue q).map fun r => r.1.setWidth x.bits).getD 0
  msgSlots := fun q =>
    ((node.queue q).map fun r => (r.2 / node.slot.setWidth 64).setWidth 32 - 2).getD 0
  slotSize := node.slot
  doorbell := (node.doorbell.map (BitVec.setWidth x.bits)).getD 0
  doorbellValue := node.doorbellValue.getD 1

def probe (node : Node) : Option (Shmem x) :=
  if node.slot < slotSizeMin ∨ isPowerOfTwo (x := .rv32) node.slot = false then none
  else if queueIds.any fun q => (node.queue q).any fun r => !queueOk node.slot r.2 then none
  else
    let t : Shmem x := node.shmem
    if t.queue .a2pReq = 0 ∨ t.queue .p2aAck = 0 then none else some t

/-! ### The accesses -/

/-- The queues are memory, the doorbell is not. -/
inductive Loc (x : Xlen)
  | ram (addr : Word x)
  | device (addr : Word x)
  deriving DecidableEq

abbrev Io (x : Xlen) := AccessProg (Loc x) (BitVec 32)

def queueSlot (t : Shmem x) (q : QueueId) (slot : BitVec 32) : Word x :=
  t.queue q + slot.setWidth x.bits * t.slotSize.setWidth x.bits

def slotWord (t : Shmem x) (q : QueueId) (slot : BitVec 32) (i : Nat) : Loc x :=
  .ram (queueSlot t q slot + BitVec.ofNat _ (4 * i))

def headLoc (t : Shmem x) (q : QueueId) : Loc x := slotWord t q 0 0

def tailLoc (t : Shmem x) (q : QueueId) : Loc x := slotWord t q 1 0

def succ (t : Shmem x) (q : QueueId) (i : BitVec 32) : BitVec 32 := (i + 1) % t.msgSlots q

def room (t : Shmem x) : Nat := t.slotSize.toNat - msgHdrSize

def messageWrites (t : Shmem x) (q : QueueId) (slot : BitVec 32) (h : Hdr) (data : Msg) :
    List (Loc x × BitVec 32) :=
  (slotWord t q slot 0, h.word0) :: (slotWord t q slot 1, h.word1) ::
    (List.range (h.datalen.toNat / 4)).map fun i => (slotWord t q slot (2 + i), data i)

/-- The end of `rpmi_shmem_send()`: the tail makes the message visible. -/
def publish (t : Shmem x) (q : QueueId) (tail : BitVec 32) : Io x Rc :=
  .write (tailLoc t q) (succ t q tail)
    (if t.doorbell = 0 then .ret .success
    else .write (.device t.doorbell) t.doorbellValue (.ret .success))

/-- `rpmi_shmem_send()` with both indices read -/
def sendIndexed (t : Shmem x) (q : QueueId) (h : Hdr) (data : Msg) (head tail : BitVec 32) :
    Io x Rc :=
  if t.msgSlots q ≤ head ∨ t.msgSlots q ≤ tail then .ret .io
  else if succ t q tail = head then .ret .busy
  else if room t < h.datalen.toNat then .ret .invalidParam
  else writeAll (messageWrites t q (2 + tail) h data) (publish t q tail)

def ringSend (t : Shmem x) (q : QueueId) (h : Hdr) (data : Msg) : Io x Rc :=
  .read (headLoc t q) fun head => .read (tailLoc t q) (sendIndexed t q h data head)

def shmemSend (t : Shmem x) (q : QueueId) (h : Hdr) (data : Msg) : Io x Rc :=
  if (q ≠ .a2pReq ∧ q ≠ .a2pAck) ∨ t.queue q = 0 then .ret .invalidParam
  else ringSend t q h data

/-- What `rpmi_shmem_recv()` returns, with what it has written to the header and the buffer. -/
structure Got where
  rc : Rc
  hdr : Option Hdr
  data : List (BitVec 32)
  deriving DecidableEq

def fits (t : Shmem x) (max : Nat) (h : Hdr) : Prop :=
  h.datalen.toNat % 4 = 0 ∧ h.datalen.toNat ≤ room t ∧ h.datalen.toNat ≤ max

instance (t : Shmem x) (max : Nat) (h : Hdr) : Decidable (fits t max h) :=
  inferInstanceAs (Decidable (_ ∧ _))

/-- The end of `rpmi_shmem_recv()`: the message is consumed. -/
def consume (t : Shmem x) (q : QueueId) (head : BitVec 32) (got : Got) : Io x Got :=
  .write (headLoc t q) (succ t q head) (.ret got)

def dataLocs (t : Shmem x) (q : QueueId) (slot : BitVec 32) (h : Hdr) : List (Loc x) :=
  (List.range (h.datalen.toNat / 4)).map fun i => slotWord t q slot (2 + i)

/-- `rpmi_shmem_recv()` with the header read: a message that does not fit is consumed and
    reported. -/
def recvData (t : Shmem x) (q : QueueId) (max : Nat) (head : BitVec 32) (h : Hdr) : Io x Got :=
  if fits t max h then
    readAll (dataLocs t q (2 + head) h) fun data => consume t q head ⟨.success, some h, data⟩
  else consume t q head ⟨.badRange, some h, []⟩

/-- `rpmi_shmem_recv()` with both indices read -/
def recvIndexed (t : Shmem x) (q : QueueId) (max : Nat) (head tail : BitVec 32) : Io x Got :=
  if t.msgSlots q ≤ head ∨ t.msgSlots q ≤ tail then .ret ⟨.io, none, []⟩
  else if head = tail then .ret ⟨.noData, none, []⟩
  else
    .read (slotWord t q (2 + head) 0) fun w0 => .read (slotWord t q (2 + head) 1) fun w1 =>
      recvData t q max head (.ofWords w0 w1)

def ringRecv (t : Shmem x) (q : QueueId) (max : Nat) : Io x Got :=
  .read (headLoc t q) fun head => .read (tailLoc t q) (recvIndexed t q max head)

def shmemRecv (t : Shmem x) (q : QueueId) (max : Nat) : Io x Got :=
  if (q ≠ .p2aAck ∧ q ≠ .p2aReq) ∨ t.queue q = 0 then .ret ⟨.invalidParam, none, []⟩
  else ringRecv t q max

/-! ### What the probe makes sure of -/

theorem slotWord_eq (t : Shmem x) (q : QueueId) (slot : BitVec 32) (i : Nat) :
    slotWord t q slot i =
      .ram (t.queue q + BitVec.ofNat _ (slot.toNat * t.slotSize.toNat + 4 * i)) := by
  have hwide (v : BitVec 32) : v.setWidth x.bits = BitVec.ofNat x.bits v.toNat :=
    (BitVec.ofNat_toNat x.bits v).symm
  rw [slotWord, queueSlot, hwide, hwide, ← BitVec.ofNat_mul, BitVec.add_assoc, ← BitVec.ofNat_add]

theorem mem_queueIds (q : QueueId) : q ∈ queueIds := by cases q <;> decide

theorem probe_eq_some {node : Node} {t : Shmem x} (hprobe : probe node = some t) :
    t = node.shmem ∧ 64 ≤ node.slot.toNat ∧
      ∀ q r, node.queue q = some r → queueOk node.slot r.2 = true := by
  rw [probe] at hprobe
  split at hprobe
  · cases hprobe
  · next hslot =>
    split at hprobe
    · cases hprobe
    · next hqueues =>
      dsimp only at hprobe
      split_ifs at hprobe
      refine ⟨(Option.some.inj hprobe).symm, ?_, ?_⟩
      · have hmin : ¬ node.slot < slotSizeMin := fun hlt => hslot (.inl hlt)
        simpa [BitVec.lt_def, slotSizeMin] using hmin
      · intro q r hq
        by_contra hbad
        apply hqueues
        rw [List.any_eq_true]
        exact ⟨q, mem_queueIds q, by simp [hq, hbad]⟩

theorem queueOk_iff {slot : BitVec 32} {size : BitVec 64} :
    queueOk slot size = true ↔ size.toNat % slot.toNat = 0 ∧ 3 ≤ size.toNat / slot.toNat := by
  have hslot : (slot.setWidth 64).toNat = slot.toNat := by
    rw [BitVec.toNat_setWidth, Nat.mod_eq_of_lt (by have := slot.isLt; omega)]
  rw [queueOk, Bool.and_eq_true, decide_eq_true_iff, decide_eq_true_iff, BitVec.le_def,
    ← BitVec.toNat_inj, BitVec.toNat_umod, BitVec.toNat_udiv, hslot]
  exact Iff.rfl

def slots (node : Node) (size : BitVec 64) : Nat := size.toNat / node.slot.toNat

theorem toNat_msgSlots {node : Node} {q : QueueId} {r : BitVec 64 × BitVec 64}
    (hq : node.queue q = some r) (hok : queueOk node.slot r.2 = true) :
    ((node.shmem : Shmem x).msgSlots q).toNat = (slots node r.2 - 2) % 2 ^ 32 := by
  have hthree := (queueOk_iff.mp hok).2
  have hslot : (node.slot.setWidth 64).toNat = node.slot.toNat := by
    rw [BitVec.toNat_setWidth, Nat.mod_eq_of_lt (by have := node.slot.isLt; omega)]
  have htwo : (2 : BitVec 32).toNat = 2 := rfl
  simp only [Node.shmem, hq, Option.map_some, Option.getD_some, BitVec.toNat_sub,
    BitVec.toNat_setWidth, BitVec.toNat_udiv, hslot, htwo, slots]
  omega

theorem slots_mul {node : Node} {size : BitVec 64} (hok : queueOk node.slot size = true) :
    slots node size * node.slot.toNat = size.toNat :=
  Nat.div_mul_cancel (Nat.dvd_of_mod_eq_zero (queueOk_iff.mp hok).1)

end RiscvMonitor.RpmiShmem
