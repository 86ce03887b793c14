import RiscvMonitor.MpxyCalls
import RiscvMonitor.RpmiShmem

/-!
# The bounds of the shared memory transport

Nothing that the PuC can write to the shared memory, before or during a call, makes
`rpmi_shmem_send()` or `rpmi_shmem_recv()` leave the queue, or overrun the buffer of
the receiver.  What `deliver_events()` hands on from such a buffer are whole events.
-/

namespace RiscvMonitor.RpmiShmem

open Rpmi (Hdr Msg Rc msgHdrSize)
open AccessProg (always_readAll always_writeAll)

variable {x : Xlen}

/-! ### The queue's region -/

def InRegion (node : Node) (q : QueueId) (loc : Loc x) : Prop :=
  ∃ r off, node.queue q = some r ∧ off + 4 ≤ r.2.toNat ∧
    loc = .ram (r.1.setWidth x.bits + BitVec.ofNat _ off)

variable {node : Node} {q : QueueId} {r : BitVec 64 × BitVec 64}

theorem slotWord_inRegion (hq : node.queue q = some r) (hok : queueOk node.slot r.2 = true)
    {slot : BitVec 32} {i : Nat} (hslot : slot.toNat < slots node r.2)
    (hword : 4 * i + 4 ≤ node.slot.toNat) :
    InRegion node q (slotWord (node.shmem : Shmem x) q slot i) := by
  refine ⟨r, slot.toNat * node.slot.toNat + 4 * i, hq, ?_, ?_⟩
  · calc slot.toNat * node.slot.toNat + 4 * i + 4
        ≤ (slot.toNat + 1) * node.slot.toNat := by rw [Nat.add_one_mul slot.toNat]; omega
      _ ≤ slots node r.2 * node.slot.toNat := Nat.mul_le_mul_right _ hslot
      _ = r.2.toNat := slots_mul hok
  · rw [slotWord_eq]
    simp only [Node.shmem, hq, Option.map_some, Option.getD_some]

theorem toNat_msgSlot_lt (hq : node.queue q = some r) (hok : queueOk node.slot r.2 = true)
    {i : BitVec 32} (hi : ¬ (node.shmem : Shmem x).msgSlots q ≤ i) :
    (2 + i).toNat < slots node r.2 := by
  have hthree : 3 ≤ slots node r.2 := (queueOk_iff.mp hok).2
  have hlt : i.toNat < ((node.shmem : Shmem x).msgSlots q).toNat := by
    rw [BitVec.le_def] at hi
    omega
  rw [toNat_msgSlots hq hok] at hlt
  have hmod := Nat.mod_le (slots node r.2 - 2) (2 ^ 32)
  have hsum : (2 + i).toNat ≤ 2 + i.toNat := by
    rw [BitVec.toNat_add]
    exact Nat.mod_le _ _
  omega

/-! ### Sending -/

/-- Where a send may go: the queue, and the doorbell. -/
def SendsTo (node : Node) (q : QueueId) (loc : Loc x) : Prop :=
  InRegion node q loc ∨ loc = .device (node.shmem : Shmem x).doorbell

/-- What a receive of up to `max` bytes leaves in the buffer. -/
def Within (max : Nat) (got : Got) : Prop :=
  4 * got.data.length ≤ max ∧
    (got.rc = .success → ∃ h ∈ got.hdr, h.datalen.toNat = 4 * got.data.length)

section

variable (hslot : 64 ≤ node.slot.toNat) (hq : node.queue q = some r)
  (hok : queueOk node.slot r.2 = true)
include hslot hq hok

theorem headLoc_inRegion : InRegion node q (headLoc (node.shmem : Shmem x) q) := by
  have hthree : 3 ≤ slots node r.2 := (queueOk_iff.mp hok).2
  exact slotWord_inRegion hq hok (show 0 < _ by omega) (by omega)

theorem tailLoc_inRegion : InRegion node q (tailLoc (node.shmem : Shmem x) q) := by
  have hthree : 3 ≤ slots node r.2 := (queueOk_iff.mp hok).2
  exact slotWord_inRegion hq hok (show 1 < _ by omega) (by omega)

theorem dataWord_inRegion {h : Hdr} (hroom : h.datalen.toNat ≤ room (node.shmem : Shmem x))
    {i : BitVec 32} (hi : ¬ (node.shmem : Shmem x).msgSlots q ≤ i) {j : Nat}
    (hj : j < h.datalen.toNat / 4) :
    InRegion node q (slotWord (node.shmem : Shmem x) q (2 + i) (2 + j)) := by
  apply slotWord_inRegion hq hok (toNat_msgSlot_lt hq hok hi)
  have hroom : h.datalen.toNat ≤ node.slot.toNat - 8 := hroom
  omega

theorem sendIndexed_always (h : Hdr) (data : Msg) (head tail : BitVec 32) :
    (sendIndexed (node.shmem : Shmem x) q h data head tail).Always (SendsTo node q)
      fun _ => True := by
  rw [sendIndexed]
  split
  · trivial
  · next hchecked =>
    split
    · trivial
    · split
      · trivial
      · next hfits =>
        have htail : ¬ (node.shmem : Shmem x).msgSlots q ≤ tail := fun hle => hchecked (.inr hle)
        apply always_writeAll
        · simp only [messageWrites, List.mem_cons, List.mem_map, List.mem_range]
          rintro w (rfl | rfl | ⟨j, hj, rfl⟩)
          · exact .inl (slotWord_inRegion hq hok (toNat_msgSlot_lt hq hok htail) (by omega))
          · exact .inl (slotWord_inRegion hq hok (toNat_msgSlot_lt hq hok htail) (by omega))
          · exact .inl (dataWord_inRegion hslot hq hok (by omega) htail hj)
        · refine ⟨.inl (tailLoc_inRegion hslot hq hok), ?_⟩
          split
          · trivial
          · exact ⟨.inr rfl, trivial⟩

theorem recvData_always (max : Nat) {head : BitVec 32}
    (hhead : ¬ (node.shmem : Shmem x).msgSlots q ≤ head) (h : Hdr) :
    (recvData (node.shmem : Shmem x) q max head h).Always (InRegion node q)
      (Within max) := by
  have hheadLoc := headLoc_inRegion (x := x) hslot hq hok
  rw [recvData]
  split
  · next hfits =>
    obtain ⟨haligned, hroom, hmax⟩ := hfits
    apply always_readAll
    · simp only [dataLocs, List.mem_map, List.mem_range]
      rintro loc ⟨j, hj, rfl⟩
      exact dataWord_inRegion hslot hq hok hroom hhead hj
    · intro data hlen
      rw [dataLocs, List.length_map, List.length_range] at hlen
      refine ⟨hheadLoc, ?_, fun _ => ⟨h, rfl, ?_⟩⟩
      · show 4 * data.length ≤ max
        omega
      · show h.datalen.toNat = 4 * data.length
        omega
  · exact ⟨hheadLoc, Nat.zero_le _, fun hrc => by cases hrc⟩

end

/-! ### The two calls -/

theorem shmemSend_always {t : Shmem x} (hprobe : probe node = some t) (q : QueueId) (h : Hdr)
    (data : Msg) : (shmemSend t q h data).Always (SendsTo node q) fun _ => True := by
  obtain ⟨rfl, hslot, hqueues⟩ := probe_eq_some hprobe
  rw [shmemSend]
  split
  · trivial
  · next hthere =>
    cases hq : node.queue q with
    | none =>
      -- a queue that is not there has base 0
      exact absurd (.inr (by simp [Node.shmem, hq])) hthere
    | some r =>
      have hok := hqueues q r hq
      exact ⟨.inl (headLoc_inRegion hslot hq hok), fun head =>
        ⟨.inl (tailLoc_inRegion hslot hq hok), sendIndexed_always hslot hq hok h data head⟩⟩

theorem shmemRecv_always {t : Shmem x} (hprobe : probe node = some t) (q : QueueId) (max : Nat) :
    (shmemRecv t q max).Always (InRegion node q) (Within max) := by
  obtain ⟨rfl, hslot, hqueues⟩ := probe_eq_some hprobe
  have hnone (rc : Rc) (hrc : rc ≠ .success) : Within max ⟨rc, none, []⟩ :=
    ⟨Nat.zero_le _, fun heq => absurd heq hrc⟩
  rw [shmemRecv]
  split
  · exact hnone .invalidParam (by decide)
  · next hthere =>
    cases hq : node.queue q with
    | none => exact absurd (.inr (by simp [Node.shmem, hq])) hthere
    | some r =>
      have hok := hqueues q r hq
      refine ⟨headLoc_inRegion hslot hq hok, fun head => ⟨tailLoc_inRegion hslot hq hok, ?_⟩⟩
      intro tail
      rw [recvIndexed]
      split
      · exact hnone .io (by decide)
      · next hchecked =>
        have hhead : ¬ (node.shmem : Shmem x).msgSlots q ≤ head := fun hle => hchecked (.inl hle)
        split
        · exact hnone .noData (by decide)
        · have hmsg := toNat_msgSlot_lt hq hok hhead
          exact ⟨slotWord_inRegion hq hok hmsg (by omega), fun w0 =>
            ⟨slotWord_inRegion hq hok hmsg (by omega), fun w1 =>
              recvData_always hslot hq hok max hhead _⟩⟩

/-! ### Events -/

/-- `RPMI_EVENT_HDR_SIZE + RPMI_EVENT_DATALEN(hdr)` -/
def eventSize (hdr : BitVec 32) : Nat := 4 + hdr.toNat % 0x10000

/-- The loop of `deliver_events()` at `len` -/
def eventsLen (buf : Msg) (datalen len : Nat) : Nat :=
  if len + 4 ≤ datalen then
    let next := len + eventSize (buf (len / 4))
    if next % 4 ≠ 0 ∨ datalen < next then len else eventsLen buf datalen next
  else len
  termination_by datalen - len
  decreasing_by
    unfold eventSize
    omega

/-- Whole events, each at the beginning of a word, from one offset to another. -/
inductive WholeEvents (buf : Msg) : Nat → Nat → Prop
  | nil (off : Nat) : off % 4 = 0 → WholeEvents buf off off
  | cons (off stop : Nat) : off % 4 = 0 →
      WholeEvents buf (off + eventSize (buf (off / 4))) stop → WholeEvents buf off stop

theorem eventsLen_spec (buf : Msg) (datalen len : Nat) (haligned : len % 4 = 0)
    (hle : len ≤ datalen) :
    WholeEvents buf len (eventsLen buf datalen len) ∧ eventsLen buf datalen len ≤ datalen := by
  fun_induction eventsLen buf datalen len with
  | case1 len _ _ _ => exact ⟨.nil len haligned, hle⟩
  | case2 len _ next hnext ih =>
    simp only [not_or, not_not, not_lt] at hnext
    obtain ⟨hwhole, hstop⟩ := ih hnext.1 hnext.2
    exact ⟨.cons len _ haligned hwhole, hstop⟩
  | case3 len _ => exact ⟨.nil len haligned, hle⟩

/-- What `p2a_drain()` hands to the sinks: the length of the events that `deliver_events()`
    finds in `p2a_buf`. -/
def handedOn (buf : Msg) (got : Got) : Option Nat :=
  match got.rc, got.hdr with
  | .success, some h =>
    let len := eventsLen (Mpxy.writeWords buf 0 got.data) h.datalen.toNat 0
    if h.is .notification ∧ len ≠ 0 then some len else none
  | _, _ => none

/-- What is handed on are whole events, and no more than has been received. -/
def HandsOnEvents (got : Got) : Prop :=
  ∀ buf, ∀ len ∈ handedOn buf got,
    WholeEvents (Mpxy.writeWords buf 0 got.data) 0 len ∧ len ≤ 4 * got.data.length

theorem Within.handsOnEvents {max : Nat} {got : Got} (hgot : Within max got) :
    HandsOnEvents got := by
  intro buf len hlen
  simp only [handedOn] at hlen
  split at hlen
  · next h hrc hhdr =>
    obtain ⟨h', hmem, hdata⟩ := hgot.2 hrc
    obtain rfl : h = h' := by simpa [hhdr] using hmem
    split at hlen
    · obtain rfl := Option.some.inj hlen
      rw [← hdata]
      exact eventsLen_spec _ _ 0 rfl (Nat.zero_le _)
    · cases hlen
  · cases hlen

/-- Whatever the shared memory is made to contain: the accesses stay in the queue's region, but
    for the doorbell, the buffer of the receiver is not overrun, and what is handed on of a
    notification are whole events. -/
theorem shmem_stays_in_bounds (t : Shmem x) (hprobe : probe node = some t) (q : QueueId)
    (max : Nat) :
    (∀ h data, (shmemSend t q h data).Always (SendsTo node q) fun _ => True) ∧
      (shmemRecv t q max).Always (InRegion node q) fun got =>
        4 * got.data.length ≤ max ∧ HandsOnEvents got :=
  ⟨shmemSend_always hprobe q,
    (shmemRecv_always hprobe q max).mono fun _ hgot => ⟨hgot.1, hgot.handsOnEvents⟩⟩

/-- Four queues of 64-byte slots, with two messages each. -/
def smallNode : Node where
  slotSize := none
  queue := fun
    | .a2pReq => some (0x1000, 256)
    | .p2aAck => some (0x2000, 256)
    | .p2aReq => some (0x3000, 256)
    | .a2pAck => some (0x4000, 256)
  doorbell := some 0x5000
  doorbellValue := none

theorem smallNode_stays_in_bounds :
    (probe smallNode : Option (Shmem .rv64)) = some smallNode.shmem ∧
      (shmemRecv (smallNode.shmem : Shmem .rv64) .p2aReq 56).Always (InRegion smallNode .p2aReq)
        fun got => 4 * got.data.length ≤ 56 ∧ HandsOnEvents got := by
  have hprobe : (probe smallNode : Option (Shmem .rv64)) = some smallNode.shmem := rfl
  exact ⟨hprobe, (shmem_stays_in_bounds _ hprobe .p2aReq 56).2⟩

end RiscvMonitor.RpmiShmem
