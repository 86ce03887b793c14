import RiscvMonitor.Masks
import RiscvMonitor.Sbi
import RiscvMonitor.Replies

/-!
# Debug triggers

`dbtr.c`: S-mode asks for triggers through entries in shared memory, and the monitor
programs them.  What a write leaves in the registers of a trigger is for the
hardware to say.  The record of the triggers is kept for each domain and hart, the
registers are there once: a hart that changes domain takes the installed triggers
out of them, and puts those of the other domain back.
-/

namespace RiscvMonitor.Dbtr

open Masks

variable {x : Xlen}

/-! ### Types of triggers -/

def tdata1Type (v : Word x) : Nat := (v >>> (x.bits - 4)).toNat

def tdata1Dmode : Word x := bit (x.bits - 5)

structure TriggerType (x : Xlen) where
  u : Word x
  s : Word x
  m : Word x
  vu : Word x
  vs : Word x
  chain : Word x
  hit : Word x

def triggerTypes : Nat → TriggerType x
  | 2 => { u := bit 3, s := bit 4, m := bit 6, vu := 0, vs := 0, chain := bit 11, hit := bit 20 }
  | 3 =>
    { u := bit 6, s := bit 7, m := bit 9, vu := bit 25, vs := bit 26, chain := 0,
      hit := bit 24 ||| bit 8 }
  | 4 | 5 =>
    { u := bit 6, s := bit 7, m := bit 9, vu := bit 11, vs := bit 12, chain := 0,
      hit := bit (x.bits - 6) }
  | 6 =>
    { u := bit 3, s := bit 4, m := bit 6, vu := bit 23, vs := bit 24, chain := bit 11,
      hit := bit 22 ||| bit 25 }
  | _ => { u := 0, s := 0, m := 0, vu := 0, vs := 0, chain := 0, hit := 0 }

def typeOf (tdata1 : Word x) : TriggerType x := triggerTypes (tdata1Type tdata1)

def modeBits (tdata1 : Word x) : Word x :=
  (typeOf tdata1).u ||| (typeOf tdata1).s ||| (typeOf tdata1).vu ||| (typeOf tdata1).vs

def chained (tdata1 : Word x) : Bool := has tdata1 (typeOf tdata1).chain

structure Trigger (x : Xlen) where
  tdata1 : Word x
  tdata2 : Word x
  tdata3 : Word x
deriving DecidableEq

/-- The trigger module of a hart.  All three registers are WARL. -/
structure Hardware (x : Xlen) where
  /-- `tselect` holds the index; there is no `tselect` if it holds none. -/
  tselect : Nat → Bool
  /-- `tinfo`, which is optional. -/
  tinfo : Nat → Option (BitVec 16)
  hasTdata3 : Bool
  write1 : Nat → Trigger x → Word x → Trigger x
  write2 : Nat → Trigger x → Word x → Trigger x
  write3 : Nat → Trigger x → Word x → Trigger x
  /-- A register that is not there does not change. -/
  noTdata3 : hasTdata3 = false → ∀ i t v, (write1 i t v).tdata3 = t.tdata3 ∧
    (write2 i t v).tdata3 = t.tdata3 ∧ (write3 i t v).tdata3 = t.tdata3

def hwClear (hw : Hardware x) (i : Nat) (t : Trigger x) : Trigger x :=
  let t := hw.write1 i t 0
  let t :=
    if t.tdata1 = 0 then t else hw.write1 i t (t.tdata1 &&& 0xf#x.bits <<< (x.bits - 4))
  hw.write2 i t 0

def stateMapped : Word x := bit 0
def stateU : Word x := bit 1
def stateS : Word x := bit 2
def stateVu : Word x := bit 3
def stateVs : Word x := bit 4
def stateHaveHw : Word x := bit 5

def shmemNone : Word x := -1

structure Entry (x : Xlen) where
  idx : Word x
  tdata1 : Word x
  tdata2 : Word x
  tdata3 : Word x
deriving DecidableEq

def entrySize (x : Xlen) : Nat := x.bits / 8 * 4

structure DbtrHart (x : Xlen) where
  shmem : Word x
  count : Nat
  hasTdata3 : Bool
  types : Nat → BitVec 32
  state : Nat → Word x
  saved : Nat → Trigger x

def DbtrHart.mapped (d : DbtrHart x) (i : Nat) : Bool := has (d.state i) stateMapped

structure Hart (x : Xlen) where
  d : DbtrHart x
  trigger : Nat → Trigger x

structure Config (x : Xlen) where
  maxTriggers : Nat
  maxTriggers_le : maxTriggers ≤ 64
  hw : Hardware x
  /-- `smode_range_ok()`, in a domain. -/
  smodeRangeOk : Nat → Word x → Nat → Bool

def Hart.setTrigger (b : Hart x) (i : Nat) (t : Trigger x) : Hart x :=
  { b with trigger := Function.update b.trigger i t }

def Hart.setState (b : Hart x) (i : Nat) (state : Word x) : Hart x :=
  { b with d := { b.d with state := Function.update b.d.state i state } }

/-- The types of a trigger, a bit each: without `tinfo` the one in `tdata1` is the only one. -/
def typesFound (hw : Hardware x) (i : Nat) (t : Trigger x) : BitVec 32 :=
  match hw.tinfo i with
  | some types => types.setWidth 32
  | none => 1#32 <<< tdata1Type t.tdata1

/-- The loop of `dbtr_hart_init()`, from trigger `i` on, `n` at most. -/
def findTriggers (hw : Hardware x) : Nat → Nat → Hart x → Hart x
  | 0, _, b => b
  | n + 1, i, b =>
    if hw.tselect i then
      let types := typesFound hw i (b.trigger i)
      let b := { b with d := { b.d with types := Function.update b.d.types i types } }
      -- type 0: there is no trigger here
      if types = 1#32 then b
      else
        let b := b.setTrigger i (hwClear hw i (b.trigger i))
        findTriggers hw n (i + 1) { b with d := { b.d with count := i + 1 } }
    else b

def hartInit (cfg : Config x) (trigger : Nat → Trigger x) : Hart x :=
  let d : DbtrHart x :=
    { shmem := shmemNone, count := 0, hasTdata3 := false, types := fun _ => 0,
      state := fun _ => 0, saved := fun _ => ⟨0, 0, 0⟩ }
  let b := findTriggers cfg.hw cfg.maxTriggers 0 ⟨d, trigger⟩
  if b.d.count = 0 then b else { b with d := { b.d with hasTdata3 := cfg.hw.hasTdata3 } }

def switchOut (hw : Hardware x) (b : Hart x) : Hart x :=
  let taken := fun i => decide (i < b.d.count) && b.d.mapped i
  let read := fun i =>
    { b.trigger i with tdata3 := if b.d.hasTdata3 then (b.trigger i).tdata3 else 0 }
  { d := { b.d with saved := fun i => if taken i then read i else b.d.saved i }
    trigger := fun i => if taken i then hwClear hw i (b.trigger i) else b.trigger i }

/-- One trigger of `dbtr_hart_switch_in()`. -/
def writeBack (hw : Hardware x) (d : DbtrHart x) (i : Nat) (t : Trigger x) : Trigger x :=
  let t := hwClear hw i t
  let t := hw.write2 i t (d.saved i).tdata2
  let t := if d.hasTdata3 then hw.write3 i t (d.saved i).tdata3 else t
  hw.write1 i t (d.saved i).tdata1

def switchIn (cfg : Config x) (fresh : Bool) (b : Hart x) : Hart x :=
  if fresh then hartInit cfg b.trigger
  else
    { b with
      trigger := fun i =>
        if decide (i < b.d.count) && b.d.mapped i then writeBack cfg.hw b.d i (b.trigger i)
        else b.trigger i }

def numTriggers (d : DbtrHart x) (tdata1 : Word x) : Nat :=
  if tdata1 = 0 then d.count
  else if (typeOf tdata1).s = 0 then 0
  else (List.range d.count).countP fun i => (d.types i).getLsbD (tdata1Type tdata1)

def setShmem (cfg : Config x) (dom : Nat) (d : DbtrHart x) (lo hi flags : Word x) :
    DbtrHart x × SbiError :=
  if flags ≠ 0 then (d, .invalidParam)
  else if lo = -1 ∧ hi = -1 then ({ d with shmem := shmemNone }, .success)
  else if ¬ isAligned lo (BitVec.ofNat x.bits (x.bits / 8)) then (d, .invalidParam)
  else if hi ≠ 0 ∨ cfg.smodeRangeOk dom lo (d.count * entrySize x) = false then
    (d, .invalidAddress)
  else ({ d with shmem := lo }, .success)

def configCheck (cfg : Entry x) : SbiError :=
  if (typeOf cfg.tdata1).s = 0 then .notSupported
  else if has cfg.tdata1 tdata1Dmode || has cfg.tdata1 (typeOf cfg.tdata1).m then .invalidParam
  else .success

/-- `hw_program()`; false: the hardware did not take the configuration. -/
def hwProgram (hw : Hardware x) (hasTdata3 : Bool) (i : Nat) (cfg : Entry x) (t : Trigger x) :
    Trigger x × Bool :=
  let t := hwClear hw i t
  let t := hw.write2 i t cfg.tdata2
  if hasTdata3 = false ∧ cfg.tdata3 ≠ 0 then (t, false)
  else
    let t := if hasTdata3 then hw.write3 i t cfg.tdata3 else t
    let t := hw.write1 i t cfg.tdata1
    if has (t.tdata1 ^^^ cfg.tdata1) (~~~(typeOf cfg.tdata1).hit) then (hwClear hw i t, false)
    else (t, true)

def stateOf (i : Nat) (tdata1 : Word x) : Word x :=
  let t := typeOf tdata1
  let state := stateMapped ||| stateHaveHw ||| BitVec.ofNat x.bits i <<< 8
  let state := setIf (has tdata1 t.u) state stateU
  let state := setIf (has tdata1 t.s) state stateS
  let state := setIf (has tdata1 t.vu) state stateVu
  setIf (has tdata1 t.vs) state stateVs

def entriesGet (d : DbtrHart x) (count : Word x) : SbiError :=
  if d.shmem = shmemNone then .noShmem
  else if d.count < count.toNat then .badRange
  else .success

structure Reply (x : Xlen) where
  error : SbiError
  value : Word x
  mem : Nat → Entry x

def read (b : Hart x) (base count : Word x) (mem : Nat → Entry x) : Reply x :=
  if entriesGet b.d count ≠ .success then ⟨entriesGet b.d count, 0, mem⟩
  else if b.d.count ≤ base.toNat ∨ b.d.count - base.toNat < count.toNat then ⟨.badRange, 0, mem⟩
  else
    let out := fun i =>
      let t := b.trigger (base.toNat + i)
      ⟨b.d.state (base.toNat + i), t.tdata1, t.tdata2, if b.d.hasTdata3 then t.tdata3 else 0⟩
    ⟨.success, 0, fun i => if i < count.toNat then out i else mem i⟩

/-- `find_run()`, for the `len` configurations from `first` on. -/
def findRun (d : DbtrHart x) (mem : Nat → Entry x) (first len : Nat) (taken : Nat → Bool) :
    Option Nat :=
  (List.range d.count).find? fun start =>
    decide (start + len ≤ d.count) && (List.range len).all fun i =>
      !d.mapped (start + i) && !taken (start + i) &&
        (d.types (start + i)).getLsbD (tdata1Type (mem (first + i)).tdata1)

def validate (mem : Nat → Entry x) (count : Nat) : Option (SbiError × Nat) :=
  (List.range count).findSome? fun i =>
    if configCheck (mem i) ≠ .success then some (configCheck (mem i), i)
    else if i + 1 = count ∧ chained (mem i).tdata1 = true then some (.invalidParam, i)
    else none

/-- How many of at most `n` configurations from `i` on are one chain. -/
def chainLength (mem : Nat → Entry x) : Nat → Nat → Nat
  | 0, _ => 0
  | n + 1, i => if chained (mem i).tdata1 then chainLength mem n (i + 1) + 1 else 1

/-- Where the chains from `i` on go, or which of them goes nowhere; `n` bounds their number. -/
def place (d : DbtrHart x) (mem : Nat → Entry x) (count : Nat) :
    Nat → Nat → (Nat → Bool) → (Nat → Nat) → Except Nat (Nat → Nat)
  | 0, _, _, spot => .ok spot
  | n + 1, i, taken, spot =>
    if count ≤ i then .ok spot
    else
      let len := chainLength mem (count - i) i
      match findRun d mem i len taken with
      | none => .error i
      | some start =>
        place d mem count n (i + len)
          (fun k => taken k || (decide (start ≤ k) && decide (k < start + len)))
          (fun k => if i ≤ k ∧ k < i + len then start + (k - i) else spot k)

/-- What a failed `dbtr_install()` took, given back. -/
def giveBack (hw : Hardware x) (spot : Nat → Nat) : Nat → Hart x → Hart x
  | 0, b => b
  | i + 1, b =>
    let b := b.setTrigger (spot i) (hwClear hw (spot i) (b.trigger (spot i)))
    giveBack hw spot i (b.setState (spot i) 0)

/-- The triggers from entry `i` on, `n` to go, and the entry that the hardware did not take. -/
def programAll (hw : Hardware x) (mem : Nat → Entry x) (spot : Nat → Nat) :
    Nat → Nat → Hart x → Hart x × Option Nat
  | 0, _, b => (b, none)
  | n + 1, i, b =>
    let p := hwProgram hw b.d.hasTdata3 (spot i) (mem i) (b.trigger (spot i))
    let b := b.setTrigger (spot i) p.1
    if p.2 then
      programAll hw mem spot n (i + 1) (b.setState (spot i) (stateOf (spot i) (mem i).tdata1))
    else (giveBack hw spot i b, some i)

def install (hw : Hardware x) (b : Hart x) (count : Word x) (mem : Nat → Entry x) :
    Hart x × Reply x :=
  if entriesGet b.d count ≠ .success then (b, ⟨entriesGet b.d count, 0, mem⟩)
  else
    match validate mem count.toNat with
    | some (rc, i) => (b, ⟨rc, BitVec.ofNat _ i, mem⟩)
    | none =>
      match place b.d mem count.toNat count.toNat 0 (fun _ => false) (fun _ => 0) with
      | .error i => (b, ⟨.failed, BitVec.ofNat _ i, mem⟩)
      | .ok spot =>
        match programAll hw mem spot count.toNat 0 b with
        | (b, some i) => (b, ⟨.notSupported, BitVec.ofNat _ i, mem⟩)
        | (b, none) =>
          (b, ⟨.success, 0, fun i =>
            if i < count.toNat then { mem i with idx := BitVec.ofNat _ (spot i) }
            else mem i⟩)

/-- The loop of `dbtr_update()`, from entry `i` on, `n` to go. -/
def updateFrom (hw : Hardware x) (mem : Nat → Entry x) :
    Nat → Nat → Hart x → Hart x × SbiError × Nat
  | 0, _, b => (b, .success, 0)
  | n + 1, i, b =>
    let cfg := mem i
    let idx := cfg.idx.toNat
    let cur := (b.trigger idx).tdata1
    if configCheck cfg ≠ .success then (b, configCheck cfg, i)
    else if b.d.count ≤ idx then (b, .invalidParam, i)
    else if b.d.mapped idx = false then (b, .failed, i)
    -- an update keeps the kind of trigger and its place in a chain
    else if tdata1Type cur ≠ tdata1Type cfg.tdata1 ∨ chained cur ≠ chained cfg.tdata1 then
      (b, .invalidParam, i)
    else
      let p := hwProgram hw b.d.hasTdata3 idx cfg (b.trigger idx)
      let b := b.setTrigger idx p.1
      if p.2 then updateFrom hw mem n (i + 1) (b.setState idx (stateOf idx cfg.tdata1))
      else (b.setState idx 0, .notSupported, i)

def update (hw : Hardware x) (b : Hart x) (count : Word x) (mem : Nat → Entry x) :
    Hart x × Reply x :=
  if entriesGet b.d count ≠ .success then (b, ⟨entriesGet b.d count, 0, mem⟩)
  else
    let (b, rc, failed) := updateFrom hw mem count.toNat 0 b
    (b, ⟨rc, BitVec.ofNat _ failed, mem⟩)

inductive SetOp where
  | uninstall
  | enable
  | disable
deriving DecidableEq

def selected (base mask : Word x) : List (Word x) :=
  ((List.range x.bits).filter mask.getLsbD).map fun i => base + BitVec.ofNat x.bits i

/-- One trigger of `set_op_apply()`. -/
def setOpOne (hw : Hardware x) (op : SetOp) (b : Hart x) (idx : Word x) : Hart x :=
  let i := idx.toNat
  if op = .uninstall then (b.setTrigger i (hwClear hw i (b.trigger i))).setState i 0
  else
    let state := b.d.state i
    let tdata1 := (b.trigger i).tdata1
    let t := typeOf tdata1
    let modes :=
      if op = .enable then
        setIf (has state stateVs) (setIf (has state stateVu) (setIf (has state stateS)
          (setIf (has state stateU) 0 t.u) t.s) t.vu) t.vs
      else 0
    b.setTrigger i (hw.write1 i (b.trigger i) (clear tdata1 (modeBits tdata1) ||| modes))

def setOpApply (hw : Hardware x) (b : Hart x) (base mask : Word x) (op : SetOp) :
    Hart x × SbiError :=
  if (selected base mask).all fun idx =>
      decide (base ≤ idx) && decide (idx.toNat < b.d.count) && b.d.mapped idx.toNat then
    ((selected base mask).foldl (setOpOne hw op) b, .success)
  else (b, .invalidParam)

inductive Call (x : Xlen) where
  | numTriggers (tdata1 : Word x)
  | setShmem (lo hi flags : Word x)
  | read (base count : Word x)
  | install (count : Word x)
  | update (count : Word x)
  | uninstall (base mask : Word x)
  | enable (base mask : Word x)
  | disable (base mask : Word x)

/-- `sbi_dbtr_ecall()` of domain `dom`, with what is in the shared memory. -/
def ecall (cfg : Config x) (dom : Nat) (b : Hart x) (c : Call x × (Nat → Entry x)) :
    Hart x × Reply x :=
  let done := fun (r : Hart x × SbiError) => (r.1, (⟨r.2, 0, c.2⟩ : Reply x))
  match c.1 with
  | .numTriggers tdata1 => (b, ⟨.success, BitVec.ofNat _ (numTriggers b.d tdata1), c.2⟩)
  | .setShmem lo hi flags =>
    let r := setShmem cfg dom b.d lo hi flags
    ({ b with d := r.1 }, ⟨r.2, 0, c.2⟩)
  | .read base count => (b, read b base count c.2)
  | .install count => install cfg.hw b count c.2
  | .update count => update cfg.hw b count c.2
  | .uninstall base mask => done (setOpApply cfg.hw b base mask .uninstall)
  | .enable base mask => done (setOpApply cfg.hw b base mask .enable)
  | .disable base mask => done (setOpApply cfg.hw b base mask .disable)

/-! ### A hart and its domains -/

structure Sys (x : Xlen) where
  domain : Nat
  dbtr : Nat → DbtrHart x
  trigger : Nat → Trigger x

def Sys.hart (s : Sys x) : Hart x := ⟨s.dbtr s.domain, s.trigger⟩

def Sys.put (s : Sys x) (b : Hart x) : Sys x :=
  { s with dbtr := Function.update s.dbtr s.domain b.d, trigger := b.trigger }

def call (cfg : Config x) (s : Sys x) (c : Call x × (Nat → Entry x)) : Sys x × Reply x :=
  let r := ecall cfg s.domain s.hart c
  (s.put r.1, r.2)

inductive Event (x : Xlen) where
  | call (c : Call x) (mem : Nat → Entry x)
  /-- A trigger matches: the hardware notes it in `tdata1`. -/
  | fires (i : Nat) (tdata1 : Word x)

def event (cfg : Config x) (s : Sys x) : Event x → Sys x
  | .call c mem => (call cfg s (c, mem)).1
  | .fires i tdata1 =>
    { s with trigger := Function.update s.trigger i { s.trigger i with tdata1 := tdata1 } }

def switch (cfg : Config x) (s : Sys x) (dom : Nat) (fresh : Bool) : Sys x :=
  let s := { s.put (switchOut cfg.hw s.hart) with domain := dom }
  s.put (switchIn cfg fresh s.hart)

inductive Step (x : Xlen) where
  | event (e : Event x)
  | switch (dom : Nat) (fresh : Bool)

def step (cfg : Config x) (s : Sys x) : Step x → Sys x
  | .event e => event cfg s e
  | .switch dom fresh => switch cfg s dom fresh

def boot (cfg : Config x) (home : Nat) (trigger : Nat → Trigger x) : Sys x :=
  let none : DbtrHart x :=
    { shmem := 0, count := 0, hasTdata3 := false, types := fun _ => 0, state := fun _ => 0,
      saved := fun _ => ⟨0, 0, 0⟩ }
  Sys.put ⟨home, fun _ => none, trigger⟩ (hartInit cfg trigger)

end RiscvMonitor.Dbtr
