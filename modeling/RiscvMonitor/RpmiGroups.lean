import RiscvMonitor.Rpmi
import RiscvMonitor.Sbi
import RiscvMonitor.PmpLayout

/-!
# The RPMI service groups behind MPXY channels

`mpxy_rpmi.c` and `mpxy_rpmi_groups.c`.  A channel passes S-mode's messages on to the
PuC.  The monitor knows the services of a group with the lengths of their requests, and
which MSIs are not S-mode's: it asks the PuC, the first time the channel is used, and
keeps a table of bits.  Nothing of this is under a lock.
-/

namespace RiscvMonitor.Rpmi

variable {x : Xlen}

structure ServiceRule where
  service : BitVec 8
  reqMin : Nat
  reqMax : Nat
  deriving DecidableEq, Repr

def ruleAnyLen : Nat := 0xffff

structure GroupRules where
  group : BitVec 16
  services : List ServiceRule
  /-- The group has a `setup()` and a `filter()`: they are SYSTEM_MSI's. -/
  filters : Bool

/-- `NOTIFY`: ENABLE_NOTIFICATION is service 1 of every group. -/
def notifyRule : ServiceRule := ⟨0x01, 8, 8⟩

def sysmsiServices : List ServiceRule :=
  [notifyRule, ⟨0x02, 0, 0⟩, ⟨0x03, 4, 4⟩, ⟨0x04, 8, 8⟩, ⟨0x05, 4, 4⟩, ⟨0x06, 16, 16⟩, ⟨0x07, 4, 4⟩]

def voltageServices : List ServiceRule :=
  [notifyRule, ⟨0x02, 0, 0⟩, ⟨0x03, 4, 4⟩, ⟨0x04, 8, 8⟩, ⟨0x05, 8, 8⟩, ⟨0x06, 4, 4⟩, ⟨0x07, 8, 8⟩,
   ⟨0x08, 4, 4⟩]

def clockServices : List ServiceRule :=
  [notifyRule, ⟨0x02, 0, 0⟩, ⟨0x03, 4, 4⟩, ⟨0x04, 8, 8⟩, ⟨0x05, 8, 8⟩, ⟨0x06, 4, 4⟩,
   ⟨0x07, 16, 16⟩, ⟨0x08, 4, 4⟩]

def devicePowerServices : List ServiceRule :=
  [notifyRule, ⟨0x02, 0, 0⟩, ⟨0x03, 4, 4⟩, ⟨0x04, 8, 8⟩, ⟨0x05, 4, 4⟩]

def performanceServices : List ServiceRule :=
  [notifyRule, ⟨0x02, 0, 0⟩, ⟨0x03, 4, 4⟩, ⟨0x04, 8, 8⟩, ⟨0x05, 4, 4⟩, ⟨0x06, 8, 8⟩, ⟨0x07, 4, 4⟩,
   ⟨0x08, 12, 12⟩, ⟨0x09, 0, 0⟩, ⟨0x0a, 8, 8⟩]

def managementModeServices : List ServiceRule := [notifyRule, ⟨0x02, 0, 0⟩, ⟨0x03, 16, 16⟩]

def rasAgentServices : List ServiceRule :=
  [notifyRule, ⟨0x02, 0, 0⟩, ⟨0x03, 4, 4⟩, ⟨0x04, 8, 8⟩]

def requestForwardServices : List ServiceRule :=
  [notifyRule, ⟨0x02, 4, 4⟩, ⟨0x03, 0, ruleAnyLen⟩]

def groupSystemMsi : BitVec 16 := 0x0002

def groups : List GroupRules :=
  [⟨groupSystemMsi, sysmsiServices, true⟩, ⟨0x0007, voltageServices, false⟩,
   ⟨0x0008, clockServices, false⟩, ⟨0x0009, devicePowerServices, false⟩,
   ⟨0x000a, performanceServices, false⟩, ⟨0x000b, managementModeServices, false⟩,
   ⟨0x000c, rasAgentServices, false⟩, ⟨0x000d, requestForwardServices, false⟩]

def rpmiGroupRulesFind (group : BitVec 16) : Option GroupRules :=
  groups.find? fun r => r.group = group

def rpmiServiceRuleFind (rules : GroupRules) (service : BitVec 8) : Option ServiceRule :=
  rules.services.find? fun r => r.service = service

def ServiceRule.allows (r : ServiceRule) (len : Nat) : Prop :=
  r.reqMin ≤ len ∧ (r.reqMax = ruleAnyLen ∨ len ≤ r.reqMax)

instance (r : ServiceRule) (len : Nat) : Decidable (r.allows len) :=
  inferInstanceAs (Decidable (_ ∧ _))

/-- The checks of `mpxy_rpmi_send()` that need nothing from the PuC. -/
def sendCheck (rules : Option GroupRules) (msgId : BitVec 32) (len : Nat) : SbiError :=
  if msgId = 0 ∨ 0xff < msgId.toNat then .notSupported
  else if len % 4 ≠ 0 then .invalidParam
  else
    match rules with
    | none => .success
    | some r =>
      match rpmiServiceRuleFind r (msgId.setWidth 8) with
      | none => .notSupported
      | some rule => if rule.allows len then .success else .invalidParam

def rpmiToSbi : Rc → SbiError
  | .success => .success
  | .timeout => .timeout
  | .io => .io
  | .invalidParam => .invalidParam
  | .notSupported => .notSupported
  | .denied => .denied
  | .invalidAddr => .invalidAddress
  | _ => .failed

/-! ### SYSTEM_MSI -/

structure Msis where
  numMsi : BitVec 32
  /-- FLAGS0 of GET_MSI_ATTRIBUTES -/
  flags0 : BitVec 32 → BitVec 32

structure Bounds (x : Xlen) where
  doorbell : BitVec 32
  maxSysmsi : Nat
  monitor : List (MemRegion x)
  domain : Nat → Domain x

structure Config (x : Xlen) extends Bounds x where
  group : BitVec 16
  msis : Msis

def prefMmode : BitVec 32 := 0x1

def Config.reserved (cfg : Config x) (index : BitVec 32) : Prop :=
  cfg.msis.flags0 index &&& prefMmode ≠ 0 ∨ index = cfg.doorbell

instance (cfg : Config x) (index : BitVec 32) : Decidable (cfg.reserved index) :=
  inferInstanceAs (Decidable (_ ∨ _))

def msiDenied (b : Bounds x) (table : Nat → Word x) (index : Nat) : Bool :=
  decide (b.maxSysmsi ≤ index) || (table (index / x.bits)).getLsbD (index % x.bits)

def Bounds.targetOk (b : Bounds x) (domain : Nat) (addr : BitVec 64) : Bool :=
  smodeWordOk b.monitor (b.domain domain) addr

/-- `sysmsi_filter()`, with what it has read of the channel's state. -/
def sysmsiFilter (b : Bounds x) (domain : Nat) (numMsi : BitVec 32) (table : Nat → Word x)
    (service : BitVec 8) (req : Msg) : Rc :=
  if service < 0x03 then .success
  else if numMsi ≤ req 0 then .invalidParam
  else if msiDenied b table (req 0).toNat then .denied
  else if service = 0x06 then
    if b.targetOk domain (regPairTo64 (req 2) (req 1)) then .success else .invalidAddr
  else .success

/-! ### The channel, used by any hart -/

structure Message where
  domain : Nat
  msgId : BitVec 32
  req : Msg
  len : Nat
  respMax : Option Nat

inductive Job
  | readAttr
  | send (m : Message)

/-- Where a hart is in `mpxy_rpmi_ask_puc()` and after it. -/
inductive Pos (x : Xlen)
  | out
  /-- The versions and ids, by number. -/
  | asking (k : Nat) (job : Job)
  /-- `sysmsi_setup()`: GET_ATTRIBUTES next. -/
  | attributes (job : Job)
  | question (index : Nat) (job : Job)
  /-- The MSI is to be marked: the word of the table is to be read, and has been. -/
  | load (index : Nat) (job : Job)
  | store (index : Nat) (word : Word x) (job : Job)
  | finish (job : Job)
  /-- `mpxy_rpmi_ask_puc()` has returned. -/
  | ready (job : Job)
  /-- `sysmsi_filter()` has read `num_msi`. -/
  | filtering (numMsi : BitVec 32) (m : Message)

inductive Answer
  | sbi (e : SbiError)
  | status (rc : Rc)
  /-- What the PuC says. -/
  | passedOn

structure Forwarded where
  domain : Nat
  service : BitVec 8
  req : Msg
  len : Nat
  posted : Bool

structure Channel (x : Xlen) where
  probed : Bool
  numMsi : BitVec 32
  msiDenied : Nat → Word x

structure Harts (x : Xlen) where
  ch : Channel x
  pos : Nat → Pos x
  sent : List Forwarded
  answers : List (Nat × Answer)

def atBoot (x : Xlen) : Harts x := ⟨⟨false, 0, fun _ => 0⟩, fun _ => .out, [], []⟩

inductive Use
  /-- `mpxy_rpmi_read_attr()` of an attribute that the PuC is asked for. -/
  | readAttr (hart : Nat)
  | send (hart : Nat) (m : Message)
  | goOn (hart : Nat) (rc : Rc)

namespace Harts

def move (s : Harts x) (hart : Nat) (p : Pos x) : Harts x :=
  { s with pos := Function.update s.pos hart p }

def leave (s : Harts x) (hart : Nat) (a : Answer) : Harts x :=
  { s.move hart .out with answers := s.answers ++ [(hart, a)] }

/-- `mpxy_rpmi_ask_puc()`, up to what it says of an earlier success. -/
def enter (s : Harts x) (hart : Nat) (job : Job) : Harts x :=
  s.move hart (if s.ch.probed then .ready job else .asking 0 job)

def pass (s : Harts x) (hart : Nat) (m : Message) : Harts x :=
  { s.leave hart .passedOn with
    sent := s.sent ++ [⟨m.domain, m.msgId.setWidth 8, m.req, m.len, m.respMax.isNone⟩] }

def refusal (m : Message) (rc : Rc) : Answer :=
  match m.respMax with
  | none => .sbi (rpmiToSbi rc)
  | some max => if max < 4 then .sbi (rpmiToSbi rc) else .status rc

def setMsiDenied (s : Harts x) (i : Nat) (w : Word x) : Harts x :=
  { s with ch := { s.ch with msiDenied := Function.update s.ch.msiDenied i w } }

def goOn (cfg : Config x) (s : Harts x) (hart : Nat) (rc : Rc) : Option (Harts x) :=
  let rules := rpmiGroupRulesFind cfg.group
  match s.pos hart with
  | .out => none
  | .asking k job =>
    if rc ≠ .success then s.leave hart (.sbi (rpmiToSbi rc))
    else if k < 3 then s.move hart (.asking (k + 1) job)
    else if rules.any GroupRules.filters then s.move hart (.attributes job)
    else s.move hart (.finish job)
  | .attributes job =>
    if rc ≠ .success then s.leave hart (.sbi (rpmiToSbi rc))
    else some { s.move hart (.question 0 job) with ch := { s.ch with numMsi := cfg.msis.numMsi } }
  | .question i job =>
    if ¬ (i < s.ch.numMsi.toNat ∧ i < cfg.maxSysmsi) then s.move hart (.finish job)
    else if rc ≠ .success then s.leave hart (.sbi (rpmiToSbi rc))
    else if cfg.reserved (BitVec.ofNat 32 i) then s.move hart (.load i job)
    else s.move hart (.question (i + 1) job)
  | .load i job => s.move hart (.store i (s.ch.msiDenied (i / x.bits)) job)
  | .store i w job =>
    (s.setMsiDenied (i / x.bits) (w ||| bit (i % x.bits))).move hart (.question (i + 1) job)
  | .finish job => some { s.move hart (.ready job) with ch := { s.ch with probed := true } }
  | .ready .readAttr => s.leave hart (.sbi .success)
  | .ready (.send m) =>
    if rules.any GroupRules.filters then s.move hart (.filtering s.ch.numMsi m)
    else s.pass hart m
  | .filtering num m =>
    match sysmsiFilter cfg.toBounds m.domain num s.ch.msiDenied (m.msgId.setWidth 8) m.req with
    | .success => s.pass hart m
    | rc => s.leave hart (refusal m rc)

def step (cfg : Config x) (s : Harts x) : Use → Option (Harts x)
  | .readAttr hart =>
    match s.pos hart with
    | .out => s.enter hart .readAttr
    | _ => none
  | .send hart m =>
    match s.pos hart with
    | .out =>
      match sendCheck (rpmiGroupRulesFind cfg.group) m.msgId m.len with
      | .success => s.enter hart (.send m)
      | e => s.leave hart (.sbi e)
    | _ => none
  | .goOn hart rc => s.goOn cfg hart rc

end Harts

end RiscvMonitor.Rpmi
