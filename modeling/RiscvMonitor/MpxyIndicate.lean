import RiscvMonitor.Mpxy
import RiscvMonitor.Runs

/-!
# The MSIs of MPXY channels

`mpxy_write_attributes()` checks a copy of the channel and then stores its fields one by
one; `mpxy_indicate()` reads the enable bit and the halves of the address one by one.
Nothing of it is under a lock, so a step is one access to a channel's fields.
-/

namespace RiscvMonitor.Mpxy

open Function (update update_of_ne update_self)

variable {x : Xlen} {n : Nat}

/-! ### The harts -/

/-- The fields of `staged = *ch` that a call can change, in order. -/
inductive Copy
  | events | control | low | high | data

def Copy.next : Copy → Option Copy
  | .events => some .control
  | .control => some .low
  | .low => some .high
  | .high => some .data
  | .data => none

def Copy.read (f : Copy) (ch staged : Channel) : Channel :=
  match f with
  | .events => { staged with eventsStateControl := ch.eventsStateControl }
  | .control => { staged with msiControl := ch.msiControl }
  | .low => { staged with msiAddrLow := ch.msiAddrLow }
  | .high => { staged with msiAddrHigh := ch.msiAddrHigh }
  | .data => { staged with msiData := ch.msiData }

/-- The stores at the end of the call, in order. -/
inductive Store
  | off | low | high | data | domain | control | events
  deriving DecidableEq

def Store.next : Store → Option Store
  | .off => some .low
  | .low => some .high
  | .high => some .data
  | .data => some .domain
  | .domain => some .control
  | .control => some .events
  | .events => none

def Store.write (f : Store) (dom : Nat) (staged ch : Channel) : Channel :=
  match f with
  | .off => { ch with msiControl := 0 }
  | .low => { ch with msiAddrLow := staged.msiAddrLow }
  | .high => { ch with msiAddrHigh := staged.msiAddrHigh }
  | .data => { ch with msiData := staged.msiData }
  | .domain => { ch with msiDomain := dom }
  | .control => { ch with msiControl := staged.msiControl }
  | .events => { ch with eventsStateControl := staged.eventsStateControl }

/-- A call of `mpxy_write_attributes()` for standard attributes; each value is read once. -/
structure Writing where
  domain : Nat
  place : Nat
  base : Nat
  count : Nat
  mem : Nat → BitVec 32

inductive Pos
  | out
  | copying (w : Writing) (f : Copy) (staged : Channel)
  | checking (w : Writing) (staged : Channel)
  | storing (w : Writing) (f : Store) (staged : Channel)
  /-- `mpxy_indicate()`: there was something to do a moment ago. -/
  | due
  | scanning (i : Nat)
  | control (i : Nat)
  | high (i : Nat)
  | low (i : Nat) (upper : BitVec 32)
  | poke (i : Nat) (addr : BitVec 64)

structure Sys (x : Xlen) (n : Nat) where
  chan : Nat → Channel
  indicationsDue : Bool
  pos : Fin n → Pos
  /-- The address and the domain of every call that got past `msi_target_ok()`. -/
  accepted : List (Nat × BitVec 64)
  /-- The words that `mpxy_indicate()` has written. -/
  pokes : List (Word x × BitVec 32)
  answers : List (Fin n × SbiError)

def boot (chan : Nat → Channel) : Sys x n where
  chan := fun i =>
    { chan i with msiControl := 0, msiAddrLow := 0, msiAddrHigh := 0, msiData := 0, msiDomain := 0 }
  indicationsDue := false
  pos := fun _ => .out
  accepted := []
  pokes := []
  answers := []

inductive Act (x : Xlen) (n : Nat)
  | write (hart : Fin n) (domain : Nat) (channelId base count : Word x) (mem : Nat → BitVec 32)
  | indicate (hart : Fin n)
  /-- The two stores of `mpxy_channel_events_due()`, from any context. -/
  | eventsDue (i : Nat)
  | indicationsDue
  | goOn (hart : Fin n)

namespace Sys

def move (s : Sys x n) (hart : Fin n) (p : Pos) : Sys x n :=
  { s with pos := update s.pos hart p }

def leave (s : Sys x n) (hart : Fin n) (e : SbiError) : Sys x n :=
  { s.move hart .out with answers := s.answers ++ [(hart, e)] }

def setChan (s : Sys x n) (i : Nat) (c : Channel) : Sys x n :=
  { s with chan := update s.chan i c }

/-- The next access of a hart, with `count` channels; a word of the monitor's is a panic. -/
def goOn (cfg : Config x) (count : Nat) (s : Sys x n) (hart : Fin n) : Option (Sys x n) :=
  match s.pos hart with
  | .out => none
  | .copying w f staged =>
    let staged := f.read (s.chan w.place) staged
    match f.next with
    | some g => s.move hart (.copying w g staged)
    | none => s.move hart (.checking w staged)
  | .checking w staged =>
    match stdAttrWrites staged w.base w.count w.mem with
    | .error e => s.leave hart e
    | .ok c =>
      if msiTargetOk cfg w.domain c then
        some { s.move hart (.storing w .off c) with
          accepted := s.accepted ++ [(w.domain, c.msiAddr)] }
      else s.leave hart .invalidParam
  | .storing w f staged =>
    let t := s.setChan w.place (f.write w.domain staged (s.chan w.place))
    match f.next with
    | some g => t.move hart (.storing w g staged)
    | none => t.leave hart .success
  | .due =>
    if s.indicationsDue then some { s.move hart (.scanning 0) with indicationsDue := false }
    else s.move hart .out
  | .scanning i =>
    if count ≤ i then s.move hart .out
    else if (s.chan i).eventsDue then
      (s.setChan i { s.chan i with eventsDue := false }).move hart (.control i)
    else s.move hart (.scanning (i + 1))
  | .control i =>
    -- Without an MSI the channel's SSE event is raised, if it has one.
    if (s.chan i).msiControl ≠ 0 then s.move hart (.high i) else s.move hart (.scanning (i + 1))
  | .high i => s.move hart (.low i (s.chan i).msiAddrHigh)
  | .low i upper => s.move hart (.poke i (regPairTo64 upper (s.chan i).msiAddrLow))
  | .poke i addr =>
    if monitorRangeClear cfg.monitor (addr.setWidth x.bits) 4 then
      some { s.move hart (.scanning (i + 1)) with
        pokes := s.pokes ++ [(addr.setWidth x.bits, (s.chan i).msiData)] }
    else none

def step (cfg : Config x) (count : Nat) (s : Sys x n) : Act x n → Option (Sys x n)
  | .write hart domain channelId base len mem =>
    match s.pos hart with
    | .out =>
      match attrRangeCheck domain ((List.range count).map s.chan) channelId base len with
      | .error e => s.leave hart e
      -- No protocol has attributes to write.
      | .ok (_, true) => s.leave hart .badRange
      | .ok (i, false) =>
        s.move hart (.copying ⟨domain, i, base.toNat, len.toNat, mem⟩ .events (s.chan i))
    | _ => none
  | .indicate hart =>
    match s.pos hart with
    | .out => if s.indicationsDue then s.move hart .due else s
    | _ => none
  | .eventsDue i =>
    if (s.chan i).has (capMsi ||| capSse) then
      s.setChan i { s.chan i with eventsDue := true }
    else s
  | .indicationsDue => some { s with indicationsDue := true }
  | .goOn hart => s.goOn cfg count hart

end Sys

/-! ### What is asked -/

/-- Some call got past `msi_target_ok()` with the whole address, which is aligned and its domain's
    to write. -/
def Sys.Accepted (cfg : Config x) (s : Sys x n) (addr : BitVec 64) : Prop :=
  ∃ dom, (dom, addr) ∈ s.accepted ∧ cfg.msiOk dom addr = true

/-- Every word went to an address that one call was checked for. -/
def Sys.Validated (cfg : Config x) (s : Sys x n) : Prop :=
  ∀ p ∈ s.pokes, ∃ addr, s.Accepted cfg addr ∧ p.1 = addr.setWidth x.bits

/-! ### The condition -/

/-- The hart has stored to the channel and has not stored the enable bit yet. -/
def Pos.StoresTo (i : Nat) : Pos → Prop
  | .storing w f _ => w.place = i ∧ f ≠ .off ∧ f ≠ .events
  | _ => False

/-- The hart has read the channel's enable bit, and not yet all of the address. -/
def Pos.Reads (i : Nat) : Pos → Prop
  | .high k | .low k _ => k = i
  | _ => False

instance (i : Nat) : (p : Pos) → Decidable (p.StoresTo i)
  | .storing _ _ _ => inferInstanceAs (Decidable (_ ∧ _))
  | .out | .copying _ _ _ | .checking _ _ | .due | .scanning _ | .control _ | .high _ | .low _ _
  | .poke _ _ => inferInstanceAs (Decidable False)

instance (i : Nat) : (p : Pos) → Decidable (p.Reads i)
  | .high _ | .low _ _ => inferInstanceAs (Decidable (_ = _))
  | .out | .copying _ _ _ | .checking _ _ | .storing _ _ _ | .due | .scanning _ | .control _
  | .poke _ _ => inferInstanceAs (Decidable False)

def Pos.Uses (i : Nat) (p : Pos) : Prop := p.StoresTo i ∨ p.Reads i

instance (i : Nat) (p : Pos) : Decidable (p.Uses i) := inferInstanceAs (Decidable (_ ∨ _))

/-- A hart begins to store to a channel while no hart is storing to it or reading its address. -/
def Act.alone (s : Sys x n) : Act x n → Prop
  | .goOn hart =>
    match s.pos hart with
    | .storing w .off _ => ∀ k, ¬ (s.pos k).Uses w.place
    | _ => True
  | _ => True

instance (s : Sys x n) : (a : Act x n) → Decidable (a.alone s)
  | .write _ _ _ _ _ _ | .indicate _ | .eventsDue _ | .indicationsDue =>
    inferInstanceAs (Decidable True)
  | .goOn hart => by
    unfold Act.alone
    dsimp only
    split <;> infer_instance

/-! ### The invariant -/

variable {c : Channel} {p : Pos} {hart : Fin n} {i count : Nat}

section Invariant

variable {cfg : Config x} {s t : Sys x n}

def Pos.Knows (cfg : Config x) (s : Sys x n) : Pos → Prop
  | .storing w f staged =>
    (staged.msiControl ≠ 0 → s.Accepted cfg staged.msiAddr) ∧
    (f ≠ .off → f ≠ .events → (s.chan w.place).msiControl = 0 ∧
      (f ≠ .low → (s.chan w.place).msiAddrLow = staged.msiAddrLow ∧
        (f ≠ .high → (s.chan w.place).msiAddrHigh = staged.msiAddrHigh)))
  | .high i => s.Accepted cfg (s.chan i).msiAddr
  | .low i upper => upper = (s.chan i).msiAddrHigh ∧ s.Accepted cfg (s.chan i).msiAddr
  | .poke _ addr => s.Accepted cfg addr
  | _ => True

structure Sys.Safe (cfg : Config x) (s : Sys x n) : Prop where
  /-- An MSI that is enabled has been checked. -/
  enabled : ∀ i, (s.chan i).msiControl ≠ 0 → s.Accepted cfg (s.chan i).msiAddr
  knows : ∀ k, (s.pos k).Knows cfg s
  /-- A hart that stores to a channel has it to itself. -/
  apart : ∀ h k i, (s.pos h).StoresTo i → (s.pos k).Uses i → h = k
  validated : s.Validated cfg

structure Channel.SameMsi (c d : Channel) : Prop where
  control : d.msiControl = c.msiControl
  low : d.msiAddrLow = c.msiAddrLow
  high : d.msiAddrHigh = c.msiAddrHigh

theorem Channel.SameMsi.refl (c : Channel) : c.SameMsi c := ⟨rfl, rfl, rfl⟩

theorem Channel.SameMsi.addr {d : Channel} (h : c.SameMsi d) : d.msiAddr = c.msiAddr := by
  rw [Channel.msiAddr, Channel.msiAddr, h.low, h.high]

theorem Sys.Accepted.mono {addr : BitVec 64} (haccepted : ∀ a ∈ s.accepted, a ∈ t.accepted)
    (h : s.Accepted cfg addr) : t.Accepted cfg addr := by
  obtain ⟨dom, hmem, hok⟩ := h
  exact ⟨dom, haccepted _ hmem, hok⟩

theorem Pos.Knows.mono (hp : p.Knows cfg s) (haccepted : ∀ a ∈ s.accepted, a ∈ t.accepted)
    (hsame : ∀ i, p.Uses i → (s.chan i).SameMsi (t.chan i)) : p.Knows cfg t := by
  cases p with
  | storing w f staged =>
    refine ⟨fun hon => (hp.1 hon).mono haccepted, ?_⟩
    intro hoff hevents
    have hchan := hsame w.place (.inl ⟨rfl, hoff, hevents⟩)
    rw [hchan.control, hchan.low, hchan.high]
    exact hp.2 hoff hevents
  | high i =>
    have hchan := hsame i (.inr rfl)
    simp only [Pos.Knows, hchan.addr]
    exact Sys.Accepted.mono haccepted hp
  | low i upper =>
    have hchan := hsame i (.inr rfl)
    simp only [Pos.Knows, hchan.addr, hchan.high]
    exact ⟨hp.1, hp.2.mono haccepted⟩
  | poke i addr => exact Sys.Accepted.mono haccepted hp
  | _ => trivial

section

variable (hs : s.Safe cfg) (hpos : t.pos = update s.pos hart p)
  (haccepted : ∀ a ∈ s.accepted, a ∈ t.accepted)
include hs hpos haccepted

/-- One hart moves.  The channels that the others use stay as they are, and it begins to use a
    channel only if they do not get in its way. -/
theorem Sys.Safe.move (hsame : ∀ k ≠ hart, ∀ i, (s.pos k).Uses i → (s.chan i).SameMsi (t.chan i))
    (henabled : ∀ i, (t.chan i).msiControl ≠ 0 → t.Accepted cfg (t.chan i).msiAddr)
    (hknows : p.Knows cfg t) (hstores : ∀ i, p.StoresTo i → ∀ k ≠ hart, ¬ (s.pos k).Uses i)
    (hreads : ∀ i, p.Reads i → ∀ k ≠ hart, ¬ (s.pos k).StoresTo i) (hvalidated : t.Validated cfg) :
    t.Safe cfg := by
  have hself : t.pos hart = p := by rw [hpos, update_self]
  have hother : ∀ k ≠ hart, t.pos k = s.pos k := by
    intro k hk
    rw [hpos, update_of_ne hk]
  refine ⟨henabled, ?_, ?_, hvalidated⟩
  · intro k
    by_cases hk : k = hart
    · rw [hk, hself]
      exact hknows
    · rw [hother k hk]
      exact (hs.knows k).mono haccepted (hsame k hk)
  · intro h k i hh hk
    by_cases hh' : h = hart
    · by_cases hk' : k = hart
      · rw [hh', hk']
      · rw [hh', hself] at hh
        rw [hother k hk'] at hk
        exact absurd hk (hstores i hh k hk')
    · rw [hother h hh'] at hh
      by_cases hk' : k = hart
      · rw [hk', hself] at hk
        rcases hk with hk | hk
        · exact absurd (.inl hh) (hstores i hk h hh')
        · exact absurd hh (hreads i hk h hh')
      · rw [hother k hk'] at hk
        exact hs.apart h k i hh hk

theorem Sys.Safe.move_free (hsame : ∀ i, (s.chan i).SameMsi (t.chan i)) (hknows : p.Knows cfg t)
    (hfree : ∀ i, ¬ p.Uses i) (hvalidated : t.Validated cfg) : t.Safe cfg := by
  refine hs.move hpos haccepted (fun k _ i _ => hsame i) ?_ hknows
    (fun i hi => absurd (.inl hi) (hfree i)) (fun i hi => absurd (.inr hi) (hfree i)) hvalidated
  intro i hon
  rw [(hsame i).control] at hon
  rw [(hsame i).addr]
  exact (hs.enabled i hon).mono haccepted

end

theorem Sys.Safe.move_only (hs : s.Safe cfg) (hart : Fin n) (hknows : p.Knows cfg s)
    (hfree : ∀ i, ¬ p.Uses i) : (s.move hart p).Safe cfg := by
  refine hs.move_free rfl (fun a ha => ha) (fun i => .refl _) ?_ hfree hs.validated
  exact hknows.mono (fun a ha => ha) (fun i _ => .refl _)

theorem Sys.Safe.leave (hs : s.Safe cfg) (hart : Fin n) (e : SbiError) :
    (s.leave hart e).Safe cfg :=
  hs.move_free rfl (fun _ ha => ha) (fun _ => .refl _) trivial (fun _ hi => hi.elim id id)
    hs.validated

theorem Sys.setChan_sameMsi (hc : (s.chan i).SameMsi c) (k : Nat) :
    (s.chan k).SameMsi ((s.setChan i c).chan k) := by
  unfold Sys.setChan
  dsimp only
  by_cases hk : k = i
  · rw [hk, update_self]
    exact hc
  · rw [update_of_ne hk]
    exact .refl _

theorem Sys.Safe.setChan (hs : s.Safe cfg) (hc : (s.chan i).SameMsi c) :
    (s.setChan i c).Safe cfg := by
  have hsame := Sys.setChan_sameMsi hc
  refine ⟨?_, ?_, hs.apart, hs.validated⟩
  · intro k hon
    rw [(hsame k).control] at hon
    rw [(hsame k).addr]
    exact hs.enabled k hon
  · intro k
    exact (hs.knows k).mono (fun a ha => ha) (fun j _ => hsame j)

theorem Sys.Safe.boot (cfg : Config x) (chan : Nat → Channel) : (boot chan : Sys x n).Safe cfg := by
  constructor
  · intro i hon
    exact absurd rfl hon
  · intro k
    trivial
  · intro h k i hh
    exact hh.elim
  · intro p hp
    cases hp

/-! ### The steps of a write -/

theorem Sys.Safe.check (hs : s.Safe cfg) {w : Writing} (hok : msiTargetOk cfg w.domain c = true) :
    ({ s.move hart (.storing w .off c) with
      accepted := s.accepted ++ [(w.domain, c.msiAddr)] } : Sys x n).Safe cfg := by
  have hmono : ∀ a ∈ s.accepted, a ∈ s.accepted ++ [(w.domain, c.msiAddr)] :=
    fun a ha => List.mem_append_left _ ha
  refine hs.move_free rfl hmono (fun i => .refl _) ?_ ?_ ?_
  · refine ⟨?_, fun hoff => absurd rfl hoff⟩
    intro hon
    refine ⟨w.domain, List.mem_append_right _ (List.mem_singleton_self _), ?_⟩
    exact (Bool.or_eq_true_iff.mp hok).resolve_left (by simpa using hon)
  · intro i hi
    rcases hi with hi | hi
    · exact hi.2.1 rfl
    · exact hi
  · intro p hp
    obtain ⟨addr, haddr, hp'⟩ := hs.validated p hp
    exact ⟨addr, haddr.mono hmono, hp'⟩

theorem Sys.Safe.store (hs : s.Safe cfg) (hothers : ∀ k ≠ hart, ¬ (s.pos k).Uses i)
    (hc : c.msiControl ≠ 0 → s.Accepted cfg c.msiAddr) (hknows : p.Knows cfg (s.setChan i c))
    (hstores : ∀ k, p.StoresTo k → k = i) (hreads : ∀ k, ¬ p.Reads k) :
    ((s.setChan i c).move hart p).Safe cfg := by
  have hchan : ∀ k ≠ i, ((s.setChan i c).move hart p).chan k = s.chan k :=
    fun k hk => update_of_ne hk _ _
  have hself : ((s.setChan i c).move hart p).chan i = c := update_self ..
  refine hs.move rfl (fun a ha => ha) ?_ ?_ ?_ ?_ (fun k hk => absurd hk (hreads k)) hs.validated
  · intro k hk j hj
    have hne : j ≠ i := by
      rintro rfl
      exact hothers k hk hj
    rw [hchan j hne]
    exact .refl _
  · intro k hon
    by_cases hk : k = i
    · rw [hk, hself] at hon ⊢
      exact hc hon
    · rw [hchan k hk] at hon ⊢
      exact hs.enabled k hon
  · exact hknows.mono (fun a ha => ha) (fun i _ => .refl _)
  · intro k hk
    rw [hstores k hk]
    exact hothers

theorem Sys.Safe.storing (hs : s.Safe cfg) {w : Writing} {f g : Store} {staged : Channel}
    (hpos : s.pos hart = .storing w f staged) (halone : (Act.goOn hart).alone s)
    (hnext : f.next = some g) :
    ((s.setChan w.place (f.write w.domain staged (s.chan w.place))).move hart
      (.storing w g staged)).Safe cfg := by
  have hknows := hs.knows hart
  rw [hpos] at hknows
  obtain ⟨hstaged, hbegun⟩ := hknows
  have hothers : ∀ k ≠ hart, ¬ (s.pos k).Uses w.place := by
    intro k hk huses
    by_cases hoff : f = .off
    · simp only [Act.alone, hpos, hoff] at halone
      exact halone k huses
    · refine hk (hs.apart hart k w.place ?_ huses).symm
      rw [hpos]
      refine ⟨rfl, hoff, ?_⟩
      rintro rfl
      cases hnext
  have hself : (s.setChan w.place (f.write w.domain staged (s.chan w.place))).chan w.place =
      f.write w.domain staged (s.chan w.place) := update_self ..
  refine hs.store hothers ?_ ⟨hstaged, ?_⟩ (fun k hk => hk.1.symm) (fun k hk => hk)
  · -- The enable bit is off until it is stored, and then the address is the call's.
    intro hon
    cases f with
    | off => exact absurd rfl hon
    | low | high | data | domain => exact absurd (hbegun (by decide) (by decide)).1 hon
    | control =>
      obtain ⟨-, hlater⟩ := hbegun (by decide) (by decide)
      obtain ⟨hlow, hhigh⟩ := hlater (by decide)
      simp only [Store.write, Channel.msiAddr, hlow, hhigh (by decide)]
      exact hstaged hon
    | events => cases hnext
  · intro hoff hevents
    rw [hself]
    cases f with
    | off =>
      cases hnext
      exact ⟨rfl, fun h => absurd rfl h⟩
    | low =>
      cases hnext
      exact ⟨(hbegun (by decide) (by decide)).1, fun _ => ⟨rfl, fun h => absurd rfl h⟩⟩
    | high =>
      cases hnext
      obtain ⟨hcontrol, hlater⟩ := hbegun (by decide) (by decide)
      exact ⟨hcontrol, fun _ => ⟨(hlater (by decide)).1, fun _ => rfl⟩⟩
    | data | domain =>
      cases hnext
      obtain ⟨hcontrol, hlater⟩ := hbegun (by decide) (by decide)
      obtain ⟨hlow, hhigh⟩ := hlater (by decide)
      exact ⟨hcontrol, fun _ => ⟨hlow, fun _ => hhigh (by decide)⟩⟩
    | control =>
      cases hnext
      exact absurd rfl hevents
    | events => cases hnext

/-! ### The steps of an indication -/

theorem Sys.Safe.high (hs : s.Safe cfg) (hart : Fin n) (hon : (s.chan i).msiControl ≠ 0) :
    (s.move hart (.high i)).Safe cfg := by
  refine hs.move rfl (fun a ha => ha) (fun k _ i _ => .refl _) hs.enabled (hs.enabled i hon)
    (fun k hk => hk.elim) ?_ hs.validated
  rintro k rfl h _ hstores
  -- A hart that is storing has turned the enable bit off.
  have hknows := hs.knows h
  cases hpos : s.pos h with
  | storing w f staged =>
    rw [hpos] at hstores hknows
    obtain ⟨rfl, hoff, hevents⟩ := hstores
    exact hon (hknows.2 hoff hevents).1
  | _ =>
    rw [hpos] at hstores
    exact hstores

theorem Sys.Safe.low (hs : s.Safe cfg) (hpos : s.pos hart = .high i) :
    (s.move hart (.low i (s.chan i).msiAddrHigh)).Safe cfg := by
  have hknows := hs.knows hart
  rw [hpos] at hknows
  refine hs.move rfl (fun a ha => ha) (fun k _ i _ => .refl _) hs.enabled ⟨rfl, hknows⟩
    (fun k hk => hk.elim) ?_ hs.validated
  rintro k rfl h hne hstores
  refine hne (hs.apart h hart _ hstores (.inr ?_))
  rw [hpos]
  rfl

theorem Sys.Safe.poke (hs : s.Safe cfg) {addr : BitVec 64} (hpos : s.pos hart = .poke i addr)
    (data : BitVec 32) :
    ({ s.move hart (.scanning (i + 1)) with
      pokes := s.pokes ++ [(addr.setWidth x.bits, data)] } : Sys x n).Safe cfg := by
  have hknows := hs.knows hart
  rw [hpos] at hknows
  refine hs.move_free rfl (fun a ha => ha) (fun i => .refl _) trivial (fun i hi => hi.elim id id) ?_
  intro p hp
  rcases List.mem_append.mp hp with hp | hp
  · exact hs.validated p hp
  · cases List.mem_singleton.mp hp
    exact ⟨addr, hknows, rfl⟩

theorem Sys.Safe.goOn (hs : s.Safe cfg) (halone : (Act.goOn hart).alone s)
    (hstep : s.goOn cfg count hart = some t) : t.Safe cfg := by
  have hknows := hs.knows hart
  unfold Sys.goOn at hstep
  generalize hpos : s.pos hart = pos at hstep hknows
  split at hstep
  all_goals repeat' first | cases hstep | split at hstep
  · exact hs.move_only hart trivial fun i hi => hi.elim id id
  · exact hs.move_only hart trivial fun i hi => hi.elim id id
  · exact hs.leave _ _
  · next hok => exact hs.check hok
  · exact hs.leave _ _
  · next hnext => exact hs.storing hpos halone hnext
  · next w f staged _ hnext =>
    cases f <;> cases hnext
    have hstored := hs.setChan (i := w.place)
      (c := Store.events.write w.domain staged (s.chan w.place)) ⟨rfl, rfl, rfl⟩
    exact hstored.leave _ _
  · exact hs.move_free rfl (fun a ha => ha) (fun i => .refl _) trivial
      (fun i hi => hi.elim id id) hs.validated
  · exact hs.move_only hart trivial fun i hi => hi.elim id id
  · exact hs.move_only hart trivial fun i hi => hi.elim id id
  · next i _ _ =>
    have hswapped := hs.setChan (i := i) (c := { s.chan i with eventsDue := false })
      ⟨rfl, rfl, rfl⟩
    exact hswapped.move_only hart trivial fun i hi => hi.elim id id
  · exact hs.move_only hart trivial fun i hi => hi.elim id id
  · next hon => exact hs.high hart hon
  · exact hs.move_only hart trivial fun i hi => hi.elim id id
  · exact hs.low hpos
  · obtain ⟨rfl, haccepted⟩ := hknows
    exact hs.move_only hart haccepted fun i hi => hi.elim id id
  · exact hs.poke hpos _

theorem Sys.Safe.step (hs : s.Safe cfg) {a : Act x n} (halone : a.alone s)
    (hstep : s.step cfg count a = some t) : t.Safe cfg := by
  unfold Sys.step at hstep
  split at hstep
  case h_5 => exact hs.goOn halone hstep
  all_goals repeat' first | cases hstep | split at hstep
  · exact hs.leave _ _
  · exact hs.leave _ _
  · exact hs.move_only _ trivial fun i hi => hi.elim id id
  · exact hs.move_only _ trivial fun i hi => hi.elim id id
  · exact hs
  · exact hs.setChan ⟨rfl, rfl, rfl⟩
  · exact hs
  · exact ⟨hs.enabled, hs.knows, hs.apart, hs.validated⟩

end Invariant

/-- In every interleaving in which a hart begins to store to a channel while no other hart stores to
    it or reads its address, each word goes to an address that was checked as a whole. -/
theorem run_validated {cfg : Config x} {count : Nat} {chan : Nat → Channel} {acts : List (Act x n)}
    {s : Sys x n}
    (halong : Runs.Along (Sys.step cfg count) (fun s a => a.alone s) (boot chan) acts)
    (hrun : Runs.run (Sys.step cfg count) (boot chan) acts = some s) : s.Validated cfg := by
  have hsafe : s.Safe cfg := by
    apply halong.invariant _ (Sys.Safe.boot cfg chan) hrun
    intro s a t hs halone hstep
    exact hs.step halone hstep
  exact hsafe.validated

def megabyte (base : Word .rv64) (hbase : base.toNat % 2 ^ 20 = 0) : DomainRegion .rv64 :=
  .megabyte (domainPermSuR ||| domainPermSuW) base hbase

/-- Domain 1 has the megabyte at 0x90000000 and the others the one at 0xa0000000. -/
def twoMegabytes : Config .rv64 where
  monitor := [⟨0x80000000, 0x40000, .mmodeRx⟩]
  domain := fun d =>
    { rootDomain {0, 1} 0 0x80200000 .supervisor with
      regions :=
        if d = 1 then ⟨[megabyte 0x90000000 (by decide)], List.pairwise_singleton _ _⟩
        else ⟨[megabyte 0xa0000000 (by decide)], List.pairwise_singleton _ _⟩ }

/-- A channel that every domain sees, with notifications by MSI. -/
def sharedChannel : Channel :=
  ⟨7, 0, 0x10000, 64, 0, 0, capMsi ||| capGetNotifications, 0, 0, 0, 0, 0, 0, 0, ownerAny, false⟩

/-- Domain 1 writes MSI_CONTROL, the address and the data, on hart 0. -/
def aimMsi (control low : BitVec 32) : List (Act .rv64 2) :=
  .write 0 1 7 7 4
      (fun i => if i = 0 then control else if i = 1 then low else if i = 3 then 5 else 0) ::
    List.replicate 13 (.goOn 0)

/-- There is news, and hart 1 comes by, up to where it has read the enable bit. -/
def comeBy : List (Act .rv64 2) :=
  [.eventsDue 0, .indicationsDue, .indicate 1] ++ List.replicate 3 (.goOn 1)

theorem run_validated_aimed :
    ∃ s, Runs.run (Sys.step twoMegabytes 1) (boot fun _ => sharedChannel)
        (aimMsi 1 0x90000000 ++ comeBy ++ List.replicate 3 (.goOn 1)) = some s ∧
      s.pokes = [(0x90000000, 5)] ∧ s.Validated twoMegabytes := by
  have halong : Runs.Along (Sys.step twoMegabytes 1) (fun s a => a.alone s)
      (boot fun _ => sharedChannel)
      (aimMsi 1 0x90000000 ++ comeBy ++ List.replicate 3 (.goOn 1)) := by
    decide +kernel
  exact ⟨_, rfl, by decide +kernel, run_validated halong rfl⟩

/-- With the MSI turned off any address is accepted.  Stored while hart 1 is between the enable bit
    and the address, it is where the word goes: to the other domain's memory. -/
theorem disabled_address_is_written :
    ∃ s, Runs.run (Sys.step twoMegabytes 1) (boot fun _ => sharedChannel)
        (aimMsi 1 0x90000000 ++ comeBy ++ aimMsi 0 0xa0000000 ++ List.replicate 3 (.goOn 1)) =
          some s ∧
      s.pokes = [(0xa0000000, 5)] ∧ s.accepted = [(1, 0x90000000), (1, 0xa0000000)] ∧
      twoMegabytes.msiOk 1 0xa0000000 = false ∧ ¬ s.Validated twoMegabytes := by
  have hrun : ∃ s, Runs.run (Sys.step twoMegabytes 1) (boot fun _ => sharedChannel)
      (aimMsi 1 0x90000000 ++ comeBy ++ aimMsi 0 0xa0000000 ++ List.replicate 3 (.goOn 1)) =
        some s ∧ s.pokes = [(0xa0000000, 5)] ∧
      s.accepted = [(1, 0x90000000), (1, 0xa0000000)] :=
    ⟨_, rfl, by decide +kernel, by decide +kernel⟩
  obtain ⟨s, hs, hpokes, haccepted⟩ := hrun
  have hdenied : twoMegabytes.msiOk 1 0xa0000000 = false := by decide +kernel
  refine ⟨s, hs, hpokes, haccepted, hdenied, ?_⟩
  intro hvalidated
  obtain ⟨addr, ⟨dom, hmem, hok⟩, heq⟩ := hvalidated _ (hpokes ▸ List.mem_singleton_self _)
  rw [haccepted] at hmem
  rcases List.mem_cons.mp hmem with h | h
  · cases h
    exact absurd heq (by decide)
  · cases List.mem_singleton.mp h
    rw [hdenied] at hok
    cases hok

end RiscvMonitor.Mpxy
