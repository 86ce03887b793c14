import RiscvMonitor.WindowSafety

/-!
# The fast channels of the performance registers

The PuC says once where its fast channels are, and once for every hart which two are
the hart's.  Two things rest on its answers: that what is used of them lies in the
region, and that a write goes to the word that the register has in the PuC's mode.
-/

namespace RiscvMonitor.Windows

open Runs (Along along_congr)

variable {x : Xlen} {s t : Machine x} {h : Nat}

/-! ### Where the channels are -/

def RegionResp.size (r : RegionResp) : Nat := (r.sizeHi ++ r.sizeLo).toNat

/-- The 8 bytes at `addr` are in the region. -/
def FastChannels.HasChannel (fc : FastChannels x) (addr : Word x) : Prop :=
  fc.base.toNat ≤ addr.toNat ∧ addr.toNat + 8 ≤ fc.base.toNat + fc.size.toNat

theorem toNat_addrFrom {lo hi : BitVec 32} {addr : Word x} (haddr : addrFrom lo hi = some addr) :
    addr.toNat = (hi ++ lo).toNat := by
  unfold addrFrom at haddr
  split at haddr
  · next hfits =>
    cases haddr
    rw [BitVec.toNat_setWidth]
    apply Nat.mod_eq_of_lt
    rcases hfits with hbits | rfl
    · rw [hbits]
      exact (hi ++ lo).isLt
    · have hlow : ((0 : BitVec 32) ++ lo).toNat = lo.toNat := by
        rw [BitVec.toNat_append]
        exact Nat.zero_or _
      rw [hlow]
      exact lo.isLt.trans_le (by cases x <;> decide)
  · cases haddr

theorem fcAccept_told {memregions : List (MemRegion x)} {boot : Bool} {r : RegionResp}
    {fc : FastChannels x} (hfc : fcAccept memregions boot r = some fc) :
    fc.size.toNat = r.size ∧ fc.autonomous = (r.mode == 1) := by
  unfold fcAccept at hfc
  simp only [Option.bind_eq_bind, Option.bind_eq_some_iff] at hfc
  obtain ⟨base, -, size, hsize, db, -, hfc⟩ := hfc
  split at hfc
  · cases hfc
    exact ⟨toNat_addrFrom hsize, rfl⟩
  · cases hfc

theorem aligned_of_or {m n : Word x} (halign : isAligned (m ||| n) 8 = true) :
    m.toNat % 8 = 0 ∧ n.toNat % 8 = 0 := by
  have hmod := (isAligned_iff (k := 3) toNat_eight).mp halign
  rw [BitVec.toNat_or, Nat.or_mod_two_pow, Nat.or_eq_zero_iff] at hmod
  exact hmod

/-- What the driver uses of a region that it accepts, by offsets that it accepts, is
    in the region, each channel for itself, unless the region has no room for one. -/
theorem fast_channels_inside_iff {memregions : List (MemRegion x)} {boot : Bool} {r : RegionResp}
    {fc : FastChannels x} (hfc : fcAccept memregions boot r = some fc) {o : OffsetResp}
    (husable : (fcOffsets fc o).usable = true) :
    (fc.HasChannel (fcOffsets fc o).request ∧ fc.HasChannel (fcOffsets fc o).feedback ∧
      ((fcOffsets fc o).request.toNat + 8 ≤ (fcOffsets fc o).feedback.toNat ∨
        (fcOffsets fc o).feedback.toNat + 8 ≤ (fcOffsets fc o).request.toNat)) ↔
      8 ≤ r.size := by
  obtain ⟨off₀, off₁, heq, halign, hne, hoff₀, hoff₁⟩ := fcOffsets_usable husable
  rw [heq, ← (fcAccept_told hfc).1]
  dsimp only [FastChannels.HasChannel]
  constructor
  · rintro ⟨⟨_, _⟩, -⟩
    omega
  · intro hroom
    have hroom' : 8 ≤ fc.size := by rwa [BitVec.le_def, toNat_eight]
    have hfit : fc.base.toNat + fc.size.toNat < 2 ^ x.bits := by
      refine lt_of_monitorRangeClear ?_ (fcAccept_spec hfc).2.2.1
      intro hzero
      rw [hzero] at hroom
      simp at hroom
    rw [BitVec.le_def, BitVec.toNat_sub_of_le hroom', toNat_eight] at hoff₀ hoff₁
    have hsum₀ : (fc.base + off₀).toNat = fc.base.toNat + off₀.toNat :=
      toNat_add_of_lt (by omega)
    have hsum₁ : (fc.base + off₁).toNat = fc.base.toNat + off₁.toNat :=
      toNat_add_of_lt (by omega)
    obtain ⟨hmod₀, hmod₁⟩ := aligned_of_or halign
    have hne : off₀.toNat ≠ off₁.toNat := fun h => hne (BitVec.eq_of_toNat_eq h)
    rw [hsum₀, hsum₁]
    omega

def regionOf (size : BitVec 32) : RegionResp := ⟨0, 0x90000000, 0, size, 0, 0, 0⟩

theorem fast_channels_inside_page :
    ∃ fc : FastChannels .rv64, fcAccept [] false (regionOf 0x1000) = some fc ∧
      fc.HasChannel (fcOffsets fc ⟨0, 0, 8, 0⟩).feedback :=
  ⟨_, rfl, ((@fast_channels_inside_iff .rv64 [] false (regionOf 0x1000) _ rfl _ rfl).mpr
    (by decide)).2.1⟩

/-- In four bytes the check of the offsets wraps, and lets every offset through. -/
theorem fast_channels_outside :
    ∃ fc : FastChannels .rv64, fcAccept [] false (regionOf 4) = some fc ∧
      (fcOffsets fc ⟨0x1000, 0, 0x1008, 0⟩).usable = true ∧
      ¬ fc.HasChannel (fcOffsets fc ⟨0x1000, 0, 0x1008, 0⟩).request :=
  ⟨_, rfl, rfl, by unfold FastChannels.HasChannel; decide⟩

/-! ### What a write goes to -/

/-- What `fc_write()` stores in the words of the request channel: (desired, 0), or
    one of (minimum, maximum). -/
def fcStores (fc : FastChannels x) (reg : BitVec 32) (val : BitVec 64) : List (Nat × BitVec 32) :=
  (if reg = 7 then 1 else 0, val.setWidth 32) :: if fc.autonomous then [] else [(1, 0)]

/-- `fc_write()`, with what it has stored; `none` is a write that is none for the
    request fast channel. -/
def fcWrite (s : Machine x) (h : Nat) (reg : BitVec 32) (val : BitVec 64)
    (region : Answer RegionResp) (offsets : Answer OffsetResp) :
    Option (Machine x × Option (List (Nat × BitVec 32))) :=
  if fcWrites s.fc reg val = false then some (s, none)
  else
    match fcHart s h region offsets with
    | (s, none) => some (s, none)
    | (s, some c) => do
        let s ← access s h c.request 8
        some (← fcRing s h, some (fcStores s.fc reg val))

variable {reg : BitVec 32} {val : BitVec 64} {region : Answer RegionResp}
  {offsets : Answer OffsetResp}

/-- `rpmi_cppc_write()` sends a message where `fc_write()` has stored nothing. -/
theorem cppcWrite_eq (reply : SbiError) :
    cppcWrite s h reg val region offsets reply =
      (fcWrite s h reg val region offsets).map fun r =>
        (r.1, if r.2.isSome then .success else reply) := by
  unfold cppcWrite fcWrite
  split
  · rfl
  · rcases fcHart s h region offsets with ⟨t, _ | c⟩
    · rfl
    · simp only [Option.bind_eq_bind, Option.map_bind, Function.comp_def]
      rfl

/-- A write of S-mode to a performance register, by hart `h`, and what the PuC says -/
structure CppcCall where
  h : Nat
  reg : BitVec 32
  val : BitVec 64
  region : Answer RegionResp
  offsets : Answer OffsetResp
  reply : SbiError

def cppcStep (s : Machine x) (e : CppcCall) : Option (Machine x) :=
  (cppcWrite s e.h e.reg e.val e.region e.offsets e.reply).map (·.1)

/-- The word of a request channel that a register has in the PuC's mode. -/
def modeWord (autonomous : Bool) (reg : BitVec 32) : Option Nat :=
  if autonomous then if reg = 6 then some 0 else if reg = 7 then some 1 else none
  else if reg = 5 then some 0 else none

/-- A write that stores nothing in a fast channel goes by message.  What it stores is the value,
    in the word that the register has in the mode told; in passive mode the other is zero. -/
def CppcCall.Meant (s : Machine x) (e : CppcCall) : Prop :=
  ∀ t r, fcWrite s e.h e.reg e.val e.region e.offsets = some (t, r) →
    match r with
    | none => cppcWrite s e.h e.reg e.val e.region e.offsets e.reply = some (t, e.reply)
    | some stores => ∃ w, modeWord t.fc.autonomous e.reg = some w ∧
        stores = (w, e.val.setWidth 32) :: if t.fc.autonomous then [] else [(1, 0)]

/-- A write that passes for one in passive mode, before the PuC has told its mode, is
    not what makes it tell the other one. -/
def CppcCall.Informed (s : Machine x) (e : CppcCall) : Prop :=
  s.fc.state = .unknown → e.reg = 5 → e.val ≤ 0xffffffff → ∀ r, e.region = .ok r → r.mode ≠ 1

/-- Until the channels are there, `autonomous` is what it is at first. -/
def Machine.Passive (s : Machine x) : Prop := s.fc.state ≠ .ready → s.fc.autonomous = false

theorem fcDiscover_fc :
    (fcDiscover s region).fc = s.fc ∨ s.fc.state = .unknown ∧
      ((fcDiscover s region).fc = { s.fc with state := .none } ∨
        ∃ r, region = .ok r ∧ (fcDiscover s region).fc.state = .ready ∧
          (fcDiscover s region).fc.autonomous = (r.mode == 1)) := by
  unfold fcDiscover
  split
  · exact .inl rfl
  · next hunknown =>
    replace hunknown := not_not.mp hunknown
    rcases region with _ | _ | r
    · exact .inl rfl
    · exact .inr ⟨hunknown, .inl rfl⟩
    · refine .inr ⟨hunknown, ?_⟩
      cases hfc : fcAccept s.memregions false r with
      | none => exact .inl (by simp [hfc])
      | some fc => exact .inr ⟨r, rfl, by simp [hfc, (fcAccept_spec hfc).1, (fcAccept_told hfc).2]⟩

theorem fcHart_fc :
    (fcHart s h region offsets).1.fc = (fcDiscover s region).fc := by
  unfold fcHart
  dsimp only
  split
  · rfl
  · split
    · rfl
    · cases offsets <;> rfl

theorem access_fc {addr size : Word x} (haccess : access s h addr size = some t) :
    t.fc = s.fc := by
  unfold access smodeAccessBegin at haccess
  split at haccess
  · cases haccess
  · cases haccess
    rfl

theorem fcRing_fc (hring : fcRing s h = some t) : t.fc = s.fc := by
  unfold fcRing at hring
  split at hring
  · cases hring
    rfl
  · exact access_fc hring

theorem Machine.Passive.discover (hs : s.Passive) (hfc : t.fc = (fcDiscover s region).fc) :
    t.Passive := by
  unfold Machine.Passive
  rw [hfc]
  intro hready
  rcases @fcDiscover_fc _ s region with hsame | ⟨hunknown, hnone | ⟨_, _, hthere, _⟩⟩
  · rw [hsame] at hready ⊢
    exact hs hready
  · rw [hnone]
    apply hs
    rw [hunknown]
    exact nofun
  · exact absurd hthere hready

/-- A write is none for a fast channel, or asks for what is not known yet. -/
theorem fcWrite_cases {stores : Option (List (Nat × BitVec 32))}
    (hwrite : fcWrite s h reg val region offsets = some (t, stores)) :
    t = s ∧ stores = none ∨ fcWrites s.fc reg val = true ∧
      t.fc = (fcDiscover s region).fc ∧ (stores = none ∨ stores = some (fcStores t.fc reg val)) := by
  unfold fcWrite at hwrite
  split at hwrite
  · cases hwrite
    exact .inl ⟨rfl, rfl⟩
  · next hwrites =>
    refine .inr ⟨Bool.not_eq_false _ ▸ hwrites, ?_⟩
    have hfc := @fcHart_fc _ s h region offsets
    generalize fcHart s h region offsets = r at hfc hwrite
    obtain ⟨u, _ | c⟩ := r
    · cases hwrite
      exact ⟨hfc, .inl rfl⟩
    · simp only [Option.bind_eq_bind, Option.bind_eq_some_iff] at hwrite
      obtain ⟨v, hopen, w, hring, hwrite⟩ := hwrite
      cases hwrite
      have hkept := fcRing_fc hring
      exact ⟨(hkept.trans (access_fc hopen)).trans hfc, .inr (by rw [hkept])⟩

theorem cppcStep_passive {e : CppcCall} (hs : s.Passive) (hstep : cppcStep s e = some t) :
    t.Passive := by
  simp only [cppcStep, cppcWrite_eq, Option.map_map, Option.map_eq_some_iff] at hstep
  obtain ⟨⟨u, stores⟩, hwrite, rfl⟩ := hstep
  rcases fcWrite_cases hwrite with ⟨rfl, -⟩ | ⟨-, hfc, -⟩
  · exact hs
  · exact hs.discover hfc

theorem stores_meant {fc : FastChannels x}
    (hwrites : fcWrites fc reg val = true) :
    ∃ w, modeWord fc.autonomous reg = some w ∧
      fcStores fc reg val = (w, val.setWidth 32) :: if fc.autonomous then [] else [(1, 0)] := by
  simp only [fcWrites, Bool.and_eq_true] at hwrites
  cases hmode : fc.autonomous with
  | false =>
    have hreg : reg = 5 := by simpa [hmode] using hwrites.1
    subst hreg
    exact ⟨0, rfl, by simp [fcStores, hmode]⟩
  | true =>
    have hreg : reg = 6 ∨ reg = 7 := by simpa [hmode] using hwrites.1
    rcases hreg with rfl | rfl
    · exact ⟨0, rfl, by simp [fcStores, hmode]⟩
    · exact ⟨1, rfl, by simp [fcStores, hmode]⟩

theorem CppcCall.Informed.meant {e : CppcCall} (hs : s.Passive) (he : e.Informed s) :
    e.Meant s := by
  rcases e with ⟨h, reg, val, region, offsets, reply⟩
  intro t stores hwrite
  have hmessage : cppcWrite s h reg val region offsets reply = _ := cppcWrite_eq reply
  rw [hwrite] at hmessage
  rcases fcWrite_cases hwrite with ⟨-, hnone⟩ | ⟨hwrites, hfc, hnone | hstores⟩
  · cases hnone
    exact hmessage
  · cases hnone
    exact hmessage
  · cases hstores
    suffices hmode : t.fc.autonomous = s.fc.autonomous by
      have hwrites' : fcWrites t.fc reg val = true := by
        simpa only [fcWrites, hmode] using hwrites
      exact stores_meant hwrites'
    rw [hfc]
    rcases @fcDiscover_fc _ s region with hsame | ⟨hunknown, hnone | ⟨r, hr, -, hauto⟩⟩
    · rw [hsame]
    · rw [hnone]
    · have hpassive : s.fc.autonomous = false := hs (by rw [hunknown]; exact nofun)
      simp only [fcWrites, hpassive, Bool.false_eq_true, if_false, Bool.and_eq_true, beq_iff_eq,
        decide_eq_true_eq] at hwrites
      have hother := he hunknown hwrites.1 hwrites.2 r hr
      rw [hauto, hpassive]
      simpa using hother

theorem Boot.machine_passive {b : Boot x} (hboot : b.machine = some s) : s.Passive := by
  unfold Boot.machine at hboot
  simp only [Option.bind_eq_bind, Option.bind_eq_some_iff] at hboot
  obtain ⟨_, -, r, hr, _, -, hboot⟩ := hboot
  cases hboot
  intro hready
  show r.2.autonomous = false
  unfold fcDiscoverBoot at hr
  split at hr
  · cases hr
    rfl
  · cases hr
    rfl
  · split at hr
    · cases hr
      rfl
    · next fc hfc =>
      simp only [Option.bind_eq_bind, Option.bind_eq_some_iff] at hr
      obtain ⟨_, -, hr⟩ := hr
      cases hr
      exact absurd (fcAccept_spec hfc).1 hready

/-- Along any writes of any harts, what is stored in a fast channel is in the word that the
    PuC's mode has for the register, as long as no write of the desired performance makes the
    PuC tell that it is in the other mode. -/
theorem writes_follow_mode {b : Boot x} {s₀ : Machine x} (hboot : b.machine = some s₀)
    {es : List CppcCall} (hinformed : Along cppcStep (fun s e => e.Informed s) s₀ es) :
    Along cppcStep (fun s e => e.Meant s) s₀ es := by
  have hboth : Along cppcStep (fun s e => e.Informed s ∧ e.Meant s) s₀ es := by
    refine (along_congr (I := Machine.Passive) ?_ ?_ (b.machine_passive hboot)).mp hinformed
    · intro s e t hs hstep
      exact cppcStep_passive hs hstep
    · intro s e hs
      exact ⟨fun he => ⟨he, he.meant hs⟩, And.left⟩
  exact hboth.mono fun _ _ he => he.2

/-- The first write of a register, with the region told in the course of it; bit 3 of the flags
    is autonomous mode. -/
def firstWrite (flags reg : BitVec 32) : CppcCall :=
  ⟨0, reg, 1, .ok { regionOf 0x1000 with flags }, .ok ⟨0, 0, 8, 0⟩, .success⟩

theorem writes_follow_mode_passive :
    ∃ s₀, (plainBoot .silent).machine = some s₀ ∧
      Along cppcStep (fun s e => e.Meant s) s₀ [firstWrite 0 5, firstWrite 8 6] := by
  refine ⟨_, rfl, writes_follow_mode (b := plainBoot .silent) rfl ⟨?_, ?_⟩⟩
  · rintro - - - r ⟨⟩
    decide
  · rintro t -
    exact ⟨nofun, fun _ _ => trivial⟩

/-- The desired performance goes to the word of the minimum. -/
theorem desired_write_sets_minimum :
    ∃ s₀, (plainBoot .silent).machine = some s₀ ∧
      ¬ Along cppcStep (fun s e => e.Meant s) s₀ [firstWrite 8 5] := by
  refine ⟨_, rfl, ?_⟩
  rintro ⟨hmeant, -⟩
  obtain ⟨w, hw, -⟩ := hmeant _ _ rfl
  cases hw

end RiscvMonitor.Windows
