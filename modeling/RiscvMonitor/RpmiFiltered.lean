import RiscvMonitor.RpmiGroups

/-!
# What reaches the PuC on a SYSTEM_MSI channel

The table of `sysmsi_setup()` only grows, and a hart that has been through its loop
has marked every MSI that is not S-mode's, provided that no mark is lost: a hart that
stores a word of the table must store over the value it has read.
-/

namespace RiscvMonitor.Rpmi

open Function (update update_of_ne update_self)

variable {x : Xlen}

structure Permitted (cfg : Config x) (f : Forwarded) : Prop where
  listed : ∃ rule ∈ sysmsiServices, rule.service = f.service ∧ rule.reqMin ≤ f.len ∧
    f.len ≤ rule.reqMax
  index : 0x03 ≤ f.service → f.req 0 < cfg.msis.numMsi ∧ (f.req 0).toNat < cfg.maxSysmsi ∧
    cfg.msis.flags0 (f.req 0) &&& prefMmode = 0 ∧ f.req 0 ≠ cfg.doorbell
  target : f.service = 0x06 → cfg.targetOk f.domain (regPairTo64 (f.req 2) (f.req 1)) = true

/-- A hart stores a word of the table over the value that it has read. -/
def Use.clean (s : Harts x) : Use → Prop
  | .goOn hart _ =>
    match s.pos hart with
    | .store i w _ => s.ch.msiDenied (i / x.bits) = w
    | _ => True
  | _ => True

instance (s : Harts x) : (u : Use) → Decidable (u.clean s)
  | .readAttr _ | .send _ _ => inferInstanceAs (Decidable True)
  | .goOn hart _ => by
    unfold Use.clean
    dsimp only
    split <;> infer_instance

theorem rpmiServiceRuleFind_mem {rules : GroupRules} {service : BitVec 8} {rule : ServiceRule}
    (hfind : rpmiServiceRuleFind rules service = some rule) :
    rule ∈ rules.services ∧ rule.service = service := by
  unfold rpmiServiceRuleFind at hfind
  exact ⟨List.mem_of_find?_eq_some hfind, by simpa using List.find?_some hfind⟩

theorem sendCheck_success {rules : GroupRules} {msgId : BitVec 32} {len : Nat}
    (hcheck : sendCheck (some rules) msgId len = .success) :
    ∃ rule ∈ rules.services, rule.service = msgId.setWidth 8 ∧ rule.allows len := by
  unfold sendCheck at hcheck
  split at hcheck
  · simp at hcheck
  · split at hcheck
    · simp at hcheck
    · dsimp only at hcheck
      split at hcheck
      · simp at hcheck
      · next rule hfind =>
        split at hcheck
        · next hlen =>
          obtain ⟨hmem, hservice⟩ := rpmiServiceRuleFind_mem hfind
          exact ⟨rule, hmem, hservice, hlen⟩
        · simp at hcheck

theorem rpmiGroupRulesFind_systemMsi :
    rpmiGroupRulesFind groupSystemMsi = some ⟨groupSystemMsi, sysmsiServices, true⟩ := rfl

theorem sysmsiServices_bounded : ∀ rule ∈ sysmsiServices, rule.reqMax ≠ ruleAnyLen := by
  decide

variable {n : Nat}

section Table

variable {cfg : Config x} {c d : Channel x}

def Channel.Marked (c : Channel x) (i : Nat) : Prop :=
  (c.msiDenied (i / x.bits)).getLsbD (i % x.bits) = true

/-- The reserved MSIs below `n` are marked, in a table that the PuC's number is known for. -/
structure Channel.MarkedBelow (cfg : Config x) (c : Channel x) (n : Nat) : Prop where
  numMsi : c.numMsi = cfg.msis.numMsi
  marked : ∀ i < n, i < cfg.msis.numMsi.toNat → i < cfg.maxSysmsi →
    cfg.reserved (BitVec.ofNat 32 i) → c.Marked i

def Channel.Complete (cfg : Config x) (c : Channel x) : Prop := c.MarkedBelow cfg cfg.maxSysmsi

structure Channel.Grows (cfg : Config x) (c d : Channel x) : Prop where
  numMsi : c.numMsi = cfg.msis.numMsi → d.numMsi = cfg.msis.numMsi
  marked : ∀ i, c.Marked i → d.Marked i

theorem Channel.Grows.refl (cfg : Config x) (c : Channel x) : c.Grows cfg c :=
  ⟨fun h => h, fun _ h => h⟩

theorem Channel.MarkedBelow.grows (hc : c.MarkedBelow cfg n) (hgrows : c.Grows cfg d) :
    d.MarkedBelow cfg n := by
  refine ⟨hgrows.numMsi hc.numMsi, ?_⟩
  intro i hi hnum hmax hreserved
  exact hgrows.marked i (hc.marked i hi hnum hmax hreserved)

theorem Channel.MarkedBelow.succ (hc : c.MarkedBelow cfg n)
    (hn : cfg.reserved (BitVec.ofNat 32 n) → c.Marked n) : c.MarkedBelow cfg (n + 1) := by
  refine ⟨hc.numMsi, ?_⟩
  intro i hi hnum hmax hreserved
  rcases Nat.lt_succ_iff_lt_or_eq.mp hi with hlt | rfl
  · exact hc.marked i hlt hnum hmax hreserved
  · exact hn hreserved

theorem Channel.MarkedBelow.complete (hc : c.MarkedBelow cfg n)
    (hend : ¬ (n < c.numMsi.toNat ∧ n < cfg.maxSysmsi)) : c.Complete cfg := by
  refine ⟨hc.numMsi, ?_⟩
  intro i hi hnum hmax hreserved
  rw [hc.numMsi] at hend
  exact hc.marked i (by omega) hnum hmax hreserved

theorem bits_pos (x : Xlen) : 0 < x.bits := by
  cases x <;> decide

theorem getLsbD_or_bit {w : Word x} {k j : Nat} (hk : k < x.bits) :
    (w ||| bit k).getLsbD j = (w.getLsbD j || decide (j = k)) := by
  have hbit : (bit k : Word x) = BitVec.twoPow x.bits k := by
    rw [bit, BitVec.twoPow_eq]
  rw [BitVec.getLsbD_or, hbit, BitVec.getLsbD_twoPow]
  by_cases hj : j = k
  · simp [hj, hk]
  · simp [hj, Ne.symm hj]

/-- The word is stored over the value it was computed from: a mark is added and none is lost. -/
theorem Channel.grows_mark (cfg : Config x) {i : Nat} {w : Word x}
    (hw : c.msiDenied (i / x.bits) = w) :
    let d : Channel x := { c with
      msiDenied := update c.msiDenied (i / x.bits) (w ||| bit (i % x.bits)) }
    c.Grows cfg d ∧ d.Marked i := by
  have hlt : i % x.bits < x.bits := Nat.mod_lt _ (bits_pos x)
  refine ⟨⟨fun h => h, ?_⟩, ?_⟩
  · intro j hj
    unfold Channel.Marked at hj ⊢
    dsimp only
    by_cases hword : j / x.bits = i / x.bits
    · rw [hword] at hj ⊢
      rw [update_self, getLsbD_or_bit hlt, ← hw, hj, Bool.true_or]
    · rw [update_of_ne hword]
      exact hj
  · unfold Channel.Marked
    dsimp only
    rw [update_self, getLsbD_or_bit hlt]
    simp

end Table

theorem sysmsiFilter_success {cfg : Config x} {c : Channel x} (hc : c.Complete cfg) {domain : Nat}
    {service : BitVec 8} {req : Msg}
    (hpass : sysmsiFilter cfg.toBounds domain cfg.msis.numMsi c.msiDenied service req = .success) :
    (0x03 ≤ service → req 0 < cfg.msis.numMsi ∧ (req 0).toNat < cfg.maxSysmsi ∧
        cfg.msis.flags0 (req 0) &&& prefMmode = 0 ∧ req 0 ≠ cfg.doorbell) ∧
      (service = 0x06 → cfg.targetOk domain (regPairTo64 (req 2) (req 1)) = true) := by
  unfold sysmsiFilter at hpass
  split at hpass
  · next hlow =>
    constructor
    · intro hservice
      exact absurd hlow (BitVec.not_lt.mpr hservice)
    · rintro rfl
      exact absurd hlow (by decide)
  · split at hpass
    · simp at hpass
    · next hnum =>
      have hlt : req 0 < cfg.msis.numMsi := BitVec.not_le.mp hnum
      split at hpass
      · simp at hpass
      · next hdenied =>
        have hopen : ¬ cfg.maxSysmsi ≤ (req 0).toNat ∧ ¬ c.Marked (req 0).toNat := by
          simpa [msiDenied, Channel.Marked] using hdenied
        have hfree : ¬ cfg.reserved (req 0) := by
          intro hreserved
          refine hopen.2 (hc.marked _ (Nat.not_le.mp hopen.1) hlt (Nat.not_le.mp hopen.1) ?_)
          rwa [BitVec.ofNat_toNat, BitVec.setWidth_eq]
        have hflags : cfg.msis.flags0 (req 0) &&& prefMmode = 0 :=
          not_not.mp fun h => hfree (.inl h)
        refine ⟨fun _ => ⟨hlt, Nat.not_le.mp hopen.1, hflags, fun h => hfree (.inr h)⟩, ?_⟩
        intro hservice
        rw [if_pos hservice] at hpass
        split at hpass
        · next hok => exact hok
        · simp at hpass

variable {p : Pos x} {t : Harts x} {hart : Nat}

section Steps

variable {cfg : Config x}

/-- What a message has been through that goes on to `mpxy_rpmi_ask_puc()`. -/
def Job.Checked : Job → Prop
  | .readAttr => True
  | .send m => ∃ rule ∈ sysmsiServices, rule.service = m.msgId.setWidth 8 ∧
      rule.reqMin ≤ m.len ∧ m.len ≤ rule.reqMax

def Pos.Knows (cfg : Config x) (c : Channel x) : Pos x → Prop
  | .out => True
  | .asking _ job | .attributes job => job.Checked
  | .question i job | .load i job | .store i _ job => job.Checked ∧ c.MarkedBelow cfg i
  | .finish job | .ready job => job.Checked ∧ c.Complete cfg
  | .filtering num m => (Job.send m).Checked ∧ c.Complete cfg ∧ num = cfg.msis.numMsi

theorem Pos.Knows.grows {c d : Channel x} (hp : p.Knows cfg c) (hgrows : c.Grows cfg d) :
    p.Knows cfg d := by
  cases p with
  | out => trivial
  | asking k job => exact hp
  | attributes job => exact hp
  | question i job => exact ⟨hp.1, hp.2.grows hgrows⟩
  | load i job => exact ⟨hp.1, hp.2.grows hgrows⟩
  | store i w job => exact ⟨hp.1, hp.2.grows hgrows⟩
  | finish job => exact ⟨hp.1, hp.2.grows hgrows⟩
  | ready job => exact ⟨hp.1, hp.2.grows hgrows⟩
  | filtering num m => exact ⟨hp.1, hp.2.1.grows hgrows, hp.2.2⟩

structure Harts.Safe (cfg : Config x) (s : Harts x) : Prop where
  probed : s.ch.probed = true → s.ch.Complete cfg
  knows : ∀ hart, (s.pos hart).Knows cfg s.ch
  sent : ∀ f ∈ s.sent, Permitted cfg f

variable {s : Harts x}

theorem Harts.Safe.atBoot (cfg : Config x) : (atBoot x).Safe cfg := by
  constructor
  · intro hprobed
    cases hprobed
  · intro hart
    trivial
  · intro f hf
    cases hf

section

variable (hs : s.Safe cfg)
include hs

theorem Harts.Safe.move (hpos : t.pos = update s.pos hart p) (hsent : t.sent = s.sent)
    (hgrows : s.ch.Grows cfg t.ch) (hprobed : t.ch.probed = true → t.ch.Complete cfg)
    (hp : p.Knows cfg t.ch) : t.Safe cfg := by
  refine ⟨hprobed, ?_, hsent ▸ hs.sent⟩
  intro k
  rw [hpos]
  by_cases hk : k = hart
  · rw [hk, update_self]
    exact hp
  · rw [update_of_ne hk]
    exact (hs.knows k).grows hgrows

theorem Harts.Safe.move_only (hp : p.Knows cfg s.ch) : (s.move hart p).Safe cfg :=
  hs.move rfl rfl (.refl cfg _) hs.probed hp

theorem Harts.Safe.leave (hart : Nat) (a : Answer) : (s.leave hart a).Safe cfg :=
  hs.move rfl rfl (.refl cfg _) hs.probed trivial

theorem Harts.Safe.enter (hart : Nat) {job : Job} (hjob : job.Checked) :
    (s.enter hart job).Safe cfg := by
  unfold Harts.enter
  apply hs.move_only
  split
  · next hprobed => exact ⟨hjob, hs.probed hprobed⟩
  · exact hjob

theorem Harts.Safe.pass (hart : Nat) {m : Message}
    (hm : Permitted cfg ⟨m.domain, m.msgId.setWidth 8, m.req, m.len, m.respMax.isNone⟩) :
    (s.pass hart m).Safe cfg := by
  have hleft := hs.leave hart .passedOn
  refine ⟨hleft.probed, hleft.knows, ?_⟩
  intro f hf
  rcases List.mem_append.mp hf with hf | hf
  · exact hs.sent f hf
  · cases List.mem_singleton.mp hf
    exact hm

theorem Harts.Safe.filter {num : BitVec 32} {m : Message} (hpos : s.pos hart = .filtering num m)
    (hpass : sysmsiFilter cfg.toBounds m.domain num s.ch.msiDenied (m.msgId.setWidth 8) m.req =
      .success) : (s.pass hart m).Safe cfg := by
  have hknows := hs.knows hart
  rw [hpos] at hknows
  obtain ⟨hchecked, hcomplete, rfl⟩ := hknows
  obtain ⟨hindex, htarget⟩ := sysmsiFilter_success hcomplete hpass
  exact hs.pass hart ⟨hchecked, hindex, htarget⟩

end

theorem Harts.Safe.goOn (hgroup : cfg.group = groupSystemMsi) (hs : s.Safe cfg) {rc : Rc}
    (hclean : (Use.goOn hart rc).clean s) (hstep : s.goOn cfg hart rc = some t) : t.Safe cfg := by
  have hknows := hs.knows hart
  simp only [Harts.goOn, hgroup, rpmiGroupRulesFind_systemMsi, Option.any_some] at hstep
  generalize hpos : s.pos hart = pos at hstep hknows
  split at hstep
  all_goals repeat' first | cases hstep | split at hstep
  · exact hs.leave _ _
  · exact hs.move_only hknows
  · exact hs.move_only hknows
  · exact hs.leave _ _
  · -- The number is the PuC's from here on; nothing is asked of the table yet.
    refine hs.move rfl rfl ⟨fun _ => rfl, fun _ h => h⟩ ?_ ?_
    · intro hprobed
      exact ⟨rfl, (hs.probed hprobed).marked⟩
    · refine ⟨hknows, rfl, ?_⟩
      intro i hi
      exact absurd hi (Nat.not_lt_zero i)
  · next hin => exact hs.move_only ⟨hknows.1, hknows.2.complete hin⟩
  · exact hs.leave _ _
  · exact hs.move_only hknows
  · next hreserved => exact hs.move_only ⟨hknows.1, hknows.2.succ fun h => absurd h hreserved⟩
  · exact hs.move_only hknows
  · simp only [Use.clean, hpos] at hclean
    obtain ⟨hgrows, hmarked⟩ := Channel.grows_mark cfg hclean
    refine hs.move rfl rfl hgrows ?_ ?_
    · intro hprobed
      exact (hs.probed hprobed).grows hgrows
    · exact ⟨hknows.1, (hknows.2.grows hgrows).succ fun _ => hmarked⟩
  · have hgrows : s.ch.Grows cfg { s.ch with probed := true } := ⟨fun h => h, fun _ h => h⟩
    have hcomplete := hknows.2.grows hgrows
    exact hs.move rfl rfl hgrows (fun _ => hcomplete) ⟨hknows.1, hcomplete⟩
  · exact hs.leave _ _
  · exact hs.move_only ⟨hknows.1, hknows.2, hknows.2.numMsi⟩
  · next hpass => exact hs.filter hpos hpass
  · exact hs.leave _ _

theorem Harts.Safe.step (hgroup : cfg.group = groupSystemMsi) (hs : s.Safe cfg) {u : Use}
    (hclean : u.clean s) (hstep : s.step cfg u = some t) : t.Safe cfg := by
  simp only [Harts.step, hgroup, rpmiGroupRulesFind_systemMsi] at hstep
  split at hstep
  case h_3 => exact hs.goOn hgroup hclean hstep
  all_goals repeat' first | cases hstep | split at hstep
  · exact hs.enter _ trivial
  · next hcheck =>
    apply hs.enter
    obtain ⟨rule, hmem, hservice, hmin, hmax⟩ := sendCheck_success hcheck
    exact ⟨rule, hmem, hservice, hmin, hmax.resolve_left (sysmsiServices_bounded rule hmem)⟩
  · exact hs.leave _ _

end Steps

/-- Whatever the PuC says of its MSIs and whichever of its answers fail to come: as long as no mark
    of the table is lost, only what is permitted reaches it. -/
theorem run_permitted {cfg : Config x} (hgroup : cfg.group = groupSystemMsi) {uses : List Use}
    {s : Harts x} (halong : Runs.Along (Harts.step cfg) (fun s u => u.clean s) (atBoot x) uses)
    (hrun : Runs.run (Harts.step cfg) (atBoot x) uses = some s) {f : Forwarded}
    (hf : f ∈ s.sent) : Permitted cfg f := by
  have hsafe : s.Safe cfg := by
    apply halong.invariant _ (Harts.Safe.atBoot cfg) hrun
    intro s u t hs hclean hstep
    exact hs.step hgroup hclean hstep
  exact hsafe.sent f hf

/-- A PuC with eight MSIs, of which 3, 5 and 7 are M-mode's and 1 is the doorbell. -/
def eightMsis : Config .rv64 where
  group := groupSystemMsi
  msis := ⟨8, fun i => if i = 3 ∨ i = 5 ∨ i = 7 then 1 else 0⟩
  doorbell := 1
  maxSysmsi := 128
  monitor := [⟨0x80000000, 0x40000, .mmodeRx⟩]
  domain := fun _ => rootDomain {0, 1} 0 0x80200000 .supervisor

/-- A message about one MSI, with an address for the services that take one. -/
def aboutMsi (service index addr : BitVec 32) (len : Nat) : Message where
  domain := 0
  msgId := service
  req := fun i => if i = 0 then index else if i = 1 then addr else 0
  len := len
  respMax := some 64

/-- SET_MSI_TARGET of one that is free, and GET_MSI_STATE of one that is not, by two harts that
    both ask the PuC. -/
def twoAsk : List Use :=
  [.send 0 (aboutMsi 6 4 0x90000000 16), .send 1 (aboutMsi 5 5 0 4)] ++
    List.replicate 25 (.goOn 0 .success) ++ List.replicate 25 (.goOn 1 .success)

theorem run_permitted_twoAsk :
    ∃ s f, Runs.run (Harts.step eightMsis) (atBoot .rv64) twoAsk = some s ∧ s.sent = [f] ∧
      f.service = 6 ∧ f.req 0 = 4 ∧ Permitted eightMsis f := by
  have halong : Runs.Along (Harts.step eightMsis) (fun s u => u.clean s) (atBoot .rv64) twoAsk := by
    decide +kernel
  refine ⟨_, _, rfl, rfl, rfl, rfl, run_permitted rfl halong rfl (List.mem_singleton_self _)⟩

/-- Hart 1 has read the word for MSI 3 when hart 0 marks 3, 5 and 7 and is through.  Then hart 1
    stores what it has computed, and hart 0 looks for the mark of 5. -/
theorem lost_mark_lets_msi_through :
    ∃ s f, Runs.run (Harts.step eightMsis) (atBoot .rv64)
        (.send 1 (aboutMsi 2 0 0 0) :: List.replicate 12 (.goOn 1 .success) ++
          .send 0 (aboutMsi 3 5 0 4) :: List.replicate 24 (.goOn 0 .success) ++
          [.goOn 1 .success, .goOn 0 .success]) = some s ∧
      s.sent = [f] ∧ f.service = 3 ∧ f.req 0 = 5 ∧
      eightMsis.msis.flags0 5 &&& prefMmode ≠ 0 ∧ ¬ Permitted eightMsis f := by
  refine ⟨_, _, rfl, rfl, rfl, rfl, by decide, ?_⟩
  intro hpermitted
  obtain ⟨-, -, hflags, -⟩ := hpermitted.index (by decide)
  exact absurd hflags (by decide)

end RiscvMonitor.Rpmi
