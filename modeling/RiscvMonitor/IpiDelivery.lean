import RiscvMonitor.IpiProgress

/-!
# Every IPI gets there

Whether the IPIs of `send_ipi` reach the harts they name, however these move between
domains meanwhile.  An observer keeps the books.  An IPI is lost when S-mode runs with
one owed to it; it is astray when the event of one domain sets SSIP in another.
-/

namespace RiscvMonitor.Delivery

open Lifecycle (CtxState)
open Sys

variable {x : Xlen}

/-! ### The observer -/

def Sys.member (s : Sys x) (d i : Nat) : Bool := s.assigned d i || s.parked d i

structure Watch where
  /-- The call that hart `g` is in names hart `i`, and SSIP was not set there since. -/
  waits : Nat → Nat → Bool
  /-- A call from the domain has returned without that. -/
  owed : Nat → Nat → Bool
  /-- The domains whose events are pending, and those in hand in `ipi_process()`. -/
  posted : Nat → List Nat
  taken : Nat → List Nat
  stray : Bool

def Watch.empty : Watch := ⟨fun _ _ => false, fun _ _ => false, fun _ => [], fun _ => [], false⟩

/-- The harts a call is to reach: they are named, they run, and they are members of
    the domain. -/
def Sys.calls (cfg : Config) (s : Sys x) (h : Nat) (rq : Request x) (i : Nat) : Prop :=
  rq.fence = none ∧ rq.names i = true ∧ i < cfg.harts ∧ cfg.present i = true ∧
    s.hsm i ≠ .stopped ∧ s.member (s.domain h) i = true

instance (cfg : Config) (s : Sys x) (h : Nat) (rq : Request x) (i : Nat) :
    Decidable (s.calls cfg h rq i) := inferInstanceAs (Decidable (_ ∧ _))

def Sys.posts (s : Sys x) (h : Nat) : Option Nat :=
  match s.pc h with
  | .post _ _ (i :: _) => some i
  | .parkedLock _ _ i => if s.domain i = s.domain h then some i else none
  | _ => none

/-- A call for an IPI that names hart `i` is about to return, and has succeeded. -/
def Sys.returns (s : Sys x) (h i : Nat) : Prop :=
  match s.pc h with
  | .ret .success rq => rq.fence = none ∧ rq.names i = true
  | _ => False

instance (s : Sys x) (h i : Nat) : Decidable (s.returns h i) := by
  unfold Sys.returns
  induction s.pc h using Pc.casesOn with
  | ret error rq => induction error using SbiError.casesOn <;> infer_instance
  | _ => infer_instance

def Watch.note (cfg : Config) (w : Watch) (s : Sys x) (e : Nat × Act x) : Watch :=
  let h := e.1
  let told := fun d i => i = h ∧ s.delivers h = some d
  { waits := fun g i =>
      match e.2 with
      | .call rq =>
        if g = h then decide (s.calls cfg h rq i)
        else w.waits g i && !decide (told (s.domain g) i)
      | _ => w.waits g i && !decide (told (s.domain g) i)
    owed := fun d i =>
      (w.owed d i || (decide (s.returns h i ∧ d = s.domain h) && w.waits h i)) && !decide (told d i)
    posted := fun i =>
      if s.posts h = some i then s.domain h :: w.posted i
      else if i = h ∧ (s.pc h).swapping = true then [] else w.posted i
    taken := fun i =>
      if i ≠ h then w.taken i
      else if (s.pc h).swapping = true ∧ (s.hart h).rfence = true then w.posted h
      else if (s.delivers h).isSome then [] else w.taken h
    stray := w.stray || ((s.delivers h).isSome && !(s.pc h).leaving &&
      (if (s.pc h).swapping then w.posted h else w.taken h).any (· != s.domain h)) }

/-! ### What holds in every state -/

structure IpiInv (cfg : Config) (s : Sys x) (w : Watch) : Prop where
  masks : Masks s
  outside : ∀ h, cfg.harts ≤ h → s.pc h = .smode ∨ s.pc h = .stopped
  sends : ∀ h, (s.pc h).Sends
  fences : ∀ h rq, (s.pc h).fences = some rq → rq.fence ≠ none
  held : ∀ g h, (s.pc g).progress h = .held → Stays s (s.domain g) h
  called : ∀ g h, w.waits g h = true → h < cfg.harts ∧ cfg.present h = true ∧ s.pc h ≠ .stopped
  waits : ∀ g h, w.waits g h = true → Owes s (s.domain g) h ((s.pc g).progress h)
  owed : ∀ d h, w.owed d h = true → Due s d h
  posted : ∀ h, ∀ d ∈ w.posted h, Stays s d h ∧ (s.hart h).smode = true
  taken : ∀ h, ∀ d ∈ w.taken h, s.domain h = d ∧ (s.pc h).serving = true
  stray : w.stray = false

theorem init_ipiInv (cfg : Config) (home : Nat → Nat) (up : Nat → Bool) :
    IpiInv cfg (init home up : Sys x) .empty := by
  have hpc := init_pc (x := x) home up
  constructor
  · exact init_masks home up
  · exact fun h _ => hpc h
  · intro h
    rcases hpc h with heq | heq <;> rw [heq] <;> trivial
  · intro h rq hf
    rcases hpc h with heq | heq <;> rw [heq] at hf <;> cases hf
  · intro g h hheld
    rcases hpc g with heq | heq <;> rw [heq] at hheld <;> cases hheld
  · nofun
  · nofun
  · nofun
  · nofun
  · nofun
  · rfl

variable {d : Nat} {p : Progress}

section Steps

variable {cfg : Config} {s t : Sys x} {w : Watch} {h i : Nat} {a : Act x}

theorem HartMasks.ran_of_member (hm : HartMasks s i) (hup : s.hsm i ≠ .stopped)
    (hmem : s.member d i = true) : (s.ctx d i).state ≠ .none ∨ s.pc i = .arrive d := by
  rcases Bool.or_eq_true _ _ ▸ hmem with hassigned | hparked
  · have hto := (hm.assigned d).mp hassigned
    have hran : s.domain i = d → (s.ctx d i).state ≠ .none := by
      rintro rfl
      exact hm.ran fun hstopped => hup (hm.stopped.mpr hstopped)
    cases hpc : s.pc i with
    | arrive target =>
      rw [hpc] at hto
      exact .inr (congrArg _ (Option.some.inj hto))
    | unpark | assign => rw [hpc] at hto; cases hto
    | _ =>
      rw [hpc] at hto
      exact .inl (hran (Option.some.inj hto))
  · exact .inl ((hm.parked d).mp hparked).1.ne_none

section

variable (hinv : IpiInv cfg s w) (hk : KeepsIpis cfg s h)
include hinv hk

theorem IpiInv.park_ok (g : Nat) :
    ∀ target state, s.pc h = .switchLock target state →
      (s.hart h).smode = false ∧ (s.domain h = s.domain g → (s.pc g).progress h ≠ .held) := by
  intro target state hpc
  simp only [KeepsIpis, hpc] at hk
  refine ⟨hk.1, fun hd => ?_⟩
  by_cases hg : g < cfg.harts
  · exact hk.2 g hg hd.symm
  · rcases hinv.outside g (Nat.not_lt.mp hg) with heq | heq <;>
      simp [heq, Pc.progress]

theorem IpiInv.unpark_ok (g : Nat) :
    s.pc h = .unpark (s.domain g) → (s.pc g).progress h ≠ .skipped := by
  intro hpc
  simp only [KeepsIpis, hpc] at hk
  by_cases hg : g < cfg.harts
  · exact hk g hg rfl
  · rcases hinv.outside g (Nat.not_lt.mp hg) with heq | heq <;>
      simp [heq, Pc.progress]

theorem IpiInv.held_stays (he : Effect cfg s h a t) {g : Nat}
    (hheld : (s.pc g).progress i = .held) : Stays t (s.domain g) i := by
  have ho : Owes s (s.domain g) i .held := hinv.held g i hheld
  by_cases hlock : i = h ∧ ∃ target state, s.pc h = .switchLock target state
  · obtain ⟨rfl, target, state, hpc⟩ := hlock
    have hd := ((hinv.masks.hart i).stays_iff (by rw [hpc]; rfl)).mp ho
    exact absurd hheld ((hinv.park_ok hk g target state hpc).2 hd)
  · refine he.stays ho ?_
    by_cases hi : i = h
    · exact .inr fun target state hpc => hlock ⟨hi, target, state, hpc⟩
    · exact .inl hi

end

/-! ### The caller's own steps -/

theorem ecall_progress (cfg : Config) (rq : Request x) (i : Nat) :
    (ecall cfg rq).progress i = .unread ∨ (ecall cfg rq).progress i = .out := by
  unfold ecall
  cases callCheck cfg rq with
  | success =>
    dsimp only [Pc.progress, Request.tell]
    split
    · exact .inl (if_neg List.not_mem_nil)
    · exact .inr rfl
  | _ => exact .inr rfl

theorem Owes.tell {rq : Request x} {q : Progress} (ho : Owes s d i (rq.tell i p))
    (hnext : Owes s d i p → Owes t d i q) : Owes t d i (rq.tell i q) := by
  unfold Request.tell at ho ⊢
  split
  · next hrq => exact hnext (by rwa [if_pos hrq] at ho)
  · trivial

theorem Owes.unless {c : Prop} [Decidable c] {q r : Progress}
    (ho : Owes s d i (if c then r else p)) (hcarry : Owes s d i r → Owes t d i r)
    (hnext : ¬ c → Owes s d i p → Owes t d i q) : Owes t d i (if c then r else q) := by
  by_cases hc : c
  · rw [if_pos hc] at ho ⊢
    exact hcarry ho
  · rw [if_neg hc] at ho ⊢
    exact hnext hc ho

theorem Due.of_raise {hart : Hart x} {pc : Pc x}
    (hbetween : Owes ((s.setHart i hart).goto h pc) d i .between) (hline : hart.line = true) :
    Due ((s.setHart i hart).goto h pc) d i := by
  refine .inl ⟨hbetween.1, hbetween.2.imp_left fun hsmode => ⟨hsmode, .inl ?_⟩⟩
  rw [Sys.line, tell_field _ _ Hart.line (fun _ _ => rfl), if_pos rfl]
  exact hline

theorem Masks.stays_of_free (hm : Masks s) (hfree : s.lock = false) (hback : s.domain i = d) :
    Stays s d i := by
  have hlocked := hm.not_switching hfree i
  refine ((hm.hart i).stays_iff ?_).mpr hback
  cases hpc : s.pc i with
  | restore | unpark | assign | arrive => rw [hpc] at hlocked; cases hlocked
  | _ => rfl

theorem parkedKeep_due (hm : Masks s) (hfree : s.lock = false) (haway : s.domain i ≠ d)
    (hran : (s.ctx d i).state ≠ .none) (hpc : t.pc i = s.pc i ∨ (t.pc i).restored = none)
    (hctx : t.ctx d i = { s.ctx d i with ipi := true }) : Due t d i := by
  refine .inr ⟨by rw [hctx], ?_, ?_⟩
  · rw [hctx]
    by_contra hk
    exact haway ((hm.hart i).running d (CtxState.running_of_not_kept hran hk)).1
  · rcases hpc with heq | hnone
    · rw [heq]
      have hfree := hm.not_switching hfree i
      cases hpc : s.pc i with
      | unpark | assign | arrive => rw [hpc] at hfree; cases hfree
      | _ => nofun
    · rw [hnone]
      nofun

section

variable (hinv : IpiInv cfg s w) (hipi : cfg.ipiAvailable = true) (hk : KeepsIpis cfg s h)
  (he : Effect cfg s h a t)
include hinv hipi hk he

theorem IpiInv.own (hcall : ∀ rq, a ≠ .call rq) (hw : w.waits h i = true)
    (htold : ¬ (i = h ∧ s.delivers h = some (s.domain h))) :
    Owes t (s.domain h) i ((t.pc h).progress i) := by
  have hm := hinv.masks
  obtain ⟨hlt, hpresent, hup⟩ := hinv.called h i hw
  have ho := hinv.waits h i hw
  have hcarry : (s.pc h).Calm → ∀ {p}, Owes s (s.domain h) i p → Owes t (s.domain h) i p := by
    intro hcalm p ho
    refine (Owes.effect he hm ho ?_ ?_).resolve_right htold
    · exact fun _ target state hpc => absurd hpc (hcalm.notLock target state)
    · intro _ hpc
      have hnone := hcalm.switching
      rw [hpc] at hnone
      cases hnone
  have hstays : (s.pc h).Calm → Stays s (s.domain h) i → Stays t (s.domain h) i :=
    fun hcalm hs => he.stays hs (.inr hcalm.notLock)
  cases he with
  | move hmove =>
    have hadvance := hmove.advance hk (hinv.fences h) hipi hcall i
    rw [goto_pc_self]
    exact hcarry (Pc.calm_of_plain hmove.plain.1).1
      (hadvance.owes (hm.hart i) hlt hpresent hup ho)
  | @post rq targets j rest hpc =>
    have hcalm : (s.pc h).Calm := hpc ▸ (Pc.calm_of_plain rfl).1
    rw [goto_pc_self]
    rw [hpc] at ho
    refine ho.tell fun ho => ?_
    by_cases hr : i ∈ rest
    · rw [if_pos (List.mem_cons_of_mem _ hr)] at ho
      rw [if_pos hr]
      exact hcarry hcalm ho
    · rw [if_neg hr]
      by_cases hj : i = j
      · subst hj
        rw [if_pos List.mem_cons_self] at ho
        rw [if_pos rfl]
        refine ⟨hstays hcalm ho, .inl ?_⟩
        rw [tell_field _ _ Hart.smode (fun _ _ => rfl), if_pos rfl]
      · rw [if_neg (List.not_mem_cons_of_ne_of_not_mem hj hr)] at ho
        rw [if_neg hj]
        exact hcarry hcalm ho
  | @raise rq targets j rest hpc =>
    have hcalm : (s.pc h).Calm := hpc ▸ (Pc.calm_of_plain rfl).1
    have hsends := hinv.sends h
    rw [goto_pc_self]
    rw [hpc] at ho hsends
    refine ho.tell fun ho => ho.unless (hcarry hcalm) fun _ ho => ?_
    by_cases hj : i = j
    · subst hj
      rw [if_pos rfl] at ho
      rw [if_pos hsends.2.1]
      exact Due.of_raise (hcarry hcalm ho) rfl
    · rw [if_neg hj] at ho
      exact hcarry hcalm ho
  | @parkedPost rq targets j hpc hfree hback =>
    have hcalm : (s.pc h).Calm := hpc ▸ (Pc.calm_of_plain rfl).1
    rw [goto_pc_self]
    rw [hpc] at ho
    refine ho.tell fun ho => ho.unless (hcarry hcalm) fun _ ho => ?_
    by_cases hj : i = j
    · subst hj
      rw [if_neg (Nat.lt_irrefl i), if_pos rfl]
      refine ⟨hstays hcalm (hm.stays_of_free hfree hback), .inl ?_⟩
      rw [tell_field _ _ Hart.smode (fun _ _ => rfl), if_pos rfl]
    · rw [if_neg hj] at ho ⊢
      exact hcarry hcalm ho
  | @parkedKeep rq targets j hpc hfree haway hran =>
    have hcalm : (s.pc h).Calm := hpc ▸ (Pc.calm_of_plain rfl).1
    rw [goto_pc_self]
    rw [hpc] at ho
    refine ho.tell fun ho => ho.unless (hcarry hcalm) fun _ ho => ?_
    by_cases hj : i = j
    · subst hj
      rw [if_neg (Nat.not_succ_le_self i)]
      refine parkedKeep_due hm hfree haway hran ?_ ?_
      · rw [goto_pc]
        split
        · exact .inr rfl
        · exact .inl rfl
      · simp [goto, Lifecycle.update_update_apply]
    · rw [if_neg hj] at ho
      exact hcarry hcalm ho
  | @parkedRaise rq targets j hpc =>
    have hcalm : (s.pc h).Calm := hpc ▸ Pc.calm_parkedRaise ..
    rw [goto_pc_self]
    rw [hpc] at ho
    refine ho.tell fun ho => ho.unless (hcarry hcalm) fun _ ho => ?_
    by_cases hj : i = j
    · subst hj
      rw [if_neg (Nat.lt_irrefl i), if_pos rfl] at ho
      rw [if_neg (Nat.not_succ_le_self i)]
      exact Due.of_raise (hcarry hcalm ho) rfl
    · rw [if_neg hj] at ho
      exact hcarry hcalm ho
  | run hpc =>
    rw [Sys.pc, setHart_hart_self]
    change Owes _ _ _ ((s.pc h).progress i)
    rw [hpc]
    trivial
  | @ipiSmode ret | @served _ ret =>
    rw [Sys.pc, setHart_hart_self]
    cases ret <;> trivial
  | @platform ok =>
    rw [Sys.pc, setHart_hart_self]
    cases ok <;> trivial
  | fenceRaise =>
    rw [goto_pc_self]
    split <;> trivial
  | suspend | woken | resumed | ipiClear | ipiFences | pop | enqueue | restore | arrive =>
    simp only [Sys.pc, contextRestore, contextArrive, setHart_hart_self, Pc.progress, Owes]
  | fenceOr | fencing | park | unpark | assign =>
    simp only [contextPark, Delivery.fencing, goto_pc_self, Pc.progress, Owes]

theorem IpiInv.own_held (hheld : (t.pc h).progress i = .held) : Stays t (s.domain h) i := by
  have hstays : (s.pc h).progress i = .held → Stays t (s.domain h) i := hinv.held_stays hk he
  have hkeep : Stays s (s.domain h) i → (∀ target state, s.pc h ≠ .switchLock target state) →
      Stays t (s.domain h) i := fun hs hlock => he.stays hs (.inr hlock)
  cases he with
  | @move a pc hmove =>
    rw [goto_pc_self] at hheld
    by_cases hcall : ∃ rq, a = .call rq
    · obtain ⟨rq, rfl⟩ := hcall
      cases hmove
      rcases ecall_progress cfg rq i with hunread | hout
      · cases hunread.symm.trans hheld
      · cases hout.symm.trans hheld
    · have hadvance := hmove.advance hk (hinv.fences h) hipi (fun rq heq => hcall ⟨rq, heq⟩) i
      rw [hheld] at hadvance
      have hplain := hmove.plain.1
      refine hkeep (hadvance.held (hinv.held h i)) ?_
      intro target state hpc
      rw [hpc] at hplain
      cases hplain
  | post hpc =>
    rw [goto_pc_self, raise_held_iff] at hheld
    refine hstays ?_
    rw [hpc, post_held_iff]
    exact ⟨hheld.1, List.mem_cons_of_mem _ hheld.2⟩
  | raise hpc =>
    rw [goto_pc_self, post_held_iff] at hheld
    refine hstays ?_
    rw [hpc, raise_held_iff]
    exact hheld
  | run hpc =>
    rw [Sys.pc, setHart_hart_self] at hheld
    exact hstays hheld
  | @ipiSmode ret | @served _ ret =>
    rw [Sys.pc, setHart_hart_self] at hheld
    cases ret <;> cases hheld
  | @platform ok =>
    rw [Sys.pc, setHart_hart_self] at hheld
    cases ok <;> cases hheld
  | fenceRaise =>
    rw [goto_pc_self] at hheld
    split at hheld <;> cases hheld
  | suspend | woken | resumed | ipiClear | ipiFences | pop | enqueue | restore | arrive =>
    simp [Sys.pc, contextRestore, contextArrive, Pc.progress] at hheld
  | fenceOr | fencing | park | unpark | assign =>
    simp [contextPark, Delivery.fencing, Pc.progress] at hheld
  | parkedPost | parkedKeep | parkedRaise =>
    rw [goto_pc_self] at hheld
    simp only [Pc.progress, Request.tell] at hheld
    split at hheld
    · split at hheld
      · cases hheld
      · split at hheld
        · cases hheld
        · first | cases hheld | (split at hheld <;> cases hheld)
    · cases hheld

end

/-! ### The books -/

theorem Watch.note_waits {g : Nat} (hw : (w.note cfg s (h, a)).waits g i = true) :
    (∃ rq, a = .call rq ∧ g = h ∧ s.calls cfg h rq i) ∨
      ((g = h → ∀ rq, a ≠ .call rq) ∧ w.waits g i = true ∧
        ¬ (i = h ∧ s.delivers h = some (s.domain g))) := by
  have hold : (w.waits g i && !decide (i = h ∧ s.delivers h = some (s.domain g))) = true →
      w.waits g i = true ∧ ¬ (i = h ∧ s.delivers h = some (s.domain g)) := by
    intro hw
    rwa [Bool.and_eq_true, Bool.not_eq_true', decide_eq_false_iff_not] at hw
  cases a with
  | call rq =>
    simp only [Watch.note] at hw
    split at hw
    · next hg => exact .inl ⟨rq, rfl, hg, of_decide_eq_true hw⟩
    · next hg => exact .inr ⟨fun heq => absurd heq hg, hold hw⟩
  | run | switch | suspend | go | wake | platform => exact .inr ⟨nofun, hold hw⟩

theorem Watch.note_owed (ho : (w.note cfg s (h, a)).owed d i = true) :
    (w.owed d i = true ∨ (s.returns h i ∧ d = s.domain h ∧ w.waits h i = true)) ∧
      ¬ (i = h ∧ s.delivers h = some d) := by
  simp only [Watch.note, Bool.and_eq_true, Bool.or_eq_true, Bool.not_eq_true', decide_eq_true_eq,
    decide_eq_false_iff_not] at ho
  exact ⟨ho.1.imp_right fun hr => ⟨hr.1.1, hr.1.2, hr.2⟩, ho.2⟩

theorem Watch.note_posted (hp : d ∈ (w.note cfg s (h, a)).posted i) :
    (s.posts h = some i ∧ (d = s.domain h ∨ d ∈ w.posted i)) ∨
      (d ∈ w.posted i ∧ ¬ (i = h ∧ (s.pc h).swapping = true)) := by
  simp only [Watch.note] at hp
  split_ifs at hp with hposts hswap
  · exact .inl ⟨hposts, List.mem_cons.mp hp⟩
  · cases hp
  · exact .inr ⟨hp, hswap⟩

theorem Watch.note_taken (hp : d ∈ (w.note cfg s (h, a)).taken i) :
    (i = h ∧ (s.pc h).swapping = true ∧ (s.hart h).rfence = true ∧ d ∈ w.posted h) ∨
      (d ∈ w.taken i ∧ (i = h → s.delivers h = none)) := by
  simp only [Watch.note] at hp
  split at hp
  · next hi => exact .inr ⟨hp, fun heq => absurd heq hi⟩
  · next hi =>
    have hi := not_not.mp hi
    split_ifs at hp with hswap hnone
    · exact .inl ⟨hi, hswap.1, hswap.2, hp⟩
    · cases hp
    · exact .inr ⟨hi ▸ hp, fun _ => by simpa using hnone⟩

theorem step_posts (hipi : cfg.ipiAvailable = true) (hp : s.posts h = some i)
    (hstep : step cfg s h a = some t) :
    (t.hart i).smode = true ∧ ((∃ rq targets rest, s.pc h = .post rq targets (i :: rest)) ∨
      (s.domain i = s.domain h ∧ s.lock = false)) := by
  have hsmode : ∀ (u : Sys x) (pc : Pc x),
      (((u.setHart i { s.hart i with smode := true }).goto h pc).hart i).smode = true := by
    intro u pc
    rw [tell_field _ _ Hart.smode (fun _ _ => rfl), if_pos rfl]
  unfold step at hstep
  dsimp only at hstep
  rw [if_pos (step_hart hstep)] at hstep
  unfold Sys.posts at hp
  split at hp
  · next rq targets j rest hpc =>
    cases hp
    cases a <;> simp only [hpc, hipi, if_true, reduceCtorEq] at hstep
    cases hstep
    exact ⟨hsmode _ _, .inl ⟨rq, targets, rest, hpc⟩⟩
  · next rq targets j hpc =>
    split at hp
    · next hback =>
      cases hp
      cases a <;> simp only [hpc, reduceCtorEq] at hstep
      split at hstep
      · cases hstep
      · next hfree =>
        cases hstep
        refine ⟨?_, .inr ⟨hback, Bool.not_eq_true _ ▸ hfree⟩⟩
        rw [domainIpiParked]
        dsimp only
        rw [if_pos hback]
        exact hsmode _ _
    · cases hp
  · cases hp

theorem IpiInv.posted_here (hinv : IpiInv cfg s w) (hd : d ∈ w.posted h)
    (hs : (s.pc h).switching = none) : s.domain h = d :=
  ((hinv.masks.hart h).stays_iff hs).mp (hinv.posted h d hd).1

theorem Pc.switching_of_swapping {pc : Pc x} (hs : pc.swapping = true) : pc.switching = none := by
  cases pc with
  | ipiSwap => rfl
  | _ => cases hs

theorem Pc.switching_of_serving {pc : Pc x} (hs : pc.serving = true) : pc.switching = none := by
  cases pc with
  | serve | fencing => rfl
  | _ => cases hs

section

variable (hinv : IpiInv cfg s w)
include hinv

theorem IpiInv.not_stray : (w.note cfg s (h, a)).stray = false := by
  have htags : ∀ d ∈ (if (s.pc h).swapping then w.posted h else w.taken h), s.domain h = d := by
    intro d hd
    split at hd
    · next hswap => exact hinv.posted_here hd (Pc.switching_of_swapping hswap)
    · exact (hinv.taken h d hd).1
  simp only [Watch.note, hinv.stray, Bool.false_or, Bool.and_eq_false_imp]
  intro _
  rw [List.any_eq_false]
  intro d hd
  rw [htags d hd]
  simp

theorem IpiInv.step_posted (hipi : cfg.ipiAvailable = true) (hk : KeepsIpis cfg s h)
    (hstep : step cfg s h a = some t) (i d : Nat) (hd : d ∈ (w.note cfg s (h, a)).posted i) :
    Stays t d i ∧ (t.hart i).smode = true := by
  have he := step_effect hstep
  have hkeep : Stays s d i → (s.hart i).smode = true → Stays t d i := by
    intro hs hsmode
    refine he.stays hs ?_
    by_cases hi : i = h
    · subst hi
      refine .inr fun target state hpc => ?_
      rw [(hinv.park_ok hk i target state hpc).1] at hsmode
      cases hsmode
    · exact .inl hi
  rcases Watch.note_posted hd with ⟨hposts, hwhose⟩ | ⟨hold, hswap⟩
  · obtain ⟨hsmode, hwhere⟩ := step_posts hipi hposts hstep
    refine ⟨?_, hsmode⟩
    rcases hwhose with rfl | hold
    · rcases hwhere with ⟨rq, targets, rest, hpc⟩ | ⟨hback, hfree⟩
      · refine hinv.held_stays hk he ?_
        have hsends := hinv.sends h
        rw [hpc] at hsends ⊢
        rw [post_held_iff]
        exact ⟨⟨hsends.1.1, hsends.1.2 i (hsends.2 i List.mem_cons_self)⟩, List.mem_cons_self⟩
      · refine he.stays (hinv.masks.stays_of_free hfree hback) (.inr fun target state hpc => ?_)
        simp only [Sys.posts, hpc, reduceCtorEq] at hposts
    · obtain ⟨hs, hsm⟩ := hinv.posted i d hold
      exact hkeep hs hsm
  · obtain ⟨hs, hsmode⟩ := hinv.posted i d hold
    refine ⟨hkeep hs hsmode, he.smode_mono hsmode ?_⟩
    by_cases hi : i = h
    · exact .inr (Bool.not_eq_true _ ▸ fun hs => hswap ⟨hi, hs⟩)
    · exact .inl hi

theorem IpiInv.step_taken (he : Effect cfg s h a t) (i d : Nat)
    (hd : d ∈ (w.note cfg s (h, a)).taken i) : t.domain i = d ∧ (t.pc i).serving = true := by
  have hdomain : (s.pc h).switching = none → t.domain h = s.domain h := by
    intro hs
    refine he.domain_eq h (.inr fun target hpc => ?_)
    rw [hpc] at hs
    cases hs
  rcases Watch.note_taken hd with ⟨rfl, hswap, hfences, hold⟩ | ⟨hold, hnone⟩
  · have hs := Pc.switching_of_swapping hswap
    refine ⟨(hdomain hs).trans (hinv.posted_here hold hs), ?_⟩
    refine (he.swapped hswap (hinv.posted i d hold).2).resolve_right fun hdeliver => ?_
    cases hpc : s.pc i with
    | ipiSwap => simp [Sys.delivers, hpc, hfences] at hdeliver
    | _ => rw [hpc] at hswap; cases hswap
  · obtain ⟨hhere, hserving⟩ := hinv.taken i d hold
    by_cases hi : i = h
    · subst hi
      refine ⟨(hdomain (Pc.switching_of_serving hserving)).trans hhere, ?_⟩
      refine (he.serving hserving).resolve_right fun hdeliver => ?_
      rw [hnone rfl] at hdeliver
      cases hdeliver
    · rw [he.domain_eq i (.inl hi), he.pc_other hi]
      exact ⟨hhere, hserving⟩

theorem IpiInv.step_waits (hipi : cfg.ipiAvailable = true) (hk : KeepsIpis cfg s h)
    (he : Effect cfg s h a t) (g i : Nat) (hw : (w.note cfg s (h, a)).waits g i = true) :
    Owes t (t.domain g) i ((t.pc g).progress i) := by
  have hm := hinv.masks
  rcases Watch.note_waits hw with ⟨rq, rfl, rfl, hcalls⟩ | ⟨hcall, hold, htold⟩
  · obtain ⟨-, -, -, -, hup, hmem⟩ := hcalls
    obtain ⟨hpc, ht⟩ := he.call
    have ho : Owes s (s.domain g) i .unread := (hm.hart i).ran_of_member hup hmem
    rw [he.domain_eq g (.inr (by rw [hpc]; nofun))]
    have hnew : t.pc g = ecall cfg rq := by rw [ht, goto_pc_self]
    rw [hnew]
    rcases ecall_progress cfg rq i with hunread | hout
    · rw [hunread]
      refine (Owes.effect he hm ho ?_ nofun).resolve_right fun hd => ?_
      · intro _ target state heq
        cases hpc.symm.trans heq
      · simp [Sys.delivers, hpc] at hd
    · rw [hout]
      trivial
  · by_cases hg : g = h
    · subst hg
      rcases he.domain_or_smode with heq | hsmode
      · rw [heq]
        exact hinv.own hipi hk he (hcall rfl) hold htold
      · rw [hsmode]
        trivial
    · rw [he.domain_eq g (.inl hg), he.pc_other hg]
      refine (Owes.effect he hm (hinv.waits g i hold) ?_ ?_).resolve_right htold
      · rintro rfl
        exact hinv.park_ok hk g
      · rintro rfl
        exact hinv.unpark_ok hk g

theorem IpiInv.step_owed (hk : KeepsIpis cfg s h) (he : Effect cfg s h a t) (d i : Nat)
    (ho : (w.note cfg s (h, a)).owed d i = true) : Due t d i := by
  obtain ⟨hwhy, htold⟩ := Watch.note_owed ho
  have hdue : Due s d i := by
    rcases hwhy with hold | ⟨hreturns, rfl, hw⟩
    · exact hinv.owed d i hold
    · have ho := hinv.waits h i hw
      unfold Sys.returns at hreturns
      split at hreturns
      · next rq hpc =>
        rw [hpc, Pc.progress, Request.tell, if_pos hreturns] at ho
        exact ho
      · exact hreturns.elim
  have hcarry : Owes t d i .settled ∨ (i = h ∧ s.delivers h = some d) :=
    Owes.effect he hinv.masks hdue
      (fun _ target state hpc => ⟨(hinv.park_ok hk i target state hpc).1, by rintro _ ⟨⟩⟩)
      (by rintro _ _ ⟨⟩)
  exact hcarry.resolve_right htold

theorem IpiInv.step (hipi : cfg.ipiAvailable = true) (hk : KeepsIpis cfg s h)
    (hstep : step cfg s h a = some t) : IpiInv cfg t (w.note cfg s (h, a)) := by
  have he := step_effect hstep
  have hm := hinv.masks.effect he
  constructor
  · exact hm
  · intro i hi
    rw [he.pc_other (ne_of_gt (lt_of_lt_of_le (step_hart hstep).1 hi))]
    exact hinv.outside i hi
  · intro i
    by_cases hi : i = h
    · subst hi
      exact he.sends (hinv.sends i)
    · rw [he.pc_other hi]
      exact hinv.sends i
  · intro i rq hf
    by_cases hi : i = h
    · subst hi
      exact he.fences (hinv.fences i) hf
    · rw [he.pc_other hi] at hf
      exact hinv.fences i rq hf
  · intro g i hheld
    by_cases hg : g = h
    · subst hg
      rcases he.domain_or_smode with heq | hsmode
      · rw [heq]
        exact hinv.own_held hipi hk he hheld
      · rw [hsmode] at hheld
        cases hheld
    · rw [he.pc_other hg] at hheld
      rw [he.domain_eq g (.inl hg)]
      exact hinv.held_stays hk he hheld
  · intro g i hw
    rcases Watch.note_waits hw with ⟨rq, -, -, hcalls⟩ | ⟨-, hold, -⟩
    · obtain ⟨-, -, hi, hpresent, hup, -⟩ := hcalls
      refine ⟨hi, hpresent, he.not_stopped fun hstopped => hup ?_⟩
      exact (hinv.masks.hart i).stopped.mpr hstopped
    · obtain ⟨hi, hpresent, hup⟩ := hinv.called g i hold
      exact ⟨hi, hpresent, he.not_stopped hup⟩
  · exact hinv.step_waits hipi hk he
  · exact hinv.step_owed hk he
  · exact hinv.step_posted hipi hk hstep
  · exact hinv.step_taken he
  · exact hinv.not_stray

end

end Steps

def watch (cfg : Config) (s : Sys x) (es : List (Nat × Act x)) : Watch :=
  Runs.watch (fun s e => step cfg s e.1 e.2) (Watch.note cfg) .empty s es

abbrev KeepsIpisAlong (cfg : Config) : Sys x → List (Nat × Act x) → Prop :=
  Runs.Along (fun s e => step cfg s e.1 e.2) fun s e => KeepsIpis cfg s e.1

theorem run_ipiInv {cfg : Config} {home : Nat → Nat} {up : Nat → Bool} {es : List (Nat × Act x)}
    {t : Sys x} (hipi : cfg.ipiAvailable = true) (halong : KeepsIpisAlong cfg (init home up) es)
    (hrun : run cfg (init home up) es = some t) :
    IpiInv cfg t (watch cfg (init home up) es) :=
  halong.watch_invariant (fun _ _ _ _ hinv hk hstep => hinv.step hipi hk hstep)
    (init_ipiInv cfg home up) hrun

theorem IpiInv.not_owed {cfg : Config} {s : Sys x} {w : Watch} {h : Nat} (hinv : IpiInv cfg s w)
    (hpc : s.pc h = .smode) (hline : s.line h = false) : w.owed (s.domain h) h = false := by
  refine Bool.not_eq_true _ ▸ fun howed => ?_
  rcases hinv.owed _ _ howed with ⟨-, ⟨-, hraised⟩ | hserving⟩ | hmark
  · rw [hline, hpc] at hraised
    rcases hraised with hr | hr <;> cases hr
  · rw [hpc] at hserving
    cases hserving
  · exact (hinv.masks.hart h).here (by rw [hpc]; rfl) hmark.2.1

/-- What a call that has returned owes to a hart is due there, S-mode of the domain does not run
    on that hart before it has it, and the event of one domain does not set SSIP in another. -/
theorem ipis_delivered (cfg : Config) (home : Nat → Nat) (up : Nat → Bool)
    (es : List (Nat × Act x)) (t : Sys x) (hipi : cfg.ipiAvailable = true)
    (halong : KeepsIpisAlong cfg (init home up) es)
    (hrun : run cfg (init home up) es = some t) :
    (watch cfg (init home up) es).stray = false ∧
      (∀ d h, (watch cfg (init home up) es).owed d h = true → Due t d h) ∧
      ∀ h, t.pc h = .smode → t.line h = false →
        (watch cfg (init home up) es).owed (t.domain h) h = false := by
  have hinv := run_ipiInv hipi halong hrun
  exact ⟨hinv.stray, hinv.owed, fun h => hinv.not_owed⟩

/-- Two harts of domain 1, and an IPI from hart 1 to hart 0. -/
def pair : Config := ⟨2, fun h => h < 2, true, true, true⟩

def pairStart : Sys .rv64 := init (fun _ => 1) fun h => h < 2

def ipiTo0 (legacy : Bool) : Request .rv64 := ⟨legacy, some [some 0], none⟩

def goes (h n : Nat) : List (Nat × Act .rv64) := List.replicate n (h, .go)

def away : List (Nat × Act .rv64) := (0, .switch 2 .calling) :: goes 0 5

def comesBack : List (Nat × Act .rv64) := (0, .switch 1 .idle) :: goes 0 5

/-- Hart 0 is away while hart 1 sends. -/
def ipiWhileAway : List (Nat × Act .rv64) :=
  away ++ (1, .call (ipiTo0 false)) :: goes 1 14 ++ comesBack

theorem ipis_delivered_whileAway :
    ∃ t, run pair pairStart ipiWhileAway = some t ∧ t.pc 0 = .smode ∧ t.domain 0 = 1 ∧
      (t.hart 0).ssip = true ∧ (watch pair pairStart ipiWhileAway).owed 1 0 = false := by
  have hview : ∃ t ∈ run pair pairStart ipiWhileAway,
      t.pc 0 = .smode ∧ t.domain 0 = 1 ∧ (t.hart 0).ssip = true ∧ t.line 0 = false := by
    decide +kernel
  obtain ⟨t, ht, hpc, hdomain, hssip, hline⟩ := hview
  have hall := ipis_delivered pair (fun _ => 1) (fun h => h < 2) ipiWhileAway t rfl
    (by decide +kernel) ht
  exact ⟨t, ht, hpc, hdomain, hssip, hdomain ▸ hall.2.2 0 hpc hline⟩

/-- A legacy call while hart 0 is away, and a call whose mask is read before hart 0
    leaves and whose event comes after. -/
def ipiLost : List (Nat × Act .rv64) :=
  away ++ (1, .call (ipiTo0 true)) :: goes 1 6 ++ comesBack

def ipiAstray : List (Nat × Act .rv64) :=
  (1, .call (ipiTo0 false)) :: goes 1 6 ++ away ++ goes 1 3 ++ goes 0 3

theorem ipis_lost_and_astray :
    (∃ t, run pair pairStart ipiLost = some t ∧ t.pc 0 = .smode ∧ t.line 0 = false ∧
      t.domain 0 = 1 ∧ (t.hart 0).ssip = false ∧ ¬ Due t 1 0 ∧
      (watch pair pairStart ipiLost).owed 1 0 = true) ∧
    ∃ t, run pair pairStart ipiAstray = some t ∧ t.pc 0 = .smode ∧ t.domain 0 = 2 ∧
      (t.hart 0).ssip = true ∧ (watch pair pairStart ipiAstray).stray = true := by
  refine ⟨?_, Runs.exists_end (by decide +kernel)⟩
  have hview : ∃ t ∈ run pair pairStart ipiLost, t.pc 0 = .smode ∧ t.line 0 = false ∧
      t.domain 0 = 1 ∧ (t.hart 0).ssip = false ∧ (t.hart 0).smode = false ∧
      (t.ctx 1 0).ipi = false := by decide +kernel
  obtain ⟨t, ht, hpc, hline, hdomain, hssip, hsmode, hipi⟩ := hview
  refine ⟨t, ht, hpc, hline, hdomain, hssip, ?_, by decide +kernel⟩
  rintro (⟨-, ⟨hsent, -⟩ | hserving⟩ | hmark)
  · rw [hsmode] at hsent
    cases hsent
  · rw [hpc] at hserving
    cases hserving
  · cases hipi.symm.trans hmark.1

end RiscvMonitor.Delivery
