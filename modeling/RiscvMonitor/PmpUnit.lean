import RiscvMonitor.FirstMatch
import RiscvMonitor.PowerTwo

/-!
# The physical memory protection unit

The PMP of the privileged specification with Smepmp, as far as S- and U-mode accesses
and M-mode's writes go: the lowest-numbered of sixteen entries that matches any byte of
an access decides, and an access no entry matches fails.  `g` is the exponent of the
grain: the low `g` bits of an address do not exist.
-/

namespace RiscvMonitor.Pmp

open FirstMatch

inductive Access where
  | read
  | write
  | exec
deriving DecidableEq, Repr

inductive Mode where
  | off
  | tor
  | na4
  | napot
deriving DecidableEq, Repr

structure Cfg where
  read : Bool
  write : Bool
  exec : Bool
  mode : Mode
  lock : Bool
deriving DecidableEq, Repr

def Cfg.zero : Cfg := ⟨false, false, false, .off, false⟩

structure Entry (w : Nat) where
  addr : BitVec w
  cfg : Cfg
deriving DecidableEq

/-- The entries, and `mseccfg`: rule locking bypass, machine mode lockdown and
    machine mode whitelist policy. -/
structure State (w : Nat) where
  entry : Nat → Entry w
  rlb : Bool
  mml : Bool
  mmwp : Bool

def entryCount : Nat := 16

variable {w : Nat}

/-! ### Which bytes an entry is for -/

/-- The address of a NAPOT entry as the unit reads it: ones below the grain. -/
def napotAddr (g p : Nat) : Nat := p ||| (2 ^ (g - 1) - 1)

def matchNapot (w g p a : Nat) : Prop :=
  a / 2 ^ (PowerTwo.trailingOnes w (napotAddr g p) + 3) =
    napotAddr g p / 2 ^ (PowerTwo.trailingOnes w (napotAddr g p) + 1)

def matchTor (g lo hi a : Nat) : Prop :=
  lo / 2 ^ g * 2 ^ g * 4 ≤ a ∧ a < hi / 2 ^ g * 2 ^ g * 4

instance (w g p a : Nat) : Decidable (matchNapot w g p a) :=
  inferInstanceAs (Decidable (_ = _))

instance (g lo hi a : Nat) : Decidable (matchTor g lo hi a) :=
  inferInstanceAs (Decidable (_ ∧ _))

/-- `prev` is the address of the entry before, zero for the first one. -/
def Entry.matches (g : Nat) (prev : Nat) (e : Entry w) (a : Nat) : Prop :=
  match e.cfg.mode with
  | .off => False
  | .tor => matchTor g prev e.addr.toNat a
  | .na4 => a / 4 = e.addr.toNat
  | .napot => matchNapot w g e.addr.toNat a

def State.prevAddr (u : State w) : Nat → Nat
  | 0 => 0
  | i + 1 => (u.entry i).addr.toNat

/-! ### What an entry gives S- and U-mode -/

/-- Under MML, W without R is a region shared with M-mode, and of the locked rules only the two
    shared encodings are S-mode's. -/
def Cfg.suGrants (mml : Bool) (c : Cfg) : Access → Bool
  | .read =>
    if mml then
      if c.lock then c.read && c.write && c.exec else c.read || c.write
    else c.read
  | .write =>
    if mml then
      if c.lock then false else c.write && (c.read || c.exec)
    else c.write
  | .exec =>
    if mml then
      if c.lock then !c.read && c.write else c.exec && (c.read || !c.write)
    else c.exec

def State.rule (g : Nat) (u : State w) (i : Nat) : Rule Nat Access where
  covers := (u.entry i).matches g (u.prevAddr i)
  grants := fun acc => (u.entry i).cfg.suGrants u.mml acc = true

def State.rules (g : Nat) (u : State w) : List (Rule Nat Access) :=
  (List.range entryCount).map (u.rule g)

/-! ### Writes from M-mode -/

def State.set (u : State w) (i : Nat) (e : Entry w) : State w :=
  { u with entry := Function.update u.entry i e }

/-- A locked entry keeps its address, and the one a locked TOR entry starts at too. -/
def State.writeAddr (u : State w) (i : Nat) (addr : BitVec w) : State w :=
  if (u.entry i).cfg.lock ∧ u.rlb = false then u
  else if (u.entry (i + 1)).cfg.lock ∧ (u.entry (i + 1)).cfg.mode = .tor ∧ u.rlb = false then u
  else u.set i { u.entry i with addr := addr }

/-- Under MML a locked rule with execute permission is not taken either. -/
def State.writeCfg (u : State w) (i : Nat) (c : Cfg) : State w :=
  if (u.entry i).cfg.lock ∧ u.rlb = false then u
  else if u.mml ∧ u.rlb = false ∧ c.lock ∧ (c.exec ∨ (c.read = false ∧ c.write)) then u
  else u.set i { u.entry i with cfg := c }

/-- The bypass can only be set while no rule is locked. -/
def State.setRlb (u : State w) : State w :=
  if (List.range entryCount).any (fun i => (u.entry i).cfg.lock) then u else { u with rlb := true }

/-- Both bits are sticky. -/
def State.setMmlMmwp (u : State w) : State w := { u with mml := true, mmwp := true }

/-- Out of reset: no entry is on or locked, and `mseccfg` is clear. -/
structure State.Reset (u : State w) : Prop where
  off : ∀ i, (u.entry i).cfg.mode = .off
  unlocked : ∀ i, (u.entry i).cfg.lock = false
  rlb : u.rlb = false
  mml : u.mml = false

def State.atReset : State w := ⟨fun _ => ⟨0, Cfg.zero⟩, false, false, false⟩

theorem State.reset_atReset : (State.atReset : State w).Reset :=
  ⟨fun _ => rfl, fun _ => rfl, rfl, rfl⟩

def State.Writable (u : State w) : Prop :=
  u.rlb = true ∨ ∀ i, (u.entry i).cfg.lock = false

/-! ### Entries one by one -/

@[simp] theorem State.set_entry_same (u : State w) (i : Nat) (e : Entry w) :
    (u.set i e).entry i = e := by
  simp [State.set]

theorem State.set_entry_of_ne (u : State w) {i j : Nat} (e : Entry w) (h : j ≠ i) :
    (u.set i e).entry j = u.entry j := by
  simp [State.set, Function.update_of_ne h]

@[simp] theorem State.set_rlb (u : State w) (i : Nat) (e : Entry w) :
    (u.set i e).rlb = u.rlb := rfl

@[simp] theorem State.set_mml (u : State w) (i : Nat) (e : Entry w) :
    (u.set i e).mml = u.mml := rfl

@[simp] theorem State.set_set (u : State w) (i : Nat) (e e' : Entry w) :
    (u.set i e).set i e' = u.set i e' := by
  simp [State.set]

theorem State.Writable.set {u : State w} (h : u.Writable) {i : Nat} {e : Entry w}
    (he : u.rlb = true ∨ e.cfg.lock = false) : (u.set i e).Writable := by
  rcases h with hrlb | hlock
  · exact .inl hrlb
  · rcases he with hrlb | he
    · exact .inl hrlb
    · refine .inr fun j => ?_
      by_cases hj : j = i
      · subst hj
        simpa using he
      · rw [u.set_entry_of_ne e hj]
        exact hlock j

structure WritesOnly (lo hi : Nat) (u u' : State w) : Prop where
  entry : ∀ j, j < lo ∨ hi ≤ j → u'.entry j = u.entry j
  rlb : u'.rlb = u.rlb
  mml : u'.mml = u.mml

theorem WritesOnly.refl (lo hi : Nat) (u : State w) : WritesOnly lo hi u u :=
  ⟨fun _ _ => rfl, rfl, rfl⟩

theorem WritesOnly.set (u : State w) (i : Nat) (e : Entry w) : WritesOnly i (i + 1) u (u.set i e) :=
  ⟨fun j hj => u.set_entry_of_ne e (by omega), rfl, rfl⟩

theorem WritesOnly.mono {lo hi lo' hi' : Nat} {u u' : State w} (h : WritesOnly lo hi u u')
    (hlo : lo' ≤ lo) (hhi : hi ≤ hi') : WritesOnly lo' hi' u u' :=
  ⟨fun j hj => h.entry j (by omega), h.rlb, h.mml⟩

theorem WritesOnly.trans {lo hi : Nat} {u u' u'' : State w} (h : WritesOnly lo hi u u')
    (h' : WritesOnly lo hi u' u'') : WritesOnly lo hi u u'' :=
  ⟨fun j hj => (h'.entry j hj).trans (h.entry j hj), h'.rlb.trans h.rlb, h'.mml.trans h.mml⟩

end RiscvMonitor.Pmp
