import Mathlib

/-!
# The extensions that the device tree lists

`isa.c` rewrites the property of the boot hart's node to a list of names with a
space before and after each, and looks a name up by searching the list for it.
The property is a list of strings, or one string of single letters and of names
between underscores.
-/

namespace RiscvMonitor.Isa

abbrev Text := List Char

def lower (c : Char) : Char := if c.isUpper then Char.ofNat (c.toNat + 32) else c

/-- The names of `riscv,isa`, and the space after the last one -/
def isaNames (prop : Text) : Text :=
  prop.map (fun c => if c = '_' then ' ' else lower c) ++ [' ']

/-- `riscv,isa` after its first four characters: a multi-letter name without its
    underscore ends the single letters. -/
def isaLetters : Text → Text
  | [] => isaNames []
  | c :: prop =>
    if c = '_' ∨ lower c ∈ ['s', 'x', 'z'] then isaNames (c :: prop)
    else lower c :: ' ' :: isaLetters prop

/-- `isa_init()`: the list, of `riscv,isa-extensions` with the zeros that end its
    strings, or of `riscv,isa` without the one that ends it -/
def isaInit (extensions isa : Option Text) : Option Text :=
  match extensions, isa with
  | some (c :: prop), _ =>
    some (' ' :: (c :: prop).map fun c => if c = '\x00' then ' ' else lower c)
  | _, some (r :: v :: _ :: _ :: prop) =>
    if lower r ≠ 'r' ∨ lower v ≠ 'v' then none else some (' ' :: isaLetters prop)
  | _, _ => none

section Search

variable (e : Char) (es : Text)

/-- `strstr()` for a name, after a character: the one before what is found, and what
    comes after it -/
def strstr : Char → Text → Option (Char × Text)
  | _, [] => none
  | prev, c :: p =>
    if (e :: es).isPrefixOf (c :: p) then some (prev, p.drop es.length) else strstr c p

variable {e es}

theorem length_of_strstr {prev b : Char} {p rest : Text}
    (h : strstr e es prev p = some (b, rest)) : rest.length < p.length := by
  induction p generalizing prev with
  | nil => cases h
  | cons c p ih =>
    rw [strstr] at h
    split at h
    · cases h
      exact Nat.lt_succ_of_le (List.drop_sublist _ _).length_le
    · exact Nat.lt_succ_of_lt (ih h)

def ends : Text → Bool
  | [] => true
  | c :: _ => c = ' '

variable (e es) in
/-- The search of `isa_has()` -/
def isaSearch (prev : Char) (p : Text) : Bool :=
  match h : strstr e es prev p with
  | none => false
  | some (b, rest) =>
    have := length_of_strstr h
    if b = ' ' ∧ ends rest then true else isaSearch ((e :: es).getLast nofun) rest
termination_by p.length
decreasing_by exact this

end Search

/-- `isa_has()` for a name that is not empty, with whatever is in memory before the
    list -/
def isaHas (list : Option Text) (before : Char) : Text → Bool
  | [] => false
  | e :: es => list.any (isaSearch e es before)

/-! ### The search finds names -/

/-- The name is in the list: after a space, and up to one or to the end. -/
def Listed (x : Text) : Char → Text → Prop
  | _, [] => False
  | prev, c :: p => (prev = ' ' ∧ ∃ rest, c :: p = x ++ rest ∧ ends rest) ∨ Listed x c p

variable {x : Text}

/-- No name begins inside of characters that are no spaces. -/
theorem listed_skip {y p : Text} {prev : Char} (hprev : prev ≠ ' ') (hy : ' ' ∉ y) :
    Listed x prev (y ++ p) ↔ Listed x ((prev :: y).getLast nofun) p := by
  induction y generalizing prev with
  | nil => rfl
  | cons c y ih =>
    obtain ⟨hc, hy⟩ := not_or.mp (List.mem_cons.not.mp hy)
    rw [List.cons_append, Listed, ih (Ne.symm hc) hy, List.getLast_cons_cons]
    exact or_iff_right fun h => hprev h.1

theorem listed_of_strstr {e : Char} {es : Text} (hx : ' ' ∉ e :: es) (prev : Char)
    (p : Text) :
    Listed (e :: es) prev p ↔ ∃ r ∈ strstr e es prev p,
      r.1 = ' ' ∧ ends r.2 ∨ Listed (e :: es) ((e :: es).getLast nofun) r.2 := by
  induction p generalizing prev with
  | nil => simp [Listed, strstr]
  | cons c p ih =>
    rw [Listed, strstr]
    split
    · next hfound =>
      obtain ⟨rest, hrest⟩ := List.isPrefixOf_iff_prefix.mp hfound
      obtain ⟨rfl, rfl⟩ := List.cons.inj hrest
      obtain ⟨hc, hes⟩ := not_or.mp (List.mem_cons.not.mp hx)
      simp [listed_skip (Ne.symm hc) hes]
    · next hno =>
      rw [ih]
      refine or_iff_right ?_
      rintro ⟨-, rest, hrest, -⟩
      exact hno (List.isPrefixOf_iff_prefix.mpr ⟨rest, hrest.symm⟩)

theorem isaSearch_iff {e : Char} {es : Text} (hx : ' ' ∉ e :: es) (prev : Char)
    (p : Text) : isaSearch e es prev p = true ↔ Listed (e :: es) prev p := by
  fun_induction isaSearch e es prev p with
  | case1 prev p hnone =>
    rw [listed_of_strstr hx prev p, hnone]
    simp
  | case2 prev p b rest hsome hlt hfound =>
    rw [listed_of_strstr hx prev p, hsome]
    simp [hfound]
  | case3 prev p b rest hsome hlt hno ih =>
    rw [ih, listed_of_strstr hx prev p, hsome]
    simp [hno]

/-! ### The list is that of the names -/

/-- Names, with a space after each -/
def joined (names : List Text) : Text := names.flatMap (· ++ [' '])

theorem eq_of_append_eq {s rest r : Text} (hx : ' ' ∉ x) (hs : ' ' ∉ s) (hr : ends r)
    (heq : s ++ ' ' :: rest = x ++ r) : x = s := by
  rcases List.append_eq_append_iff.mp heq with ⟨a, rfl, ha⟩ | ⟨a, rfl, rfl⟩
  · cases a with
    | nil => simp
    | cons c a =>
      cases ha
      simp at hx
  · cases a with
    | nil => simp
    | cons c a =>
      have hc : c = ' ' := by simpa [ends] using hr
      subst hc
      simp at hs

theorem listed_joined (hx : ' ' ∉ x) {names : List Text} (hnames : ∀ s ∈ names, ' ' ∉ s) :
    Listed x ' ' (joined names) ↔ x ∈ names := by
  induction names with
  | nil => simp [joined, Listed]
  | cons s names ih =>
    have ih := ih fun s hs => hnames s (List.mem_cons_of_mem _ hs)
    have hs := hnames s List.mem_cons_self
    have hcons : joined (s :: names) = s ++ ' ' :: joined names := by simp [joined]
    have hfirst : (∃ r, s ++ ' ' :: joined names = x ++ r ∧ ends r) ↔ x = s := by
      constructor
      · rintro ⟨r, heq, hr⟩
        exact eq_of_append_eq hx hs hr heq
      · rintro rfl
        exact ⟨_, rfl, by simp [ends]⟩
    rw [hcons, List.mem_cons, ← ih, ← hfirst]
    cases s with
    | nil => simp [Listed]
    | cons c s =>
      obtain ⟨hc, hs'⟩ := not_or.mp (List.mem_cons.not.mp hs)
      have hlast : (c :: s).getLast nofun ≠ ' ' := fun h => hs (h ▸ List.getLast_mem _)
      rw [List.cons_append, Listed, listed_skip (Ne.symm hc) hs', Listed]
      simp [hlast]

theorem isaHas_joined (hne : x ≠ []) (hx : ' ' ∉ x) (before : Char) {names : List Text}
    (hnames : ∀ s ∈ names, ' ' ∉ s) :
    isaHas (some (' ' :: joined names)) before x = true ↔ x ∈ names := by
  cases x with
  | nil => exact absurd rfl hne
  | cons e es =>
    rw [isaHas, Option.any_some, isaSearch_iff hx, Listed, ← listed_joined hx hnames]
    refine or_iff_right ?_
    rintro ⟨-, rest, hrest, -⟩
    exact hx ((List.cons.inj hrest).1 ▸ List.mem_cons_self)

theorem lower_ne_space {c : Char} (hc : c ≠ ' ') : lower c ≠ ' ' := by
  unfold lower
  split
  · next hupper =>
    have hletters : ∀ n < 26, Char.ofNat (65 + n + 32) ≠ ' ' := by decide
    simp only [Char.isUpper, ge_iff_le, Bool.and_eq_true, decide_eq_true_eq] at hupper
    have hlow : 65 ≤ c.toNat := hupper.1
    have hhigh : c.toNat ≤ 90 := hupper.2
    have := hletters (c.toNat - 65) (by omega)
    rwa [show 65 + (c.toNat - 65) = c.toNat by omega] at this
  · exact hc

theorem space_not_mem_lower {s : Text} (hs : ' ' ∉ s) : ' ' ∉ s.map lower := by
  intro hmem
  obtain ⟨c, hc, hlower⟩ := List.mem_map.mp hmem
  exact lower_ne_space (fun h => hs (h ▸ hc)) hlower

structure Extensions where
  strings : List Text
  nonempty : strings ≠ []
  plain : ∀ s ∈ strings, '\x00' ∉ s ∧ ' ' ∉ s

def Extensions.text (l : Extensions) : Text := l.strings.flatMap (· ++ ['\x00'])

def Extensions.names (l : Extensions) : List Text := l.strings.map (·.map lower)

/-- A value of `riscv,isa`. No single letter is one that multi-letter names begin with. -/
structure IsaString where
  r : Char
  v : Char
  width : Char × Char
  letters : Text
  multi : List Text
  rv : lower r = 'r' ∧ lower v = 'v'
  single : ∀ c ∈ letters, c ≠ ' ' ∧ c ≠ '_' ∧ lower c ∉ ['s', 'x', 'z']
  plain : ∀ s ∈ multi, '_' ∉ s ∧ ' ' ∉ s

def IsaString.text (i : IsaString) : Text :=
  i.r :: i.v :: i.width.1 :: i.width.2 :: (i.letters ++ i.multi.flatMap ('_' :: ·))

def IsaString.names (i : IsaString) : List Text :=
  i.letters.map (fun c => [lower c]) ++ i.multi.map (·.map lower)

theorem map_eq_lower {sep : Char} {s : Text} (hs : sep ∉ s) :
    s.map (fun c => if c = sep then ' ' else lower c) = s.map lower := by
  refine List.map_congr_left fun c hc => if_neg ?_
  rintro rfl
  exact hs hc

theorem Extensions.isaInit_eq (l : Extensions) (isa : Option Text) :
    isaInit (some l.text) isa = some (' ' :: joined l.names) := by
  have hjoined : l.text.map (fun c => if c = '\x00' then ' ' else lower c) = joined l.names := by
    rw [text, names, joined, List.map_flatMap, List.flatMap_map]
    refine List.flatMap_congr fun s hs => ?_
    rw [List.map_append, map_eq_lower (l.plain s hs).1]
    rfl
  obtain ⟨c, prop, htext⟩ : ∃ c prop, l.text = c :: prop := by
    obtain ⟨s, strings, hstrings⟩ := List.exists_cons_of_ne_nil l.nonempty
    refine List.exists_cons_of_ne_nil ?_
    simp [text, hstrings]
  rw [← hjoined, htext]
  rfl

theorem isaNames_eq {names : List Text} (hnames : ∀ s ∈ names, '_' ∉ s) :
    isaNames (names.flatMap ('_' :: ·)) = joined ([] :: names.map (·.map lower)) := by
  unfold isaNames
  induction names with
  | nil => rfl
  | cons s names ih =>
    have ih := ih fun s hs => hnames s (List.mem_cons_of_mem _ hs)
    rw [List.flatMap_cons, List.map_append, List.append_assoc, ih, List.map_cons,
      map_eq_lower (hnames s List.mem_cons_self)]
    simp [joined]

theorem isaLetters_eq {letters : Text}
    (hsingle : ∀ c ∈ letters, c ≠ ' ' ∧ c ≠ '_' ∧ lower c ∉ ['s', 'x', 'z'])
    {names : List Text} (hnames : ∀ s ∈ names, '_' ∉ s) :
    isaLetters (letters ++ names.flatMap ('_' :: ·)) =
      joined (letters.map (fun c => [lower c]) ++ [] :: names.map (·.map lower)) := by
  induction letters with
  | nil =>
    rw [List.nil_append, List.map_nil, List.nil_append, ← isaNames_eq hnames]
    cases names <;> simp [isaLetters]
  | cons c letters ih =>
    have ih := ih fun c hc => hsingle c (List.mem_cons_of_mem _ hc)
    obtain ⟨-, hc⟩ := hsingle c List.mem_cons_self
    rw [List.cons_append, isaLetters, if_neg (not_or.mpr hc), ih]
    simp [joined]

theorem IsaString.isaInit_eq (i : IsaString) :
    isaInit none (some i.text) =
      some (' ' ::
        joined (i.letters.map (fun c => [lower c]) ++ [] :: i.multi.map (·.map lower))) := by
  rw [text, isaInit, if_neg (by simp [i.rv]), isaLetters_eq i.single fun s hs => (i.plain s hs).1]
  nofun

def threeExtensions : Extensions where
  strings := [['i'], ['M'], "zicsr".toList]
  nonempty := nofun
  plain := by decide

def threeLetters : IsaString where
  r := 'r'
  v := 'v'
  width := ('6', '4')
  letters := ['I', 'm']
  multi := ["Zicsr".toList]
  rv := by decide
  single := by simp [lower]
  plain := by decide

end RiscvMonitor.Isa
