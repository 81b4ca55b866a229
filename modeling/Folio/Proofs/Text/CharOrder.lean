import Folio.Proofs.Text.Units

/-!
# The order of texts, character by character

Code units are a detail of the order of texts: it compares characters at the first place where two
texts differ. Characters come in three bands, those below the surrogates, those beyond `U+FFFF` and
those from `U+E000` up to `U+FFFF`, and within a band they stand by their code points. Plain code
point order only differs where a character of the second band meets one of the third.
-/

namespace Folio.Text

/-! ## Lists by the first difference -/

section

variable {α : Type} (cmp : α → α → Ordering) [Std.ReflCmp cmp]

/-- What comes after a decision does not matter. -/
theorem then_of_ne {o : Ordering} (h : o ≠ .eq) (next : Ordering) : o.then next = o := by
  cases o with
  | eq => exact absurd rfl h
  | lt => rfl
  | gt => rfl

/-- What lists have in common at the front does not matter for their order. -/
theorem compareLex_append_left (common s t : List α) :
    (common ++ s).compareLex cmp (common ++ t) = s.compareLex cmp t := by
  induction common with
  | nil => rfl
  | cons c common ih =>
    have hself : cmp c c = .eq := Std.ReflCmp.compare_self
    rw [List.cons_append, List.cons_append, List.compareLex_cons_cons, hself, ih]
    rfl

/-- The first difference of two lists decides. -/
theorem compareLex_of_ne {c d : α} (hne : cmp c d ≠ .eq) (common s t : List α) :
    (common ++ c :: s).compareLex cmp (common ++ d :: t) = cmp c d := by
  rw [compareLex_append_left, List.compareLex_cons_cons, then_of_ne hne]

/-- A proper initial part of a list is smaller. -/
theorem compareLex_of_prefix {s t : List α} (h : s <+: t) (hne : s ≠ t) :
    s.compareLex cmp t = .lt := by
  obtain ⟨rest, rfl⟩ := h
  have hlex := compareLex_append_left cmp s [] rest
  rw [List.append_nil] at hlex
  rw [hlex]
  cases rest with
  | nil => exact absurd (List.append_nil s).symm hne
  | cons d rest => rfl

end

/-! ## Characters -/

/-- The band of a character: those below the surrogates come first, then those beyond `U+FFFF`, and
those above the surrogates last. -/
def band (c : Char) : Nat := if c.toNat < 0xD800 then 0 else if firstPair ≤ c.toNat then 1 else 2

/-- Characters compare by their bands, and by their code points within a band. -/
def compareChars (c d : Char) : Ordering :=
  (compare (band c) (band d)).then (compare c.toNat d.toNat)

/-- The order of characters is transitive and oriented. -/
instance : Std.TransCmp compareChars :=
  inferInstanceAs (Std.TransCmp (compareLex (compareOn band) (compareOn Char.toNat)))

/-- Characters tie exactly when they are equal. -/
theorem compareChars_eq_eq_iff {c d : Char} : compareChars c d = .eq ↔ c = d := by
  refine ⟨fun h => Char.toNat_inj.mp ?_, fun h => h ▸ Std.ReflCmp.compare_self⟩
  rw [compareChars, Ordering.then_eq_eq] at h
  exact Nat.compare_eq_eq.mp h.2

/-- Characters with different codes do not tie. -/
theorem compareChars_ne_eq {c d : Char} (h : c.toNat ≠ d.toNat) : compareChars c d ≠ .eq :=
  fun htie => h (congrArg Char.toNat (compareChars_eq_eq_iff.mp htie))

/-- Comparing quotients and then remainders is comparing numbers. -/
theorem compare_div_then_mod (m n k : Nat) :
    (compare (m / k) (n / k)).then (compare (m % k) (n % k)) = compare m n := by
  have hm := Nat.div_add_mod m k
  have hn := Nat.div_add_mod n k
  rcases Nat.lt_trichotomy (m / k) (n / k) with hlt | heq | hgt
  · have hdiv : m < n := Nat.lt_of_not_le fun hle => by
      have := Nat.div_le_div_right (c := k) hle
      omega
    rw [Nat.compare_eq_lt.mpr hlt, Nat.compare_eq_lt.mpr hdiv]
    rfl
  · rw [heq] at hm
    have hless : m % k < n % k ↔ m < n := by omega
    have hgreater : n % k < m % k ↔ n < m := by omega
    simp only [heq, Nat.compare_eq_ite_lt, Nat.lt_irrefl, if_false, hless, hgreater]
    rfl
  · have hdiv : n < m := Nat.lt_of_not_le fun hle => by
      have := Nat.div_le_div_right (c := k) hle
      omega
    rw [Nat.compare_eq_gt.mpr hgt, Nat.compare_eq_gt.mpr hdiv]
    rfl

/-- Two characters below `U+10000`, or two beyond, stand by their code points. -/
theorem compareChars_eq_compare {c d : Char} (h : c.toNat < firstPair ↔ d.toNat < firstPair) :
    compareChars c d = compare c.toNat d.toNat := by
  unfold compareChars band
  unfold firstPair at h ⊢
  simp only [Nat.compare_eq_ite_lt]
  grind [Ordering.then]

/-- A character below the surrogates stands before those beyond `U+FFFF`, and one above the
surrogates after them. -/
theorem compareChars_of_lt_of_le {c d : Char} (hc : c.toNat < firstPair)
    (hd : firstPair ≤ d.toNat) :
    compareChars c d = if c.toNat < 0xD800 then .lt else .gt := by
  unfold compareChars band
  unfold firstPair at hc hd ⊢
  simp only [Nat.compare_eq_ite_lt]
  grind [Ordering.then]

/-! ## Texts -/

/-- A unit of a character below `U+10000` and the first one of a pair compare as the characters. -/
theorem compare_unit_pair {c d : Char} (hc : c.toNat < firstPair) (hd : firstPair ≤ d.toNat) :
    compare c.toNat (0xD800 + (d.toNat - firstPair) / 0x400) = compareChars c d := by
  have hcode := toNat_char_bounds c
  have hbound := toNat_char_bounds d
  rw [compareChars_of_lt_of_le hc hd]
  unfold firstPair at hc hd ⊢
  split
  · exact Nat.compare_eq_lt.mpr (by omega)
  · exact Nat.compare_eq_gt.mpr (by omega)

/-- The pairs of two characters compare as the characters. -/
theorem compare_pairs {c d : Char} (hc : firstPair ≤ c.toNat) (hd : firstPair ≤ d.toNat) :
    (compare (0xD800 + (c.toNat - firstPair) / 0x400) (0xD800 + (d.toNat - firstPair) / 0x400)).then
        (compare (0xDC00 + (c.toNat - firstPair) % 0x400)
          (0xDC00 + (d.toNat - firstPair) % 0x400)) = compareChars c d := by
  have hshift (k m n : Nat) : compare (k + m) (k + n) = compare m n := by
    simp [Nat.compare_eq_ite_lt]
  have hcodes : compare (c.toNat - firstPair) (d.toNat - firstPair) = compare c.toNat d.toNat := by
    rw [← hshift firstPair, Nat.add_sub_cancel' hc, Nat.add_sub_cancel' hd]
  rw [hshift, hshift, compare_div_then_mod, hcodes, compareChars_eq_compare (by omega)]

/-- The units of two characters and what follows them compare as the characters do, and as what
follows them if the characters are equal. -/
theorem compareLex_charUnits_append (c d : Char) (xs ys : List Nat) :
    (charUnits c ++ xs).compareLex compare (charUnits d ++ ys) =
      (compareChars c d).then (xs.compareLex compare ys) := by
  unfold charUnits
  split <;> split <;> simp only [List.cons_append, List.nil_append, List.compareLex_cons_cons]
  next hc hd => rw [compareChars_eq_compare (by omega)]
  next hc hd =>
    have hne : compareChars c d ≠ .eq := compareChars_ne_eq (by omega)
    rw [compare_unit_pair hc (by omega), then_of_ne hne, then_of_ne hne]
  next hc hd =>
    have hswap : compareChars c d = (compareChars d c).swap := Std.OrientedCmp.eq_swap
    have hpair := compare_unit_pair hd (Nat.le_of_not_lt hc)
    have hne : compareChars c d ≠ .eq := compareChars_ne_eq (by omega)
    rw [← Nat.compare_swap, hpair, ← hswap, then_of_ne hne, then_of_ne hne]
  next hc hd =>
    rw [← Ordering.then_assoc, compare_pairs (by omega) (by omega)]

/-- Texts compare character by character. -/
theorem compareUnits_eq_compareLex (a b : String) :
    compareUnits a b = a.toList.compareLex compareChars b.toList := by
  unfold compareUnits units
  generalize a.toList = cs
  generalize b.toList = ds
  induction cs generalizing ds with
  | nil =>
    cases ds with
    | nil => rfl
    | cons d ds =>
      exact compareLex_of_prefix compare List.nil_prefix (by simp [charUnits_ne_nil])
  | cons c cs ih =>
    cases ds with
    | nil =>
      obtain ⟨u, us, hunits⟩ := List.exists_cons_of_ne_nil (charUnits_ne_nil c)
      rw [List.flatMap_cons, hunits]
      rfl
    | cons d ds =>
      rw [List.flatMap_cons, List.flatMap_cons, compareLex_charUnits_append, ih,
        List.compareLex_cons_cons]

/-! ## Code points -/

/-- The order of texts by code points. -/
def comparePoints (a b : String) : Ordering := a.toList.compareLex (compareOn Char.toNat) b.toList

/-- One character is beyond `U+FFFF` and the other one from `U+E000` up to `U+FFFF`. -/
def Straddles (c d : Char) : Prop :=
  firstPair ≤ c.toNat ∧ 0xE000 ≤ d.toNat ∧ d.toNat < firstPair ∨
    firstPair ≤ d.toNat ∧ 0xE000 ≤ c.toNat ∧ c.toNat < firstPair

/-- Two lists of characters differ first in these characters. -/
def DifferAt (cs ds : List Char) (c d : Char) : Prop :=
  c ≠ d ∧ ∃ common s t, cs = common ++ c :: s ∧ ds = common ++ d :: t

/-- Lists differ first in their first characters, or these are equal and the rest differs first. -/
theorem differAt_cons_iff {c d x y : Char} {cs ds : List Char} :
    DifferAt (c :: cs) (d :: ds) x y ↔ c ≠ d ∧ x = c ∧ y = d ∨ c = d ∧ DifferAt cs ds x y := by
  constructor
  · rintro ⟨hne, common, s, t, hcs, hds⟩
    cases common with
    | nil =>
      obtain ⟨rfl, -⟩ := List.cons.inj hcs
      obtain ⟨rfl, -⟩ := List.cons.inj hds
      exact .inl ⟨hne, rfl, rfl⟩
    | cons e common =>
      obtain ⟨rfl, rfl⟩ := List.cons.inj hcs
      obtain ⟨rfl, rfl⟩ := List.cons.inj hds
      exact .inr ⟨rfl, hne, common, s, t, rfl, rfl⟩
  · rintro (⟨hne, rfl, rfl⟩ | ⟨rfl, hne, common, s, t, rfl, rfl⟩)
    · exact ⟨hne, [], cs, ds, rfl, rfl⟩
    · exact ⟨hne, c :: common, s, t, rfl, rfl⟩

/-- A list without characters has no first difference from another. -/
theorem not_differAt_of_nil {cs ds : List Char} (h : cs = [] ∨ ds = []) {x y : Char} :
    ¬ DifferAt cs ds x y := by
  rintro ⟨-, common, s, t, rfl, rfl⟩
  simp at h

/-- Characters stand by their code points unless they straddle the third band. -/
theorem compareChars_eq_compare_iff {c d : Char} :
    compareChars c d = compare c.toNat d.toNat ↔ ¬ Straddles c d := by
  have hc := toNat_char_bounds c
  have hd := toNat_char_bounds d
  unfold Straddles compareChars band firstPair
  simp only [Nat.compare_eq_ite_lt]
  grind [Ordering.then]

/-- Texts stand by their code points unless the characters where they differ first straddle the
third band. -/
theorem compareUnits_eq_comparePoints_iff {a b : String} :
    compareUnits a b = comparePoints a b ↔
      ¬ ∃ c d, DifferAt a.toList b.toList c d ∧ Straddles c d := by
  rw [compareUnits_eq_compareLex, comparePoints]
  generalize a.toList = cs
  generalize b.toList = ds
  induction cs generalizing ds with
  | nil =>
    have hnone {x y : Char} : ¬ DifferAt [] ds x y := not_differAt_of_nil (.inl rfl)
    cases ds <;> simp [List.compareLex, hnone]
  | cons c cs ih =>
    cases ds with
    | nil =>
      have hnone {x y : Char} : ¬ DifferAt (c :: cs) [] x y := not_differAt_of_nil (.inr rfl)
      simp [List.compareLex, hnone]
    | cons d ds =>
      rw [List.compareLex_cons_cons, List.compareLex_cons_cons]
      simp only [differAt_cons_iff]
      by_cases heq : c = d
      · subst heq
        have hself : compareChars c c = .eq := Std.ReflCmp.compare_self
        have hself' : compareOn Char.toNat c c = .eq := Std.ReflCmp.compare_self
        rw [hself, hself']
        simpa using ih ds
      · have hne : compareChars c d ≠ .eq := mt compareChars_eq_eq_iff.mp heq
        have hne' : compareOn Char.toNat c d ≠ .eq :=
          fun htie => heq (Char.toNat_inj.mp (Nat.compare_eq_eq.mp htie))
        rw [then_of_ne hne, then_of_ne hne', compareOn, compareChars_eq_compare_iff]
        simp [heq]

/-- **The order of texts.** Texts compare character by character, and their first difference decides;
a proper initial part is smaller. Characters stand by their code points, but those beyond `U+FFFF`
come between `U+D7FF` and `U+E000`. This is a total order in which only equal texts tie, and it is
code point order exactly where the first difference is not between a character beyond `U+FFFF` and
one from `U+E000` up to `U+FFFF`. -/
theorem compareUnits_spec :
    (∀ a b, compareUnits a b = a.toList.compareLex compareChars b.toList) ∧
    (∀ a b c d, DifferAt a.toList b.toList c d → compareUnits a b = compareChars c d) ∧
    (∀ a b, a.toList <+: b.toList → a ≠ b → compareUnits a b = .lt) ∧
    Std.TransCmp compareUnits ∧
    (∀ a b, compareUnits a b = .eq ↔ a = b) ∧
    ∀ a b, compareUnits a b = comparePoints a b ↔
      ¬ ∃ c d, DifferAt a.toList b.toList c d ∧ Straddles c d := by
  refine ⟨compareUnits_eq_compareLex, fun a b c d => ?_, fun a b hprefix hne => ?_, inferInstance,
    fun a b => Std.LawfulEqCmp.compare_eq_iff_eq, fun a b => compareUnits_eq_comparePoints_iff⟩
  · rintro ⟨hne, common, s, t, ha, hb⟩
    rw [compareUnits_eq_compareLex, ha, hb]
    exact compareLex_of_ne compareChars (mt compareChars_eq_eq_iff.mp hne) common s t
  · rw [compareUnits_eq_compareLex]
    exact compareLex_of_prefix compareChars hprefix (mt String.toList_inj.mp hne)

/-- A character beyond `U+FFFF` comes before `U+E000`, although its code point is greater. -/
theorem compareUnits_spec_straddling :
    DifferAt "x😀".toList "x\uE000y".toList '😀' '\uE000' ∧ Straddles '😀' '\uE000' ∧
      compareUnits "x😀" "x\uE000y" = .lt ∧ comparePoints "x😀" "x\uE000y" ≠ .lt ∧
      compareUnits "x" "x😀" = .lt := by
  obtain ⟨-, hfirst, hprefix, -, -, hpoints⟩ := compareUnits_spec
  have hdiffer : DifferAt "x😀".toList "x\uE000y".toList '😀' '\uE000' :=
    ⟨by decide, ['x'], [], ['y'], by decide, by decide⟩
  have hstraddles : Straddles '😀' '\uE000' := .inl (by decide)
  have hless : compareUnits "x😀" "x\uE000y" = .lt := (hfirst _ _ _ _ hdiffer).trans (by decide)
  refine ⟨hdiffer, hstraddles, hless, fun hpoint => ?_, hprefix _ _ (by decide) (by decide)⟩
  exact (hpoints _ _).mp (hless.trans hpoint.symm) ⟨_, _, hdiffer, hstraddles⟩

end Folio.Text
