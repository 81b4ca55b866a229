import Folio.Text.Units

/-!
# The order of texts by code units

Texts are compared by the list of their UTF-16 code units. No character's units begin those of
another, so the list determines the text, and the order of the lists is an order of the texts.
-/

namespace Folio.Text

/-- The code of a character lies below the halves of pairs, or above them within seventeen planes. -/
theorem toNat_char_bounds (c : Char) :
    c.toNat < 0xD800 ∨ 0xE000 ≤ c.toNat ∧ c.toNat < 0x110000 := by
  rcases c.valid with h | ⟨hlow, hhigh⟩
  · exact Or.inl h
  · exact Or.inr ⟨hlow, hhigh⟩

/-- The units of a character can be told from what follows them: equal lists of units begin with
the same character. -/
theorem charUnits_append_inj {c d : Char} {xs ys : List Nat}
    (h : charUnits c ++ xs = charUnits d ++ ys) : c = d ∧ xs = ys := by
  have hc := toNat_char_bounds c
  have hd := toNat_char_bounds d
  suffices hsame : c.toNat = d.toNat ∧ xs = ys from ⟨Char.toNat_inj.mp hsame.1, hsame.2⟩
  unfold charUnits firstPair at h
  split at h <;> split at h <;>
    simp only [List.cons_append, List.nil_append, List.cons.injEq] at h
  · exact h
  · omega
  · omega
  · obtain ⟨hhigh, hlow, hrest⟩ := h
    exact ⟨by omega, hrest⟩

/-- A character has at least one unit. -/
theorem charUnits_ne_nil (c : Char) : charUnits c ≠ [] := by
  unfold charUnits
  split <;> simp

/-- The units of a list of characters determine it. -/
theorem eq_of_flatMap_charUnits_eq {cs ds : List Char}
    (h : cs.flatMap charUnits = ds.flatMap charUnits) : cs = ds := by
  induction cs generalizing ds with
  | nil =>
    cases ds with
    | nil => rfl
    | cons d ds => simp [charUnits_ne_nil] at h
  | cons c cs ih =>
    cases ds with
    | nil => simp [charUnits_ne_nil] at h
    | cons d ds =>
      obtain ⟨hchar, hrest⟩ := charUnits_append_inj (by simpa only [List.flatMap_cons] using h)
      rw [hchar, ih hrest]

/-- A text is determined by its units. -/
theorem eq_of_units_eq {a b : String} (h : units a = units b) : a = b :=
  String.toList_injective (eq_of_flatMap_charUnits_eq h)

/-- The order of texts is transitive and oriented. -/
instance : Std.TransCmp compareUnits := inferInstanceAs (Std.TransCmp (compareOn units))

/-- Texts tie exactly when they are equal. -/
instance : Std.LawfulEqCmp compareUnits where
  eq_of_compare {a b} h := by
    have hunits : compare (units a) (units b) = .eq := h
    exact eq_of_units_eq (Std.LawfulEqOrd.eq_of_compare hunits)

end Folio.Text
