import Folio.Text.Position

/-!
# Byte offsets

Offsets count the bytes of the characters before a place. The places of a text are the boundaries
between its characters. The line and the column of a place grow with its offset, read as one number
after the other, so they determine it.
-/

namespace Folio.Text

/-- A text after another one takes its own bytes. -/
theorem byteLength_append (cs ds : List Char) :
    byteLength (cs ++ ds) = byteLength cs + byteLength ds := by
  induction cs with
  | nil => rw [List.nil_append, byteLength, Nat.zero_add]
  | cons c cs ih => rw [List.cons_append, byteLength, byteLength, ih, Nat.add_assoc]

/-- Only the empty text takes no bytes. -/
theorem byteLength_pos {cs : List Char} (h : cs ≠ []) : 0 < byteLength cs := by
  cases cs with
  | nil => exact absurd rfl h
  | cons c cs => exact Nat.add_pos_left c.utf8Size_pos _

/-- An offset lies between two characters of a text, or at one of its ends. -/
def IsBoundary (text : String) (offset : Nat) : Prop :=
  ∃ before after, text.toList = before ++ after ∧ offset = byteLength before

/-- A boundary lies within the text. -/
theorem IsBoundary.le {text : String} {offset : Nat} (h : IsBoundary text offset) :
    offset ≤ byteLength text.toList := by
  obtain ⟨before, after, htext, rfl⟩ := h
  rw [htext, byteLength_append]
  exact Nat.le_add_right _ _

/-- A text begins at a boundary. -/
theorem isBoundary_zero (text : String) : IsBoundary text 0 := ⟨[], text.toList, rfl, rfl⟩

/-- The rest of a text begins at a boundary. -/
theorem isBoundary_of_suffix {text : String} {rest : List Char} (h : rest <:+ text.toList) :
    IsBoundary text (byteLength text.toList - byteLength rest) := by
  obtain ⟨before, hbefore⟩ := h
  refine ⟨before, rest, hbefore.symm, ?_⟩
  rw [← hbefore, byteLength_append, Nat.add_sub_cancel]

/-- Of two boundaries the later one has the characters between them before it, too. -/
theorem IsBoundary.exists_between {text : String} {first second : Nat}
    (hfirst : IsBoundary text first) (hsecond : IsBoundary text second) (h : first < second) :
    ∃ before between after, text.toList = before ++ between ++ after ∧ between ≠ [] ∧
      first = byteLength before ∧ second = byteLength (before ++ between) := by
  obtain ⟨before, rest, htext, rfl⟩ := hfirst
  obtain ⟨longer, after, hlonger, rfl⟩ := hsecond
  rw [htext] at hlonger
  rcases List.append_eq_append_iff.mp hlonger with ⟨between, rfl, rfl⟩ | ⟨back, rfl, -⟩
  · refine ⟨before, between, after, by rw [htext, List.append_assoc], ?_, rfl, rfl⟩
    rintro rfl
    rw [List.append_nil] at h
    exact Nat.lt_irrefl _ h
  · rw [byteLength_append] at h
    omega

/-! ## Lines and columns -/

/-- The characters up to a boundary are those that lie before its offset. -/
theorem charsBefore_byteLength (before after : List Char) :
    charsBefore (byteLength before) (before ++ after) = before := by
  induction before with
  | nil =>
    cases after with
    | nil => rfl
    | cons c after =>
      have hc : ¬c.utf8Size ≤ 0 := Nat.not_le.mpr c.utf8Size_pos
      rw [List.nil_append, byteLength, charsBefore, if_neg hc]
  | cons c before ih =>
    rw [List.cons_append, byteLength, charsBefore, if_pos (Nat.le_add_right _ _),
      Nat.add_sub_cancel_left, ih]

/-- The characters of the last line. -/
def lastLine (cs : List Char) : List Char := (cs.reverse.takeWhile (· != '\n')).reverse

/-- Characters other than line feeds go on with the last line. -/
theorem lastLine_append (lines : List Char) {more : List Char} (h : '\n' ∉ more) :
    lastLine (lines ++ more) = lastLine lines ++ more := by
  have hmore : ∀ c ∈ more.reverse, (c != '\n') = true := fun c hc =>
    bne_iff_ne.mpr (ne_of_mem_of_not_mem (List.mem_reverse.mp hc) h)
  rw [lastLine, List.reverse_append, List.takeWhile_append_of_pos hmore, List.reverse_append,
    List.reverse_reverse, lastLine]

/-- A text is the lines before the last one, which end with a line feed, and the last line. -/
theorem exists_lines (cs : List Char) : ∃ lines, cs = lines ++ lastLine cs ∧
    '\n' ∉ lastLine cs ∧ (lines = [] ∨ lines.getLast? = some '\n') := by
  refine ⟨(cs.reverse.dropWhile (· != '\n')).reverse, ?_, fun hmem => ?_, ?_⟩
  · rw [lastLine, ← List.reverse_append, List.takeWhile_append_dropWhile, List.reverse_reverse]
  · have hline := List.all_eq_true.mp List.all_takeWhile _ (List.mem_reverse.mp hmem)
    simp at hline
  · rw [List.reverse_eq_nil_iff, List.getLast?_reverse]
    have hfirst := List.head?_dropWhile_not (· != '\n') cs.reverse
    cases hrest : cs.reverse.dropWhile (· != '\n') with
    | nil => exact .inl rfl
    | cons c rest =>
      rw [hrest] at hfirst
      simpa using hfirst

namespace Position

/-- A boundary is told by the line feeds before it and by the characters after the last of them. -/
theorem locate_byteLength {text : String} {before after : List Char}
    (h : text.toList = before ++ after) : locate text (byteLength before) =
      ⟨byteLength before, before.count '\n' + 1, (lastLine before).length + 1⟩ := by
  have hplace : min (byteLength before) (byteLength text.toList) = byteLength before :=
    Nat.min_eq_left (IsBoundary.le ⟨before, after, h, rfl⟩)
  simp only [locate, hplace]
  rw [h, charsBefore_byteLength, lastLine, List.length_reverse]

/-- A position is on an earlier line than another, or before it on the same line. -/
def Precedes (p q : Position) : Prop := p.line < q.line ∨ p.line = q.line ∧ p.column < q.column

/-- Boundaries are told in their order. -/
theorem locate_precedes {text : String} {first second : Nat} (hfirst : IsBoundary text first)
    (hsecond : IsBoundary text second) (h : first < second) :
    (locate text first).Precedes (locate text second) := by
  obtain ⟨before, between, after, htext, hbetween, rfl, rfl⟩ := hfirst.exists_between hsecond h
  rw [locate_byteLength htext, locate_byteLength (htext.trans (List.append_assoc ..))]
  by_cases hline : '\n' ∈ between
  · refine .inl ?_
    have hcount := List.count_pos_iff.mpr hline
    simp only [List.count_append]
    omega
  · refine .inr ⟨?_, ?_⟩
    · simp only [List.count_append, List.count_eq_zero.mpr hline, Nat.add_zero]
    · have hlength := List.length_pos_iff.mpr hbetween
      simp only [lastLine_append before hline, List.length_append]
      omega

/-- The line and the column determine a boundary. -/
theorem eq_of_locate_eq {text : String} {first second : Nat} (hfirst : IsBoundary text first)
    (hsecond : IsBoundary text second) (hline : (locate text first).line = (locate text second).line)
    (hcolumn : (locate text first).column = (locate text second).column) : first = second := by
  rcases Nat.lt_trichotomy first second with hlt | heq | hgt
  · have hprecedes := locate_precedes hfirst hsecond hlt
    unfold Precedes at hprecedes
    omega
  · exact heq
  · have hprecedes := locate_precedes hsecond hfirst hgt
    unfold Precedes at hprecedes
    omega

end Position

end Folio.Text
