import Folio.Proofs.Sequence
import Folio.Query.Scan
import Mathlib.Data.List.TakeWhile

/-!
# How far the scanner looks

To find the end of a lexeme the scanner looks at a few characters behind it, but never behind a line
feed. So a lexeme is the same one where the text after it is cut short, by the end of the text or by
the end of the line.
-/

namespace Folio.Query

/-! ## Texts cut short -/

/-- The second text is the first one cut short: they agree up to a place where the second one is at
its end or goes on with a line feed. -/
inductive CutShort : List Char → List Char → Prop where
  | ended (left : List Char) : CutShort left []
  | broken (left more : List Char) : CutShort left ('\n' :: more)
  | same (c : Char) {left other : List Char} (h : CutShort left other) :
    CutShort (c :: left) (c :: other)

namespace CutShort

variable {left other : List Char} {c : Char}

/-- A text after which the line ends is cut short there. -/
theorem append_line (left more : List Char) : CutShort left (left ++ '\n' :: more) := by
  induction left with
  | nil => exact .broken [] more
  | cons c left ih => exact .same c ih

/-- What is cut short after an initial part is cut short. -/
theorem append (front : List Char) (h : CutShort left other) :
    CutShort (front ++ left) (front ++ other) := by
  induction front with
  | nil => exact h
  | cons c front ih => exact .same c ih

/-- A character other than a line feed begins the text that was cut short. -/
theorem of_cons (h : CutShort left (c :: other)) (hc : c ≠ '\n') :
    ∃ tail, left = c :: tail ∧ CutShort tail other := by
  cases h with
  | broken left more => exact absurd rfl hc
  | same c h => exact ⟨_, rfl, h⟩

/-- An initial part without a line feed is one of the text that was cut short. -/
theorem begins_of_begins (h : CutShort left other) {front : List Char} (hline : '\n' ∉ front)
    (hfront : front <+: other) : front <+: left := by
  induction front generalizing left other with
  | nil => exact List.nil_prefix
  | cons c front ih =>
    obtain ⟨more, rfl⟩ := hfront
    obtain ⟨hc, hline⟩ := not_or.mp (mt List.mem_cons.mpr hline)
    obtain ⟨tail, rfl, htail⟩ := h.of_cons (Ne.symm hc)
    exact (List.prefix_cons_inj c).mpr (ih htail hline (List.prefix_append front more))

/-- A run of characters that a test accepts is the same run before what is cut short, if the test
fails of the line feed. -/
theorem takeWhile {p : Char → Bool} (hp : p '\n' = false) {cs : List Char}
    (h : CutShort (cs.dropWhile p) other) :
    (cs.takeWhile p ++ other).takeWhile p = cs.takeWhile p ∧
      (cs.takeWhile p ++ other).dropWhile p = other := by
  have hhead : ∀ c ∈ other.head?, p c = false := by
    intro c hc
    obtain ⟨more, rfl⟩ : ∃ more, other = c :: more := List.head?_eq_some_iff.mp hc
    by_cases hline : c = '\n'
    · rwa [hline]
    · obtain ⟨tail, htail, -⟩ := h.of_cons hline
      have hdrop := List.head?_dropWhile_not p cs
      rw [htail] at hdrop
      simpa using hdrop
  have hrun : ∀ c ∈ cs.takeWhile p, p c = true := fun c hc => List.mem_takeWhile_imp hc
  rw [List.takeWhile_append_of_pos hrun, List.dropWhile_append_of_pos hrun]
  cases other with
  | nil => simp
  | cons c more => simp [hhead c rfl]

end CutShort

/-! ## Numbers -/

/-- What a reader takes is an initial part of a text, and the reader takes it with the same outcome
where the text after it is cut short. The second argument makes an outcome of a value and of what is
left. -/
def Local {α ω : Type} (read : List Char → ω) (outcome : α → List Char → ω) : Prop :=
  ∀ cs a left, read cs = outcome a left → ∃ front, cs = front ++ left ∧
    ∀ other, CutShort left other → read (front ++ other) = outcome a other

/-- No digit comes to the front where a text is cut short. -/
theorem CutShort.startsWithDigit {left other : List Char} (h : CutShort left other)
    (hleft : startsWithDigit left = false) : startsWithDigit other = false := by
  cases h with
  | ended => rfl
  | broken => rfl
  | same c h => exact hleft

/-- Hexadecimal digits are taken up to the first other character. -/
theorem local_hexadecimal? : Local hexadecimal? fun n left => some (n, left) := by
  intro cs n left h
  obtain ⟨hvalid, hread⟩ := Option.ite_none_right_eq_some.mp h
  obtain ⟨rfl, rfl⟩ := Prod.mk.inj (Option.some.inj hread)
  refine ⟨cs.takeWhile isHexDigit, List.takeWhile_append_dropWhile.symm, fun other hother => ?_⟩
  obtain ⟨htake, hdrop⟩ := hother.takeWhile (p := isHexDigit) rfl
  simp only [hexadecimal?, htake, hdrop]
  exact if_pos hvalid

/-- Fraction digits are taken with the point before them, and nothing is taken without a point. -/
theorem local_fractionDigits : Local fractionDigits Prod.mk := by
  intro cs digits left h
  unfold fractionDigits at h
  split at h
  next rest =>
    obtain ⟨rfl, rfl⟩ := Prod.mk.inj h
    refine ⟨'.' :: rest.takeWhile Char.isDigit, ?_, fun other hother => ?_⟩
    · rw [List.cons_append, List.takeWhile_append_dropWhile]
    · obtain ⟨htake, hdrop⟩ := hother.takeWhile (p := Char.isDigit) rfl
      simp only [List.cons_append, fractionDigits, htake, hdrop]
  next hpoint =>
    obtain ⟨rfl, rfl⟩ := Prod.mk.inj h
    refine ⟨[], rfl, fun other hother => ?_⟩
    rw [List.nil_append]
    unfold fractionDigits
    split
    next rest =>
      obtain ⟨tail, rfl, -⟩ := hother.of_cons (by decide)
      exact absurd rfl (hpoint tail)
    next => rfl

/-- The digits of an exponent are taken up to the first other character. -/
theorem local_exponentDigits? : Local exponentDigits? fun n left => some (n, left) := by
  intro cs n left h
  obtain ⟨hdigits, hread⟩ := Option.ite_none_left_eq_some.mp h
  obtain ⟨rfl, rfl⟩ := Prod.mk.inj (Option.some.inj hread)
  refine ⟨cs.takeWhile Char.isDigit, List.takeWhile_append_dropWhile.symm, fun other hother => ?_⟩
  obtain ⟨htake, hdrop⟩ := hother.takeWhile (p := Char.isDigit) rfl
  simp only [exponentDigits?, htake, hdrop]
  exact if_neg hdigits

/-- An exponent has digits if a digit is at its front. -/
theorem exponentDigits?_eq_none_iff {cs : List Char} :
    exponentDigits? cs = none ↔ startsWithDigit cs = false := by
  cases cs with
  | nil => simp [exponentDigits?, startsWithDigit]
  | cons c rest => by_cases hc : c.isDigit <;> simp [exponentDigits?, startsWithDigit, hc]

/-- Digits need no sign before them. -/
theorem signedExponent?_of_exponentDigits? {cs left : List Char} {n : Nat}
    (h : exponentDigits? cs = some (n, left)) : signedExponent? cs = some ((n : Int), left) := by
  unfold signedExponent?
  split
  next => cases h
  next => cases h
  next => rw [h, Option.map_some]

/-- An exponent is taken with its sign. -/
theorem local_signedExponent? : Local signedExponent? fun n left => some (n, left) := by
  intro cs n left h
  unfold signedExponent? at h
  split at h <;> obtain ⟨⟨digits, last⟩, hdigits, hread⟩ := Option.map_eq_some_iff.mp h <;>
    obtain ⟨rfl, rfl⟩ := Prod.mk.inj hread <;>
    obtain ⟨front, rfl, hfront⟩ := local_exponentDigits? _ _ _ hdigits
  · exact ⟨'+' :: front, rfl, fun other hother => by
      rw [List.cons_append, signedExponent?, hfront other hother, Option.map_some]⟩
  · exact ⟨'-' :: front, rfl, fun other hother => by
      rw [List.cons_append, signedExponent?, hfront other hother, Option.map_some]⟩
  · exact ⟨front, rfl, fun other hother =>
      signedExponent?_of_exponentDigits? (hfront other hother)⟩

/-- No exponent appears where a text is cut short. -/
theorem CutShort.signedExponent? {left other : List Char} (h : CutShort left other)
    (hleft : signedExponent? left = none) : signedExponent? other = none := by
  have hdigits {tail more : List Char} (htail : CutShort tail more)
      (hnone : exponentDigits? tail = none) : exponentDigits? more = none :=
    exponentDigits?_eq_none_iff.mpr
      (htail.startsWithDigit (exponentDigits?_eq_none_iff.mp hnone))
  unfold Query.signedExponent?
  split
  next rest =>
    obtain ⟨tail, rfl, htail⟩ := h.of_cons (by decide)
    exact Option.map_eq_none_iff.mpr (hdigits htail (Option.map_eq_none_iff.mp hleft))
  next rest =>
    obtain ⟨tail, rfl, htail⟩ := h.of_cons (by decide)
    exact Option.map_eq_none_iff.mpr (hdigits htail (Option.map_eq_none_iff.mp hleft))
  next =>
    refine Option.map_eq_none_iff.mpr (hdigits h ?_)
    cases hread : exponentDigits? left with
    | none => rfl
    | some found =>
      rw [signedExponent?_of_exponentDigits? hread] at hleft
      cases hleft

/-- The letter of an exponent is read with what follows it, or not at all. -/
theorem exponent_of_letter {c : Char} (hc : c = 'e' ∨ c = 'E') (rest : List Char) :
    exponent (c :: rest) = (signedExponent? rest).getD (0, c :: rest) := by
  rcases hc with rfl | rfl <;> rfl

/-- No other character begins an exponent. -/
theorem exponent_of_other {cs : List Char} (h : ∀ c rest, cs = c :: rest → ¬(c = 'e' ∨ c = 'E')) :
    exponent cs = (0, cs) := by
  unfold exponent
  split
  next rest => exact absurd (Or.inl rfl) (h 'e' rest rfl)
  next rest => exact absurd (Or.inr rfl) (h 'E' rest rfl)
  next => rfl

/-- An exponent is taken with its letter, and nothing is taken without digits. -/
theorem local_exponent : Local exponent Prod.mk := by
  intro cs n left h
  by_cases hletter : ∃ c rest, cs = c :: rest ∧ (c = 'e' ∨ c = 'E')
  · obtain ⟨c, rest, rfl, hc⟩ := hletter
    rw [exponent_of_letter hc] at h
    cases hread : signedExponent? rest with
    | some found =>
      rw [hread, Option.getD_some] at h
      obtain ⟨front, rfl, hfront⟩ := local_signedExponent? rest n left (hread.trans (by rw [h]))
      refine ⟨c :: front, rfl, fun other hother => ?_⟩
      rw [List.cons_append, exponent_of_letter hc, hfront other hother, Option.getD_some]
    | none =>
      rw [hread, Option.getD_none] at h
      obtain ⟨rfl, rfl⟩ := Prod.mk.inj h
      refine ⟨[], rfl, fun other hother => ?_⟩
      cases hother with
      | ended => rfl
      | broken => rfl
      | same c htail =>
        rw [List.nil_append, exponent_of_letter hc, htail.signedExponent? hread, Option.getD_none]
  · have hother {c : Char} {rest : List Char} (hcs : cs = c :: rest) : ¬(c = 'e' ∨ c = 'E') :=
      fun hc => hletter ⟨c, rest, hcs, hc⟩
    rw [exponent_of_other fun c rest => hother] at h
    obtain ⟨rfl, rfl⟩ := Prod.mk.inj h
    refine ⟨[], rfl, fun other hcut => exponent_of_other fun c rest hcs hc => ?_⟩
    rw [List.nil_append] at hcs
    subst hcs
    obtain ⟨tail, rfl, -⟩ := hcut.of_cons (by rcases hc with rfl | rfl <;> decide)
    exact hother rfl hc

/-- A decimal literal is taken with its fraction and its exponent. -/
theorem local_decimal : Local decimal Prod.mk := by
  intro cs n left h
  obtain ⟨digits, afterFraction, hfraction⟩ :
      ∃ digits rest, fractionDigits (cs.dropWhile Char.isDigit) = (digits, rest) := ⟨_, _, rfl⟩
  obtain ⟨power, last, hexponent⟩ : ∃ power rest, exponent afterFraction = (power, rest) :=
    ⟨_, _, rfl⟩
  simp only [decimal, hfraction, hexponent, Prod.mk.injEq] at h
  obtain ⟨rfl, rfl⟩ := h
  obtain ⟨point, hpoint, hreadPoint⟩ := local_fractionDigits _ _ _ hfraction
  obtain ⟨letter, rfl, hreadLetter⟩ := local_exponent _ _ _ hexponent
  refine ⟨cs.takeWhile Char.isDigit ++ (point ++ letter), ?_, fun other hother => ?_⟩
  · rw [List.append_assoc, List.append_assoc, ← hpoint, List.takeWhile_append_dropWhile]
  · have hcut := hother.append letter
    have hwhole : CutShort (cs.dropWhile Char.isDigit) (point ++ (letter ++ other)) :=
      hpoint ▸ hcut.append point
    obtain ⟨htake, hdrop⟩ := hwhole.takeWhile (p := Char.isDigit) rfl
    rw [List.append_assoc, List.append_assoc]
    simp only [decimal, htake, hdrop, hreadPoint _ hcut, hreadLetter other hother]

/-- No digit comes after a run of digits. -/
theorem startsWithDigit_dropWhile (cs : List Char) :
    startsWithDigit (cs.dropWhile Char.isDigit) = false := by
  induction cs with
  | nil => rfl
  | cons c rest ih =>
    rw [List.dropWhile_cons]
    split
    next => exact ih
    next hc => simpa [startsWithDigit] using hc

/-- No digit comes after an exponent, if none comes where it may stand. -/
theorem startsWithDigit_exponent {cs : List Char} (h : startsWithDigit cs = false) :
    startsWithDigit (exponent cs).2 = false := by
  have hsigned {rest left : List Char} {n : Int} (hread : signedExponent? rest = some (n, left)) :
      startsWithDigit left = false := by
    unfold signedExponent? at hread
    split at hread <;> obtain ⟨⟨digits, last⟩, hdigits, hpair⟩ := Option.map_eq_some_iff.mp hread <;>
      obtain ⟨-, rfl⟩ := Prod.mk.inj hpair <;>
      obtain ⟨-, hrun⟩ := Option.ite_none_left_eq_some.mp hdigits <;>
      obtain ⟨-, rfl⟩ := Prod.mk.inj (Option.some.inj hrun) <;>
      exact startsWithDigit_dropWhile _
  by_cases hletter : ∃ c rest, cs = c :: rest ∧ (c = 'e' ∨ c = 'E')
  · obtain ⟨c, rest, rfl, hc⟩ := hletter
    rw [exponent_of_letter hc]
    cases hread : signedExponent? rest with
    | some found => exact hsigned hread
    | none => exact h
  · rw [exponent_of_other fun c rest hcs hc => hletter ⟨c, rest, hcs, hc⟩]
    exact h

/-- No digit comes after a fraction, if none comes where it may stand. -/
theorem startsWithDigit_fractionDigits {cs : List Char} (h : startsWithDigit cs = false) :
    startsWithDigit (fractionDigits cs).2 = false := by
  unfold fractionDigits
  split
  next => exact startsWithDigit_dropWhile _
  next => exact h

/-- No digit comes after a decimal literal. -/
theorem startsWithDigit_decimal (cs : List Char) : startsWithDigit (decimal cs).2 = false :=
  startsWithDigit_exponent (startsWithDigit_fractionDigits (startsWithDigit_dropWhile cs))

/-- A text that does not begin like a hexadecimal literal is read as a decimal one. -/
theorem numberLexeme_eq_decimal {cs : List Char}
    (h : ∀ x rest, cs = '0' :: x :: rest → ¬(x = 'x' ∨ x = 'X')) :
    numberLexeme cs = .ok (.number (decimal cs).1, (decimal cs).2) := by
  unfold numberLexeme
  split
  next x rest => exact if_neg (h x rest rfl)
  next => rfl

/-- A number literal is taken up to its end. -/
theorem local_numberLexeme : Local numberLexeme fun l left => .ok (l, left) := by
  intro cs l left h
  by_cases hhex : ∃ x rest, cs = '0' :: x :: rest ∧ (x = 'x' ∨ x = 'X')
  · obtain ⟨x, rest, rfl, hx⟩ := hhex
    rw [numberLexeme, if_pos hx] at h
    split at h
    next n last hread =>
      obtain ⟨rfl, rfl⟩ := Prod.mk.inj (Except.ok.inj h)
      obtain ⟨front, rfl, hfront⟩ := local_hexadecimal? _ _ _ hread
      refine ⟨'0' :: x :: front, rfl, fun other hother => ?_⟩
      rw [List.cons_append, List.cons_append, numberLexeme, if_pos hx, hfront other hother]
    next => cases h
  · have hdecimal {x : Char} {rest : List Char} (hcs : cs = '0' :: x :: rest) :
        ¬(x = 'x' ∨ x = 'X') := fun hx => hhex ⟨x, rest, hcs, hx⟩
    obtain ⟨n, last, hread⟩ : ∃ n rest, decimal cs = (n, rest) := ⟨_, _, rfl⟩
    rw [numberLexeme_eq_decimal fun x rest => hdecimal, hread] at h
    obtain ⟨rfl, rfl⟩ := Prod.mk.inj (Except.ok.inj h)
    obtain ⟨front, hcs, hfront⟩ := local_decimal cs n last hread
    refine ⟨front, hcs, fun other hother => ?_⟩
    have hplain (x : Char) (rest : List Char) (hfirst : front ++ other = '0' :: x :: rest) :
        ¬(x = 'x' ∨ x = 'X') := by
      intro hx
      -- a hexadecimal literal would begin the text already
      have hcut := hother.append front
      rw [← hcs, hfirst] at hcut
      obtain ⟨tail, rfl, htail⟩ := hcut.of_cons (by decide)
      obtain ⟨more, rfl, -⟩ := htail.of_cons (by rcases hx with rfl | rfl <;> decide)
      exact hdecimal rfl hx
    rw [numberLexeme_eq_decimal hplain, hfront other hother]

/-! ## Strings -/

/-- Four hexadecimal digits are taken. -/
theorem local_hexQuad? : Local hexQuad? fun n left => some (n, left) := by
  intro cs n left h
  unfold hexQuad? at h
  split at h
  next a b c d rest =>
    obtain ⟨hdigits, hread⟩ := Option.ite_none_right_eq_some.mp h
    obtain ⟨rfl, rfl⟩ := Prod.mk.inj (Option.some.inj hread)
    exact ⟨[a, b, c, d], rfl, fun other _ => if_pos hdigits⟩
  next => cases h

/-- Two escapes name one character, if the first one names a high surrogate. -/
theorem unicodeEscape?_pair {cs rest left : List Char} {first second : Nat}
    (hfirst : hexQuad? cs = some (first, '\\' :: 'u' :: rest))
    (hhigh : 0xD800 ≤ first ∧ first < 0xDC00) (hsecond : hexQuad? rest = some (second, left)) :
    unicodeEscape? cs =
      some (charOfCode (0x10000 + (first - 0xD800) * 0x400 + second % 0x400), left) := by
  simp only [unicodeEscape?, hfirst, if_pos hhigh, hsecond, Option.map_some]

/-- One escape names its character, if it names no high surrogate or no other escape follows. -/
theorem unicodeEscape?_single {cs left : List Char} {first : Nat}
    (hfirst : hexQuad? cs = some (first, left))
    (halone : ∀ rest, left = '\\' :: 'u' :: rest → ¬(0xD800 ≤ first ∧ first < 0xDC00)) :
    unicodeEscape? cs = some (charOfCode first, left) := by
  unfold unicodeEscape?
  rw [hfirst]
  simp only
  split
  next rest => exact if_neg (halone rest rfl)
  next => rfl

/-- An escape by code points is taken, a second one with it if the first one names a high
surrogate. -/
theorem local_unicodeEscape? : Local unicodeEscape? fun x left => some (x, left) := by
  intro cs x left h
  cases hfirst : hexQuad? cs with
  | none => simp [unicodeEscape?, hfirst] at h
  | some found =>
    obtain ⟨first, rest⟩ := found
    obtain ⟨front, rfl, hfront⟩ := local_hexQuad? _ _ _ hfirst
    by_cases hpair : (∃ more, rest = '\\' :: 'u' :: more) ∧ 0xD800 ≤ first ∧ first < 0xDC00
    · obtain ⟨⟨more, rfl⟩, hhigh⟩ := hpair
      cases hsecond : hexQuad? more with
      | none => simp [unicodeEscape?, hfirst, hhigh, hsecond] at h
      | some found =>
        obtain ⟨second, last⟩ := found
        rw [unicodeEscape?_pair hfirst hhigh hsecond] at h
        obtain ⟨rfl, rfl⟩ := Prod.mk.inj (Option.some.inj h)
        obtain ⟨digits, rfl, hdigits⟩ := local_hexQuad? _ _ _ hsecond
        refine ⟨front ++ '\\' :: 'u' :: digits, by simp, fun other hother => ?_⟩
        rw [List.append_assoc]
        exact unicodeEscape?_pair (hfront _ (((hother.append digits).same 'u').same '\\')) hhigh
          (hdigits other hother)
    · rw [unicodeEscape?_single hfirst fun more hrest hhigh => hpair ⟨⟨more, hrest⟩, hhigh⟩] at h
      obtain ⟨rfl, rfl⟩ := Prod.mk.inj (Option.some.inj h)
      refine ⟨front, rfl, fun other hother =>
        unicodeEscape?_single (hfront other hother) fun more hmore hhigh => hpair ⟨?_, hhigh⟩⟩
      -- another escape would follow already
      subst hmore
      obtain ⟨tail, rfl, htail⟩ := hother.of_cons (by decide)
      obtain ⟨last, rfl, -⟩ := htail.of_cons (by decide)
      exact ⟨last, rfl⟩

/-- An escape is taken after its letter. -/
theorem local_escape? (c : Char) : Local (escape? c) fun x left => some (x, left) := by
  intro cs x left h
  by_cases hc : c = 'u'
  · rw [escape?, if_pos hc] at h
    obtain ⟨front, rfl, hfront⟩ := local_unicodeEscape? _ _ _ h
    refine ⟨front, rfl, fun other hother => ?_⟩
    rw [escape?, if_pos hc, hfront other hother]
  · rw [escape?, if_neg hc] at h
    obtain ⟨rfl, rfl⟩ := Prod.mk.inj (Option.some.inj h)
    exact ⟨[], rfl, fun other _ => by rw [List.nil_append, escape?, if_neg hc]⟩

/-- A string ends at its quote. -/
theorem stringBody_quote (quote : Char) (start rest : List Char) :
    stringBody quote start (quote :: rest) = .ok ([], rest) := by
  rw [stringBody.eq_def]
  exact if_pos rfl

/-- An escape stands for its character. -/
theorem stringBody_escape {quote letter x : Char} {start after left : List Char}
    (hquote : '\\' ≠ quote) (h : escape? letter after = some (x, left)) :
    stringBody quote start ('\\' :: letter :: after) =
      (stringBody quote start left).map fun (body, last) => (x :: body, last) := by
  rw [stringBody.eq_def]
  simp only [if_neg hquote, if_pos]
  split
  next hnone =>
    rw [h] at hnone
    cases hnone
  next y last hsome =>
    rw [h] at hsome
    obtain ⟨rfl, rfl⟩ := Prod.mk.inj (Option.some.inj hsome)
    rfl

/-- Any other character stands for itself. -/
theorem stringBody_other {quote c : Char} {start rest : List Char} (hquote : c ≠ quote)
    (hslash : c ≠ '\\') : stringBody quote start (c :: rest) =
      (stringBody quote start rest).map fun (body, last) => (c :: body, last) := by
  rw [stringBody.eq_def]
  simp only [if_neg hquote, if_neg hslash]

/-- A string literal is taken with its closing quote. -/
theorem stringBody_front {quote : Char} {start cs body left : List Char}
    (h : stringBody quote start cs = .ok (body, left)) : ∃ front, cs = front ++ left ∧
      ∀ start' other, CutShort left other →
        stringBody quote start' (front ++ other) = .ok (body, other) := by
  fun_induction stringBody quote start cs generalizing body left with
  | case1 => cases h
  | case2 rest =>
    obtain ⟨rfl, rfl⟩ := Prod.mk.inj (Except.ok.inj h)
    exact ⟨[quote], rfl, fun start' other _ => stringBody_quote quote start' other⟩
  | case3 => cases h
  | case4 => cases h
  | case5 letter after x last hescape hquote ih =>
    obtain ⟨⟨others, final⟩, hbody, hread⟩ := map_eq_ok_iff.mp h
    obtain ⟨rfl, rfl⟩ := Prod.mk.inj hread
    obtain ⟨digits, rfl, hdigits⟩ := local_escape? letter _ _ _ hescape
    obtain ⟨front, rfl, hfront⟩ := ih hbody
    refine ⟨'\\' :: letter :: (digits ++ front), by simp, fun start' other hother => ?_⟩
    have hread := hdigits _ (hother.append front)
    rw [List.cons_append, List.cons_append, List.append_assoc, stringBody_escape hquote hread,
      hfront start' other hother]
    rfl
  | case6 c rest hquote hslash ih =>
    obtain ⟨⟨others, final⟩, hbody, hread⟩ := map_eq_ok_iff.mp h
    obtain ⟨rfl, rfl⟩ := Prod.mk.inj hread
    obtain ⟨front, rfl, hfront⟩ := ih hbody
    refine ⟨c :: front, rfl, fun start' other hother => ?_⟩
    rw [List.cons_append, stringBody_other hquote hslash, hfront start' other hother]
    rfl

/-! ## Lexemes -/

/-- No symbol has a line feed in it. -/
theorem line_notMem_symbol (s : Symbol) : '\n' ∉ s.text.toList := by
  cases s <;> decide

/-- A symbol is taken from a text that begins with it, and it is the same one where the text after it
is cut short. -/
theorem ofStart?_front {cs : List Char} {s : Symbol} (h : Symbol.ofStart? cs = some s) :
    ∃ left, cs = s.text.toList ++ left ∧
      ∀ other, CutShort left other → Symbol.ofStart? (s.text.toList ++ other) = some s := by
  obtain ⟨hfront, longer, shorter, hall, hlonger⟩ := List.find?_eq_some_iff_append.mp h
  obtain ⟨left, rfl⟩ := List.isPrefixOf_iff_prefix.mp hfront
  refine ⟨left, rfl, fun other hother => ?_⟩
  refine List.find?_eq_some_iff_append.mpr ⟨?_, longer, shorter, hall, fun longSymbol hlong => ?_⟩
  · exact List.isPrefixOf_iff_prefix.mpr (List.prefix_append _ other)
  · -- a symbol that is tried before would have begun the text already
    rw [Bool.not_eq_true', ← Bool.not_eq_true, List.isPrefixOf_iff_prefix]
    intro hbegins
    have hbefore := (hother.append s.text.toList).begins_of_begins (line_notMem_symbol _) hbegins
    have hnone := hlonger longSymbol hlong
    rw [List.isPrefixOf_iff_prefix.mpr hbefore] at hnone
    cases hnone

/-- A symbol is its first character and as many others as are dropped after it. -/
theorem exists_symbol_tail (s : Symbol) :
    ∃ c tail, s.text.toList = c :: tail ∧ s.text.length - 1 = tail.length := by
  cases s <;> exact ⟨_, _, rfl, rfl⟩

/-- After its first character, a symbol takes the others, and they are found again where the text
after them is cut short. -/
theorem ofStart?_cons_front {c : Char} {rest : List Char} {s : Symbol}
    (h : Symbol.ofStart? (c :: rest) = some s) :
    ∃ tail, s.text.length - 1 = tail.length ∧ rest = tail ++ rest.drop tail.length ∧
      ∀ other, CutShort (rest.drop tail.length) other →
        Symbol.ofStart? (c :: (tail ++ other)) = some s := by
  obtain ⟨left, hcs, hfront⟩ := ofStart?_front h
  obtain ⟨first, tail, htext, hlength⟩ := exists_symbol_tail s
  rw [htext, List.cons_append] at hcs
  rw [htext] at hfront
  obtain ⟨rfl, rfl⟩ := List.cons.inj hcs
  have hdrop : (tail ++ left).drop tail.length = left := List.drop_left
  exact ⟨tail, hlength, by rw [hdrop], by rwa [hdrop]⟩

/-- Whether a number literal begins with a character before a text. -/
abbrev BeginsNumber (c : Char) (rest : List Char) : Prop :=
  (c.isDigit || (c == '.' && startsWithDigit rest)) = true

/-- No number literal begins where a text is cut short. -/
theorem CutShort.not_beginsNumber {c : Char} {left other : List Char} (h : CutShort left other)
    (hleft : ¬BeginsNumber c left) : ¬BeginsNumber c other := by
  simp only [BeginsNumber, Bool.or_eq_true, Bool.and_eq_true, not_or, not_and,
    Bool.not_eq_true] at hleft ⊢
  exact ⟨hleft.1, fun hpoint => h.startsWithDigit (hleft.2 hpoint)⟩

/-- A number literal goes on with what it takes, and begins with that as well. -/
theorem numberLexeme_front {c : Char} {rest left : List Char} {l : Lexeme}
    (hnumber : BeginsNumber c rest) (h : numberLexeme (c :: rest) = .ok (l, left)) :
    ∃ front, rest = front ++ left ∧ ∀ other, CutShort left other →
      BeginsNumber c (front ++ other) ∧ numberLexeme (c :: (front ++ other)) = .ok (l, other) := by
  obtain ⟨front, hcs, hfront⟩ := local_numberLexeme _ _ _ h
  cases front with
  | nil =>
    -- at least the first character is taken
    have hlength := length_le_of_numberLexeme hnumber h
    rw [← List.nil_append left, ← hcs, List.length_cons] at hlength
    omega
  | cons d front =>
    obtain ⟨rfl, rfl⟩ := List.cons.inj hcs
    refine ⟨front, rfl, fun other hother => ⟨?_, hfront other hother⟩⟩
    cases front with
    | cons d front => exact hnumber
    | nil =>
      -- the point alone is no number, so the character is a digit
      have hdigit : c.isDigit = true := by
        by_contra hdigit
        obtain ⟨hpoint, hleft⟩ : c = '.' ∧ startsWithDigit left = true := by
          simpa [BeginsNumber, hdigit] using hnumber
        subst hpoint
        rw [numberLexeme_eq_decimal (by simp)] at h
        rw [← (Prod.mk.inj (Except.ok.inj h)).2, startsWithDigit_decimal] at hleft
        cases hleft
      simp [BeginsNumber, hdigit]

/-- **Lexemes are local.** A lexeme takes an initial part of a text, and it is the same one where the
text after it is cut short. -/
theorem lexeme_front {c : Char} {rest left : List Char} {l : Lexeme}
    (h : lexeme c rest = .ok (l, left)) : ∃ front, rest = front ++ left ∧
      ∀ other, CutShort left other → lexeme c (front ++ other) = .ok (l, other) := by
  unfold lexeme at h
  split at h
  next hnumber =>
    obtain ⟨front, rfl, hfront⟩ := numberLexeme_front hnumber h
    refine ⟨front, rfl, fun other hother => ?_⟩
    obtain ⟨hbegins, hread⟩ := hfront other hother
    rw [lexeme, if_pos hbegins, hread]
  next hnumber =>
  have hother {front other : List Char} (hrest : rest = front ++ left)
      (hother : CutShort left other) : ¬BeginsNumber c (front ++ other) :=
    (hother.append front).not_beginsNumber (hrest ▸ hnumber)
  -- a parameter and a word take the characters that continue a word
  have hword (hleft : rest.dropWhile Text.continuesWord = left) :
      rest = rest.takeWhile Text.continuesWord ++ left ∧ ∀ other, CutShort left other →
        (rest.takeWhile Text.continuesWord ++ other).takeWhile Text.continuesWord =
            rest.takeWhile Text.continuesWord ∧
          (rest.takeWhile Text.continuesWord ++ other).dropWhile Text.continuesWord = other := by
    subst hleft
    exact ⟨List.takeWhile_append_dropWhile.symm, fun other hcut => hcut.takeWhile (by decide)⟩
  split at h
  next hquote =>
    obtain ⟨⟨body, last⟩, hbody, hread⟩ := map_eq_ok_iff.mp h
    obtain ⟨rfl, rfl⟩ := Prod.mk.inj hread
    obtain ⟨front, rfl, hfront⟩ := stringBody_front hbody
    refine ⟨front, rfl, fun other hcut => ?_⟩
    rw [lexeme, if_neg (hother rfl hcut), if_pos hquote, hfront _ other hcut]
    rfl
  next hquote =>
  split at h
  next hat =>
    simp only at h
    split at h
    next => cases h
    next hname =>
      obtain ⟨rfl, hleft⟩ := Prod.mk.inj (Except.ok.inj h)
      obtain ⟨hrest, htaken⟩ := hword hleft
      refine ⟨_, hrest, fun other hcut => ?_⟩
      obtain ⟨htake, hdrop⟩ := htaken other hcut
      rw [lexeme, if_neg (hother hrest hcut), if_neg hquote, if_pos hat]
      simp only [htake, hdrop, if_neg hname]
  next hat =>
  split at h
  next hstart =>
    obtain ⟨rfl, hleft⟩ := Prod.mk.inj (Except.ok.inj h)
    obtain ⟨hrest, htaken⟩ := hword hleft
    refine ⟨_, hrest, fun other hcut => ?_⟩
    obtain ⟨htake, hdrop⟩ := htaken other hcut
    rw [lexeme, if_neg (hother hrest hcut), if_neg hquote, if_neg hat, if_pos hstart, htake, hdrop]
  next hstart =>
  split at h
  next s hsymbol =>
    obtain ⟨rfl, hleft⟩ := Prod.mk.inj (Except.ok.inj h)
    obtain ⟨tail, hlength, hrest, hfront⟩ := ofStart?_cons_front hsymbol
    rw [← hlength, hleft] at hrest hfront
    refine ⟨tail, hrest, fun other hcut => ?_⟩
    rw [lexeme, if_neg (hother hrest hcut), if_neg hquote, if_neg hat, if_neg hstart,
      hfront other hcut]
    simp only [hlength, List.drop_left]
  next => cases h

end Folio.Query
