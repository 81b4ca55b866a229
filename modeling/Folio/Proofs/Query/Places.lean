import Folio.Error
import Folio.Proofs.Query.Locating
import Folio.Proofs.Query.Pieces

/-!
# The places of faults

The scanner reports a fault where some rest of the text begins, at an opening quote, at a backslash or
at the front of a lexeme, and every token lies where some rest begins. So every fault of a text lies
between two of its characters or at one of its ends, and the line and the column that the reader is told
are those of this place and of no other one.
-/

namespace Folio.Query

open Text (IsBoundary Position byteLength)

/-! ## Scanning -/

variable {cs rest : List Char} {c : Char} {fault : ScanFault}

/-- A string fails at its start, or where what it has left begins. -/
theorem suffix_of_stringBody {quote : Char} {start : List Char}
    (h : stringBody quote start cs = .error fault) : fault.rest = start ∨ fault.rest <:+ cs := by
  fun_induction stringBody quote start cs with
  | case1 | case3 =>
    cases h
    exact .inl rfl
  | case2 => cases h
  | case4 =>
    cases h
    exact .inr (List.suffix_refl _)
  | case5 letter after x last hescape hquote ih =>
    obtain ⟨digits, rfl, -⟩ := local_escape? letter _ _ _ hescape
    refine (ih (map_eq_error_iff.mp h)).imp_right fun hlast => ?_
    exact hlast.trans ⟨_ :: letter :: digits, rfl⟩
  | case6 c rest _ _ ih =>
    exact (ih (map_eq_error_iff.mp h)).imp_right fun hrest => hrest.trans (List.suffix_cons c rest)

/-- A number fails at its front. -/
theorem rest_of_numberLexeme (h : numberLexeme cs = .error fault) : fault.rest = cs := by
  unfold numberLexeme at h
  split at h
  · split at h
    · split at h
      · cases h
      · cases h
        rfl
    · cases h
  · cases h

/-- A lexeme fails where it begins, or where what it has left does. -/
theorem suffix_of_lexeme (h : lexeme c rest = .error fault) : fault.rest <:+ c :: rest := by
  unfold lexeme at h
  split at h
  · exact rest_of_numberLexeme h ▸ List.suffix_refl _
  split at h
  · rcases suffix_of_stringBody (map_eq_error_iff.mp h) with hstart | hrest
    · exact hstart ▸ List.suffix_refl _
    · exact hrest.trans (List.suffix_cons c rest)
  split at h
  · simp only at h
    split at h
    · cases h
      exact List.suffix_refl _
    · cases h
  split at h
  · cases h
  split at h
  · cases h
  · cases h
    exact List.suffix_refl _

/-- What is left after trivia are skipped is the rest of the text. -/
theorem suffix_of_skipTrivia (h : skipTrivia cs = rest) : rest <:+ cs := by
  obtain ⟨gap, hgap, -⟩ := skipTrivia_spec cs
  exact ⟨gap, h ▸ hgap.symm⟩

/-- The tokens of the rest of a text begin, as their fault does, where some rest of it begins. -/
theorem exists_suffix_of_tokensFrom (total : Nat) (cs : List Char) :
    (∀ ts, tokensFrom total cs = .ok ts → ∀ t ∈ ts, ∃ left, left <:+ cs ∧
      t.offset = total - byteLength left) ∧
    ∀ fault, tokensFrom total cs = .error fault → fault.rest <:+ cs := by
  -- along the scanner: what is left behind a lexeme is a rest of the text, and so are its rests
  fun_induction tokensFrom total cs with
  | case1 cs hend =>
    refine ⟨fun ts hts t ht => ?_, fun fault hfault => ?_⟩
    · cases hts
      obtain rfl := List.mem_singleton.mp ht
      exact ⟨[], List.nil_suffix, rfl⟩
    · cases hfault
  | case2 cs c rest hskip fault hread =>
    refine ⟨fun ts hts => ?_, fun other hother => ?_⟩
    · cases hts
    · cases hother
      exact (suffix_of_lexeme hread).trans (suffix_of_skipTrivia hskip)
  | case3 cs c rest hskip l left hread ih =>
    have hrest := suffix_of_skipTrivia hskip
    obtain ⟨front, rfl, -⟩ := lexeme_front hread
    have hfront : left <:+ c :: (front ++ left) := ⟨c :: front, rfl⟩
    have hleft : left <:+ cs := hfront.trans hrest
    refine ⟨fun ts hts t ht => ?_, fun fault hfault => ?_⟩
    · obtain ⟨others, hothers, rfl⟩ := map_eq_ok_iff.mp hts
      rcases List.mem_cons.mp ht with rfl | ht
      · exact ⟨_, hrest, rfl⟩
      · obtain ⟨last, hlast, hoffset⟩ := ih.1 others hothers t ht
        exact ⟨last, hlast.trans hleft, hoffset⟩
    · exact (ih.2 fault (map_eq_error_iff.mp hfault)).trans hleft

variable {text : String}

/-- Every token of a text begins at a boundary. -/
theorem isBoundary_of_mem_tokens {ts : List Token} (h : tokens text = .ok ts) {t : Token}
    (ht : t ∈ ts) : IsBoundary text t.offset := by
  obtain ⟨left, hleft, hoffset⟩ := (exists_suffix_of_tokensFrom _ _).1 ts (tokens_eq_ok_iff.mp h) t ht
  rw [hoffset]
  exact Text.isBoundary_of_suffix hleft

/-- A text without tokens fails at a boundary. -/
theorem isBoundary_of_tokens {fault : LocatedFault} (h : tokens text = .error fault) :
    IsBoundary text fault.offset := by
  unfold tokens at h
  simp only at h
  split at h
  next => cases h
  next found hfound =>
    cases h
    exact Text.isBoundary_of_suffix ((exists_suffix_of_tokensFrom _ _).2 found hfound)

/-! ## Parsing -/

/-- Tokens of a text that are its last ones begin at a boundary. -/
theorem isBoundary_offsetOf {ts left : List Token} (h : tokens text = .ok ts) (hleft : left <:+ ts) :
    IsBoundary text (offsetOf left) := by
  cases left with
  -- without tokens the parser says that it stands at the start of the text
  | nil => exact Text.isBoundary_zero text
  | cons t left => exact isBoundary_of_mem_tokens h (hleft.subset List.mem_cons_self)

/-- A text that is no statement fails at a boundary. -/
theorem isBoundary_of_parse {fault : LocatedFault} (h : parse text = .error fault) :
    IsBoundary text fault.offset := by
  cases htokens : tokens text with
  | error found =>
    rw [parse, htokens] at h
    cases h
    exact isBoundary_of_tokens htokens
  | ok ts =>
    obtain ⟨left, hleft, hoffset⟩ := exists_suffix_of_parse htokens h
    rw [hoffset]
    exact isBoundary_offsetOf htokens hleft

/-- **Faults lie at real places.**

* A fault of a text, from its tokens or from its statement, is an error about the text. Its place is a
  boundary between characters within the text, and the error tells the position of this place.
* The line of a boundary counts the line feeds before it, and its column the characters after the last
  of them, both from one.
* Boundaries are told in their order, so the line and the column determine them. -/
theorem fault_positions (text : String) :
    (∀ fault, tokens text = .error fault ∨ parse text = .error fault →
      (QueryError.ofFault text fault).code = .malformedText ∧
      (QueryError.ofFault text fault).position? = some (Position.locate text fault.offset) ∧
      (Position.locate text fault.offset).offset = fault.offset ∧
      IsBoundary text fault.offset ∧ fault.offset ≤ byteLength text.toList) ∧
    (∀ before after, text.toList = before ++ after →
      ∃ lines last, before = lines ++ last ∧ '\n' ∉ last ∧
        (lines = [] ∨ lines.getLast? = some '\n') ∧
        Position.locate text (byteLength before) =
          ⟨byteLength before, 1 + before.count '\n', 1 + last.length⟩) ∧
    (∀ first second, IsBoundary text first → IsBoundary text second → first < second →
      (Position.locate text first).Precedes (Position.locate text second)) ∧
    ∀ first second, IsBoundary text first → IsBoundary text second →
      (Position.locate text first).line = (Position.locate text second).line →
      (Position.locate text first).column = (Position.locate text second).column →
      first = second := by
  refine ⟨fun fault hfault => ?_, fun before after htext => ?_,
    fun _ _ => Position.locate_precedes, fun _ _ => Position.eq_of_locate_eq⟩
  · have hboundary : IsBoundary text fault.offset :=
      hfault.elim isBoundary_of_tokens isBoundary_of_parse
    exact ⟨rfl, rfl, Nat.min_eq_left hboundary.le, hboundary, hboundary.le⟩
  · obtain ⟨lines, hbefore, hlast, hlines⟩ := Text.exists_lines before
    refine ⟨lines, Text.lastLine before, hbefore, hlast, hlines, ?_⟩
    rw [Position.locate_byteLength htext, Nat.add_comm 1, Nat.add_comm 1]

/-- A query without a collection fails at its end, on the second line, behind its first character, and
the place is told by nothing else. A string with a cut escape fails at the backslash. -/
theorem fault_positions_second_line :
    (∃ fault, parse "SELECT 'é'\nFROM" = .error fault ∧
      (QueryError.ofFault "SELECT 'é'\nFROM" fault).position? = some ⟨16, 2, 5⟩ ∧
      (Position.locate "SELECT 'é'\nFROM" 12).Precedes
        (Position.locate "SELECT 'é'\nFROM" fault.offset) ∧
      ∀ other, IsBoundary "SELECT 'é'\nFROM" other →
        (Position.locate "SELECT 'é'\nFROM" other).line = 2 →
        (Position.locate "SELECT 'é'\nFROM" other).column = 5 → other = 16) ∧
    ∃ fault, tokens "'é' --ü\n'\\uD8" = .error fault ∧
      (QueryError.ofFault "'é' --ü\n'\\uD8" fault).position? = some ⟨11, 2, 2⟩ ∧
      IsBoundary "'é' --ü\n'\\uD8" fault.offset := by
  have hparse : (match parse "SELECT 'é'\nFROM" with
      | .ok _ => none
      | .error fault => some fault.offset) = some 16 := by decide +kernel
  have htokens : (match tokens "'é' --ü\n'\\uD8" with
      | .ok _ => none
      | .error fault => some fault.offset) = some 11 := by decide +kernel
  refine ⟨?_, ?_⟩
  · obtain ⟨hfaults, hlines, horder, hunique⟩ := fault_positions "SELECT 'é'\nFROM"
    split at hparse
    next => cases hparse
    next fault hfault =>
      obtain ⟨-, hposition, -, hboundary, -⟩ := hfaults fault (.inr hfault)
      have hoffset := Option.some.inj hparse
      rw [hoffset] at hposition hboundary
      obtain ⟨lines, last, -, -, -, hend⟩ := hlines "SELECT 'é'\nFROM".toList [] rfl
      have hline : (Position.locate "SELECT 'é'\nFROM" 16).line = 2 := congrArg Position.line hend
      have hcolumn : (Position.locate "SELECT 'é'\nFROM" 16).column = 5 := by decide +kernel
      refine ⟨fault, hfault, hposition.trans (by decide +kernel), ?_, fun other hother h h' => ?_⟩
      · rw [hoffset]
        exact horder 12 16 ⟨"SELECT 'é'\n".toList, "FROM".toList, rfl, rfl⟩ hboundary (by decide)
      · exact hunique other 16 hother hboundary (h.trans hline.symm) (h'.trans hcolumn.symm)
  · obtain ⟨hfaults, -⟩ := fault_positions "'é' --ü\n'\\uD8"
    split at htokens
    next => cases htokens
    next fault hfault =>
      obtain ⟨-, hposition, -, hboundary, -⟩ := hfaults fault (.inl hfault)
      have hoffset := Option.some.inj htokens
      rw [hoffset] at hposition
      exact ⟨fault, hfault, hposition.trans (by decide +kernel), hboundary⟩

end Folio.Query
