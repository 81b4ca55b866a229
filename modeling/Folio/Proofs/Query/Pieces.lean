import Folio.Proofs.Query.Locality
import Folio.Proofs.Text.Position

/-!
# Texts in pieces

A text that is split into tokens is a row of pieces, each of them trivia and the text of a lexeme, with
trivia after the last one. The tokens of a text do not change where a line is put after it, since no
lexeme is read across the end of a line.
-/

namespace Folio.Query

/-! ## Trivia -/

/-- Trivia before the rest of a text: blanks and comments. A comment goes up to the end of its line, or
to the end of the text. -/
inductive Trivia (rest : List Char) : List Char → Prop where
  | nil : Trivia rest []
  | blank {c : Char} {gap : List Char} (hc : Text.isBlank c = true) (h : Trivia rest gap) :
    Trivia rest (c :: gap)
  | comment {body gap : List Char} (hbody : '\n' ∉ body) (h : Trivia rest gap) :
    Trivia rest ('-' :: '-' :: (body ++ '\n' :: gap))
  | last {body : List Char} (hbody : '\n' ∉ body) (hrest : rest = []) :
    Trivia rest ('-' :: '-' :: body)

/-- A sign is no blank. -/
theorem isBlank_sign : Text.isBlank '-' = false := by decide

/-- A line feed is a blank. -/
theorem isBlank_line : Text.isBlank '\n' = true := by decide

/-- One more character of its line belongs to a comment. -/
theorem Trivia.cons_comment {rest body : List Char} {c : Char} (hc : c ≠ '\n')
    (h : Trivia rest ('-' :: '-' :: body)) : Trivia rest ('-' :: '-' :: c :: body) := by
  cases h with
  | blank hsign =>
    rw [isBlank_sign] at hsign
    cases hsign
  | comment hbody h =>
    rw [← List.cons_append]
    exact .comment (List.not_mem_cons_of_ne_of_not_mem hc.symm hbody) h
  | last hbody hrest => exact .last (List.not_mem_cons_of_ne_of_not_mem hc.symm hbody) hrest

/-- Before a text that is not empty, trivia are trivia before any text. -/
theorem Trivia.of_ne_nil {rest other gap : List Char} (h : Trivia rest gap) (hrest : rest ≠ []) :
    Trivia other gap := by
  induction h with
  | nil => exact .nil
  | blank hc _ ih => exact .blank hc ih
  | comment hbody _ ih => exact .comment hbody ih
  | last hbody hnil => exact absurd hnil hrest

mutual

/-- What is skipped at the front of a text is trivia, and nothing is skipped after them. -/
theorem skipTrivia_spec (cs : List Char) : ∃ gap, cs = gap ++ skipTrivia cs ∧
    Trivia (skipTrivia cs) gap ∧ skipTrivia (skipTrivia cs) = skipTrivia cs := by
  match cs with
  | [] => exact ⟨[], rfl, .nil, rfl⟩
  | c :: rest =>
    rw [skipTrivia]
    split
    next hblank =>
      obtain ⟨gap, hgap, htrivia, hagain⟩ := skipTrivia_spec rest
      exact ⟨c :: gap, congrArg (c :: ·) hgap, .blank hblank htrivia, hagain⟩
    next hblank =>
      split
      next hcomment =>
        obtain ⟨rfl, hsecond⟩ := hcomment
        obtain ⟨more, rfl⟩ := List.head?_eq_some_iff.mp hsecond
        have hskip : skipComment ('-' :: more) = skipComment more := by
          rw [skipComment, if_neg (by decide)]
        obtain ⟨body, hbody, htrivia, hagain⟩ := skipComment_spec more
        rw [hskip]
        exact ⟨'-' :: '-' :: body, congrArg ('-' :: '-' :: ·) hbody, htrivia, hagain⟩
      next hcomment =>
        refine ⟨[], rfl, .nil, ?_⟩
        rw [skipTrivia, if_neg hblank, if_neg hcomment]

/-- What is skipped inside a comment is the comment and the trivia after it. -/
theorem skipComment_spec (cs : List Char) : ∃ body, cs = body ++ skipComment cs ∧
    Trivia (skipComment cs) ('-' :: '-' :: body) ∧ skipTrivia (skipComment cs) = skipComment cs := by
  match cs with
  | [] => exact ⟨[], rfl, .last List.not_mem_nil rfl, rfl⟩
  | c :: rest =>
    rw [skipComment]
    split
    next hline =>
      obtain ⟨gap, hgap, htrivia, hagain⟩ := skipTrivia_spec rest
      subst hline
      exact ⟨'\n' :: gap, congrArg ('\n' :: ·) hgap, .comment List.not_mem_nil htrivia, hagain⟩
    next hline =>
      obtain ⟨body, hbody, htrivia, hagain⟩ := skipComment_spec rest
      exact ⟨c :: body, congrArg (c :: ·) hbody, htrivia.cons_comment hline, hagain⟩

end

/-- A comment is skipped with the line feed after it. -/
theorem skipComment_append_line {body : List Char} (hbody : '\n' ∉ body) (rest : List Char) :
    skipComment (body ++ '\n' :: rest) = skipTrivia rest := by
  induction body with
  | nil => rw [List.nil_append, skipComment, if_pos rfl]
  | cons c body ih =>
    obtain ⟨hc, hbody⟩ := not_or.mp (mt List.mem_cons.mpr hbody)
    rw [List.cons_append, skipComment, if_neg (Ne.symm hc), ih hbody]

/-- A comment without a line feed goes up to the end of the text. -/
theorem skipComment_eq_nil {body : List Char} (hbody : '\n' ∉ body) : skipComment body = [] := by
  induction body with
  | nil => rfl
  | cons c body ih =>
    obtain ⟨hc, hbody⟩ := not_or.mp (mt List.mem_cons.mpr hbody)
    rw [skipComment, if_neg (Ne.symm hc), ih hbody]

/-- A comment begins with two signs. -/
theorem skipTrivia_signs (cs : List Char) : skipTrivia ('-' :: '-' :: cs) = skipComment cs := by
  rw [skipTrivia, if_neg (by rw [isBlank_sign]; decide), if_pos ⟨rfl, rfl⟩, skipComment,
    if_neg (by decide)]

/-- A blank is skipped. -/
theorem skipTrivia_blank {c : Char} (hc : Text.isBlank c = true) (cs : List Char) :
    skipTrivia (c :: cs) = skipTrivia cs := by
  rw [skipTrivia, if_pos hc]

/-- A text that begins with its line feed, or is empty. -/
def AtLine (more : List Char) : Prop := more = [] ∨ ∃ rest, more = '\n' :: rest

/-- A text is cut short by what goes on with a line feed. -/
theorem AtLine.cutShort {more : List Char} (h : AtLine more) (left : List Char) :
    CutShort left (left ++ more) := by
  rcases h with rfl | ⟨rest, rfl⟩
  · simpa using (CutShort.ended []).append left
  · exact .append_line left rest

/-- Trivia are skipped, but for a comment that the other text goes on with: such a comment is the end
of its text. -/
theorem Trivia.skip {rest gap other : List Char} (h : Trivia rest gap)
    (hother : rest ≠ [] ∨ AtLine other) : skipTrivia (gap ++ other) = skipTrivia other := by
  induction h with
  | nil => rfl
  | blank hc _ ih => rw [List.cons_append, skipTrivia_blank hc, ih]
  | comment hbody _ ih =>
    rw [List.cons_append, List.cons_append, skipTrivia_signs, List.append_assoc, List.cons_append,
      skipComment_append_line hbody, ih]
  | last hbody hrest =>
    rw [List.cons_append, List.cons_append, skipTrivia_signs]
    obtain hrest' | rfl | ⟨line, rfl⟩ := hother
    · exact absurd hrest hrest'
    · rw [List.append_nil, skipComment_eq_nil hbody]
      rfl
    · rw [skipComment_append_line hbody, skipTrivia_blank isBlank_line]

/-- Where nothing is skipped, nothing is skipped of the text cut short after its first character. -/
theorem CutShort.skipTrivia_cons {c : Char} {left other : List Char} (h : CutShort left other)
    (hleft : skipTrivia (c :: left) = c :: left) : skipTrivia (c :: other) = c :: other := by
  have hblank : ¬Text.isBlank c = true := by
    intro hc
    have hlength := length_skipTrivia_le left
    rw [← skipTrivia_blank hc, hleft, List.length_cons] at hlength
    omega
  have hcomment : ¬(c = '-' ∧ other.head? = some '-') := by
    rintro ⟨rfl, hsecond⟩
    obtain ⟨more, rfl⟩ := List.head?_eq_some_iff.mp hsecond
    obtain ⟨tail, rfl, -⟩ := h.of_cons (by decide)
    have hlength := length_skipComment_le tail
    rw [← skipTrivia_signs, hleft, List.length_cons, List.length_cons] at hlength
    omega
  rw [skipTrivia, if_neg hblank, if_neg hcomment]

/-! ## Pieces -/

/-- The tokens of a text are the lexeme after its trivia and the tokens of what the lexeme leaves. -/
theorem tokensFrom_eq (total : Nat) (cs : List Char) : tokensFrom total cs =
    match skipTrivia cs with
    | [] => .ok [⟨.finish, total⟩]
    | c :: rest => (lexeme c rest).bind fun (l, left) =>
        (tokensFrom total left).map fun ts => ⟨l, total - Text.byteLength (c :: rest)⟩ :: ts := by
  rw [tokensFrom.eq_def]
  split
  next hend => rw [hend]
  next c rest hskip =>
    rw [hskip]
    simp only
    split
    next hfault => rw [hfault]; rfl
    next hread => rw [hread]; rfl

/-- The tokens of a text depend on the text after its trivia only. -/
theorem tokensFrom_congr {total : Nat} {cs ds : List Char} (h : skipTrivia cs = skipTrivia ds) :
    tokensFrom total cs = tokensFrom total ds := by
  rw [tokensFrom_eq, h, ← tokensFrom_eq]

/-- A text of nothing but trivia has no token but its end. -/
theorem tokensFrom_of_skipTrivia_eq_nil {total : Nat} {cs : List Char} (h : skipTrivia cs = []) :
    tokensFrom total cs = .ok [⟨.finish, total⟩] := by
  rw [tokensFrom_eq, h]

/-- The lexeme after the trivia gives the first token. -/
theorem tokensFrom_of_lexeme {total : Nat} {cs rest left : List Char} {c : Char} {l : Lexeme}
    (hskip : skipTrivia cs = c :: rest) (hread : lexeme c rest = .ok (l, left)) :
    tokensFrom total cs = (tokensFrom total left).map fun ts =>
      ⟨l, total - Text.byteLength (c :: rest)⟩ :: ts := by
  rw [tokensFrom_eq, hskip]
  simp only [hread, Except.bind]

/-- One stretch of a text: trivia and the text of a lexeme after them. -/
structure Piece where
  gap : List Char
  spelled : List Char
  lexeme : Lexeme

namespace Piece

/-- The characters of a piece. -/
def chars (p : Piece) : List Char := p.gap ++ p.spelled

/-- The text of the lexeme is read as the lexeme by itself, after nothing but trivia. -/
structure IsWhole (p : Piece) : Prop where
  gap : Trivia p.spelled p.gap
  alone : ∃ c rest, p.spelled = c :: rest ∧ skipTrivia (c :: rest) = c :: rest ∧
    Query.lexeme c rest = .ok (p.lexeme, [])

end Piece

/-- The tokens of pieces in a row, the first of which begins at an offset. -/
def tokensOf : Nat → List Piece → List Token
  | _, [] => []
  | start, p :: ps =>
    ⟨p.lexeme, start + Text.byteLength p.gap⟩ :: tokensOf (start + Text.byteLength p.chars) ps

/-- A text that has tokens is a row of whole pieces with trivia after the last one. Its tokens are
those of the pieces, and then those of what goes on at a line after the text. -/
theorem exists_pieces_atLine {total : Nat} {cs : List Char} {ts : List Token}
    (h : tokensFrom total cs = .ok ts) : ∃ ps tail, cs = ps.flatMap Piece.chars ++ tail ∧
      (∀ p ∈ ps, p.IsWhole) ∧ Trivia [] tail ∧
      ∀ before more, AtLine more →
        tokensFrom (before + Text.byteLength (cs ++ more)) (cs ++ more) =
          (tokensFrom (before + Text.byteLength (cs ++ more)) more).map (tokensOf before ps ++ ·) := by
  fun_induction tokensFrom total cs generalizing ts with
  | case1 cs hend =>
    obtain ⟨gap, hgap, htrivia, -⟩ := skipTrivia_spec cs
    rw [hend, List.append_nil] at hgap
    rw [hend, ← hgap] at htrivia
    refine ⟨[], cs, rfl, List.forall_mem_nil _, htrivia, fun before more hmore => ?_⟩
    rw [tokensFrom_congr (htrivia.skip (.inr hmore))]
    exact (congrFun Except.map_id _).symm
  | case2 => cases h
  | case3 cs c rest hskip l left hread ih =>
    obtain ⟨others, hothers, -⟩ := map_eq_ok_iff.mp h
    obtain ⟨ps, tail, hleft, hps, htail, htokens⟩ := ih hothers
    obtain ⟨gap, hgap, htrivia, hagain⟩ := skipTrivia_spec cs
    rw [hskip] at hgap htrivia hagain
    obtain ⟨front, rfl, hfront⟩ := lexeme_front hread
    let p : Piece := ⟨gap, c :: front, l⟩
    have halone : CutShort (front ++ left) front := by
      simpa using (CutShort.ended left).append front
    have hwhole : p.IsWhole :=
      ⟨htrivia.of_ne_nil (List.cons_ne_nil _ _), c, front, rfl, halone.skipTrivia_cons hagain,
        by simpa using hfront [] (.ended left)⟩
    refine ⟨p :: ps, tail, ?_, List.forall_mem_cons.mpr ⟨hwhole, hps⟩, htail,
      fun before more hmore => ?_⟩
    · rw [List.flatMap_cons, List.append_assoc, ← hleft, hgap]
      simp [p, Piece.chars]
    · have hcut := hmore.cutShort left
      have hfirst : skipTrivia (cs ++ more) = c :: (front ++ (left ++ more)) := by
        rw [hgap, List.append_assoc, htrivia.skip (.inl (List.cons_ne_nil _ _)), List.cons_append,
          List.append_assoc]
        exact (hcut.append front).skipTrivia_cons hagain
      have hlength : before + Text.byteLength (cs ++ more) =
          before + Text.byteLength p.chars + Text.byteLength (left ++ more) := by
        rw [hgap]
        simp only [p, Piece.chars, Text.byteLength_append, Text.byteLength]
        omega
      have hoffset : before + Text.byteLength (cs ++ more) -
          Text.byteLength (c :: (front ++ (left ++ more))) = before + Text.byteLength gap := by
        rw [hgap]
        simp only [Text.byteLength_append, Text.byteLength]
        omega
      rw [tokensFrom_of_lexeme hfirst (hfront _ hcut), hoffset, hlength, htokens _ more hmore,
        map_map_eq]
      rfl

/-- **Texts in pieces.** A text that has tokens is a row of whole pieces with trivia after the last
one, wherever it begins. Its tokens are those of the pieces and the end of the text. Where a line is
put after the text, the tokens are those of the pieces and those of the line. -/
theorem exists_pieces {total : Nat} {cs : List Char} {ts : List Token}
    (h : tokensFrom total cs = .ok ts) : ∃ ps tail, cs = ps.flatMap Piece.chars ++ tail ∧
      (∀ p ∈ ps, p.IsWhole) ∧ Trivia [] tail ∧
      (∀ before whole, whole = before + Text.byteLength cs →
        tokensFrom whole cs = .ok (tokensOf before ps ++ [⟨.finish, whole⟩])) ∧
      ∀ before line whole, whole = before + Text.byteLength (cs ++ '\n' :: line) →
        tokensFrom whole (cs ++ '\n' :: line) =
          (tokensFrom whole line).map (tokensOf before ps ++ ·) := by
  obtain ⟨ps, tail, hcs, hps, htail, htokens⟩ := exists_pieces_atLine h
  refine ⟨ps, tail, hcs, hps, htail, ?_, ?_⟩
  · rintro before whole rfl
    have hread := htokens before [] (.inl rfl)
    have hend (whole : Nat) : tokensFrom whole [] = .ok [⟨.finish, whole⟩] :=
      tokensFrom_of_skipTrivia_eq_nil rfl
    rwa [List.append_nil, hend] at hread
  · rintro before line whole rfl
    rw [htokens before _ (.inr ⟨line, rfl⟩), tokensFrom_congr (skipTrivia_blank isBlank_line line)]

/-- No lexeme is the end of the text. -/
theorem lexeme_ne_finish {c : Char} {rest left : List Char} {l : Lexeme}
    (h : lexeme c rest = .ok (l, left)) : l ≠ .finish := by
  rintro rfl
  unfold lexeme at h
  split at h
  · unfold numberLexeme at h
    split at h
    · split at h
      · split at h <;> cases h
      · cases h
    · cases h
  split at h
  · obtain ⟨body, -, hread⟩ := map_eq_ok_iff.mp h
    cases hread
  split at h
  · simp only at h
    split at h <;> cases h
  split at h
  · cases h
  split at h <;> cases h

/-- A token at a later offset. -/
def Token.moved (bytes : Nat) (t : Token) : Token := ⟨t.lexeme, t.offset + bytes⟩

/-- The tokens of pieces that begin later are the same tokens at later offsets. -/
theorem tokensOf_add (start bytes : Nat) (ps : List Piece) :
    tokensOf (start + bytes) ps = (tokensOf start ps).map (Token.moved bytes) := by
  induction ps generalizing start with
  | nil => rfl
  | cons p ps ih =>
    simp only [tokensOf, List.map_cons, ← ih, Token.moved, Nat.add_right_comm start bytes]

/-- A token of pieces is that of one of them, at the offset where its lexeme begins. -/
theorem exists_of_mem_tokensOf {start : Nat} {ps : List Piece} {t : Token}
    (h : t ∈ tokensOf start ps) : ∃ front p back, ps = front ++ p :: back ∧
      t = ⟨p.lexeme, start + Text.byteLength (front.flatMap Piece.chars ++ p.gap)⟩ := by
  induction ps generalizing start with
  | nil => cases h
  | cons q ps ih =>
    rcases List.mem_cons.mp h with rfl | h
    · exact ⟨[], q, ps, rfl, rfl⟩
    · obtain ⟨front, p, back, rfl, rfl⟩ := ih h
      refine ⟨q :: front, p, back, rfl, ?_⟩
      rw [List.flatMap_cons, List.append_assoc, Text.byteLength_append q.chars, Nat.add_assoc]

/-- Each piece has one token. -/
theorem length_tokensOf (start : Nat) (ps : List Piece) :
    (tokensOf start ps).length = ps.length := by
  induction ps generalizing start with
  | nil => rfl
  | cons p ps ih => rw [tokensOf, List.length_cons, List.length_cons, ih]

namespace Piece.IsWhole

/-- The text of the lexeme of a whole piece is not empty. -/
theorem spelled_ne_nil {p : Piece} (h : p.IsWhole) : p.spelled ≠ [] := by
  obtain ⟨c, rest, hspelled, -⟩ := h.alone
  rw [hspelled]
  exact List.cons_ne_nil c rest

/-- The lexeme of a whole piece is not the end of the text. -/
theorem lexeme_ne_finish {p : Piece} (h : p.IsWhole) : p.lexeme ≠ .finish := by
  obtain ⟨c, rest, -, -, hread⟩ := h.alone
  exact Query.lexeme_ne_finish hread

/-- The text of the lexeme of a whole piece has the lexeme as its only token. -/
theorem tokens_spelled {p : Piece} (h : p.IsWhole) : tokens (String.ofList p.spelled) =
    .ok [⟨p.lexeme, 0⟩, ⟨.finish, Text.byteLength p.spelled⟩] := by
  obtain ⟨c, rest, hspelled, hskip, hread⟩ := h.alone
  rw [tokens, String.toList_ofList, hspelled, tokensFrom_of_lexeme hskip hread,
    tokensFrom_of_skipTrivia_eq_nil rfl]
  simp [Except.map]

end Piece.IsWhole

/-- The lexemes of whole pieces begin one behind the other. -/
theorem pairwise_tokensOf {ps : List Piece} (h : ∀ p ∈ ps, p.IsWhole) (start : Nat) :
    (tokensOf start ps).Pairwise (fun s t => s.offset < t.offset) := by
  induction ps generalizing start with
  | nil => exact .nil
  | cons p ps ih =>
    obtain ⟨hp, hps⟩ := List.forall_mem_cons.mp h
    refine .cons (fun t ht => ?_) (ih hps _)
    obtain ⟨front, q, back, -, rfl⟩ := exists_of_mem_tokensOf ht
    have hpos := Text.byteLength_pos hp.spelled_ne_nil
    simp only [Piece.chars, Text.byteLength_append]
    omega

/-- A text has tokens if its characters have. -/
theorem tokens_eq_ok_iff {text : String} {ts : List Token} : tokens text = .ok ts ↔
    tokensFrom (Text.byteLength text.toList) text.toList = .ok ts := by
  unfold tokens
  simp only
  cases tokensFrom (Text.byteLength text.toList) text.toList with
  | ok found => simp only [Except.ok.injEq]
  | error fault => exact ⟨nofun, nofun⟩

/-- **No text is lost.** The text of tokens is a row of pieces, trivia and the text of a lexeme each,
with trivia after the last one.

* By itself, the text of a lexeme has the lexeme as its only token before the end.
* The tokens are the lexemes of the pieces, each at the offset where its text begins, and then the
  end of the text, which no piece has as its lexeme, at the length of the text.
* The offsets are boundaries between characters, in strictly increasing order. -/
theorem tokens_spec {text : String} {ts : List Token} (h : tokens text = .ok ts) :
    ∃ ps tail, text.toList = ps.flatMap Piece.chars ++ tail ∧ Trivia [] tail ∧
      (∀ p ∈ ps, Trivia p.spelled p.gap ∧ p.spelled ≠ [] ∧ p.lexeme ≠ .finish ∧
        tokens (String.ofList p.spelled) =
          .ok [⟨p.lexeme, 0⟩, ⟨.finish, Text.byteLength p.spelled⟩]) ∧
      ts = tokensOf 0 ps ++ [⟨.finish, Text.byteLength text.toList⟩] ∧
      ts.Pairwise (fun s t => s.offset < t.offset) ∧
      ∀ t ∈ ts, Text.IsBoundary text t.offset := by
  rw [tokens_eq_ok_iff] at h
  obtain ⟨ps, tail, htext, hps, htail, htokens, -⟩ := exists_pieces h
  obtain rfl := Except.ok.inj (h.symm.trans (htokens 0 _ (Nat.zero_add _).symm))
  refine ⟨ps, tail, htext, htail, fun p hp => ?_, rfl, ?_, ?_⟩
  · have hwhole := hps p hp
    exact ⟨hwhole.gap, hwhole.spelled_ne_nil, hwhole.lexeme_ne_finish, hwhole.tokens_spelled⟩
  · refine List.pairwise_append.mpr ⟨pairwise_tokensOf hps 0, List.pairwise_singleton _ _, ?_⟩
    intro t ht last hlast
    obtain rfl := List.mem_singleton.mp hlast
    obtain ⟨front, p, back, rfl, rfl⟩ := exists_of_mem_tokensOf ht
    have hpos := Text.byteLength_pos
      (hps p (List.mem_append_right front List.mem_cons_self)).spelled_ne_nil
    simp only [htext, List.flatMap_append, List.flatMap_cons, Piece.chars, Text.byteLength_append]
    omega
  · intro t ht
    rcases List.mem_append.mp ht with ht | ht
    · obtain ⟨front, p, back, rfl, rfl⟩ := exists_of_mem_tokensOf ht
      refine ⟨front.flatMap Piece.chars ++ p.gap,
        p.spelled ++ (back.flatMap Piece.chars ++ tail), ?_, Nat.zero_add _⟩
      rw [htext]
      simp [Piece.chars]
    · obtain rfl := List.mem_singleton.mp ht
      exact ⟨text.toList, [], (List.append_nil _).symm, rfl⟩

/-- A letter without digits after it is a word of its own, and a comment with a character of two
bytes is skipped before the last lexeme. -/
theorem tokens_spec_five_lexemes :
    ∃ ts, tokens "1e+.5--é\n'\\uD83D'" = .ok ts ∧ ts.map Token.offset = [0, 1, 2, 3, 10, 18] ∧
      ∃ (ps : List Piece) (tail : List Char), "1e+.5--é\n'\\uD83D'".toList =
          ps.flatMap Piece.chars ++ tail ∧ ps.length = 5 ∧ ∀ p ∈ ps, tokens (String.ofList p.spelled) =
          .ok [⟨p.lexeme, 0⟩, ⟨.finish, Text.byteLength p.spelled⟩] := by
  have hcheck : ((tokens "1e+.5--é\n'\\uD83D'").toOption.map fun ts => ts.map Token.offset) =
      some [0, 1, 2, 3, 10, 18] := by
    decide +kernel
  obtain ⟨ts, htokens, hoffsets⟩ := Option.map_eq_some_iff.mp hcheck
  have htokens := toOption_eq_some_iff.mp htokens
  obtain ⟨ps, tail, htext, -, hps, hts, -⟩ := tokens_spec htokens
  refine ⟨ts, htokens, hoffsets, ps, tail, htext, ?_, fun p hp => (hps p hp).2.2.2⟩
  have hlength := congrArg List.length hoffsets
  rw [hts, List.length_map, List.length_append, length_tokensOf] at hlength
  exact Nat.succ.inj hlength

/-- **Lines are scanned one by one.** Where two texts have tokens, the second one on a new line after
the first one has them too: those of the first text without its end, and those of the second text at
offsets that count the first text and the line feed. -/
theorem tokens_append_line {a b : String} {as bs : List Token} (ha : tokens a = .ok as)
    (hb : tokens b = .ok bs) : as = as.dropLast ++ [⟨.finish, Text.byteLength a.toList⟩] ∧
      tokens (a ++ "\n" ++ b) =
        .ok (as.dropLast ++ bs.map (Token.moved (Text.byteLength a.toList + 1))) := by
  rw [tokens_eq_ok_iff] at ha hb
  obtain ⟨ps, -, -, -, -, hfirst, hline⟩ := exists_pieces ha
  obtain ⟨qs, -, -, -, -, hsecond, -⟩ := exists_pieces hb
  obtain rfl := Except.ok.inj (ha.symm.trans (hfirst 0 _ (Nat.zero_add _).symm))
  obtain rfl := Except.ok.inj (hb.symm.trans (hsecond 0 _ (Nat.zero_add _).symm))
  have hjoined : (a ++ "\n" ++ b).toList = a.toList ++ '\n' :: b.toList := by simp
  have hlength : Text.byteLength (a.toList ++ '\n' :: b.toList) =
      0 + (Text.byteLength a.toList + 1) + Text.byteLength b.toList := by
    have hone : ('\n').utf8Size = 1 := rfl
    rw [Text.byteLength_append, Text.byteLength, hone]
    omega
  rw [List.dropLast_concat, tokens_eq_ok_iff, hjoined, hline 0 _ _ (Nat.zero_add _).symm,
    hsecond _ _ hlength, tokensOf_add, List.map_append]
  refine ⟨rfl, ?_⟩
  simp [Except.map, Token.moved, hlength, Nat.add_comm]

/-- The exponent and the comment of the first text end with their line. -/
theorem tokens_append_line_exponent_and_comment :
    ∃ as bs, tokens "2e- --x" = .ok as ∧ tokens "5--" = .ok bs ∧
      as.map Token.offset = [0, 1, 2, 7] ∧ bs.map Token.offset = [0, 3] ∧
      tokens ("2e- --x" ++ "\n" ++ "5--") =
        .ok (as.dropLast ++ bs.map (Token.moved (Text.byteLength "2e- --x".toList + 1))) := by
  have hfirst : ((tokens "2e- --x").toOption.map fun ts => ts.map Token.offset) =
      some [0, 1, 2, 7] := by
    decide +kernel
  have hsecond : ((tokens "5--").toOption.map fun ts => ts.map Token.offset) = some [0, 3] := by
    decide +kernel
  obtain ⟨as, has, hoffsets⟩ := Option.map_eq_some_iff.mp hfirst
  obtain ⟨bs, hbs, hoffsets'⟩ := Option.map_eq_some_iff.mp hsecond
  have has := toOption_eq_some_iff.mp has
  have hbs := toOption_eq_some_iff.mp hbs
  exact ⟨as, bs, has, hbs, hoffsets, hoffsets', (tokens_append_line has hbs).2⟩

end Folio.Query
