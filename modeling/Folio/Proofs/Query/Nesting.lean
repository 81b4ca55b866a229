import Folio.Proofs.Query.ClauseReading
import Folio.Proofs.Query.Heights
import Folio.Proofs.Query.Limits
import Folio.Proofs.Query.Pieces

/-!
# Nesting and height

A text that is a statement by the rules is parsed if its expressions fit into the limits of nesting
and height. If they do not, the text is refused as too deep and for no other reason. The expression as
a whole takes one of the nesting levels, so one less than the limit is left for what stands inside it.
-/

namespace Folio.Query

variable {deep : Prop} {n : Nat} {e : Expr}

/-! ## Expressions -/

/-- Where expressions are read with the nesting levels of the parser, a whole expression is, too, if it
is not too high or may be too deep. -/
theorem Meets.expression {ts : List Token} {rest : List Lexeme}
    (h : Meets deep ((Inner.within maxNesting).expression ts) e rest)
    (hheight : deep ∨ e.height ≤ maxHeight) : Meets deep (expression ts) e rest := by
  refine h.bind ?_
  rintro step rfl hrest
  split
  next hhigh =>
    rw [Expr.depth_eq_height] at hhigh
    exact .inl ⟨hheight.resolve_right (Nat.not_le_of_lt hhigh), offsetOf ts, rfl⟩
  next => exact .inr ⟨step, rfl, rfl, hrest⟩

/-- Within the limits of nesting and height the reader of whole expressions takes an expression. -/
theorem tried_within (hn : n < maxNesting) (hheight : e.height ≤ maxHeight) : Tried deep n e :=
  fun _ _ hphrase hstops ts hts =>
    Meets.expression (.inr (hphrase.inside hn hstops ts hts)) (.inr hheight)

/-- Beyond the limits it takes the expression or is too deep. -/
theorem tried_deep (n : Nat) (e : Expr) : Tried True n e := by
  intro ls rest hphrase hstops ts hts
  refine Meets.expression ?_ (.inl trivial)
  -- the reader with enough levels takes the expression; that of the parser may have fewer
  have hlt : n < max maxNesting (n + 1) := by omega
  rcases (curbsInside_within (Nat.le_max_left maxNesting (n + 1))).expression ts with heq | hdeep
  · rw [heq]
    exact .inr (hphrase.inside hlt hstops ts hts)
  · exact .inl ⟨trivial, hdeep⟩

/-- Lexemes in a number of pairs of parentheses. -/
def parenthesized : Nat → List Lexeme → List Lexeme
  | 0, ls => ls
  | k + 1, ls => .symbol .openParen :: (parenthesized k ls ++ [.symbol .closeParen])

/-- Each pair of parentheses takes a nesting level. -/
theorem Phrase.parenthesized {ls : List Lexeme} (h : Phrase n .conditional ls e) (k : Nat) :
    Phrase (n + k) .conditional (parenthesized k ls) e := by
  induction k with
  | zero => exact h
  | succ k ih =>
    have hphrase : Phrase (n + (k + 1)) .primary (Query.parenthesized (k + 1) ls) e :=
      .parentheses (by omega) ih
    exact hphrase.of_le (by decide)

/-! ## Texts -/

/-- A text is parsed as the statement that its tokens are, or the parser is too deep if it may be. -/
theorem parse_of_isQuery {text : String} {s : Statement} (h : IsQuery n text s)
    (hexprs : ∀ e ∈ s.exprs, Tried deep n e) :
    parse text = .ok s ∨ deep ∧ ∃ offset, parse text = .error ⟨offset, .tooDeep⟩ := by
  obtain ⟨ls, ts, hstatement, htokens, hts⟩ := h
  rcases hstatement.tries hexprs ts hts with ⟨hdeep, offset, hfault⟩ | ⟨step, hstep, rfl, hrest⟩
  · refine .inr ⟨hdeep, offset, ?_⟩
    rw [parse, htokens]
    simp only [bind, Except.bind, hfault]
  · have hend : current step.rest = .finish := by
      obtain ⟨offset, tail, htail, -⟩ := exists_token hrest
      rw [htail, current]
    left
    rw [parse, htokens]
    simp only [bind, Except.bind, hstep, if_pos hend]
    rfl

/-- The tokens of a text end with its end and have no other. -/
theorem exists_finish_of_tokens {text : String} {ts : List Token} (h : tokens text = .ok ts) :
    ∃ ls, ts.map Token.lexeme = ls ++ [.finish] ∧ .finish ∉ ls := by
  obtain ⟨ps, -, -, hwhole, -, htokens, -⟩ := exists_pieces (tokens_eq_ok_iff.mp h)
  have hts := Except.ok.inj
    ((tokens_eq_ok_iff.mp h).symm.trans (htokens 0 _ (Nat.zero_add _).symm))
  refine ⟨(tokensOf 0 ps).map Token.lexeme, by rw [hts]; simp, fun hmem => ?_⟩
  obtain ⟨t, ht, hfinish⟩ := List.mem_map.mp hmem
  obtain ⟨front, p, back, hps, rfl⟩ := exists_of_mem_tokensOf ht
  exact (hwhole p (by simp [hps])).lexeme_ne_finish hfinish

/-- A text that is parsed is a statement, with the nesting levels that the parser leaves. -/
theorem isQuery_of_parse {text : String} {s : Statement} (h : parse text = .ok s) :
    IsQuery (maxNesting - 1) text s := by
  obtain ⟨ts, htokens, h⟩ := bind_eq_ok_iff.mp h
  obtain ⟨step, hstep, h⟩ := bind_eq_ok_iff.mp h
  split at h
  next hend =>
    obtain ⟨taken, hts, hfinish, hstatement⟩ := obeys_statement ts step hstep
    obtain ⟨ls, hls, hnot⟩ := exists_finish_of_tokens htokens
    rw [← pure_eq_ok_iff.mp h]
    refine ⟨taken, ts, hstatement, htokens, ?_⟩
    -- the tokens that are left begin with the end, and there is no other end
    rw [hls] at hts ⊢
    cases hrest : step.rest with
    | nil =>
      rw [hrest, List.map_nil, List.append_nil] at hts
      exact absurd (hts ▸ by simp) hfinish
    | cons t more =>
      rw [hrest] at hend hts
      change t.lexeme = .finish at hend
      rw [List.map_cons, hend, List.append_cons_inj_of_notMem hnot (List.not_mem_nil)] at hts
      rw [hts.1]
  next => cases h

/-- **Limits.** A text is parsed as a statement exactly if it is the statement by the rules, with 63
nesting levels for what stands inside its expressions, and the expressions are at most 128 high. A text
that is a statement with any number of nesting levels is parsed as the statement or refused as too
deep. -/
theorem parse_limits_spec (text : String) (s : Statement) :
    (parse text = .ok s ↔ IsQuery 63 text s ∧ ∀ e ∈ s.exprs, e.height ≤ 128) ∧
      ∀ n, IsQuery n text s →
        parse text = .ok s ∨ ∃ offset, parse text = .error ⟨offset, .tooDeep⟩ := by
  refine ⟨⟨fun h => ⟨isQuery_of_parse h, forall_exprs_of_parse only_expression_height h⟩,
    fun ⟨hquery, hheights⟩ => ?_⟩, fun n hquery => ?_⟩
  · have hexprs : ∀ e ∈ s.exprs, Tried False 63 e :=
      fun e he => tried_within (by decide) (hheights e he)
    exact (parse_of_isQuery hquery hexprs).resolve_right fun h => h.1
  · exact (parse_of_isQuery hquery fun e _ => tried_deep n e).imp_right And.right

/-- The constant in 63 pairs of parentheses is within the limits, the one in 64 pairs is not. -/
theorem parse_limits_spec_parentheses :
    let nested (k : Nat) := String.ofList ("SELECT VALUE ".toList ++ (List.replicate k '(' ++
      ('1' :: List.replicate k ')')) ++ " FROM c".toList)
    let s : Statement := ⟨none, .value (.literal (.number (.ofNat 1))), "c", none, none, []⟩
    IsQuery 63 (nested 63) s ∧ parse (nested 63) = .ok s ∧ IsQuery 64 (nested 64) s ∧
      ∃ offset, parse (nested 64) = .error ⟨offset, .tooDeep⟩ := by
  intro nested s
  have hquery (k : Nat) (h : ((tokens (nested k)).toOption.map fun ts => ts.map Token.lexeme) =
      some ([.word "SELECT", .word "VALUE"] ++ parenthesized k [.number (.ofNat 1)] ++
        [.word "FROM", .word "c", .finish])) : IsQuery k (nested k) s := by
    obtain ⟨ts, htokens, hlexemes⟩ := Option.map_eq_some_iff.mp h
    have hone : Phrase 0 .conditional [.number (.ofNat 1)] (.literal (.number (.ofNat 1))) :=
      (Phrase.number _).of_le (by decide)
    have hphrase := hone.parenthesized k
    rw [Nat.zero_add] at hphrase
    have hbare : IsBare k ([.word "SELECT"] ++ ((.word "VALUE" :: parenthesized k _) ++
        [.word "FROM", .word "c"])) s :=
      .parts (.select (by decide) .absent) (.value (by decide) hphrase)
        (.source (by decide) (by decide) .absent)
    have hstatement : IsStatement k _ s := .parts (.parts hbare .absent) .absent
    refine ⟨_, ts, hstatement, toOption_eq_some_iff.mp htokens, ?_⟩
    rw [hlexemes]
    simp
  have hinside : IsQuery 63 (nested 63) s := hquery 63 (by decide +kernel)
  have hbeyond : IsQuery 64 (nested 64) s := hquery 64 (by decide +kernel)
  have hrefused : parse (nested 64) ≠ .ok s := by
    intro h
    have hcheck : (parse (nested 64)).toOption.isNone = true := by decide +kernel
    rw [h] at hcheck
    cases hcheck
  refine ⟨hinside, ?_, hbeyond, ?_⟩
  · exact (parse_limits_spec _ s).1.mpr ⟨hinside, by decide⟩
  · exact ((parse_limits_spec _ s).2 64 hbeyond).resolve_left hrefused

end Folio.Query
