import Folio.Proofs.Query.PhraseReading
import Folio.Proofs.Query.Rules

/-!
# What is read is a phrase

The readers of the grammar keep to its rules: what the reader of a level takes is a phrase of the level
with the expression that is read, and the nesting levels that are left to the reader are enough for
it.
-/

namespace Folio.Query

variable {n : Nat} {level : Precedence}

/-- What the readers one nesting level deeper take are phrases with one level less. -/
structure ObeyInside (n : Nat) : Prop where
  expression : Obeys (fun ls e => n - 1 < n ∧ Phrase (n - 1) .conditional ls e)
    (Inner.within n).expression
  negation : Obeys (fun ls e => n - 1 < n ∧ Phrase (n - 1) .negation ls e)
    (Inner.within n).negation
  signed : Obeys (fun ls e => n - 1 < n ∧ Phrase (n - 1) .signed ls e) (Inner.within n).signed

/-! ## Lists -/

/-- The lexemes of a list up to and with its closing symbol. -/
def Items (n : Nat) (last : Symbol) (ls : List Lexeme) (items : List Expr) : Prop :=
  ∃ parts : List (Part Expr), (parts ≠ [] → n - 1 < n) ∧
    (∀ part ∈ parts, Phrase (n - 1) .conditional part.lexemes part.value) ∧
    ls = separated (parts.map Part.lexemes) ++ [.symbol last] ∧ items = parts.map Part.value

/-- The items of a list are phrases, and a nesting level is left to the list if there are any. -/
theorem obeys_items (h : ObeyInside n) (last : Symbol) :
    Obeys (Items n last) (closedList last (Inner.within n).expression) := by
  refine h.expression.closedList ?_
  rintro _ _ ⟨parts, hparts, rfl, rfl⟩
  refine ⟨parts, fun hne => ?_, fun part hpart => (hparts part hpart).2, rfl, rfl⟩
  obtain ⟨part, hpart⟩ := List.exists_mem_of_ne_nil parts hne
  exact (hparts part hpart).1

/-- A key of an entry is taken for a string or a word. -/
theorem obeys_entryKey : Obeys (fun ls key => ∃ l, IsKey l key ∧ ls = [l]) entryKey := by
  intro ts
  unfold entryKey
  split
  · exact keepsTo_token nofun ⟨_, .string _, rfl⟩
  · refine (obeys_name ts).mono ?_
    rintro _ key rfl
    exact ⟨_, .word key, rfl⟩

/-- The lexemes of an entry: a key, a colon and a phrase with one nesting level less. -/
def IsEntry (n : Nat) (ls : List Lexeme) (entry : String × Expr) : Prop :=
  ∃ member : Member, ls = member.lexemes ∧ entry = member.entry ∧ IsKey member.key member.name ∧
    n - 1 < n ∧ Phrase (n - 1) .conditional member.value.lexemes member.value.value

/-- Entries are read as such. -/
theorem obeys_entry (h : ObeyInside n) : Obeys (IsEntry n) (entry (Inner.within n)) := by
  refine obeys_entryKey.bind ?_
  rintro _ key ⟨l, hkey, rfl⟩
  refine (obeys_symbol .colon).bind ?_
  rintro _ _ rfl
  refine h.expression.map ?_
  rintro ls e ⟨hlt, hphrase⟩
  exact ⟨⟨l, key, ⟨ls, e⟩⟩, rfl, rfl, hkey, hlt, hphrase⟩

/-- Entries with their lexemes are members. -/
theorem exists_members {parts : List (Part (String × Expr))}
    (h : ∀ part ∈ parts, IsEntry n part.lexemes part.value) :
    ∃ members : List Member, parts.map Part.lexemes = members.map Member.lexemes ∧
      parts.map Part.value = members.map Member.entry ∧
      ∀ member ∈ members, IsKey member.key member.name ∧ n - 1 < n ∧
        Phrase (n - 1) .conditional member.value.lexemes member.value.value := by
  induction parts with
  | nil => exact ⟨[], rfl, rfl, List.forall_mem_nil _⟩
  | cons part parts ih =>
    obtain ⟨⟨member, hlexemes, hentry, hmember⟩, hparts⟩ := List.forall_mem_cons.mp h
    obtain ⟨members, hrows, hentries, hmembers⟩ := ih hparts
    refine ⟨member :: members, ?_, ?_, List.forall_mem_cons.mpr ⟨hmember, hmembers⟩⟩
    · rw [List.map_cons, List.map_cons, hlexemes, hrows]
    · rw [List.map_cons, List.map_cons, hentry, hentries]

/-- The entries of an object are read as a phrase after the opening brace. -/
theorem obeys_entries (h : ObeyInside n) :
    Obeys (fun ls => Phrase n .primary (.symbol .openBrace :: ls))
      ((closedList .closeBrace (entry (Inner.within n))).map .object) := by
  have hlist : Obeys (fun ls entries => Phrase n .primary (.symbol .openBrace :: ls) (.object entries))
      (closedList .closeBrace (entry (Inner.within n))) := by
    refine (obeys_entry h).closedList ?_
    rintro _ _ ⟨parts, hparts, rfl, rfl⟩
    obtain ⟨members, hrows, hentries, hmembers⟩ := exists_members hparts
    rw [hrows, hentries]
    refine .object (fun hne => ?_) (fun member hmember => (hmembers member hmember).1)
      fun member hmember => (hmembers member hmember).2.2
    obtain ⟨member, hmember⟩ := List.exists_mem_of_ne_nil members hne
    exact (hmembers member hmember).2.1
  exact hlist.map fun _ _ hphrase => hphrase

/-! ## Operands -/

/-- The arguments of a call are read as a phrase after the opening parenthesis. -/
theorem obeys_call (h : ObeyInside n) {w : String} (hname : Keyword.ofWord? w = none) :
    Obeys (fun ls => Phrase n .primary (.word w :: .symbol .openParen :: ls))
      ((exprList (Inner.within n)).map (.call (asciiUpper w))) := by
  refine (obeys_items h .closeParen).map ?_
  rintro _ _ ⟨args, hm, hargs, rfl, rfl⟩
  exact .call hname hm hargs

/-- The name and the arguments of a call of a function that the caller provides are read as a phrase
after the qualifier and the dot. -/
theorem obeys_userCall (h : ObeyInside n) {w : String} (hw : isUserQualifier w = true) :
    Obeys (fun ls => Phrase n .primary (.word w :: .symbol .dot :: ls))
      (userCall (Inner.within n)) := by
  refine obeys_name.bind ?_
  rintro _ name rfl
  refine (obeys_symbol .openParen).bind ?_
  rintro _ _ rfl
  refine (obeys_items h .closeParen).map ?_
  rintro _ _ ⟨args, hm, hargs, rfl, rfl⟩
  exact .userCall name hw hm hargs

/-- A word begins a phrase. -/
theorem keepsTo_wordExpr (h : ObeyInside n) (w : String) (offset : Nat) (rest : List Token) :
    KeepsTo (Phrase n .primary) (⟨.word w, offset⟩ :: rest)
      (wordExpr (Inner.within n) w offset rest) := by
  unfold wordExpr
  split
  next v hv => exact keepsTo_token nofun (.constant hv)
  next =>
    split
    · exact nofun
    next hname =>
      have hname : Keyword.ofWord? w = none := by simpa using hname
      split
      next place more =>
        have hcall : KeepsTo (fun ls => Phrase n .primary (.word w :: ls))
            (⟨.symbol .openParen, place⟩ :: more)
            (past ((exprList (Inner.within n)).map (.call (asciiUpper w)) more)) :=
          (obeys_call h hname more).past nofun fun _ _ hphrase => hphrase
        exact hcall.past nofun fun _ _ hphrase => hphrase
      next dot function paren more =>
        dsimp only
        split
        next hw =>
          let called := function :: ⟨.symbol .openParen, paren⟩ :: more
          have hcall : KeepsTo (fun ls => Phrase n .primary (.word w :: ls))
              (⟨.symbol .dot, dot⟩ :: called) (past (userCall (Inner.within n) called)) :=
            (obeys_userCall h hw called).past nofun fun _ _ hphrase => hphrase
          exact hcall.past nofun fun _ _ hphrase => hphrase
        next => exact keepsTo_token nofun (.identifier hname)
      next => exact keepsTo_token nofun (.identifier hname)

/-- Operands are phrases. -/
theorem obeys_primary (h : ObeyInside n) :
    Obeys (Phrase n .primary) (primary (Inner.within n)) := by
  intro ts
  unfold primary
  split
  · exact keepsTo_token nofun (.number _)
  · exact keepsTo_token nofun (.string _)
  · exact keepsTo_token nofun (.parameter _)
  next offset rest =>
    have hbefore : Obeys (fun ls => Phrase n .primary (.symbol .openParen :: ls))
        ((Inner.within n).expression.before .closeParen) :=
      h.expression.before fun ls e hphrase => .parentheses hphrase.1 hphrase.2
    exact (hbefore rest).past nofun fun _ _ hphrase => hphrase
  next offset rest =>
    have hitems : Obeys (fun ls => Phrase n .primary (.symbol .openBracket :: ls))
        ((closedList .closeBracket (Inner.within n).expression).map .array) := by
      refine (obeys_items h .closeBracket).map ?_
      rintro _ _ ⟨items, hm, hitems, rfl, rfl⟩
      exact .array hm hitems
    exact (hitems rest).past nofun fun _ _ hphrase => hphrase
  next offset rest => exact (obeys_entries h rest).past nofun fun _ _ hphrase => hphrase
  · exact keepsTo_wordExpr h _ _ _
  · exact nofun

/-! ## Extensions -/

/-- An operator is not the end of the text. -/
theorem ne_finish_of_op? {l : Lexeme} {op : BinaryOp} (h : level.op? l = some op) :
    l ≠ .finish := by
  rintro rfl
  cases Precedence.continues_of_op? h

/-- Accesses extend phrases. -/
theorem obeys_nextAccess? (h : ObeyInside n) :
    (nextAccess? (Inner.within n)).Obeys (Phrase n .access) := by
  intro front base hbase ts reading hreading
  unfold nextAccess? at hreading
  split at hreading
  next offset rest =>
    cases hreading
    have hname : Obeys (fun ls => Phrase n .access (front ++ .symbol .dot :: ls))
        (name.map fun key => .property base (.literal (.string key))) := by
      refine obeys_name.map ?_
      rintro _ key rfl
      exact .named hbase key
    exact (hname rest).past nofun fun _ _ hphrase => hphrase
  next offset rest =>
    cases hreading
    have hbefore : Obeys
        (fun ls key => Phrase n .access (front ++ .symbol .openBracket :: ls) (.property base key))
        ((Inner.within n).expression.before .closeBracket) :=
      h.expression.before fun ls key hkey => .keyed hkey.1 hbase hkey.2
    have hkey : Obeys (fun ls => Phrase n .access (front ++ .symbol .openBracket :: ls))
        (((Inner.within n).expression.before .closeBracket).map (.property base)) :=
      hbefore.map fun _ _ hphrase => hphrase
    exact (hkey rest).past nofun fun _ _ hphrase => hphrase
  next => cases hreading

/-- The words of a test are found at the front. -/
theorem exists_of_wordTest? {ts : List Token} {words : Step (Bool × WordTest) ts.length}
    (h : wordTest? ts = some words) :
    ∃ ws, TestWords words.value.1 words.value.2 ws ∧ .finish ∉ ws ∧
      ts.map Token.lexeme = ws ++ words.rest.map Token.lexeme := by
  unfold wordTest? at h
  split at h
  next w offset rest =>
    split at h
    next test htest =>
      cases h
      exact ⟨[.word w], .plain htest, by simp, rfl⟩
    next =>
      split at h
      next hnot =>
        split at h
        next v place more =>
          obtain ⟨test, htest, rfl⟩ := Option.map_eq_some_iff.mp h
          exact ⟨[.word w, .word v], .negated hnot htest, by simp, rfl⟩
        next => cases h
      next => cases h
  next => cases h

/-- What a test compares with extends a phrase, after the words of the test. -/
theorem obeys_testOf (h : ObeyInside n) (hbitOr : Obeys (Phrase n .bitOr) (bitOr (Inner.within n)))
    {negated : Bool} {test : WordTest} {front ws : List Lexeme} {left : Expr}
    (hwords : TestWords negated test ws) (hleft : Phrase n .relational front left) :
    Obeys (fun ls => Phrase n .relational (front ++ (ws ++ ls)))
      ((testOf (Inner.within n) left test).map (negatedIf negated)) := by
  cases test with
  | among =>
    have hamong : Obeys
        (fun ls e => Phrase n .relational (front ++ (ws ++ ls)) (negatedIf negated e))
        (testOf (Inner.within n) left .among) := by
      refine (obeys_symbol .openParen).bind ?_
      rintro _ _ rfl
      refine (obeys_items h .closeParen).map ?_
      rintro _ _ ⟨choices, hm, hchoices, rfl, rfl⟩
      exact .among hwords hleft hm hchoices
    exact hamong.map fun _ _ hphrase => hphrase
  | between =>
    have hbetween : Obeys
        (fun ls e => Phrase n .relational (front ++ (ws ++ ls)) (negatedIf negated e))
        (testOf (Inner.within n) left .between) := by
      refine hbitOr.bind fun lows low hlow => ?_
      refine (obeys_keyword .and).bind ?_
      rintro _ _ ⟨w, hand, rfl⟩
      exact hbitOr.map fun highs high hhigh => .between hwords hleft hlow hand hhigh
    exact hbetween.map fun _ _ hphrase => hphrase

/-- Relations and tests extend phrases. -/
theorem obeys_nextRelation? (h : ObeyInside n)
    (hbitOr : Obeys (Phrase n .bitOr) (bitOr (Inner.within n))) :
    (nextRelation? (Inner.within n)).Obeys (Phrase n .relational) := by
  intro front left hleft ts reading hreading
  unfold nextRelation? at hreading
  split at hreading
  next => cases hreading
  next t rest =>
    split at hreading
    next op hop =>
      cases hreading
      have hop : Precedence.relational.op? t.lexeme = some op := hop
      have hright : Obeys (fun ls => Phrase n .relational (front ++ t.lexeme :: ls))
          ((bitOr (Inner.within n)).map (.binary op left)) :=
        hbitOr.map fun ls right hright => .binary hop hleft hright
      exact (hright rest).past (ne_finish_of_op? hop) fun _ _ hphrase => hphrase
    next =>
      obtain ⟨words, hwords, rfl⟩ := Option.map_eq_some_iff.mp hreading
      obtain ⟨ws, htest, hfinish, hts⟩ := exists_of_wordTest? hwords
      exact ((obeys_testOf h hbitOr htest hleft words.rest).weaken _).front hts hfinish
        fun _ _ hphrase => hphrase

/-- What extends an operand of a level extends a phrase of the level. -/
theorem obeys_extension (h : ObeyInside n) (hloop : level.isLoop = true)
    (htighter : Obeys (Phrase n level.tighter) ((Inner.within n).reader level.tighter)) :
    ((Inner.within n).extension level).Obeys (Phrase n level) := by
  have hoperators {front : List Lexeme} {left : Expr} (hleft : Phrase n level front left) (t : Token)
      (rest : List Token) {reading : Reading Expr (rest.length + 1)}
      (hreading : ((level.op? t.lexeme).map fun op =>
        past (((Inner.within n).reader level.tighter).map (.binary op left) rest)) = some reading) :
      KeepsTo (fun ls => Phrase n level (front ++ ls)) (t :: rest) reading := by
    obtain ⟨op, hop, rfl⟩ := Option.map_eq_some_iff.mp hreading
    have hright : Obeys (fun ls => Phrase n level (front ++ t.lexeme :: ls))
        (((Inner.within n).reader level.tighter).map (.binary op left)) :=
      htighter.map fun ls right hright => .binary hop hleft hright
    exact (hright rest).past (ne_finish_of_op? hop) fun _ _ hphrase => hphrase
  cases level with
  | relational => exact obeys_nextRelation? h htighter
  | access => exact obeys_nextAccess? h
  | _ =>
    intro front left hleft ts reading hreading
    cases ts with
    | nil => cases hreading
    | cons t rest => exact hoperators hleft t rest hreading

/-! ## Levels -/

/-- Operands after signs are phrases. -/
theorem obeys_signed (h : ObeyInside n)
    (haccess : Obeys (Phrase n .access) (access (Inner.within n))) :
    Obeys (Phrase n .signed) (signed (Inner.within n)) := by
  intro ts
  unfold signed
  split
  next => exact (haccess _).mono fun _ _ hphrase => .looser hphrase
  next t rest =>
    split
    next => exact (haccess _).mono fun _ _ hphrase => .looser hphrase
    next s hsign =>
      have hoperand : Obeys (fun ls => Phrase n .signed (t.lexeme :: ls))
          ((Inner.within n).signed.map (.unary (.sign s))) :=
        h.signed.map fun ls e he => .sign he.1 hsign he.2
      exact (hoperand rest).past (by rintro h; rw [h] at hsign; cases hsign) fun _ _ hphrase => hphrase

/-- Tests after any number of `NOT` are phrases. -/
theorem obeys_negation (h : ObeyInside n)
    (hrelational : Obeys (Phrase n .relational) (relational (Inner.within n))) :
    Obeys (Phrase n .negation) (negation (Inner.within n)) := by
  intro ts
  unfold negation
  split
  next => exact (hrelational _).mono fun _ _ hphrase => .looser hphrase
  next step hstep =>
    exact keepsTo_past_keyword hstep _ fun w hnot =>
      (h.negation step.rest).map fun ls e he => .not he.1 hnot he.2

/-- Expressions with their branches are phrases. -/
theorem obeys_conditional (h : ObeyInside n)
    (halternatives : Obeys (Phrase n .alternatives) (alternatives (Inner.within n))) :
    Obeys (Phrase n .conditional) (conditional (Inner.within n)) := by
  refine halternatives.bindOptional fun front test htest ts => ?_
  unfold branches
  split
  next offset rest =>
    have hconsequent : Obeys (fun ls consequent => ∃ cs, ls = cs ++ [.symbol .colon] ∧
        n - 1 < n ∧ Phrase (n - 1) .conditional cs consequent)
        ((Inner.within n).expression.before .colon) :=
      h.expression.before fun cs _ hconsequent => ⟨cs, rfl, hconsequent⟩
    have hbranches : Obeys (fun ls => Phrase n .conditional (front ++ .symbol .question :: ls))
        (((Inner.within n).expression.before .colon).bind fun consequent =>
          (Inner.within n).expression.map (.conditional test consequent)) := by
      refine hconsequent.bind ?_
      rintro _ consequent ⟨cs, rfl, hlt, hconsequent⟩
      refine h.expression.map fun as alternate halternate => ?_
      rw [List.append_assoc]
      exact .conditional hlt htest hconsequent halternate.2
    exact ((hbranches rest).past (by simp) fun _ _ hphrase => hphrase).weaken _
  next => exact keepsTo_nothing (by rw [List.append_nil]; exact .looser htest)

/-- The reader of every level keeps to the rules of the level. -/
theorem obeys_reader (h : ObeyInside n) (level : Precedence) :
    Obeys (Phrase n level) ((Inner.within n).reader level) := by
  induction level using Precedence.induction_isLoop with
  | loop level hloop ih =>
    rw [reader_eq_extended hloop]
    have hoperand : Obeys (Phrase n level) ((Inner.within n).reader level.tighter) :=
      fun ts => (ih ts).mono fun _ _ => .looser
    exact hoperand.extended (obeys_extension h hloop ih)
  | conditional ih => exact obeys_conditional h ih
  | negation ih => exact obeys_negation h ih
  | signed ih => exact obeys_signed h ih
  | primary => exact obeys_primary h

/-- **Derivations.** With any number of nesting levels left, the readers keep to the rules of the
grammar. -/
theorem obeyInside (n : Nat) : ObeyInside n := by
  induction n with
  | zero => constructor <;> exact fun _ => nofun
  | succ n ih =>
    have hlt : n < n + 1 := Nat.lt_succ_self n
    have hreader (level : Precedence) : Obeys (fun ls e => n < n + 1 ∧ Phrase n level ls e)
        ((Inner.within n).reader level) := fun ts =>
      (obeys_reader ih level ts).mono fun _ _ hphrase => ⟨hlt, hphrase⟩
    exact ⟨hreader .conditional, hreader .negation, hreader .signed⟩

end Folio.Query
