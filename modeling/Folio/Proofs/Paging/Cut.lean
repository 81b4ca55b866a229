import Folio.Proofs.Paging.Boundary
import Folio.Proofs.Paging.Token
import Folio.Proofs.Sequence

/-!
# One request of a scan

A page is cut from the place where its request goes on. It ends the scan if no row is left behind
it. Otherwise the row behind it gets a checkpoint, which a token carries if it can carry the row's
place, so that the next request reads the same checkpoint again.
-/

namespace Folio

/-- Whether a token can carry the place of a row. -/
def Row.carried (identifier : Identifier) (clauses : List OrderClause) (row : Row) : Bool :=
  (identifier.read row.source).carried (tokenDepth - 1) &&
    Value.itemsCarried (tokenDepth - 2) (OrderClause.keys clauses row.source)

/-- A counter that has run over fits 64 bits. -/
theorem wrapCounter_lt (n : Nat) : wrapCounter n < UInt64.size := Nat.mod_lt n (by decide)

/-- A counter that fits 64 bits has not run over. -/
theorem wrapCounter_eq_self {n : Nat} (h : n < UInt64.size) : wrapCounter n = n :=
  Nat.mod_eq_of_lt h

/-- A list is cut in two before any of its members. -/
theorem eq_append_cons_of_getElem? {α : Type} {l : List α} {k : Nat} {a : α} (h : l[k]? = some a) :
    l = l.take k ++ a :: l.drop (k + 1) := by
  obtain ⟨hlt, rfl⟩ := List.getElem?_eq_some_iff.mp h
  rw [← List.drop_eq_getElem_cons hlt, List.take_append_drop]

namespace Paging

variable {paging : Paging} {rows front : List Row} {next : Row} {c : Checkpoint}

/-- The results of rows in a row are those of the first ones, then those of the others. -/
theorem results_append (front after : List Row) :
    results (front ++ after) = results front ++ results after :=
  List.filterMap_append

/-- A positive page size is the limit. -/
theorem limit?_of_pos {size : Int} (h : 1 ≤ size) : limit? (some size) = some size.toNat := by
  rw [limit?, if_pos (by omega)]

/-- A page behind which no row is left has no checkpoint. -/
theorem cut_of_le {start size : Nat} (hle : rows.length ≤ start + size)
    (previous : Option Checkpoint) :
    paging.cut rows start (some size) previous =
      .ok ⟨results ((rows.drop start).take size), none⟩ := by
  have hnone : rows.drop (start + size) = [] := List.drop_of_length_le hle
  have hall : (rows.drop start).take size = rows.drop start :=
    List.take_of_length_le (by rw [List.length_drop]; omega)
  simp only [cut, hnone, hall]

/-- A page behind which a row is left needs a checkpoint of that row. -/
theorem cut_of_getElem? {start size : Nat} (hnext : rows[start + size]? = some next)
    (previous : Option Checkpoint) :
    paging.cut rows start (some size) previous =
      (paging.checkpointAt (rows.take (start + size)) next size previous).map fun checkpoint =>
        ⟨results ((rows.drop start).take size), some checkpoint⟩ := by
  obtain ⟨hlt, rfl⟩ := List.getElem?_eq_some_iff.mp hnext
  simp only [cut, List.drop_eq_getElem_cons hlt]
  cases paging.checkpointAt (rows.take (start + size)) rows[start + size] size previous <;> rfl

/-- A checkpoint counts no more rows than there are before its row. -/
theorem Names.skip_le (h : paging.Names front next c) : c.skip ≤ front.length := by
  have hrun : (paging.run front next).length ≤ front.reverse.length :=
    (List.takeWhile_sublist _).length_le
  rw [List.length_reverse] at hrun
  rw [h.skip]
  exact hrun

/-- A token carries the checkpoint of a row whose place it can carry. -/
theorem Names.carried (h : paging.Names front next c)
    (hnext : next.carried paging.identifier paging.clauses = true)
    (hlength : front.length < UInt64.size) (hround : c.round < UInt64.size)
    (htotal : c.total < UInt64.size) : c.carried = true := by
  obtain ⟨hidentifier, hkeys⟩ := Bool.and_eq_true_iff.mp hnext
  have hresume : c.resume.all (Value.itemsCarried (tokenDepth - 2)) = true := by
    rw [h.resume]
    split
    · rfl
    · exact hkeys
  have hskip : c.skip < UInt64.size := Nat.lt_of_le_of_lt h.skip_le hlength
  simp [Checkpoint.carried, h.identifier, hidentifier, hresume, hround, hskip, htotal]

/-- A page behind which a row with an identifier is left has the checkpoint of that row, which a
token carries if it can carry the row's place. The checkpoint counts one page and its rows more
than the one before. -/
theorem cut_of_truthy {start size : Nat} (hnext : rows[start + size]? = some next)
    (htruthy : (paging.identifier.read next.source).isTruthy = true)
    (hcarried : next.carried paging.identifier paging.clauses = true)
    (hlength : rows.length < UInt64.size) (previous : Option Checkpoint) :
    ∃ c, paging.cut rows start (some size) previous =
        .ok ⟨results ((rows.drop start).take size), some c⟩ ∧
      paging.Names (rows.take (start + size)) next c ∧ c.carried = true ∧
      c.round = wrapCounter ((previous.map Checkpoint.round).getD 0 + 1) ∧
      c.total = wrapCounter ((previous.map Checkpoint.total).getD 0 + size) := by
  obtain ⟨c, hc, hnames, hround, htotal⟩ :=
    checkpointAt_of_truthy paging (rows.take (start + size)) size previous htruthy
  have hfront : (rows.take (start + size)).length < UInt64.size := by
    rw [List.length_take]
    omega
  have hcarriedBy : c.carried = true :=
    hnames.carried hcarried hfront (hround ▸ wrapCounter_lt _) (htotal ▸ wrapCounter_lt _)
  refine ⟨c, ?_, hnames, hcarriedBy, hround, htotal⟩
  rw [cut_of_getElem? hnext, hc]
  rfl

/-- The first request is answered from the first row on. -/
theorem paginate_none (rows : List Row) (size : Option Int) :
    paging.paginate rows size none = paging.cut rows 0 (limit? size) none := rfl

/-- A request with any token of a checkpoint is answered from where the checkpoint lies. -/
theorem paginate_of_ofToken {token : String} (htoken : Checkpoint.ofToken token = .ok c)
    (rows : List Row) (size : Option Int) :
    paging.paginate rows size (some token) =
      (paging.passOver c 0 rows).bind fun start => paging.cut rows start (limit? size) (some c) := by
  unfold paginate
  rw [Option.mapM_some, htoken]
  rfl

/-- A request with the token of a checkpoint that is carried is answered from where it lies. -/
theorem paginate_token (hcarried : c.carried = true) (rows : List Row) (size : Option Int) :
    paging.paginate rows size (some c.token) =
      (paging.passOver c 0 rows).bind fun start => paging.cut rows start (limit? size) (some c) :=
  paginate_of_ofToken (Checkpoint.ofToken_token hcarried) rows size

/-- A request is refused for a token that is none. -/
theorem paginate_of_ofToken_error {token : String} {fault : TokenFault}
    (htoken : Checkpoint.ofToken token = .error fault) (rows : List Row) (size : Option Int) :
    paging.paginate rows size (some token) = .error (.invalidToken fault) := by
  unfold paginate
  rw [Option.mapM_some, htoken]
  rfl

/-- A page that a request is answered with is cut from some place on. -/
theorem exists_cut_of_paginate {size : Option Int} {token : Option String} {page : Page}
    (h : paging.paginate rows size token = .ok page) :
    ∃ start previous, paging.cut rows start (limit? size) previous = .ok page := by
  obtain ⟨previous, -, h⟩ := bind_eq_ok_iff.mp h
  obtain ⟨start, -, h⟩ := bind_eq_ok_iff.mp h
  exact ⟨start, previous, h⟩

/-- A cut gives a page without a checkpoint, or one with the checkpoint of the row behind it, or it
fails because that row has no identifier. -/
theorem cut_cases (rows : List Row) (start : Nat) (limit : Option Nat)
    (previous : Option Checkpoint) :
    (∃ results, paging.cut rows start limit previous = .ok ⟨results, none⟩) ∨
    (∃ results k next c, paging.cut rows start limit previous = .ok ⟨results, some c⟩ ∧
      rows[k]? = some next ∧ paging.Names (rows.take k) next c ∧
      c.round < UInt64.size ∧ c.total < UInt64.size) ∨
    paging.cut rows start limit previous =
      .error (.identifierRequired paging.identifier.field .pageSize) := by
  cases limit with
  | none => exact .inl ⟨_, rfl⟩
  | some size =>
    cases hrow : rows[start + size]? with
    | none => exact .inl ⟨_, cut_of_le (List.getElem?_eq_none_iff.mp hrow) previous⟩
    | some next =>
      rw [cut_of_getElem? hrow]
      by_cases htruthy : (paging.identifier.read next.source).isTruthy = true
      · obtain ⟨c, hc, hnames, hround, htotal⟩ :=
          checkpointAt_of_truthy paging (rows.take (start + size)) size previous htruthy
        rw [hc]
        exact .inr (.inl ⟨_, _, next, c, rfl, hrow, hnames, hround ▸ wrapCounter_lt _,
          htotal ▸ wrapCounter_lt _⟩)
      · rw [checkpointAt_of_not_truthy _ _ _ (by simpa using htruthy)]
        exact .inr (.inr rfl)

/-- The checkpoint of a page names a row, and its counters have not run over. -/
theorem exists_names_of_cut {start : Nat} {limit : Option Nat} {previous : Option Checkpoint}
    {page : Page} (h : paging.cut rows start limit previous = .ok page)
    (hnext : page.next = some c) :
    ∃ k next, rows[k]? = some next ∧ paging.Names (rows.take k) next c ∧
      c.round < UInt64.size ∧ c.total < UInt64.size := by
  rcases cut_cases rows start limit previous with
    ⟨results, hcut⟩ | ⟨results, k, next, c', hcut, hrow, hnames⟩ | hcut
  · obtain rfl := Except.ok.inj (hcut.symm.trans h)
    cases hnext
  · obtain rfl := Except.ok.inj (hcut.symm.trans h)
    obtain rfl := Option.some.inj hnext
    exact ⟨k, next, hrow, hnames⟩
  · cases hcut.symm.trans h

/-- A page is cut without failure, or its next row has no identifier. -/
theorem cut_error {start : Nat} {limit : Option Nat} {previous : Option Checkpoint} {e : QueryError}
    (h : paging.cut rows start limit previous = .error e) :
    e = .identifierRequired paging.identifier.field .pageSize := by
  rcases cut_cases rows start limit previous with
    ⟨results, hcut⟩ | ⟨results, k, next, c, hcut, -⟩ | hcut
  · cases hcut.symm.trans h
  · cases hcut.symm.trans h
  · exact Except.error.inj (h.symm.trans hcut)

/-- **Requests that fail.** A request fails for a token that is none, or for want of an
identifier. -/
theorem paginate_error {size : Option Int} {token : Option String} {e : QueryError}
    (h : paging.paginate rows size token = .error e) :
    (∃ text fault, token = some text ∧ Checkpoint.ofToken text = .error fault ∧
      e = .invalidToken fault) ∨
    ∃ option, e = .identifierRequired paging.identifier.field option := by
  cases token with
  | none => exact Or.inr ⟨_, cut_error h⟩
  | some text =>
    cases hread : Checkpoint.ofToken text with
    | error fault =>
      rw [paginate_of_ofToken_error hread] at h
      exact Or.inl ⟨text, fault, rfl, hread, (Except.error.inj h).symm⟩
    | ok c =>
      rw [paginate_of_ofToken hread] at h
      cases hstart : paging.passOver c 0 rows with
      | error e' =>
        rw [hstart] at h
        obtain rfl := Except.error.inj h
        exact Or.inr ⟨_, (passOver_error hstart).1⟩
      | ok start =>
        rw [hstart] at h
        exact Or.inr ⟨_, cut_error h⟩

end Paging

end Folio
