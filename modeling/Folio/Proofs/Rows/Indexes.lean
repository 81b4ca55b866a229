import Mathlib.Data.List.Forall2
import Folio.Proofs.Rows.Sort

/-!
# What an index says about an order

The fields of an index are written with a slash before each key, and a slash in a key stands there as
it is. So the written form of a path gives the pieces between slashes and not which of them are parts
of one key: an index serves every list of clauses with the same pieces and directions. It tells its
clauses apart from all others exactly if each has one key without a slash.
-/

namespace Folio.OrderClause

/-- The pieces between the slashes of the keys of a path. -/
def pieces (path : List String) : List (List Char) :=
  path.flatMap fun key => key.toList.splitOn '/'

/-- Two clauses have the same pieces and the same direction. -/
structure SamePieces (clause other : OrderClause) : Prop where
  path : pieces clause.path = pieces other.path
  direction : clause.direction = other.direction

/-- The clauses have at least one key each. -/
def Rooted (clauses : List OrderClause) : Prop := ∀ clause ∈ clauses, clause.path ≠ []

/-- No key of the clauses has a slash. -/
def SlashFree (clauses : List OrderClause) : Prop :=
  ∀ clause ∈ clauses, ∀ key ∈ clause.path, '/' ∉ key.toList

variable {path : List String} {clause other : OrderClause} {clauses others : List OrderClause}
  {index : List IndexField}

instance : Decidable (Rooted clauses) :=
  inferInstanceAs (Decidable (∀ clause ∈ clauses, clause.path ≠ []))

/-! ## Pieces of paths -/

/-- The pieces of a path are what slashes separate in its keys joined with slashes. -/
theorem splitOn_intercalate_keys (h : path ≠ []) :
    ("/".intercalate path).toList.splitOn '/' = pieces path := by
  rw [String.toList_intercalate]
  induction path with
  | nil => exact absurd rfl h
  | cons key rest ih =>
    cases rest with
    | nil => simp [pieces]
    | cons next rest =>
      have htail := ih (List.cons_ne_nil _ _)
      simp only [List.map_cons] at htail ⊢
      rw [List.intercalate_cons_cons, List.append_assoc]
      exact (List.splitOn_append_cons_self _ _).trans (congrArg _ htail)

/-- What slashes separate has no slash. -/
theorem slash_notMem_of_mem_splitOn {piece chars : List Char} (h : piece ∈ chars.splitOn '/') :
    '/' ∉ piece := by
  induction chars generalizing piece with
  | nil => simp_all
  | cons c rest ih =>
    obtain ⟨first, others, hrest⟩ := List.exists_cons_of_ne_nil (List.splitOn_ne_nil '/' rest)
    rw [List.splitOn_cons_eq_if_modifyHead] at h
    split at h
    · rcases List.mem_cons.mp h with rfl | h
      · exact List.not_mem_nil
      · exact ih h
    next hc =>
      rw [hrest, List.modifyHead_cons] at h
      rcases List.mem_cons.mp h with rfl | h
      · refine List.not_mem_cons_of_ne_of_not_mem (fun heq => hc ?_) (ih (hrest ▸ List.mem_cons_self))
        exact beq_iff_eq.mpr heq.symm
      · exact ih (hrest ▸ List.mem_cons_of_mem _ h)

/-- No piece has a slash. -/
theorem slash_notMem_of_mem_pieces {piece : List Char} (h : piece ∈ pieces path) :
    '/' ∉ piece := by
  obtain ⟨key, -, hpiece⟩ := List.mem_flatMap.mp h
  exact slash_notMem_of_mem_splitOn hpiece

/-- A path has at least as many pieces as keys. -/
theorem length_le_length_pieces (path : List String) : path.length ≤ (pieces path).length := by
  induction path with
  | nil => exact Nat.zero_le _
  | cons key rest ih =>
    have hkey := List.length_pos_iff.mpr (List.splitOn_ne_nil '/' key.toList)
    simp only [pieces, List.flatMap_cons, List.length_append, List.length_cons] at ih ⊢
    omega

/-- Keys without slashes are the pieces. -/
theorem pieces_eq_map (h : ∀ key ∈ path, '/' ∉ key.toList) :
    pieces path = path.map String.toList := by
  have hpieces : ∀ key ∈ path, key.toList.splitOn '/' = [key.toList] := fun key hkey =>
    List.splitOn_eq_singleton (h key hkey)
  rw [pieces, List.flatMap_congr hpieces, List.map_eq_flatMap]

/-- One key without a slash is the only path with its piece. -/
theorem eq_singleton_of_pieces {key : String} (h : path ≠ []) (hpieces : pieces path = [key.toList]) :
    path = [key] := by
  have hlength := length_le_length_pieces path
  rw [hpieces] at hlength
  match path with
  | [] => exact absurd rfl h
  | [only] =>
    have hjoined := congrArg (['/'].intercalate ·) hpieces
    simp only [pieces, List.flatMap_singleton, List.intercalate_splitOn,
      List.intercalate_singleton] at hjoined
    rw [String.toList_inj.mp hjoined]
  | _ :: _ :: _ => simp at hlength

/-! ## Fields of clauses -/

/-- Proper paths are written alike exactly if they have the same pieces. -/
theorem indexPath_eq_iff (h : clause.path ≠ []) (h' : other.path ≠ []) :
    clause.indexPath = other.indexPath ↔ pieces clause.path = pieces other.path := by
  have hjoined : clause.indexPath = other.indexPath ↔
      "/".intercalate clause.path = "/".intercalate other.path := String.append_right_inj _
  rw [hjoined, ← splitOn_intercalate_keys h, ← splitOn_intercalate_keys h']
  refine ⟨fun h => by rw [h], fun h => String.toList_inj.mp ?_⟩
  have hpieces := congrArg (['/'].intercalate ·) h
  simpa only [List.intercalate_splitOn] using hpieces

/-- One field serves two clauses exactly if they have the same pieces and direction. -/
theorem indexField_eq_iff (h : clause.path ≠ []) (h' : other.path ≠ []) :
    clause.indexField = other.indexField ↔ SamePieces clause other := by
  rw [indexField, indexField, IndexField.mk.injEq, indexPath_eq_iff h h']
  exact ⟨fun h => ⟨h.1, h.2⟩, fun h => ⟨h.path, h.direction⟩⟩

/-- Lists of clauses have the same fields exactly if their clauses have the same pieces and
directions in the same order. -/
theorem map_indexField_eq_iff (h : Rooted clauses) (h' : Rooted others) :
    clauses.map indexField = others.map indexField ↔ List.Forall₂ SamePieces clauses others := by
  induction clauses generalizing others with
  | nil => cases others <;> simp
  | cons clause clauses ih =>
    cases others with
    | nil => simp
    | cons other others =>
      obtain ⟨hclause, hclauses⟩ := List.forall_mem_cons.mp h
      obtain ⟨hother, hothers⟩ := List.forall_mem_cons.mp h'
      rw [List.map_cons, List.map_cons, List.cons.injEq, List.forall₂_cons,
        indexField_eq_iff hclause hother, ih hclauses hothers]

/-- An index by itself serves the clauses whose fields it has. -/
theorem servedBy_singleton_iff :
    servedBy clauses [index] = true ↔ index = clauses.map indexField := by
  simp [servedBy]

/-- Clauses without slashes are determined by their pieces and directions. -/
theorem eq_of_samePieces (h : SlashFree clauses) (h' : SlashFree others)
    (hsame : List.Forall₂ SamePieces clauses others) : clauses = others := by
  induction hsame with
  | nil => rfl
  | @cons clause other clauses others hsame _ ih =>
    obtain ⟨hclause, hclauses⟩ := List.forall_mem_cons.mp h
    obtain ⟨hother, hothers⟩ := List.forall_mem_cons.mp h'
    obtain ⟨path, direction⟩ := clause
    obtain ⟨path', direction'⟩ := other
    obtain ⟨hpath, hdirection⟩ := hsame
    rw [pieces_eq_map hclause, pieces_eq_map hother] at hpath
    have hkeys : path = path' :=
      List.map_injective_iff.mpr (fun _ _ => String.toList_inj.mp) hpath
    rw [ih hclauses hothers, hkeys]
    exact congrArg (OrderClause.mk path' · :: others) hdirection

/-! ## Clauses with the same fields -/

/-- The clause whose only key is all keys of the path, joined with slashes. -/
def joined (clause : OrderClause) : OrderClause :=
  ⟨["/".intercalate clause.path], clause.direction⟩

/-- The clause whose keys are the pieces of the path. -/
def spread (clause : OrderClause) : OrderClause :=
  ⟨(pieces clause.path).map String.ofList, clause.direction⟩

/-- Joining the keys of a path keeps its pieces. -/
theorem samePieces_joined (h : clause.path ≠ []) : SamePieces clause clause.joined := by
  refine ⟨?_, rfl⟩
  rw [joined, ← splitOn_intercalate_keys h, pieces, List.flatMap_singleton]

/-- The keys of a spread path have no slash. -/
theorem slash_notMem_of_mem_spread {key : String} (h : key ∈ clause.spread.path) :
    '/' ∉ key.toList := by
  obtain ⟨piece, hpiece, rfl⟩ := List.mem_map.mp h
  rw [String.toList_ofList]
  exact slash_notMem_of_mem_pieces hpiece

/-- Spreading the pieces of a path keeps them. -/
theorem samePieces_spread (clause : OrderClause) : SamePieces clause clause.spread := by
  refine ⟨?_, rfl⟩
  rw [pieces_eq_map fun key => slash_notMem_of_mem_spread, spread, List.map_map]
  exact (List.map_id'' (fun _ => String.toList_ofList) _).symm

/-- A clause has a key if one with the same pieces has. -/
theorem SamePieces.path_ne_nil (h : SamePieces clause other) (hpath : clause.path ≠ []) :
    other.path ≠ [] := by
  intro hnil
  have hpieces : pieces clause.path = [] := by
    rw [h.path, hnil]
    rfl
  have hlength := length_le_length_pieces clause.path
  rw [hpieces] at hlength
  exact hpath (List.length_eq_zero_iff.mp (Nat.le_zero.mp hlength))

/-- A change that keeps the pieces changes none of the clauses that an index serves alone. -/
theorem eq_of_unique {f : OrderClause → OrderClause} (hrooted : Rooted clauses)
    (hserved : servedBy clauses [index] = true)
    (hunique : ∀ others, Rooted others → servedBy others [index] = true → others = clauses)
    (hsame : ∀ clause ∈ clauses, SamePieces clause (f clause)) :
    ∀ clause ∈ clauses, f clause = clause := by
  have hpath : Rooted (clauses.map f) := List.forall_mem_map.mpr fun clause hclause =>
    (hsame clause hclause).path_ne_nil (hrooted clause hclause)
  have hall : List.Forall₂ SamePieces clauses (clauses.map f) :=
    List.forall₂_map_right_iff.mpr (List.forall₂_same.mpr hsame)
  have hmap : clauses.map f = clauses := by
    refine hunique _ hpath (servedBy_singleton_iff.mpr ?_)
    rw [servedBy_singleton_iff.mp hserved, map_indexField_eq_iff hrooted hpath]
    exact hall
  exact List.map_eq_map_iff.mp (hmap.trans (List.map_id clauses).symm)

/-- Clauses with one key each, without a slash, share their pieces with no others. -/
theorem eq_of_samePieces_singletons
    (hone : ∀ clause ∈ clauses, ∃ key, clause.path = [key] ∧ '/' ∉ key.toList)
    (hsame : List.Forall₂ SamePieces clauses others) : others = clauses := by
  induction hsame with
  | nil => rfl
  | @cons clause other clauses others hsame _ ih =>
    obtain ⟨⟨key, hkey, hslash⟩, hones⟩ := List.forall_mem_cons.mp hone
    have hpath : other.path = [key] := by
      refine eq_singleton_of_pieces (hsame.path_ne_nil (hkey ▸ List.cons_ne_nil _ _)) ?_
      rw [← hsame.path, hkey, pieces, List.flatMap_singleton, List.splitOn_eq_singleton hslash]
    have hother : other = clause :=
      OrderClause.mk.injEq .. ▸ ⟨hpath.trans hkey.symm, hsame.direction.symm⟩
    rw [hother, ih hones]

/-- **Composite indexes.** The written form of a path has its pieces, cut at every slash, and no
more. So an index that serves clauses serves just the lists with the same pieces and the same
directions in the same order. Of lists in which no key has a slash, the clauses are the only such
one. Of all lists, they are the only one exactly if each of them has a single key, without a slash. -/
theorem servedBy_index_spec (hrooted : Rooted clauses)
    (hserved : servedBy clauses [index] = true) :
    (∀ clause other : OrderClause, clause.path ≠ [] → other.path ≠ [] →
      (clause.indexPath = other.indexPath ↔ pieces clause.path = pieces other.path)) ∧
    (∀ others, Rooted others →
      (servedBy others [index] = true ↔ List.Forall₂ SamePieces clauses others)) ∧
    (SlashFree clauses → ∀ others, Rooted others → SlashFree others →
      servedBy others [index] = true → others = clauses) ∧
    ((∀ others, Rooted others → servedBy others [index] = true → others = clauses) ↔
      ∀ clause ∈ clauses, ∃ key, clause.path = [key] ∧ '/' ∉ key.toList) := by
  have hserves (others : List OrderClause) (h : Rooted others) :
      servedBy others [index] = true ↔ List.Forall₂ SamePieces clauses others := by
    rw [servedBy_singleton_iff, servedBy_singleton_iff.mp hserved, map_indexField_eq_iff hrooted h]
  refine ⟨fun clause other => indexPath_eq_iff, hserves, ?_, fun hunique clause hclause => ?_, ?_⟩
  · intro hslash others hothers hslash' hserved'
    exact (eq_of_samePieces hslash hslash' ((hserves others hothers).mp hserved')).symm
  · have hjoined : clause.joined = clause := eq_of_unique hrooted hserved hunique
      (fun clause h => samePieces_joined (hrooted clause h)) clause hclause
    have hspread : clause.spread = clause := eq_of_unique hrooted hserved hunique
      (fun clause _ => samePieces_spread clause) clause hclause
    have hpath : clause.path = ["/".intercalate clause.path] := (congrArg path hjoined).symm
    have hkey : "/".intercalate clause.path ∈ clause.spread.path := by
      rw [hspread]
      exact hpath ▸ List.mem_singleton_self _
    exact ⟨_, hpath, slash_notMem_of_mem_spread hkey⟩
  · intro hone others hothers hserved'
    exact eq_of_samePieces_singletons hone ((hserves others hothers).mp hserved')

/-- The index of an order by a key `a/b` serves an order by a key `b` below a key `a` as well. -/
theorem servedBy_index_spec_slash_in_key :
    let clauses : List OrderClause := [⟨["a/b"], .ascending⟩, ⟨["c"], .descending⟩]
    let others : List OrderClause := [⟨["a", "b"], .ascending⟩, ⟨["c"], .descending⟩]
    let index : List IndexField := [⟨"/a/b", .ascending⟩, ⟨"/c", .descending⟩]
    Rooted clauses ∧ servedBy clauses [index] = true ∧ servedBy others [index] = true ∧
      others ≠ clauses := by
  intro clauses others index
  have hrooted : Rooted clauses := by decide
  have hserved : servedBy clauses [index] = true := by decide
  refine ⟨hrooted, hserved, ?_, by decide⟩
  refine ((servedBy_index_spec hrooted hserved).2.1 others (by decide)).mpr ?_
  exact .cons ⟨by decide, rfl⟩ (.cons ⟨rfl, rfl⟩ .nil)

end Folio.OrderClause
