import Folio.Paging.Page
import Folio.Proofs.Rows.Order
import Mathlib.Data.List.TakeWhile

/-!
# Where a scan is taken up again

A checkpoint names a place in the order of rows. Passing over sorted rows stops behind the rows
before that place and behind as many of the rows that repeat it as the checkpoint counts. The only
way to fail is a row without an identifier.
-/

namespace Folio

/-- Where a property never comes back once it is lost, its first run holds all that have it. -/
theorem takeWhile_eq_filter_of_pairwise {α : Type} {p : α → Bool} {l : List α}
    (h : l.Pairwise fun a b => p b = true → p a = true) : l.takeWhile p = l.filter p := by
  induction l with
  | nil => rfl
  | cons a l ih =>
    obtain ⟨ha, hl⟩ := List.pairwise_cons.mp h
    by_cases hp : p a = true
    · rw [List.takeWhile_cons_of_pos hp, List.filter_cons_of_pos hp, ih hl]
    · rw [List.takeWhile_cons_of_neg hp, List.filter_cons_of_neg hp, eq_comm,
        List.filter_eq_nil_iff]
      exact fun b hb hpb => hp (ha b hb hpb)

/-- Where a property never comes back once it is lost, what follows its first run lacks it. -/
theorem dropWhile_eq_filter_of_pairwise {α : Type} {p : α → Bool} {l : List α}
    (h : l.Pairwise fun a b => p b = true → p a = true) :
    l.dropWhile p = l.filter fun a => !p a := by
  induction l with
  | nil => rfl
  | cons a l ih =>
    obtain ⟨ha, hl⟩ := List.pairwise_cons.mp h
    by_cases hp : p a = true
    · rw [List.dropWhile_cons_of_pos hp, List.filter_cons_of_neg (by simp [hp]), ih hl]
    · rw [List.dropWhile_cons_of_neg hp, eq_comm, List.filter_eq_self]
      intro b hb
      rcases List.mem_cons.mp hb with rfl | hb
      · simpa using hp
      · simpa using fun hpb => hp (ha b hb hpb)

/-- The place in the order of rows that a checkpoint names. -/
def Checkpoint.mark (c : Checkpoint) : Mark := ⟨c.resume.getD [], c.identifier⟩

/-- A checkpoint fits an order if it holds sort keys, or if the order has none. -/
def Checkpoint.Fits (clauses : List OrderClause) (c : Checkpoint) : Prop :=
  clauses = [] ∨ c.resume.isSome

namespace Paging

/-- The order of a row and a checkpoint. -/
def place (paging : Paging) (c : Checkpoint) (row : Row) : Ordering :=
  Mark.compare paging.clauses (row.mark paging.identifier paging.clauses) c.mark

/-- Whether a row lies before a checkpoint. -/
def precedes (paging : Paging) (c : Checkpoint) (row : Row) : Bool := paging.place c row == .lt

/-- Whether a row lies at the place of a checkpoint and has its identifier. -/
def repeats (paging : Paging) (c : Checkpoint) (row : Row) : Bool :=
  paging.place c row == .eq && (paging.identifier.read row.source).deepEqual c.identifier

/-- The rows before a checkpoint at the front of a list. -/
def before (paging : Paging) (c : Checkpoint) (rows : List Row) : List Row :=
  rows.takeWhile (paging.precedes c)

/-- The rows that repeat a checkpoint, directly after those before it. -/
def repeated (paging : Paging) (c : Checkpoint) (rows : List Row) : List Row :=
  (rows.dropWhile (paging.precedes c)).takeWhile (paging.repeats c)

/-- The standing of a row that has an identifier. -/
def standsAt (paging : Paging) (c : Checkpoint) (row : Row) : Standing :=
  if paging.precedes c row then .behind
  else if c.skip ≠ 0 ∧ paging.repeats c row then .tied
  else .ahead

variable {paging : Paging} {c : Checkpoint}

/-- A row is compared with a checkpoint by the sort keys, then by the identifiers. -/
theorem place_eq_then (hfits : c.Fits paging.clauses) (row : Row) :
    paging.place c row = (paging.compareResume c row).then
      ((paging.identifier.read row.source).totalCompare c.identifier) := by
  unfold place Mark.compare compareResume Row.mark Checkpoint.mark
  cases hresume : c.resume with
  | some stored =>
    simp only [Option.getD_some]
    rw [OrderClause.compareKeys_append_replicate _ _ _ (Nat.le_refl _)]
  | none =>
    have hnone : paging.clauses = [] := hfits.resolve_right (by simp [hresume])
    simp [hnone, OrderClause.comparePadded]

/-- A row has the standing of its place, unless it lacks an identifier. -/
theorem standing_eq_ok_or_error (hfits : c.Fits paging.clauses) (row : Row) :
    paging.standing c row = .ok (paging.standsAt c row) ∨
      paging.standing c row = .error (.identifierRequired paging.identifier.field .continuation) ∧
        (paging.identifier.read row.source).isTruthy = false := by
  have hplace := place_eq_then hfits row
  unfold standing standsAt precedes repeats
  cases hkeys : paging.compareResume c row with
  | lt => simp [hplace, hkeys]
  | gt => simp [hplace, hkeys]
  | eq =>
    rw [hkeys, Ordering.eq_then] at hplace
    rw [hplace]
    unfold identify
    by_cases htruthy : (paging.identifier.read row.source).isTruthy = true
    · left
      simp only [htruthy, if_true, bind, Except.bind]
      by_cases hequal : (paging.identifier.read row.source).deepEqual c.identifier = true
      · simp [Value.totalCompare_eq_of_deepEqual hequal, hequal]
        split <;> rfl
      · cases (paging.identifier.read row.source).totalCompare c.identifier <;> simp [hequal] <;> rfl
    · right
      simp [htruthy, bind, Except.bind]

/-- A row behind the checkpoint is passed over. -/
theorem passOver_of_behind {row : Row} (h : paging.standing c row = .ok .behind) (seen : Nat)
    (rest : List Row) :
    paging.passOver c seen (row :: rest) = (paging.passOver c seen rest).map (1 + ·) := by
  rw [passOver, h]
  cases paging.passOver c seen rest <;> rfl

/-- A row that repeats the checkpoint is passed over as long as such rows are counted. -/
theorem passOver_of_tied {row : Row} (h : paging.standing c row = .ok .tied) (seen : Nat)
    (rest : List Row) :
    paging.passOver c seen (row :: rest) =
      if seen = c.skip then .ok 0 else (paging.passOver c (seen + 1) rest).map (1 + ·) := by
  rw [passOver, h]
  simp only [bind, Except.bind]
  split
  · rfl
  · cases paging.passOver c (seen + 1) rest <;> rfl

/-- A row ahead of the checkpoint is not passed over. -/
theorem passOver_of_ahead {row : Row} (h : paging.standing c row = .ok .ahead) (seen : Nat)
    (rest : List Row) : paging.passOver c seen (row :: rest) = .ok 0 := by
  rw [passOver, h]
  rfl

/-- Only a row without an identifier has no standing. -/
theorem standing_error {row : Row} {e : QueryError} (h : paging.standing c row = .error e) :
    e = .identifierRequired paging.identifier.field .continuation ∧
      (paging.identifier.read row.source).isTruthy = false := by
  unfold standing identify at h
  cases hkeys : paging.compareResume c row with
  | lt => simp [hkeys] at h
  | gt => simp [hkeys] at h
  | eq =>
    rw [hkeys] at h
    by_cases htruthy : (paging.identifier.read row.source).isTruthy = true
    · simp only [htruthy, if_true, bind, Except.bind] at h
      split at h
      · cases h
      · split at h <;> cases h
    · simp only [htruthy] at h
      exact ⟨(Except.error.inj h).symm, by simpa using htruthy⟩

/-- Passing over rows fails only for want of an identifier. -/
theorem passOver_error {rows : List Row} {seen : Nat} {e : QueryError}
    (h : paging.passOver c seen rows = .error e) :
    e = .identifierRequired paging.identifier.field .continuation ∧
      ∃ row ∈ rows, (paging.identifier.read row.source).isTruthy = false := by
  induction rows generalizing seen with
  | nil => simp [passOver] at h
  | cons row rest ih =>
    have hlater {seen : Nat} (hmap : (paging.passOver c seen rest).map (1 + ·) = .error e) :
        e = .identifierRequired paging.identifier.field .continuation ∧
          ∃ r ∈ row :: rest, (paging.identifier.read r.source).isTruthy = false := by
      cases hrest : paging.passOver c seen rest with
      | ok n => simp [hrest, Except.map] at hmap
      | error e' =>
        rw [hrest] at hmap
        obtain rfl := Except.error.inj hmap
        obtain ⟨he, r, hr, hfalse⟩ := ih hrest
        exact ⟨he, r, List.mem_cons_of_mem row hr, hfalse⟩
    cases hstanding : paging.standing c row with
    | error e' =>
      rw [passOver, hstanding] at h
      obtain rfl := Except.error.inj h
      obtain ⟨he, hfalse⟩ := standing_error hstanding
      exact ⟨he, row, List.mem_cons_self, hfalse⟩
    | ok stands =>
      cases stands with
      | behind =>
        rw [passOver_of_behind hstanding] at h
        exact hlater h
      | tied =>
        rw [passOver_of_tied hstanding] at h
        split at h
        · cases h
        · exact hlater h
      | ahead =>
        rw [passOver_of_ahead hstanding] at h
        cases h

/-- Later rows do not lie before a checkpoint that an earlier row has reached. -/
theorem precedes_eq_false_of_sorted {row later : Row}
    (hsorted : (row.compare paging.identifier paging.clauses later).isLE)
    (h : paging.precedes c row = false) : paging.precedes c later = false := by
  rw [Row.compare_eq_mark] at hsorted
  simp only [precedes, place, beq_eq_false_iff_ne, ne_eq] at h ⊢
  intro hlater
  exact h (Std.TransCmp.lt_of_isLE_of_lt hsorted hlater)

/-- A row before the checkpoint is one more of those before it. -/
theorem before_cons_of_precedes {row : Row} (h : paging.precedes c row = true) (rest : List Row) :
    paging.before c (row :: rest) = row :: paging.before c rest :=
  List.takeWhile_cons_of_pos h

/-- A row before the checkpoint does not repeat it. -/
theorem repeated_cons_of_precedes {row : Row} (h : paging.precedes c row = true)
    (rest : List Row) : paging.repeated c (row :: rest) = paging.repeated c rest := by
  rw [repeated, List.dropWhile_cons_of_pos h, ← repeated]

/-- Among rows that have reached the checkpoint, none lies before it, and those that repeat it
stand at the front. -/
theorem before_and_repeated_of_reached {rows : List Row}
    (h : ∀ row ∈ rows, paging.precedes c row = false) :
    paging.before c rows = [] ∧ paging.repeated c rows = rows.takeWhile (paging.repeats c) := by
  cases rows with
  | nil => exact ⟨rfl, rfl⟩
  | cons row rest =>
    have hrow := h row List.mem_cons_self
    refine ⟨List.takeWhile_cons_of_neg (by simp [hrow]), ?_⟩
    rw [repeated, List.dropWhile_cons_of_neg (by simp [hrow])]

/-- **The place where a scan is taken up again.** If passing over sorted rows succeeds, it passes
over the rows before the checkpoint and as many repetitions of it as are left to count. -/
theorem eq_of_passOver_ok (hfits : c.Fits paging.clauses) {rows : List Row}
    (hsorted : Row.Sorted paging.identifier paging.clauses rows) {seen n : Nat}
    (hseen : seen ≤ c.skip) (h : paging.passOver c seen rows = .ok n) :
    n = (paging.before c rows).length + min (c.skip - seen) (paging.repeated c rows).length := by
  induction rows generalizing seen n with
  | nil =>
    rw [passOver] at h
    simp [before, repeated, ← Except.ok.inj h]
  | cons row rest ih =>
    obtain ⟨hrow, hrest⟩ := List.pairwise_cons.mp hsorted
    have hlater {seen n : Nat} (hseen : seen ≤ c.skip)
        (hmap : (paging.passOver c seen rest).map (1 + ·) = .ok n) :
        n = 1 + ((paging.before c rest).length +
          min (c.skip - seen) (paging.repeated c rest).length) := by
      cases hok : paging.passOver c seen rest with
      | error e => simp [hok, Except.map] at hmap
      | ok m =>
        rw [hok] at hmap
        rw [← ih hrest hseen hok]
        exact (Except.ok.inj hmap).symm
    rcases standing_eq_ok_or_error hfits row with hstands | ⟨hfails, _⟩
    · unfold standsAt at hstands
      by_cases hprecedes : paging.precedes c row = true
      · rw [if_pos hprecedes] at hstands
        rw [passOver_of_behind hstands] at h
        have hcount := hlater hseen h
        rw [before_cons_of_precedes hprecedes, repeated_cons_of_precedes hprecedes,
          List.length_cons]
        omega
      · -- no row from here on lies before the checkpoint
        have hnone : paging.precedes c row = false := by simpa using hprecedes
        have hrestReached : ∀ later ∈ rest, paging.precedes c later = false :=
          fun later hmem => precedes_eq_false_of_sorted (hrow later hmem) hnone
        obtain ⟨hbefore, hrepeated⟩ := before_and_repeated_of_reached
          (List.forall_mem_cons.mpr ⟨hnone, hrestReached⟩)
        obtain ⟨hbeforeRest, hrepeatedRest⟩ := before_and_repeated_of_reached hrestReached
        rw [hbefore, hrepeated, List.length_nil]
        rw [if_neg hprecedes] at hstands
        split at hstands
        · next htied =>
          rw [List.takeWhile_cons_of_pos htied.2, List.length_cons]
          rw [passOver_of_tied hstands] at h
          split at h
          · next hall =>
            have hzero : 0 = n := Except.ok.inj h
            omega
          · have hcount := hlater (by omega) h
            rw [hbeforeRest, hrepeatedRest, List.length_nil] at hcount
            omega
        · next hahead =>
          rw [passOver_of_ahead hstands] at h
          have hzero : 0 = n := Except.ok.inj h
          by_cases hskip : c.skip = 0
          · omega
          · have hdiffers : ¬paging.repeats c row = true :=
              fun hrepeats => hahead ⟨hskip, hrepeats⟩
            rw [List.takeWhile_cons_of_neg hdiffers, List.length_nil]
            omega
    · rw [passOver, hfails] at h
      cases h

/-- In sorted rows, a row that comes earlier lies before a checkpoint if a later one does. -/
theorem pairwise_precedes (c : Checkpoint) {rows : List Row}
    (hsorted : Row.Sorted paging.identifier paging.clauses rows) :
    rows.Pairwise fun a b => paging.precedes c b = true → paging.precedes c a = true := by
  refine hsorted.imp fun hle hlater => ?_
  by_contra hrow
  rw [precedes_eq_false_of_sorted hle (by simpa using hrow)] at hlater
  cases hlater

/-- In sorted rows, all rows before a checkpoint stand at the front. -/
theorem before_eq_filter {rows : List Row}
    (hsorted : Row.Sorted paging.identifier paging.clauses rows) :
    paging.before c rows = rows.filter (paging.precedes c) :=
  takeWhile_eq_filter_of_pairwise (pairwise_precedes c hsorted)

/-- Where a row has the identifier of the checkpoint if its identifier ties with it, the row repeats
the checkpoint if it lies there. -/
theorem repeats_eq_of_deepEqual {row : Row}
    (hequal : (paging.identifier.read row.source).totalCompare c.identifier = .eq →
      (paging.identifier.read row.source).deepEqual c.identifier = true) :
    paging.repeats c row = (paging.place c row == .eq) := by
  unfold repeats
  cases hplace : paging.place c row with
  | lt => rfl
  | gt => rfl
  | eq =>
    have htie : (paging.identifier.read row.source).totalCompare c.identifier = .eq :=
      (Ordering.then_eq_eq.mp hplace).2
    simpa using hequal htie

/-- Where an identifier is no array or object, a row repeats the checkpoint if it lies there. -/
theorem repeats_eq (hplain : c.identifier.isComposite = false)
    (htruthy : c.identifier.isTruthy = true) (row : Row) :
    paging.repeats c row = (paging.place c row == .eq) :=
  repeats_eq_of_deepEqual (Value.deepEqual_of_totalCompare_eq hplain htruthy)

/-- Where a row's identifier is usable and no array or object, the row repeats the checkpoint if it
lies there. -/
theorem repeats_eq_of_row {row : Row}
    (hplain : (paging.identifier.read row.source).isComposite = false)
    (htruthy : (paging.identifier.read row.source).isTruthy = true) :
    paging.repeats c row = (paging.place c row == .eq) :=
  repeats_eq_of_deepEqual (Value.deepEqual_of_totalCompare_eq_left hplain htruthy)

/-- In sorted rows that repeat a checkpoint if they lie there, all repetitions of it follow the rows
before it. -/
theorem repeated_eq_filter {rows : List Row}
    (hsorted : Row.Sorted paging.identifier paging.clauses rows)
    (hrepeats : ∀ row ∈ rows, paging.repeats c row = (paging.place c row == .eq)) :
    paging.repeated c rows = rows.filter (paging.repeats c) := by
  unfold repeated
  rw [dropWhile_eq_filter_of_pairwise (pairwise_precedes c hsorted),
    takeWhile_eq_filter_of_pairwise, List.filter_filter]
  · congr 1
    funext row
    unfold precedes repeats
    cases paging.place c row <;> simp
  · refine List.pairwise_filter.mpr (hsorted.imp_of_mem fun {a b} hmemA hmemB hle ha hb hlater => ?_)
    rw [Row.compare_eq_mark] at hle
    rw [hrepeats a hmemA]
    rw [hrepeats b hmemB] at hlater
    simp only [beq_iff_eq, precedes] at ha hlater ⊢
    have hreached : (paging.place c a).isLE := Std.TransCmp.isLE_trans hle (by
      unfold place at hlater
      rw [hlater]
      rfl)
    cases hplace : paging.place c a <;> simp_all

/-- **The place where a scan is taken up again**, counted. -/
theorem eq_countP_of_passOver_ok (hfits : c.Fits paging.clauses) {rows : List Row}
    (hsorted : Row.Sorted paging.identifier paging.clauses rows)
    (hrepeats : ∀ row ∈ rows, paging.repeats c row = (paging.place c row == .eq)) {n : Nat}
    (h : paging.passOver c 0 rows = .ok n) :
    n = rows.countP (paging.precedes c) + min c.skip (rows.countP (paging.repeats c)) := by
  rw [eq_of_passOver_ok hfits hsorted (Nat.zero_le _) h, before_eq_filter hsorted,
    repeated_eq_filter hsorted hrepeats, List.countP_eq_length_filter,
    List.countP_eq_length_filter, Nat.sub_zero]

end Paging

end Folio
