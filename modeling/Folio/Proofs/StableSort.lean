import Mathlib.Data.List.Pairwise

/-!
# Stable sorts

Merging sorts by any order that is transitive and oriented, and keeps members that tie in their
places. A list in order is determined by the members that tie with each, so there is no other such
sort.
-/

namespace Folio

/-- Of two members one is not greater than the other. -/
theorem isLE_total {α : Type} (cmp : α → α → Ordering) [Std.OrientedCmp cmp] (a b : α) :
    ((cmp a b).isLE || (cmp b a).isLE) = true := by
  have hswap : cmp b a = (cmp a b).swap := Std.OrientedCmp.eq_swap
  rw [hswap]
  cases cmp a b <;> rfl

variable {α : Type} {cmp : α → α → Ordering} [Std.TransCmp cmp]

/-- Members that tie with one member tie with each other. -/
theorem isLE_of_ties {a b c : α} (ha : cmp c a = .eq) (hb : cmp c b = .eq) :
    (cmp a b).isLE = true := by
  have hac : cmp a c = .eq := Std.OrientedCmp.eq_comm.mp ha
  exact Std.TransCmp.isLE_trans (by rw [hac]; rfl) (by rw [hb]; rfl)

variable (cmp)

/-- Merge sort keeps tied members in their order. -/
theorem filter_ties_mergeSort (c : α) (l : List α) :
    (l.mergeSort fun a b => (cmp a b).isLE).filter (fun a => cmp c a == .eq) =
      l.filter fun a => cmp c a == .eq := by
  have htied : (l.filter fun a => cmp c a == .eq).Pairwise fun a b => (cmp a b).isLE = true :=
    List.pairwise_of_forall_mem_list fun a ha b hb =>
      isLE_of_ties (beq_iff_eq.mp (List.mem_filter.mp ha).2) (beq_iff_eq.mp (List.mem_filter.mp hb).2)
  have hsublist := (List.sublist_mergeSort (fun a b c => Std.TransCmp.isLE_trans) (isLE_total cmp)
    htied List.filter_sublist).filter fun a => cmp c a == .eq
  simp only [List.filter_filter, Bool.and_self] at hsublist
  refine (hsublist.eq_of_length ?_).symm
  exact ((List.mergeSort_perm l _).filter _).length_eq.symm

/-- Lists in order are one and the same if each member ties with the same members of both, in the
same order. -/
theorem eq_of_filter_ties_eq {l l' : List α} (h : l.Pairwise fun a b => (cmp a b).isLE = true)
    (h' : l'.Pairwise fun a b => (cmp a b).isLE = true)
    (hties : ∀ c, l.filter (fun a => cmp c a == .eq) = l'.filter fun a => cmp c a == .eq) :
    l = l' := by
  have hmem {l l' : List α}
      (hties : ∀ c, l.filter (fun a => cmp c a == .eq) = l'.filter fun a => cmp c a == .eq) {a : α}
      (ha : a ∈ l) : a ∈ l' := by
    have hself : a ∈ l.filter fun b => cmp a b == .eq :=
      List.mem_filter.mpr ⟨ha, beq_iff_eq.mpr Std.ReflCmp.compare_self⟩
    rw [hties] at hself
    exact (List.mem_filter.mp hself).1
  induction l generalizing l' with
  | nil =>
    cases l' with
    | nil => rfl
    | cons b others => cases hmem (fun c => (hties c).symm) List.mem_cons_self
  | cons a rest ih =>
    cases l' with
    | nil => cases hmem hties List.mem_cons_self
    | cons b others =>
      obtain ⟨hfirst, hrest⟩ := List.pairwise_cons.mp h
      obtain ⟨hfirst', hothers⟩ := List.pairwise_cons.mp h'
      have hself (c : α) : cmp c c = .eq := Std.ReflCmp.compare_self
      -- each first member is in the other list, so neither can come before the other
      have hab : (cmp a b).isLE = true := by
        rcases List.mem_cons.mp (hmem (fun c => (hties c).symm) List.mem_cons_self) with heq | hb
        · rw [heq, hself]
          rfl
        · exact hfirst b hb
      have hba : (cmp b a).isLE = true := by
        rcases List.mem_cons.mp (hmem hties List.mem_cons_self) with heq | ha
        · rw [heq, hself]
          rfl
        · exact hfirst' a ha
      have htie : cmp a b = .eq := Std.OrientedCmp.isLE_antisymm hab hba
      have hheads := hties a
      simp only [List.filter_cons, hself, htie, beq_self_eq_true, if_true] at hheads
      obtain ⟨rfl, -⟩ := List.cons.inj hheads
      refine congrArg (a :: ·) (ih hrest hothers fun c => ?_)
      have hboth := hties c
      simp only [List.filter_cons] at hboth
      split at hboth
      · exact (List.cons.inj hboth).2
      · exact hboth

end Folio
