/-!
# Stable order

Several lists are put in the order of a key: points by their times, cards by their time stamps,
newest first. The sort is stable, and `filter_mergeSort_key` says what that means for one key: its
items come out exactly as they went in. A list in the order of its keys is determined by its items
of each key (`eq_of_filter_key_eq`), so there is only one such arrangement, and it does not matter
whether items are left out before or after the sort (`mergeSort_filter_key`).
-/

namespace EquityBoard

variable {α : Type} (key : α → Int)

/-- The comparison of two items by their keys is transitive and total. -/
theorem key_le_trans (a b c : α) (hab : decide (key a ≤ key b) = true)
    (hbc : decide (key b ≤ key c) = true) : decide (key a ≤ key c) = true := by
  rw [decide_eq_true_eq] at *
  omega

theorem key_le_total (a b : α) :
    (decide (key a ≤ key b) || decide (key b ≤ key a)) = true := by
  rw [Bool.or_eq_true, decide_eq_true_eq, decide_eq_true_eq]
  omega

/-- Sorting puts the keys in ascending order. -/
theorem pairwise_mergeSort_key (l : List α) :
    (l.mergeSort fun a b => key a ≤ key b).Pairwise fun a b => key a ≤ key b := by
  have h := List.pairwise_mergeSort (key_le_trans key) (key_le_total key) l
  exact h.imp fun hab => of_decide_eq_true hab

/-- The items of one key come out in the order in which they went in. -/
theorem filter_mergeSort_key (l : List α) (k : Int) :
    (l.mergeSort fun a b => key a ≤ key b).filter (fun a => key a = k)
      = l.filter (fun a => key a = k) := by
  -- the items of one key are in order already, so the stable sort keeps their order
  have hsorted : (l.filter fun a => key a = k).Pairwise
      fun a b => decide (key a ≤ key b) = true := by
    refine List.pairwise_of_forall_mem_list fun a ha b hb => ?_
    rw [List.mem_filter, decide_eq_true_eq] at ha hb
    rw [decide_eq_true_eq]
    omega
  have hsub := List.sublist_mergeSort (key_le_trans key) (key_le_total key) hsorted
    List.filter_sublist
  have hfilter := hsub.filter (fun a => decide (key a = k))
  rw [List.filter_filter] at hfilter
  simp only [Bool.and_self] at hfilter
  have hperm := List.mergeSort_perm l fun a b => decide (key a ≤ key b)
  have hlength := (hperm.filter (fun a => decide (key a = k))).length_eq
  exact (hfilter.eq_of_length hlength.symm).symm

/-! ## The one arrangement -/

variable {key}

/-- Lists with the same elements of each key have the same elements. -/
theorem mem_of_filter_key_eq {l l' : List α}
    (h : ∀ k, l.filter (fun a => key a = k) = l'.filter (fun a => key a = k))
    {a : α} (ha : a ∈ l) : a ∈ l' := by
  have hmem : a ∈ l.filter fun b => key b = key a := List.mem_filter.2 ⟨ha, decide_eq_true rfl⟩
  rw [h] at hmem
  exact (List.mem_filter.1 hmem).1

/-- The first item of an ordered list has the least key. -/
theorem key_head_le {a b : α} {l : List α}
    (h : (a :: l).Pairwise fun a b => key a ≤ key b) (hb : b ∈ a :: l) : key a ≤ key b := by
  rcases List.mem_cons.1 hb with rfl | hb
  · exact Int.le_refl _
  · exact (List.pairwise_cons.1 h).1 b hb

/-- Ordered lists with the same items of every key are the same list. -/
theorem eq_of_filter_key_eq {l l' : List α} (h : l.Pairwise fun a b => key a ≤ key b)
    (h' : l'.Pairwise fun a b => key a ≤ key b)
    (hfilter : ∀ k, l.filter (fun a => key a = k) = l'.filter (fun a => key a = k)) :
    l = l' := by
  induction l generalizing l' with
  | nil =>
    refine (List.eq_nil_iff_forall_not_mem.2 fun b hb => ?_).symm
    cases mem_of_filter_key_eq (fun k => (hfilter k).symm) hb
  | cons a l ih =>
    cases l' with
    | nil => cases mem_of_filter_key_eq hfilter List.mem_cons_self
    | cons b l' =>
      have hba := key_head_le h' (mem_of_filter_key_eq hfilter List.mem_cons_self)
      have hab :=
        key_head_le h (mem_of_filter_key_eq (fun k => (hfilter k).symm) List.mem_cons_self)
      have hkey : key b = key a := Int.le_antisymm hba hab
      -- both lists start with the first item of the least key
      have hhead := hfilter (key a)
      simp only [List.filter_cons, hkey, decide_true, if_true, List.cons.injEq] at hhead
      obtain ⟨rfl, hrest⟩ := hhead
      refine congrArg (a :: ·) (ih (List.pairwise_cons.1 h).2 (List.pairwise_cons.1 h').2 ?_)
      intro k
      by_cases hk : key a = k
      · exact hk ▸ hrest
      · have hother := hfilter k
        simp only [List.filter_cons, hk, decide_false, Bool.false_eq_true, if_false] at hother
        exact hother

variable (key)

/-- Items may be left out before or after a list is put in order. -/
theorem mergeSort_filter_key (keep : α → Bool) (l : List α) :
    (l.filter keep).mergeSort (fun a b => key a ≤ key b)
      = (l.mergeSort fun a b => key a ≤ key b).filter keep := by
  refine eq_of_filter_key_eq (pairwise_mergeSort_key key _)
    ((pairwise_mergeSort_key key l).filter keep) fun k => ?_
  have hswap : ∀ l : List α, (l.filter keep).filter (fun a => key a = k) =
      (l.filter fun a => key a = k).filter keep := by
    intro l
    simp only [List.filter_filter, Bool.and_comm]
  rw [filter_mergeSort_key, hswap, hswap, filter_mergeSort_key]

end EquityBoard
