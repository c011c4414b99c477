import EquityBoard.Proofs.StableOrder
import EquityBoard.Series.Store

/-!
# The order of a batch

A batch is taken in ascending order of time. The order is stable, and `filter_inOrder` says what
that means for one time: its points come out exactly as they were delivered. There is only one such
arrangement (`inOrder_congr`), so how the points of different times were mixed does not matter.
-/

namespace EquityBoard.Store

/-- The merge order holds the points delivered, no more and no fewer. -/
theorem inOrder_perm (points : List Point) : (inOrder points).Perm points :=
  List.mergeSort_perm points _

theorem inOrder_ascending (points : List Point) :
    (inOrder points).Pairwise fun p q => p.timestamp ≤ q.timestamp :=
  pairwise_mergeSort_key Point.timestamp points

/-- The points of one time are taken in the order in which they were delivered. -/
theorem filter_inOrder (points : List Point) (t : Int) :
    (inOrder points).filter (fun p => p.timestamp = t)
      = points.filter (fun p => p.timestamp = t) :=
  filter_mergeSort_key Point.timestamp points t

/-- Batches with the same points in the same order at each time are merged in one order. -/
theorem inOrder_congr {points points' : List Point}
    (h : ∀ t, points.filter (fun p => p.timestamp = t) = points'.filter (fun p => p.timestamp = t)) :
    inOrder points = inOrder points' := by
  refine eq_of_filter_key_eq (inOrder_ascending points) (inOrder_ascending points') fun t => ?_
  rw [filter_inOrder, filter_inOrder, h]

/-- Batches that follow each other in time are put in order one by one. -/
theorem inOrder_append {first later : List Point}
    (h : ∀ p ∈ first, ∀ q ∈ later, p.timestamp ≤ q.timestamp) :
    inOrder (first ++ later) = inOrder first ++ inOrder later := by
  refine eq_of_filter_key_eq (inOrder_ascending _) ?_ fun t => ?_
  · refine List.pairwise_append.2 ⟨inOrder_ascending first, inOrder_ascending later, ?_⟩
    intro p hp q hq
    exact h p ((inOrder_perm first).mem_iff.1 hp) q ((inOrder_perm later).mem_iff.1 hq)
  · rw [List.filter_append, filter_inOrder, filter_inOrder, filter_inOrder, List.filter_append]

/-- Points may be left out before or after a batch is put in order. -/
theorem inOrder_filter (keep : Point → Bool) (points : List Point) :
    inOrder (points.filter keep) = (inOrder points).filter keep :=
  mergeSort_filter_key Point.timestamp keep points

end EquityBoard.Store
