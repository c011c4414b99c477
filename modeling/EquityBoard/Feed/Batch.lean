import EquityBoard.Series.Point

/-!
# Batches of the series feed

A poll of the series answers with a list of points, or with an object that holds the list and may
declare model ids. Entries of the list that are no points are skipped and counted.
-/

namespace EquityBoard.Feed

/-- One answer of the series feed. -/
structure Batch where
  points : List Point
  declared : List String
  /-- How many entries were no points. -/
  skipped : Nat

/-- Why a document is no batch. -/
inductive BatchError where
  /-- An object without a list of points. -/
  | noList
  /-- Neither a list nor an object. -/
  | wrongShape
deriving DecidableEq, Repr

/-- The text that explains a batch error. -/
def BatchError.message : BatchError → String
  | .noList => "series response has no `series` array"
  | .wrongShape => "series response is neither an array nor an object"

namespace Batch

/-- The batch of a list of entries and of declared ids. -/
def ofEntries (entries : List Json) (declared : List Json) : Batch where
  points := entries.filterMap Point.ofJson?
  declared := declared.filterMap Json.string?
  skipped := entries.countP fun e => (Point.ofJson? e).isNone

/-- The batch of a document. The second name of a field counts only where the first is missing. -/
def ofJson (j : Json) : Except BatchError Batch :=
  match j with
  | .array entries => .ok (ofEntries entries [])
  | j =>
    match j.object? with
    | none => .error .wrongShape
    | some fields =>
      match ((fields.get? "series").or (fields.get? "points")).bind Json.array? with
      | none => .error .noList
      | some entries =>
        let ids := ((fields.get? "modelIds").or (fields.get? "model_ids")).bind Json.array?
        .ok (ofEntries entries (ids.getD []))

end Batch

end EquityBoard.Feed
