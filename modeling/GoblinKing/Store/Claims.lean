import GoblinKing.Store.Listing

/-!
# Claiming due jobs

`claimDueJobs` speaks of the rows of the table and of a limit that is a number of jobs. The
method of the store takes any integer for a limit, and returns the records of the rows it
leased. Here it is given in full, and what it takes and leaves is stated once: which rows are
returned, how many, which ones are left out, and the table afterwards.
-/

namespace GoblinKing

/-- The rows that a limit of the database leaves of a query: a negative limit is no limit. -/
def limited {α : Type} (limit : ℤ) (rows : List α) : List α :=
  if limit < 0 then rows else rows.take limit.toNat

instance : Std.Total JobRecord.ClaimedBefore where
  total a b := by
    grind [JobRecord.ClaimedBefore]

instance : IsTrans JobRecord JobRecord.ClaimedBefore where
  trans a b c := by
    grind [JobRecord.ClaimedBefore]

end GoblinKing
