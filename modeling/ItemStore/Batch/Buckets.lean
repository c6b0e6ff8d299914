/-
Splitting keys into buckets.
-/

namespace ItemStore

/-- Consecutive buckets of `size` members, the last with what is left; a size of zero counts
as one. -/
def buckets {α : Type} (size : Nat) : List α → List (List α)
  | [] => []
  | k :: ks => (k :: ks.take (size - 1)) :: buckets size (ks.drop (size - 1))
termination_by ks => ks.length
decreasing_by simp only [List.length_cons, List.length_drop]; omega

end ItemStore
