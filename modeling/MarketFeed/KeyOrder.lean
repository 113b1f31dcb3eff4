/-!
# KeyOrder — ordering values by a key

Connections, origins and channels are keys of sorted maps, and their order is that of a
number or of a list of numbers (`rank`). A type whose values are ordered by a key has a
transitive order if the keys have, and equal order means equal values if no two values
share a key.
-/

namespace MarketFeed

variable {α β : Type} [Ord β]

/-- The comparison of two values by their keys. -/
abbrev compareBy (key : α → β) (a b : α) : Ordering := compare (key a) (key b)

/-- The order of keys carries over. -/
theorem transCmp_compareBy [Std.TransOrd β] (key : α → β) : Std.TransCmp (compareBy key) where
  eq_swap {a b} := @Std.OrientedCmp.eq_swap β compare _ (key a) (key b)
  isLE_trans {a b c} hab hbc := @Std.TransCmp.isLE_trans β compare _ (key a) (key b) (key c) hab hbc

/-- So does equality, if a key tells its value from all others. -/
theorem lawfulEqCmp_compareBy [Std.LawfulEqOrd β] (key : α → β) (inj : ∀ a b, key a = key b → a = b) :
    Std.LawfulEqCmp (compareBy key) where
  compare_self {a} := @Std.ReflCmp.compare_self β compare _ (key a)
  eq_of_compare {a b} h := inj a b (@Std.LawfulEqCmp.eq_of_compare β compare _ (key a) (key b) h)

end MarketFeed
