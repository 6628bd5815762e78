import Mathlib.Data.List.Dedup
import Mathlib.Data.List.Sort
import Mathlib.Data.Set.Function

/-!
Lists that do not depend on the order in which a set is gone through: iteration
orders of a set, and sorting by a key.
-/

namespace Wali.CanonicalOrder

variable {α κ : Type*}

/-- The order in which a set is gone through that has received the members of a
list one after another. -/
structure SetOrder (α : Type*) [DecidableEq α] where
  iterate : List α → List α
  perm : ∀ added, (iterate added).Perm added.dedup

namespace SetOrder

variable [DecidableEq α] (order : SetOrder α)

theorem mem_iterate {added : List α} {x : α} : x ∈ order.iterate added ↔ x ∈ added := by
  rw [(order.perm added).mem_iff, List.mem_dedup]

theorem nodup_iterate (added : List α) : (order.iterate added).Nodup :=
  (order.perm added).nodup_iff.mpr (List.nodup_dedup added)

/-- The order of first insertion is one of them. -/
def insertion (α : Type*) [DecidableEq α] : SetOrder α where
  iterate added := added.reverse.dedup.reverse
  perm added :=
    (List.reverse_perm _).trans
      ((List.perm_ext_iff_of_nodup (List.nodup_dedup _) (List.nodup_dedup _)).mpr
        (by simp))

end SetOrder

variable [LinearOrder κ] (key : α → κ)

/-- `sorted(xs, key=key)` -/
def sortOn (xs : List α) : List α := xs.insertionSort fun x y => key x ≤ key y

variable {key}

theorem perm_sortOn (xs : List α) : (sortOn key xs).Perm xs := List.perm_insertionSort _ xs

theorem mem_sortOn {xs : List α} {x : α} : x ∈ sortOn key xs ↔ x ∈ xs :=
  (perm_sortOn xs).mem_iff

theorem pairwise_le_sortOn (xs : List α) :
    (sortOn key xs).Pairwise fun x y => key x ≤ key y := by
  have : Std.Total fun x y : α => key x ≤ key y := ⟨fun x y => le_total (key x) (key y)⟩
  have : IsTrans α fun x y : α => key x ≤ key y := ⟨fun _ _ _ => le_trans⟩
  exact List.pairwise_insertionSort _ xs

theorem pairwise_lt_sortOn {xs : List α} (hnodup : xs.Nodup)
    (hinj : Set.InjOn key {x | x ∈ xs}) :
    (sortOn key xs).Pairwise fun x y => key x < key y := by
  have hne : (sortOn key xs).Pairwise (· ≠ ·) := (perm_sortOn xs).nodup_iff.mpr hnodup
  refine ((pairwise_le_sortOn xs).and hne).imp_of_mem ?_
  intro x y hx hy hxy
  refine lt_of_le_of_ne hxy.1 fun heq => hxy.2 ?_
  exact hinj (mem_sortOn.mp hx) (mem_sortOn.mp hy) heq

/-- A list with strictly increasing keys is determined by its members. -/
theorem eq_of_pairwise_lt {xs ys : List α} (hxs : xs.Pairwise fun x y => key x < key y)
    (hys : ys.Pairwise fun x y => key x < key y) (hmem : ∀ x, x ∈ xs ↔ x ∈ ys) : xs = ys := by
  have : Std.Irrefl fun x y : α => key x < key y := ⟨fun x => lt_irrefl (key x)⟩
  have : Std.Antisymm fun x y : α => key x < key y :=
    ⟨fun _ _ hxy hyx => absurd hyx (lt_asymm hxy)⟩
  exact hxs.eq_of_mem_iff hys hmem

end Wali.CanonicalOrder
