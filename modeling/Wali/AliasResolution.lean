import Mathlib.Data.List.Nodup
import Mathlib.Data.List.Perm.Subperm
import Mathlib.Logic.Function.Iterate

/-!
Following aliases until a terminal name. `Resolves` is the relational meaning of
a chain of lookups, `whileLoop` the loop that follows it, and the bound of
`whileLoop_bounded` makes termination of such a loop decidable.
-/

namespace Wali.AliasResolution

variable {α β : Type*}

/-- `v` resolves to `w`: following `lookup` from `v`, the first name met that
satisfies `stop` is `w`. -/
inductive Resolves (stop : α → Prop) (lookup : α → Option α) : α → α → Prop
  | done {v : α} (hstop : stop v) : Resolves stop lookup v v
  | follow {v u w : α} (hgo : ¬ stop v) (hstep : lookup v = some u)
      (hrest : Resolves stop lookup u w) : Resolves stop lookup v w

namespace Resolves

variable {stop : α → Prop} {lookup : α → Option α} {u v w : α}

theorem stops (h : Resolves stop lookup v w) : stop w := by
  induction h with
  | done hstop => exact hstop
  | follow _ _ _ ih => exact ih

theorem iff_of_step (hgo : ¬ stop v) (hstep : lookup v = some u) :
    Resolves stop lookup v w ↔ Resolves stop lookup u w := by
  constructor
  · intro h
    cases h with
    | done hstop => exact absurd hstop hgo
    | follow _ hstep' hrest =>
        rw [hstep] at hstep'
        cases hstep'
        exact hrest
  · exact follow hgo hstep

theorem not_of_dead_end (hgo : ¬ stop v) (hnone : lookup v = none) :
    ¬ Resolves stop lookup v w := by
  intro h
  cases h with
  | done hstop => exact hgo hstop
  | follow _ hstep _ => simp [hnone] at hstep

/-- Simulation: an encoding that carries terminal names to terminal names and
each alias step to an alias step carries a whole chain along. -/
theorem map {stop' : β → Prop} {lookup' : β → Option β} (inv : α → Prop)
    (encode : α → β)
    (hstop : ∀ v, inv v → stop v → stop' (encode v))
    (hstep : ∀ v u, inv v → ¬ stop v → lookup v = some u → Resolves stop lookup u w →
      inv u ∧ ¬ stop' (encode v) ∧ lookup' (encode v) = some (encode u))
    (hinv : inv v) (h : Resolves stop lookup v w) :
    Resolves stop' lookup' (encode v) (encode w) := by
  induction h with
  | done hv => exact done (hstop _ hinv hv)
  | follow hgo hlookup hrest ih =>
      obtain ⟨hinv', hgo', hlookup'⟩ := hstep _ _ hinv hgo hlookup hrest
      exact follow hgo' hlookup' (ih hstep hinv')

end Resolves

section Iteration

variable {stop : α → Prop} {next : α → α} {v w : α}

theorem exists_iterate_of_resolves
    (h : Resolves stop (fun u => some (next u)) v w) :
    ∃ k, next^[k] v = w ∧ stop w ∧ ∀ j < k, ¬ stop (next^[j] v) := by
  induction h with
  | done hv => exact ⟨0, rfl, hv, by simp⟩
  | follow hgo hstep _ ih =>
      obtain ⟨k, hk, hw, hbefore⟩ := ih
      cases hstep
      refine ⟨k + 1, hk, hw, fun j hj => ?_⟩
      cases j with
      | zero => exact hgo
      | succ j => exact hbefore j (by omega)

/-- Names visited before the exit are pairwise distinct: a repetition would
repeat the rest of the run and the exit would come earlier. -/
theorem iterate_injOn {k : Nat} (hgo : ∀ j < k, ¬ stop (next^[j] v))
    (hstop : stop (next^[k] v)) {i j : Nat} (hij : i < j) (hjk : j ≤ k) :
    next^[i] v ≠ next^[j] v := by
  intro heq
  have hexit : next^[k - j + i] v = next^[k] v := by
    calc
      next^[k - j + i] v = next^[k - j] (next^[i] v) := Function.iterate_add_apply ..
      _ = next^[k - j] (next^[j] v) := by rw [heq]
      _ = next^[k - j + j] v := (Function.iterate_add_apply ..).symm
      _ = next^[k] v := by rw [Nat.sub_add_cancel hjk]
  exact hgo (k - j + i) (by omega) (hexit ▸ hstop)

end Iteration

section Loop

variable (stop : α → Prop) [DecidablePred stop] (next : α → α)

/-- `while not stop(v): v = next(v)`, cut off after `fuel` rounds. -/
def whileLoop : Nat → α → Option α
  | 0, v => if stop v then some v else none
  | fuel + 1, v => if stop v then some v else whileLoop fuel (next v)

variable {stop next} {fuel : Nat} {v w : α}

theorem whileLoop_of_stop (h : stop v) : whileLoop stop next fuel v = some v := by
  cases fuel <;> simp [whileLoop, h]

theorem whileLoop_succ_of_not_stop (h : ¬ stop v) :
    whileLoop stop next (fuel + 1) v = whileLoop stop next fuel (next v) := by
  simp [whileLoop, h]

theorem resolves_of_whileLoop (h : whileLoop stop next fuel v = some w) :
    Resolves stop (fun u => some (next u)) v w := by
  induction fuel generalizing v with
  | zero =>
      simp only [whileLoop, Option.ite_none_right_eq_some, Option.some.injEq] at h
      obtain ⟨hv, rfl⟩ := h
      exact .done hv
  | succ fuel ih =>
      by_cases hv : stop v
      · rw [whileLoop_of_stop hv] at h
        cases h
        exact .done hv
      · rw [whileLoop_succ_of_not_stop hv] at h
        exact .follow hv rfl (ih h)

/-- The loop leaves with the first terminal name of the chain, and it leaves
exactly when there is one. -/
theorem exists_whileLoop_iff :
    (∃ fuel, whileLoop stop next fuel v = some w) ↔
      Resolves stop (fun u => some (next u)) v w := by
  constructor
  · rintro ⟨fuel, h⟩
    exact resolves_of_whileLoop h
  · intro h
    induction h with
    | done hv => exact ⟨0, whileLoop_of_stop hv⟩
    | follow hgo hstep _ ih =>
        obtain ⟨fuel, hfuel⟩ := ih
        cases hstep
        exact ⟨fuel + 1, by rw [whileLoop_succ_of_not_stop hgo, hfuel]⟩

theorem whileLoop_iterate {k : Nat} (hgo : ∀ j < k, ¬ stop (next^[j] v))
    (hstop : stop (next^[k] v)) (hfuel : k ≤ fuel) :
    whileLoop stop next fuel v = some (next^[k] v) := by
  induction k generalizing v fuel with
  | zero => exact whileLoop_of_stop hstop
  | succ k ih =>
      obtain ⟨fuel, rfl⟩ : ∃ m, fuel = m + 1 := ⟨fuel - 1, by omega⟩
      have hgoHere : ¬ stop v := hgo 0 (Nat.succ_pos k)
      rw [whileLoop_succ_of_not_stop hgoHere]
      exact ih (fun j hj => hgo (j + 1) (by omega)) hstop (by omega)

/-- When `next` only takes values in `values`, as many rounds as `values` has
entries decide whether the loop ever ends. -/
theorem whileLoop_bounded (values : List α) (hvalues : ∀ u, next u ∈ values) :
    whileLoop stop next values.length v = some w ↔
      Resolves stop (fun u => some (next u)) v w := by
  refine ⟨resolves_of_whileLoop, fun h => ?_⟩
  obtain ⟨k, rfl, hstop, hgo⟩ := exists_iterate_of_resolves h
  refine whileLoop_iterate hgo hstop ?_
  let visited := (List.range k).map fun i => next^[i + 1] v
  have hnodup : visited.Nodup := by
    refine List.Nodup.map_on ?_ List.nodup_range
    intro i hi j hj heq
    simp only [List.mem_range] at hi hj
    rcases Nat.lt_trichotomy i j with hij | hij | hij
    · exact absurd heq (iterate_injOn hgo hstop (by omega) (by omega))
    · exact hij
    · exact absurd heq.symm (iterate_injOn hgo hstop (by omega) (by omega))
  have hsubset : visited ⊆ values := by
    intro u hu
    obtain ⟨i, _, rfl⟩ := List.mem_map.mp hu
    rw [Function.iterate_succ_apply']
    exact hvalues _
  have hlen := (List.subperm_of_subset hnodup hsubset).length_le
  simpa [visited] using hlen

end Loop

end Wali.AliasResolution
