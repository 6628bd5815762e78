import Wali.InsertionDict

/-!
Nested tables, looked up along key paths, and updates that change given paths
only.
-/

namespace Wali.NestedTables

open Wali.InsertionDict

inductive Nested (κ α : Type)
  | leaf (value : α)
  | table (entries : List (κ × Nested κ α))

variable {κ α : Type} [DecidableEq κ]

/-- What stands under the key `k` at a place that may be absent. -/
def child (place : Option (Nested κ α)) (k : κ) : Option (Nested κ α) :=
  match place with
  | some (.table entries) => find k entries
  | _ => none

def lookup (place : Option (Nested κ α)) : List κ → Option (Nested κ α)
  | [] => place
  | k :: path => lookup (child place k) path

@[simp] theorem child_table (entries : List (κ × Nested κ α)) (k : κ) :
    child (some (.table entries)) k = find k entries := rfl

@[simp] theorem child_none (k : κ) : child (none : Option (Nested κ α)) k = none := rfl

@[simp] theorem lookup_nil (place : Option (Nested κ α)) : lookup place [] = place := rfl

@[simp] theorem lookup_cons (place : Option (Nested κ α)) (k : κ) (path : List κ) :
    lookup place (k :: path) = lookup (child place k) path := rfl

/-- Paths with the values that they receive. -/
abbrev Assignments (κ α : Type) := List (List κ × Nested κ α)

/-- The assignments are made, and every path that lies neither above nor below an
assigned one leads to what it led to before. -/
structure ChangesOnly (A : Assignments κ α) (before after : Option (Nested κ α)) : Prop where
  assigned : ∀ path value, (path, value) ∈ A → lookup after path = some value
  frame : ∀ path, (∀ p ∈ A.map Prod.fst, ¬ path <+: p ∧ ¬ p <+: path) →
    lookup after path = lookup before path

/-- The assignments below the key `k`. -/
def below (k : κ) (A : Assignments κ α) : Assignments κ α :=
  A.filterMap fun (path, value) =>
    match path with
    | [] => none
    | k' :: rest => if k' = k then some (rest, value) else none

/-- The same assignments made below the key `k`. -/
def under (k : κ) (A : Assignments κ α) : Assignments κ α :=
  A.map fun (path, value) => (k :: path, value)

/-- The assignments of single keys. -/
def keyed (entries : List (κ × Nested κ α)) : Assignments κ α :=
  entries.map fun (k, value) => ([k], value)

theorem mem_below_iff {k : κ} {A : Assignments κ α} {path : List κ} {value : Nested κ α} :
    (path, value) ∈ below k A ↔ (k :: path, value) ∈ A := by
  rw [below, List.mem_filterMap]
  constructor
  · rintro ⟨⟨_ | ⟨k', rest⟩, v⟩, hmem, heq⟩
    · cases heq
    · dsimp only at heq
      split at heq
      · next hk =>
          cases heq
          exact hk ▸ hmem
      · cases heq
  · intro hmem
    exact ⟨(k :: path, value), hmem, by simp⟩

theorem below_append (k : κ) (A B : Assignments κ α) :
    below k (A ++ B) = below k A ++ below k B :=
  List.filterMap_append

theorem below_under (k k' : κ) (A : Assignments κ α) :
    below k (under k' A) = if k' = k then A else [] := by
  unfold below under
  rw [List.filterMap_map]
  by_cases hk : k' = k
  · rw [if_pos hk]
    have hsome : ∀ B : Assignments κ α, B.filterMap some = B := fun B => List.filterMap_some
    conv_rhs => rw [← hsome A]
    refine congrArg (fun f => List.filterMap f A) (funext fun entry => ?_)
    simp [hk]
  · rw [if_neg hk, List.filterMap_eq_nil_iff]
    intro entry _
    simp [hk]

theorem below_keyed (k : κ) {entries : List (κ × Nested κ α)}
    (h : (entries.map Prod.fst).Nodup) :
    below k (keyed entries) = ((find k entries).map fun value => ([], value)).toList := by
  induction entries with
  | nil => rfl
  | cons entry rest ih =>
      obtain ⟨k', value⟩ := entry
      simp only [List.map_cons, List.nodup_cons] at h
      have hrest := ih h.2
      unfold below keyed at hrest ⊢
      rw [List.map_cons, List.filterMap_cons]
      by_cases hk : k' = k
      · subst hk
        have hnone : find k' rest = none := by
          rw [← Option.not_isSome_iff_eq_none, find_isSome_iff]
          exact h.1
        rw [hnone] at hrest
        simp [find, hrest]
      · simp [find, hk, hrest]

section ChangesOnly

variable {A : Assignments κ α} {before after : Option (Nested κ α)}

theorem changesOnly_nil : ChangesOnly [] before after ↔ after = before := by
  constructor
  · intro h
    exact h.frame [] (by simp)
  · rintro rfl
    exact ⟨by simp, fun _ _ => rfl⟩

theorem changesOnly_root {value : Nested κ α} :
    ChangesOnly [([], value)] before after ↔ after = some value := by
  constructor
  · intro h
    exact h.assigned [] value (by simp)
  · rintro rfl
    refine ⟨fun path v hmem => ?_, fun path hpath => ?_⟩
    · cases List.mem_singleton.mp hmem
      rfl
    · exact absurd List.nil_prefix (hpath [] (by simp)).2

/-- An update is checked key by key. -/
theorem changesOnly_iff_below (hsome : A ≠ []) (hroot : ∀ p ∈ A.map Prod.fst, p ≠ []) :
    ChangesOnly A before after ↔
      ∀ k, ChangesOnly (below k A) (child before k) (child after k) := by
  constructor
  · intro h k
    refine ⟨fun path value hmem => ?_, fun path hpath => ?_⟩
    · exact h.assigned (k :: path) value (mem_below_iff.mp hmem)
    · refine h.frame (k :: path) fun p hp => ?_
      obtain ⟨⟨_ | ⟨k', rest⟩, value⟩, hmem, rfl⟩ := List.mem_map.mp hp
      · exact absurd rfl (hroot [] hp)
      · by_cases hk : k' = k
        · subst hk
          have hrest := hpath rest (List.mem_map_of_mem (mem_below_iff.mpr hmem))
          simpa [List.cons_prefix_cons] using hrest
        · have hk' : k ≠ k' := fun heq => hk heq.symm
          simp [List.cons_prefix_cons, hk, hk']
  · intro h
    refine ⟨fun path value hmem => ?_, fun path hpath => ?_⟩
    · cases path with
      | nil => exact absurd rfl (hroot [] (List.mem_map_of_mem hmem))
      | cons k rest => exact (h k).assigned rest value (mem_below_iff.mpr hmem)
    · cases path with
      | nil =>
          obtain ⟨a, ha⟩ := List.exists_mem_of_ne_nil A hsome
          exact absurd List.nil_prefix (hpath a.1 (List.mem_map_of_mem ha)).1
      | cons k rest =>
          refine (h k).frame rest fun p hp => ?_
          obtain ⟨⟨p, value⟩, hmem, rfl⟩ := List.mem_map.mp hp
          have hcons := hpath (k :: p) (List.mem_map_of_mem (mem_below_iff.mp hmem))
          simpa [List.cons_prefix_cons] using hcons

theorem changesOnly_keyed_iff {entries : List (κ × Nested κ α)} (hsome : entries ≠ [])
    (hnodup : (entries.map Prod.fst).Nodup) :
    ChangesOnly (keyed entries) before after ↔
      ∀ k, child after k = (find k entries).or (child before k) := by
  have hroot : ∀ p ∈ (keyed entries).map Prod.fst, p ≠ [] := by
    intro p hp
    simp only [keyed, List.map_map, List.mem_map] at hp
    obtain ⟨entry, _, rfl⟩ := hp
    exact List.cons_ne_nil _ _
  rw [changesOnly_iff_below (by simpa [keyed] using hsome) hroot]
  refine forall_congr' fun k => ?_
  rw [below_keyed k hnodup]
  cases find k entries with
  | none => exact changesOnly_nil
  | some value => exact changesOnly_root

/-- A whole table put in place of another keeps to its own keys only where the
other one had no further key. -/
theorem changesOnly_replaced_iff {entries : List (κ × Nested κ α)} (hsome : entries ≠ [])
    (hnodup : (entries.map Prod.fst).Nodup) :
    ChangesOnly (keyed entries) before (some (.table entries)) ↔
      ∀ k, (child before k).isSome → k ∈ entries.map Prod.fst := by
  rw [changesOnly_keyed_iff hsome hnodup]
  refine forall_congr' fun k => ?_
  rw [← find_isSome_iff, child_table]
  cases find k entries <;> cases child before k <;> simp

/-- Assignments made below several keys. -/
def sectionsAt (sections : List (κ × Assignments κ α)) : Assignments κ α :=
  sections.flatMap fun (k, A) => under k A

theorem below_sectionsAt (k : κ) {sections : List (κ × Assignments κ α)}
    (h : (sections.map Prod.fst).Nodup) :
    below k (sectionsAt sections) = (find k sections).getD [] := by
  induction sections with
  | nil => rfl
  | cons part rest ih =>
      obtain ⟨k', A⟩ := part
      simp only [List.map_cons, List.nodup_cons] at h
      have hrest := ih h.2
      unfold sectionsAt at hrest ⊢
      rw [List.flatMap_cons, below_append, below_under, hrest]
      by_cases hk : k' = k
      · subst hk
        have hnone : find k' rest = none := by
          rw [← Option.not_isSome_iff_eq_none, find_isSome_iff]
          exact h.1
        simp [find, hnone]
      · simp [find, hk]

theorem changesOnly_sections_iff {sections : List (κ × Assignments κ α)}
    (hsome : ∃ part ∈ sections, part.2 ≠ []) (hnodup : (sections.map Prod.fst).Nodup) :
    ChangesOnly (sectionsAt sections) before after ↔
      (∀ part ∈ sections, ChangesOnly part.2 (child before part.1) (child after part.1)) ∧
        ∀ k, k ∉ sections.map Prod.fst → child after k = child before k := by
  have hroot : ∀ p ∈ (sectionsAt sections).map Prod.fst, p ≠ [] := by
    intro p hp
    simp only [sectionsAt, under, List.map_flatMap, List.mem_flatMap, List.map_map,
      List.mem_map] at hp
    obtain ⟨part, _, entry, _, rfl⟩ := hp
    exact List.cons_ne_nil _ _
  have hassigned : sectionsAt sections ≠ [] := by
    obtain ⟨part, hpart, hne⟩ := hsome
    obtain ⟨entry, hentry⟩ := List.exists_mem_of_ne_nil part.2 hne
    have hpath : (part.1 :: entry.1, entry.2) ∈ sectionsAt sections :=
      List.mem_flatMap.mpr ⟨part, hpart, List.mem_map_of_mem hentry⟩
    exact List.ne_nil_of_mem hpath
  rw [changesOnly_iff_below hassigned hroot]
  constructor
  · intro h
    refine ⟨fun part hpart => ?_, fun k hk => ?_⟩
    · have hpoint := h part.1
      rwa [below_sectionsAt _ hnodup, find_of_mem hnodup hpart] at hpoint
    · have hpoint := h k
      rw [← find_isSome_iff, Option.not_isSome_iff_eq_none] at hk
      rw [below_sectionsAt _ hnodup, hk] at hpoint
      exact changesOnly_nil.mp hpoint
  · rintro ⟨hsections, hothers⟩ k
    rw [below_sectionsAt _ hnodup]
    cases hfind : find k sections with
    | none =>
        refine changesOnly_nil.mpr (hothers k ?_)
        rw [← find_isSome_iff, hfind]
        simp
    | some A => exact hsections _ (mem_of_find hfind)

/-- One section, changed as `A` says; everything beside it stays. -/
theorem changesOnly_under_iff {k : κ} (hsome : A ≠ []) :
    ChangesOnly (under k A) before after ↔
      ChangesOnly A (child before k) (child after k) ∧
        ∀ k', k' ≠ k → child after k' = child before k' := by
  have hsections : under k A = sectionsAt [(k, A)] := by simp [sectionsAt]
  rw [hsections, changesOnly_sections_iff ⟨_, List.mem_singleton_self _, hsome⟩ (by simp)]
  simp

/-- `update` with single keys changes only these. -/
theorem changesOnly_update {entries new : List (κ × Nested κ α)} (hsome : new ≠ [])
    (hnodup : (new.map Prod.fst).Nodup) (hbefore : ∀ k, child before k = find k entries) :
    ChangesOnly (keyed new) before (some (.table (update entries new))) := by
  rw [changesOnly_keyed_iff hsome hnodup]
  intro k
  rw [child_table, find_update, find_reverse hnodup, hbefore]

theorem find_map_table (k : κ) (tables : List (κ × List (κ × Nested κ α))) :
    find k (tables.map fun (k, new) => (k, Nested.table new)) = (find k tables).map .table := by
  induction tables with
  | nil => rfl
  | cons t rest ih =>
      obtain ⟨k', new⟩ := t
      by_cases hk : k' = k <;> simp [find, hk, ih]

/-- Whole tables as they are assigned under their names. -/
def tablesAt (tables : List (κ × List (κ × Nested κ α))) : Assignments κ α :=
  sectionsAt (tables.map fun (k, new) => (k, keyed new))

/-- `update` with whole tables is shallow: it keeps the keys beside the assigned
ones only in the tables that it does not replace. -/
theorem changesOnly_update_tables {entries : List (κ × Nested κ α)}
    {tables : List (κ × List (κ × Nested κ α))} (hsome : tables ≠ [])
    (hnodup : (tables.map Prod.fst).Nodup) (hbefore : ∀ k, child before k = find k entries)
    (hentries : ∀ t ∈ tables, t.2 ≠ [] ∧ (t.2.map Prod.fst).Nodup) :
    ChangesOnly (tablesAt tables) before
        (some (.table (update entries (tables.map fun (k, new) => (k, .table new))))) ↔
      ∀ t ∈ tables, ∀ k, (child (child before t.1) k).isSome → k ∈ t.2.map Prod.fst := by
  have hkeys : ((tables.map fun (k, new) => (k, Nested.table new)).map Prod.fst).Nodup := by
    rw [List.map_map]
    exact hnodup
  have hsections : ((tables.map fun (k, new) => (k, keyed new)).map Prod.fst).Nodup := by
    rw [List.map_map]
    exact hnodup
  have hpart : ∃ part ∈ tables.map (fun (k, new) => (k, keyed new)), part.2 ≠ [] := by
    obtain ⟨t, ht⟩ := List.exists_mem_of_ne_nil tables hsome
    exact ⟨_, List.mem_map_of_mem ht, by simpa [keyed] using (hentries t ht).1⟩
  have hchild : ∀ k, child (some (.table (update entries
      (tables.map fun (k, new) => (k, Nested.table new))))) k =
        ((find k tables).map .table).or (child before k) := by
    intro k
    rw [child_table, find_update, find_reverse hkeys, find_map_table, hbefore]
  rw [tablesAt, changesOnly_sections_iff hpart hsections]
  constructor
  · rintro ⟨h, _⟩ t ht
    have hpoint := h _ (List.mem_map_of_mem ht)
    rw [hchild, find_of_mem hnodup ht] at hpoint
    exact (changesOnly_replaced_iff (hentries t ht).1 (hentries t ht).2).mp hpoint
  · intro h
    refine ⟨fun part hpart => ?_, fun k hk => ?_⟩
    · obtain ⟨t, ht, rfl⟩ := List.mem_map.mp hpart
      rw [hchild, find_of_mem hnodup ht]
      exact (changesOnly_replaced_iff (hentries t ht).1 (hentries t ht).2).mpr (h t ht)
    · rw [List.map_map] at hk
      have hnone : find k tables = none := by
        rw [← Option.not_isSome_iff_eq_none, find_isSome_iff]
        exact hk
      rw [hchild, hnone]
      rfl

end ChangesOnly

end Wali.NestedTables
