import Mathlib.Data.List.Nodup
import Mathlib.Data.List.Basic

/-!
Dictionaries that keep the order of first insertion: assigning to a present key
replaces its value in place, a new key goes last.
-/

namespace Wali.InsertionDict

variable {κ ν : Type*} [DecidableEq κ]

/-- Association list of a dictionary after `d[key] = value`. -/
def assign (key : κ) (value : ν) : List (κ × ν) → List (κ × ν)
  | [] => [(key, value)]
  | (k, v) :: rest =>
      if k = key then (k, value) :: rest else (k, v) :: assign key value rest

def find (key : κ) : List (κ × ν) → Option ν
  | [] => none
  | (k, v) :: rest => if k = key then some v else find key rest

theorem find_assign (key k : κ) (value : ν) (entries : List (κ × ν)) :
    find k (assign key value entries) =
      if key = k then some value else find k entries := by
  induction entries with
  | nil => rfl
  | cons entry rest ih =>
      obtain ⟨k', v'⟩ := entry
      by_cases hkey : k' = key
      · subst hkey
        by_cases hk : k' = k <;> simp [assign, find, hk]
      · by_cases hk : k' = k
        · subst hk
          have hkey' : key ≠ k' := fun h => hkey h.symm
          simp [assign, find, hkey, hkey']
        · simp [assign, find, hkey, hk, ih]

theorem mem_keys_assign (key k : κ) (value : ν) (entries : List (κ × ν)) :
    k ∈ (assign key value entries).map Prod.fst ↔
      k = key ∨ k ∈ entries.map Prod.fst := by
  induction entries with
  | nil => simp [assign]
  | cons entry rest ih =>
      obtain ⟨k', v'⟩ := entry
      by_cases hkey : k' = key
      · subst hkey
        simp [assign]
      · simp only [assign, hkey, if_false, List.map_cons, List.mem_cons, ih]
        tauto

theorem nodup_keys_assign (key : κ) (value : ν) {entries : List (κ × ν)}
    (h : (entries.map Prod.fst).Nodup) :
    ((assign key value entries).map Prod.fst).Nodup := by
  induction entries with
  | nil => simp [assign]
  | cons entry rest ih =>
      obtain ⟨k', v'⟩ := entry
      simp only [List.map_cons, List.nodup_cons] at h
      by_cases hkey : k' = key
      · subst hkey
        simpa [assign] using h
      · simp only [assign, hkey, if_false, List.map_cons, List.nodup_cons]
        refine ⟨?_, ih h.2⟩
        rw [mem_keys_assign]
        rintro (hk | hk)
        · exact hkey hk
        · exact h.1 hk

theorem find_isSome_iff (key : κ) (entries : List (κ × ν)) :
    (find key entries).isSome ↔ key ∈ entries.map Prod.fst := by
  induction entries with
  | nil => simp [find]
  | cons entry rest ih =>
      obtain ⟨k, v⟩ := entry
      by_cases hk : k = key
      · simp [find, hk]
      · have hk' : key ≠ k := fun h => hk h.symm
        simp [find, hk, hk', ih]

theorem mem_of_find {key : κ} {value : ν} {entries : List (κ × ν)}
    (h : find key entries = some value) : (key, value) ∈ entries := by
  induction entries with
  | nil => simp [find] at h
  | cons entry rest ih =>
      obtain ⟨k, v⟩ := entry
      by_cases hk : k = key
      · simp only [find, hk, if_true, Option.some.injEq] at h
        simp [hk, h]
      · simp only [find, hk, if_false] at h
        exact List.mem_cons_of_mem _ (ih h)

theorem find_of_mem {key : κ} {value : ν} {entries : List (κ × ν)}
    (hnodup : (entries.map Prod.fst).Nodup) (h : (key, value) ∈ entries) :
    find key entries = some value := by
  induction entries with
  | nil => simp at h
  | cons entry rest ih =>
      obtain ⟨k, v⟩ := entry
      simp only [List.map_cons, List.nodup_cons] at hnodup
      rcases List.mem_cons.mp h with heq | hrest
      · cases heq
        simp [find]
      · have hk : k ≠ key := by
          rintro rfl
          exact hnodup.1 (List.mem_map.mpr ⟨_, hrest, rfl⟩)
        simp only [find, hk, if_false]
        exact ih hnodup.2 hrest

/-- Association list of a dictionary after `d.update(pairs)`. -/
def update (entries : List (κ × ν)) : List (κ × ν) → List (κ × ν)
  | [] => entries
  | (key, value) :: rest => update (assign key value entries) rest

theorem find_append (key : κ) (entries rest : List (κ × ν)) :
    find key (entries ++ rest) = (find key entries).or (find key rest) := by
  induction entries with
  | nil => simp [find]
  | cons entry entries ih =>
      by_cases hk : entry.1 = key <;> simp [find, hk, ih]

/-- The last pair listed for a key decides its value. -/
theorem find_update (key : κ) (entries pairs : List (κ × ν)) :
    find key (update entries pairs) = (find key pairs.reverse).or (find key entries) := by
  induction pairs generalizing entries with
  | nil => simp [update, find]
  | cons pair rest ih =>
      obtain ⟨k, v⟩ := pair
      rw [update, ih, find_assign, List.reverse_cons, find_append]
      by_cases hk : k = key <;> simp [find, hk]

theorem find_reverse {pairs : List (κ × ν)} (h : (pairs.map Prod.fst).Nodup) (key : κ) :
    find key pairs.reverse = find key pairs := by
  have hreverse : (pairs.reverse.map Prod.fst).Nodup := by
    rw [List.map_reverse]
    exact List.nodup_reverse.mpr h
  apply Option.ext
  intro value
  constructor
  · intro hvalue
    exact find_of_mem h (List.mem_reverse.mp (mem_of_find hvalue))
  · intro hvalue
    exact find_of_mem hreverse (List.mem_reverse.mpr (mem_of_find hvalue))

theorem assign_of_find {key : κ} {value : ν} {entries : List (κ × ν)}
    (h : find key entries = some value) : assign key value entries = entries := by
  induction entries with
  | nil => cases h
  | cons entry rest ih =>
      obtain ⟨k, v⟩ := entry
      by_cases hk : k = key
      · simp only [find, hk, if_true, Option.some.injEq] at h
        simp [assign, hk, h]
      · simp only [find, hk, if_false] at h
        simp [assign, hk, ih h]

/-- An update with what is already there -/
theorem update_of_find {entries pairs : List (κ × ν)}
    (h : ∀ pair ∈ pairs, find pair.1 entries = some pair.2) : update entries pairs = entries := by
  induction pairs with
  | nil => rfl
  | cons pair rest ih =>
      obtain ⟨hpair, hrest⟩ := List.forall_mem_cons.mp h
      rw [update, assign_of_find hpair, ih hrest]

theorem find_eq_some_iff {key : κ} {value : ν} {entries : List (κ × ν)} :
    find key entries = some value ↔
      ∃ front back, entries = front ++ (key, value) :: back ∧ key ∉ front.map Prod.fst := by
  constructor
  · intro h
    induction entries with
    | nil => simp [find] at h
    | cons entry rest ih =>
        obtain ⟨k, v⟩ := entry
        by_cases hk : k = key
        · simp only [find, hk, if_true, Option.some.injEq] at h
          exact ⟨[], rest, by rw [hk, h]; rfl, by simp⟩
        · simp only [find, hk, if_false] at h
          obtain ⟨front, back, rfl, hfront⟩ := ih h
          refine ⟨(k, v) :: front, back, rfl, ?_⟩
          rw [List.map_cons, List.mem_cons, not_or]
          exact ⟨fun heq => hk heq.symm, hfront⟩
  · rintro ⟨front, back, rfl, hfront⟩
    have hnone : find key front = none := by
      rw [← Option.not_isSome_iff_eq_none, find_isSome_iff]
      exact hfront
    rw [find_append, hnone, Option.none_or, find, if_pos rfl]

/-- A dictionary: each key is listed once, in the order of first insertion. -/
structure Dict (κ ν : Type*) [DecidableEq κ] where
  entries : List (κ × ν)
  nodup : (entries.map Prod.fst).Nodup

namespace Dict

variable (d : Dict κ ν)

instance : EmptyCollection (Dict κ ν) := ⟨⟨[], List.nodup_nil⟩⟩

def get? (key : κ) : Option ν := find key d.entries

def getD (key : κ) (default : ν) : ν := (d.get? key).getD default

def keys : List κ := d.entries.map Prod.fst

def values : List ν := d.entries.map Prod.snd

instance : Membership κ (Dict κ ν) := ⟨fun d key => key ∈ d.keys⟩

instance (key : κ) : Decidable (key ∈ d) := inferInstanceAs (Decidable (key ∈ d.keys))

def set (key : κ) (value : ν) : Dict κ ν :=
  ⟨assign key value d.entries, nodup_keys_assign key value d.nodup⟩

/-- Assign the pairs of a list one after another: `d.update(pairs)`. -/
def updateList : Dict κ ν → List (κ × ν) → Dict κ ν
  | d, [] => d
  | d, (key, value) :: rest => updateList (d.set key value) rest

/-- `dict(pairs)` -/
def ofList (pairs : List (κ × ν)) : Dict κ ν := updateList ∅ pairs

/-- `{**d, **d'}` -/
def union (d d' : Dict κ ν) : Dict κ ν := d.updateList d'.entries

variable {d} {key : κ} {value : ν}

theorem mem_iff : key ∈ d ↔ key ∈ d.keys := Iff.rfl

theorem mem_iff_get? : key ∈ d ↔ ∃ value, d.get? key = some value := by
  rw [← Option.isSome_iff_exists]
  exact (find_isSome_iff key d.entries).symm

theorem get?_eq_none_iff : d.get? key = none ↔ key ∉ d := by
  rw [mem_iff_get?, ← Option.isSome_iff_exists, Option.not_isSome_iff_eq_none]

theorem get?_eq_some_iff : d.get? key = some value ↔ (key, value) ∈ d.entries :=
  ⟨mem_of_find, find_of_mem d.nodup⟩

theorem mem_values_of_get? (h : d.get? key = some value) : value ∈ d.values :=
  List.mem_map.mpr ⟨_, mem_of_find h, rfl⟩

theorem getD_of_get? (default : ν) (h : d.get? key = some value) :
    d.getD key default = value := by
  simp [getD, h]

theorem getD_of_not_mem (default : ν) (h : key ∉ d) : d.getD key default = default := by
  simp [getD, get?_eq_none_iff.mpr h]

theorem getD_mem_cons_values (default : ν) : d.getD key default ∈ default :: d.values := by
  cases h : d.get? key with
  | none => simp [getD, h]
  | some value => simp [getD, h, mem_values_of_get? h]

@[simp] theorem get?_empty : (∅ : Dict κ ν).get? key = none := rfl

theorem entries_updateList (d : Dict κ ν) (pairs : List (κ × ν)) :
    (d.updateList pairs).entries = update d.entries pairs := by
  induction pairs generalizing d with
  | nil => rfl
  | cons pair rest ih =>
      obtain ⟨k, v⟩ := pair
      exact ih (d.set k v)

theorem get?_updateList (d : Dict κ ν) (pairs : List (κ × ν)) :
    (d.updateList pairs).get? key = (find key pairs.reverse).or (d.get? key) := by
  rw [get?, entries_updateList, find_update]
  rfl

/-- The last pair listed for a key decides its value. -/
theorem get?_ofList (pairs : List (κ × ν)) :
    (ofList pairs).get? key = find key pairs.reverse := by
  simp [ofList, get?_updateList]

theorem get?_ofList_eq_some_iff {pairs : List (κ × ν)} :
    (ofList pairs).get? key = some value ↔
      ∃ front back, pairs = front ++ (key, value) :: back ∧ key ∉ back.map Prod.fst := by
  rw [get?_ofList, find_eq_some_iff]
  constructor
  · rintro ⟨front, back, heq, hfront⟩
    refine ⟨back.reverse, front.reverse, ?_, ?_⟩
    · rw [← List.reverse_reverse pairs, heq]
      simp
    · rwa [List.map_reverse, List.mem_reverse]
  · rintro ⟨front, back, rfl, hback⟩
    refine ⟨back.reverse, front.reverse, by simp, ?_⟩
    rwa [List.map_reverse, List.mem_reverse]

theorem mem_ofList {pairs : List (κ × ν)} :
    key ∈ ofList pairs ↔ key ∈ pairs.map Prod.fst := by
  rw [mem_iff_get?, ← Option.isSome_iff_exists, get?_ofList, find_isSome_iff]
  simp

theorem get?_ofList_of_nodup {pairs : List (κ × ν)}
    (hnodup : (pairs.map Prod.fst).Nodup) :
    (ofList pairs).get? key = some value ↔ (key, value) ∈ pairs := by
  rw [get?_ofList, find_reverse hnodup]
  exact ⟨mem_of_find, find_of_mem hnodup⟩

theorem assign_of_not_mem {entries : List (κ × ν)} (h : key ∉ entries.map Prod.fst) :
    assign key value entries = entries ++ [(key, value)] := by
  induction entries with
  | nil => rfl
  | cons entry rest ih =>
      simp only [List.map_cons, List.mem_cons, not_or] at h
      rw [assign, if_neg (Ne.symm h.1), ih h.2, List.cons_append]

theorem entries_updateList_of_nodup (d : Dict κ ν) {pairs : List (κ × ν)}
    (h : ((d.entries ++ pairs).map Prod.fst).Nodup) :
    (d.updateList pairs).entries = d.entries ++ pairs := by
  induction pairs generalizing d with
  | nil => simp [updateList]
  | cons pair rest ih =>
      obtain ⟨k, v⟩ := pair
      have hk : k ∉ d.entries.map Prod.fst := by
        rw [List.map_append, List.nodup_append] at h
        exact fun hmem => h.2.2 k hmem k (by simp) rfl
      have hset : (d.set k v).entries = d.entries ++ [(k, v)] := assign_of_not_mem hk
      have hmove : d.entries ++ (k, v) :: rest = (d.set k v).entries ++ rest := by
        rw [hset]
        simp
      rw [hmove] at h ⊢
      exact ih (d.set k v) h

/-- A dictionary written without repeated keys lists the pairs as written. -/
theorem entries_ofList_of_nodup {pairs : List (κ × ν)}
    (h : (pairs.map Prod.fst).Nodup) : (ofList pairs).entries = pairs :=
  entries_updateList_of_nodup ∅ h

theorem mem_pairs_of_get?_ofList {pairs : List (κ × ν)}
    (h : (ofList pairs).get? key = some value) : (key, value) ∈ pairs := by
  rw [get?_ofList] at h
  exact List.mem_reverse.mp (mem_of_find h)

theorem get?_union (d d' : Dict κ ν) :
    (d.union d').get? key = (d'.get? key).or (d.get? key) := by
  rw [union, get?_updateList, find_reverse d'.nodup]
  rfl

theorem mem_union {d d' : Dict κ ν} : key ∈ d.union d' ↔ key ∈ d ∨ key ∈ d' := by
  rw [← not_iff_not, not_or, ← get?_eq_none_iff, ← get?_eq_none_iff,
    ← get?_eq_none_iff, get?_union, Option.or_eq_none_iff, and_comm]

end Dict

end Wali.InsertionDict
