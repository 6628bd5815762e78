import Wali.ScalarTypes
import Wali.WitStubs

/-!
The Rust type of an argument and its WIT type resolve to the same primitive. The
two resolutions follow the same aliases under two spellings of the names; `kebab`
carries the one to the other.
-/

namespace Wali.WitResolution

open Wali.AliasResolution
open Wali.ArgumentTypes
open Wali.InsertionDict
open Wali.PythonText
open Wali.RunOutcome
open Wali.RunOutcome.Outcome
open Wali.ScalarTypes
open Wali.SyscallTable
open Wali.TypeTemplates
open Wali.WitStubs

/-- Words of lower-case letters and digits, a letter first, with single dashes
between them; `inWord` tells that a word has begun. -/
def kebabFrom : (inWord : Bool) → Text → Bool
  | inWord, [] => inWord
  | false, c :: cs => c.isLower && kebabFrom true cs
  | true, c :: cs =>
      if c = '-' then kebabFrom false cs
      else (c.isLower || c.isDigit) && kebabFrom true cs

def IsKebab (s : Text) : Prop := kebabFrom false s = true

instance (s : Text) : Decidable (IsKebab s) :=
  inferInstanceAs (Decidable (kebabFrom false s = true))

/-- Templates with distinct kebab-case names, none of them a WIT primitive, whose
primitive types are WIT integers. -/
structure KebabTemplates (T : Templates) : Prop where
  primitiveNames : ∀ k ∈ T.primitives.keys, IsKebab k
  complexNames : ∀ k ∈ T.complex.keys, IsKebab k
  distinct : ∀ k ∈ T.primitives.keys, k ∉ T.complex
  primitivesReserved : ∀ k ∈ T.primitives.keys, k ∉ witPrimitives
  complexReserved : ∀ k ∈ T.complex.keys, k ∉ witPrimitives
  primitiveValues : ∀ v ∈ T.primitives.values, IsWitInteger v

/-- Following the `type k = v;` lines of the `types` interface from `t`, the first
WIT primitive met is `p`. -/
def WitResolves (T : Templates) (t p : Text) : Prop :=
  Resolves (· ∈ witPrimitives) (compTypes T).get? t p

/-- What is written for one argument of a row: its cell, the Rust type `r` and the
WIT type `t`. The cell is no pointer and has no white space around it. -/
structure WrittenTypes (T : Templates) (sc : SyscallRow Cell) (c r t : Text) : Prop where
  notPointer : ¬ EndsIn '*' c
  stripped : strip c = c
  positions : ∃ (cells args wargs : List Text) (f : WitFunc) (i : Nat) (a : Text),
    TypeCells sc cells ∧ getScargs T sc = returns args ∧
      witRow T sc = returns (wargs, some f) ∧ cells[i]? = some c ∧ args[i]? = some a ∧
      rustifyArg T a = returns r ∧ f.argTypes[i]? = some t

def RustFollowsWit (T : Templates) (sc : SyscallRow Cell) : Prop :=
  ∀ c r t, WrittenTypes T sc c r t → ∃ p, WitResolves T t p ∧ r = rsName p

section KebabNames

/-- Characters of kebab-case names. -/
def IsKebabChar (c : Char) : Prop := c = '-' ∨ c.isLower = true ∨ c.isDigit = true

instance (c : Char) : Decidable (IsKebabChar c) :=
  inferInstanceAs (Decidable (c = '-' ∨ c.isLower = true ∨ c.isDigit = true))

theorem isKebabChar_of_kebabFrom {s : Text} {inWord : Bool} (h : kebabFrom inWord s = true)
    {c : Char} (hc : c ∈ s) : IsKebabChar c := by
  induction s generalizing inWord with
  | nil => simp at hc
  | cons d s ih =>
      cases inWord with
      | false =>
          simp only [kebabFrom, Bool.and_eq_true] at h
          rcases List.mem_cons.mp hc with rfl | hrest
          · exact .inr (.inl h.1)
          · exact ih h.2 hrest
      | true =>
          simp only [kebabFrom] at h
          split at h
          · next hdash =>
              rcases List.mem_cons.mp hc with rfl | hrest
              · exact .inl hdash
              · exact ih h hrest
          · simp only [Bool.and_eq_true, Bool.or_eq_true] at h
            rcases List.mem_cons.mp hc with rfl | hrest
            · exact .inr h.1
            · exact ih h.2 hrest

variable {k : Text}

theorem IsKebab.not_mem (h : IsKebab k) {c : Char} (hc : ¬ IsKebabChar c) : c ∉ k :=
  fun hmem => hc (isKebabChar_of_kebabFrom h hmem)

theorem IsKebab.kebab_sub (h : IsKebab k) {ch : Char} (hch : ch = ' ' ∨ ch = '_') :
    kebab (sub k ch) = k := by
  simp only [kebab, sub, replaceChar, List.map_map]
  conv_rhs => rw [← List.map_id k]
  apply List.map_congr_left
  intro c hc
  have hspace : c ≠ ' ' := fun heq => h.not_mem (by decide : ¬ IsKebabChar ' ') (heq ▸ hc)
  have hscore : c ≠ '_' := fun heq => h.not_mem (by decide : ¬ IsKebabChar '_') (heq ▸ hc)
  by_cases hdash : c = '-'
  · rcases hch with rfl | rfl <;> simp [hdash]
  · simp [hdash, hspace, hscore]

theorem IsKebab.not_endsIn_star (h : IsKebab k) : ¬ EndsIn '*' k :=
  fun hstar => h.not_mem (by decide) (List.mem_of_getLast? hstar)

end KebabNames

namespace KebabTemplates

variable {T : Templates} (hT : KebabTemplates T) {v u w c k : Text}
include hT

theorem exists_of_basic (h : (basicTypes T).get? v = some u) :
    ∃ k, T.primitives.get? k = some u ∧ IsKebab k ∧ v = sub k ' ' := by
  obtain ⟨entry, hentry, heq⟩ := List.mem_map.mp (Dict.mem_pairs_of_get?_ofList h)
  cases heq
  exact ⟨entry.1, Dict.get?_eq_some_iff.mpr hentry,
    hT.primitiveNames _ (List.mem_map.mpr ⟨entry, hentry, rfl⟩), rfl⟩

theorem exists_of_complex (h : (complexTypes T).get? v = some u) :
    ∃ k ∈ T.complex, IsKebab k ∧ v = sub k '_' := by
  obtain ⟨entry, hentry, heq⟩ := List.mem_map.mp (Dict.mem_pairs_of_get?_ofList h)
  cases heq
  have hmem : entry.1 ∈ T.complex := List.mem_map.mpr ⟨entry, hentry, rfl⟩
  exact ⟨entry.1, hmem, hT.complexNames _ hmem, rfl⟩

theorem isKebab_kebab (h : v ∈ combinedTypes T) :
    IsKebab (kebab v) ∧ kebab v ∉ witPrimitives := by
  rcases Dict.mem_union.mp h with hbasic | hcomplex
  · obtain ⟨u, hu⟩ := Dict.mem_iff_get?.mp hbasic
    obtain ⟨k, hk, hname, rfl⟩ := hT.exists_of_basic hu
    rw [hname.kebab_sub (.inl rfl)]
    exact ⟨hname, hT.primitivesReserved k (Dict.mem_iff_get?.mpr ⟨u, hk⟩)⟩
  · obtain ⟨u, hu⟩ := Dict.mem_iff_get?.mp hcomplex
    obtain ⟨k, hk, hname, rfl⟩ := hT.exists_of_complex hu
    rw [hname.kebab_sub (.inr rfl)]
    exact ⟨hname, hT.complexReserved k hk⟩

theorem eq_of_kebab_eq (hv : v ∈ combinedTypes T) (hu : u ∈ combinedTypes T)
    (heq : kebab v = kebab u) : v = u := by
  rcases Dict.mem_union.mp hv with hv | hv <;> rcases Dict.mem_union.mp hu with hu | hu
  all_goals
    obtain ⟨x, hx⟩ := Dict.mem_iff_get?.mp hv
    obtain ⟨y, hy⟩ := Dict.mem_iff_get?.mp hu
  · obtain ⟨k, _, hname, rfl⟩ := hT.exists_of_basic hx
    obtain ⟨k', _, hname', rfl⟩ := hT.exists_of_basic hy
    rw [hname.kebab_sub (.inl rfl), hname'.kebab_sub (.inl rfl)] at heq
    rw [heq]
  · obtain ⟨k, hk, hname, rfl⟩ := hT.exists_of_basic hx
    obtain ⟨k', hk', hname', rfl⟩ := hT.exists_of_complex hy
    rw [hname.kebab_sub (.inl rfl), hname'.kebab_sub (.inr rfl)] at heq
    exact absurd (heq ▸ hk') (hT.distinct k (Dict.mem_iff_get?.mpr ⟨x, hk⟩))
  · obtain ⟨k, hk, hname, rfl⟩ := hT.exists_of_complex hx
    obtain ⟨k', hk', hname', rfl⟩ := hT.exists_of_basic hy
    rw [hname.kebab_sub (.inr rfl), hname'.kebab_sub (.inl rfl)] at heq
    exact absurd (heq ▸ hk) (hT.distinct k' (Dict.mem_iff_get?.mpr ⟨y, hk'⟩))
  · obtain ⟨k, _, hname, rfl⟩ := hT.exists_of_complex hx
    obtain ⟨k', _, hname', rfl⟩ := hT.exists_of_complex hy
    rw [hname.kebab_sub (.inr rfl), hname'.kebab_sub (.inr rfl)] at heq
    rw [heq]

theorem get?_compTypes (h : (combinedTypes T).get? v = some u) :
    (compTypes T).get? (kebab v) = some (compValue u) := by
  have hnodup : (((combinedTypes T).entries.map compEntry).map Prod.fst).Nodup := by
    have hkeys : ((combinedTypes T).entries.map compEntry).map Prod.fst =
        (combinedTypes T).keys.map rep := by
      simp [Dict.keys, compEntry, List.map_map, Function.comp_def]
    rw [hkeys]
    refine List.Nodup.map_on ?_ (combinedTypes T).nodup
    intro x hx y hy heq
    rw [rep_eq_kebab, rep_eq_kebab] at heq
    exact hT.eq_of_kebab_eq hx hy heq
  have hentry : (kebab v, compValue u) ∈ (combinedTypes T).entries.map compEntry := by
    refine List.mem_map.mpr ⟨(v, u), Dict.get?_eq_some_iff.mp h, ?_⟩
    rw [compEntry, rep_eq_kebab]
  rw [compTypes, Dict.get?_union]
  unfold combinedTypes at hnodup hentry
  rw [(Dict.get?_ofList_of_nodup hnodup).mpr hentry]
  rfl

theorem isWitInteger_of_mem (h : w ∈ witPrimitiveSet T) : IsWitInteger w := by
  obtain ⟨entry, hentry, rfl⟩ := List.mem_map.mp h
  obtain ⟨k, hk, _, _⟩ := hT.exists_of_basic (Dict.get?_eq_some_iff.mpr hentry)
  exact hT.primitiveValues _ (Dict.mem_values_of_get? hk)

theorem undef_unknown : undef ∉ witPrimitiveSet T ∧ undef ∉ combinedTypes T := by
  constructor
  · intro h
    have hint := hT.isWitInteger_of_mem h
    revert hint
    decide
  · intro h
    have hkebab := (hT.isKebab_kebab h).1
    revert hkebab
    decide

/-- Names that neither template knows resolve to nothing: the loop goes on with
`UNDEF`. -/
theorem not_firstPrimitive_of_unknown (hset : v ∉ witPrimitiveSet T)
    (hv : v ∉ combinedTypes T) : ¬ FirstPrimitive T v w := by
  have hundef := Dict.getD_of_not_mem undef hT.undef_unknown.2
  have hloop : ∀ x, FirstPrimitive T x w → x ≠ undef := by
    intro x hx
    induction hx with
    | done hstop =>
        rintro rfl
        exact hT.undef_unknown.1 hstop
    | follow _ hstep _ ih =>
        rintro rfl
        rw [hundef] at hstep
        exact ih (Option.some.inj hstep).symm
  intro h
  refine hloop _ ((Resolves.iff_of_step hset ?_).mp h) rfl
  rw [Dict.getD_of_not_mem undef hv]

/-- A value that the Rust side resolves further is written alike on both sides:
it is no `Array`. -/
theorem compValue_eq (h : FirstPrimitive T u w) : compValue u = kebab u := by
  have hnot : ¬ startsWith "Array" u := by
    intro harray
    have hfirst : 'A' ∈ u := harray.subset (by decide)
    have hset : u ∉ witPrimitiveSet T := by
      intro hmem
      have hint := hT.isWitInteger_of_mem hmem
      simp only [IsWitInteger, witIntegers, List.mem_cons, List.not_mem_nil, or_false] at hint
      rcases hint with rfl | rfl | rfl | rfl | rfl | rfl | rfl | rfl <;> revert hfirst <;> decide
    refine hT.not_firstPrimitive_of_unknown hset (fun hmem => ?_) h
    refine (hT.isKebab_kebab hmem).1.not_mem (by decide : ¬ IsKebabChar 'A') ?_
    simp only [kebab, replaceChar, List.map_map, List.mem_map]
    exact ⟨'A', hfirst, rfl⟩
  rw [compValue, if_neg hnot, rep_eq_kebab]

theorem kebab_of_mem (h : w ∈ witPrimitiveSet T) : kebab w = w := by
  have hint := hT.isWitInteger_of_mem h
  simp only [IsWitInteger, witIntegers, List.mem_cons, List.not_mem_nil, or_false] at hint
  rcases hint with rfl | rfl | rfl | rfl | rfl | rfl | rfl | rfl <;> rfl

/-- The simulation: the alias chain that the Rust loop follows is, name by name, a
chain of lines of the `types` interface. -/
theorem witResolves_of_firstPrimitive (h : FirstPrimitive T v w) :
    WitResolves T (kebab v) w := by
  have hmap : Resolves (· ∈ witPrimitives) (compTypes T).get? (kebab v) (kebab w) := by
    refine Resolves.map (fun _ => True) kebab ?_ ?_ trivial h
    · intro x _ hx
      rw [hT.kebab_of_mem hx]
      exact List.mem_append_left _ (hT.isWitInteger_of_mem hx)
    · intro x u _ hx hlookup hrest
      have hu : (combinedTypes T).get? x = some u := by
        rcases hx' : (combinedTypes T).get? x with _ | y
        · exact absurd (.follow hx hlookup hrest)
            (hT.not_firstPrimitive_of_unknown hx (Dict.get?_eq_none_iff.mp hx'))
        · simpa [Dict.getD, hx'] using hlookup
      refine ⟨trivial, (hT.isKebab_kebab (Dict.mem_iff_get?.mpr ⟨u, hu⟩)).2, ?_⟩
      rw [hT.get?_compTypes hu, hT.compValue_eq hrest]
  rwa [hT.kebab_of_mem (Resolves.stops h)] at hmap

theorem not_mem_witPrimitiveSet (h : v ∈ combinedTypes T) : v ∉ witPrimitiveSet T := by
  intro hset
  have hreserved := (hT.isKebab_kebab h).2
  rw [hT.kebab_of_mem hset] at hreserved
  exact hreserved (List.mem_append_left _ (hT.isWitInteger_of_mem hset))

theorem get?_complex_of_basic (h : v ∈ basicTypes T) : (complexTypes T).get? v = none := by
  obtain ⟨u, hu⟩ := Dict.mem_iff_get?.mp h
  obtain ⟨k, hk, hname, rfl⟩ := hT.exists_of_basic hu
  refine Dict.get?_eq_none_iff.mpr fun hcomplex => ?_
  obtain ⟨u', hu'⟩ := Dict.mem_iff_get?.mp hcomplex
  obtain ⟨k', hk', hname', heq⟩ := hT.exists_of_complex hu'
  have hkeys := congrArg kebab heq
  rw [hname.kebab_sub (.inl rfl), hname'.kebab_sub (.inr rfl)] at hkeys
  exact hT.distinct k (Dict.mem_iff_get?.mpr ⟨u, hk⟩) (hkeys ▸ hk')

/-- The loop may as well start from the cell: `get_scargs` has only taken its first
step. -/
theorem firstPrimitive_of_scSpelling (hc : ¬ EndsIn '*' c)
    (h : FirstPrimitive T (scSpelling T c) w) : FirstPrimitive T c w := by
  rcases @scSpelling_cases T c hc with ⟨v, _, hs⟩ | ⟨_, u, hu, hs⟩ | ⟨_, _, hs⟩
  · rwa [hs] at h
  · have hlookup : (combinedTypes T).get? c = some u := by
      rw [get?_combinedTypes, hu]
      rfl
    rw [hs] at h
    refine .follow (hT.not_mem_witPrimitiveSet (Dict.mem_iff_get?.mpr ⟨u, hlookup⟩)) ?_ h
    rw [Dict.getD_of_get? undef hlookup]
  · rw [hs] at h
    exact absurd h (hT.not_firstPrimitive_of_unknown hT.undef_unknown.1 hT.undef_unknown.2)

/-- Writing a single-word basic type by its value takes the first step of its
resolution. -/
theorem witResolves_writtenType_iff {p : Text} :
    WitResolves T (writtenType T (kebab c)) p ↔ WitResolves T (kebab c) p := by
  rcases hb : (basicTypes T).get? (kebab c) with _ | v
  · rw [writtenType, Dict.getD_of_not_mem _ (Dict.get?_eq_none_iff.mp hb)]
  · have hbasic : kebab c ∈ basicTypes T := Dict.mem_iff_get?.mpr ⟨v, hb⟩
    have hlookup : (combinedTypes T).get? (kebab c) = some v := by
      rw [get?_combinedTypes, hT.get?_complex_of_basic hbasic, hb]
      rfl
    have hcombined : kebab c ∈ combinedTypes T := Dict.mem_iff_get?.mpr ⟨v, hlookup⟩
    have hvalue : compValue v = v := by
      have hset := mem_witPrimitiveSet_of_get? T hb
      rw [hT.compValue_eq (.done hset), hT.kebab_of_mem hset]
    have hline := hT.get?_compTypes hlookup
    rw [kebab_kebab, hvalue] at hline
    have hreserved := (hT.isKebab_kebab hcombined).2
    rw [kebab_kebab] at hreserved
    rw [writtenType, Dict.getD_of_get? _ hb]
    exact (Resolves.iff_of_step hreserved hline).symm

theorem not_witResolves_of_endsIn (hc : ¬ EndsIn '*' c) (h : EndsIn '*' (scSpelling T c))
    {p : Text} : ¬ WitResolves T (kebab c) p := by
  obtain ⟨_, u, hu, hstar⟩ := (endsIn_scSpelling_iff hc).mp h
  have hlookup : (combinedTypes T).get? c = some u := by
    rw [get?_combinedTypes, hu]
    rfl
  have hcombined : c ∈ combinedTypes T := Dict.mem_iff_get?.mpr ⟨u, hlookup⟩
  have hvalue : EndsIn '*' (compValue u) := by
    unfold compValue
    split
    · rwa [endsIn_replaceChar_iff (by decide) (by decide)]
    · rwa [rep_eq_kebab, endsIn_kebab_iff]
  have hreserved : compValue u ∉ witPrimitives := by
    intro hmem
    have hnone : ∀ x ∈ witPrimitives, ¬ EndsIn '*' x := by decide
    exact hnone _ hmem hvalue
  have hdead : (compTypes T).get? (compValue u) = none := by
    refine Dict.get?_eq_none_iff.mpr fun hmem => ?_
    rcases mem_compTypes.mp hmem with heq | ⟨v, hv, heq⟩
    · rw [heq] at hvalue
      revert hvalue
      decide
    · rw [heq] at hvalue
      exact (hT.isKebab_kebab hv).1.not_endsIn_star hvalue
  intro hp
  rw [WitResolves, Resolves.iff_of_step (hT.isKebab_kebab hcombined).2
    (hT.get?_compTypes hlookup)] at hp
  exact Resolves.not_of_dead_end hreserved hdead hp

end KebabTemplates

variable {T : Templates} {sc : SyscallRow Cell} {c r t : Text}

theorem WrittenTypes.spellings (h : WrittenTypes T sc c r t) :
    rustifyArg T (scSpelling T c) = returns r ∧ t = writtenType T (kebab c) := by
  obtain ⟨cells, args, wargs, f, i, a, hcells, hargs, hrow, hc, ha, hr, ht⟩ := h.positions
  rw [hcells.getScargs] at hargs
  cases hargs
  rw [List.getElem?_map, hc] at ha
  cases ha
  obtain ⟨cells', fnName, hcells', _, _, hwargs, hentry⟩ := witRow_eq_returns_iff.mp hrow
  have heq : cells = cells' := argCells_inj hcells.1 hcells'
  split at hentry
  · cases hentry
    rw [hwargs, ← heq, List.getElem?_map, List.getElem?_map, hc] at ht
    cases ht
    refine ⟨hr, ?_⟩
    rw [witType, h.stripped, witArg, if_neg ((endsIn_kebab_iff c).not.mpr h.notPointer)]
  · cases hentry

/-- The Rust type of an argument is the primitive that its WIT type resolves to,
unless the type is an alias of a pointer: then it is `i32`, and the WIT type
resolves to nothing. -/
theorem written_types_resolve_alike (hT : KebabTemplates T) (h : WrittenTypes T sc c r t) :
    (¬ EndsIn '*' (scSpelling T c) → ∃ p, WitResolves T t p ∧ r = rsName p) ∧
      (EndsIn '*' (scSpelling T c) → r = "i32" ∧ ∀ p, ¬ WitResolves T t p) := by
  obtain ⟨hrust, rfl⟩ := h.spellings
  constructor
  · intro hstar
    obtain ⟨_, ⟨hptr, _⟩ | ⟨_, w, hw, _, hr⟩⟩ := rustifyArg_eq_returns_iff.mp hrust
    · exact absurd hptr hstar
    · refine ⟨w, hT.witResolves_writtenType_iff.mpr ?_, hr⟩
      exact hT.witResolves_of_firstPrimitive (hT.firstPrimitive_of_scSpelling h.notPointer hw)
  · intro hstar
    constructor
    · rw [rustifyArg_of_endsIn hstar] at hrust
      exact (Outcome.returns.inj hrust).symm
    · intro p hp
      exact hT.not_witResolves_of_endsIn h.notPointer hstar
        (hT.witResolves_writtenType_iff.mp hp)

theorem kebabTemplates_shipped : KebabTemplates shippedTemplates := by
  constructor <;> decide

theorem time_t_resolves_alike :
    ∃ p, WitResolves shippedTemplates "time-t" p ∧ "i64".toList = rsName p := by
  have hwritten : WrittenTypes shippedTemplates (oneArgRow "time_t") "time_t" "i64" "time-t" :=
    { notPointer := by decide
      stripped := by decide
      positions := ⟨["time_t"], ["s64"], ["time-t"], ⟨"500", "probe", ["time-t"], ["time_t"]⟩,
        0, "s64", ⟨rfl, by decide⟩, rfl, rfl, rfl, rfl, by decide, rfl⟩ }
  exact (written_types_resolve_alike kebabTemplates_shipped hwritten).1 (by decide)

/-- Templates with an alias of a pointer. -/
def handlerTemplates : Templates where
  primitives := Dict.ofList [("int", "s32")]
  complex := Dict.ofList [("handler-t", "void*")]

/-- The Rust type of `handler_t` is `i32`, its WIT type is declared as `void*`. -/
theorem handler_t_resolves_to_nothing :
    KebabTemplates handlerTemplates ∧
      ¬ RustFollowsWit handlerTemplates (oneArgRow "handler_t") := by
  refine ⟨by constructor <;> decide, fun h => ?_⟩
  have hwritten : WrittenTypes handlerTemplates (oneArgRow "handler_t") "handler_t" "i32"
      "handler-t" :=
    { notPointer := by decide
      stripped := by decide
      positions := ⟨["handler_t"], ["void*"], ["handler-t"],
        ⟨"500", "probe", ["handler-t"], ["handler_t"]⟩, 0, "void*", ⟨rfl, by decide⟩, rfl, rfl,
        rfl, rfl, by decide, rfl⟩ }
  obtain ⟨p, hp, _⟩ := h _ _ _ hwritten
  have hvoid : WitResolves handlerTemplates "void*" p :=
    (Resolves.iff_of_step (by decide) (by decide)).mp hp
  exact Resolves.not_of_dead_end (by decide) (by decide) hvoid

end Wali.WitResolution
