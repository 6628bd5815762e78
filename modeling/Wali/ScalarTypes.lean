import Wali.LibcStubs
import Wali.WamrStubs

/-!
How the generators spell the argument types that are passed by value: the C types
of the declarations, the letters of the native signatures and the Rust types.
-/

namespace Wali.ScalarTypes

open Wali.AliasResolution
open Wali.ArgumentTypes
open Wali.InsertionDict
open Wali.LibcStubs
open Wali.PythonText
open Wali.RunOutcome
open Wali.RunOutcome.Outcome
open Wali.StubEmission
open Wali.SyscallTable
open Wali.TypeTemplates
open Wali.WamrStubs

/-- One lookup of a type name in the templates: a basic type stands for itself, a
complex type for its template value. -/
def templateSpelling (T : Templates) (c : Text) : Text :=
  if c ∈ basicTypes T then c else (complexTypes T).getD c undef

variable {T : Templates} {sc : SyscallRow Cell} {c : Text}

theorem scSpelling_eq_templateSpelling (hc : ¬ EndsIn '*' c) :
    scSpelling T c = templateSpelling T c := by
  unfold scSpelling templateSpelling
  by_cases hb : c ∈ basicTypes T <;> simp [hc, hb]

section NativeWidths

/-- At every position of the row the letter of the native signature tells the width
of the argument, and the Rust declaration has the same width. -/
def WidthsAgree (T : Templates) (sc : SyscallRow Cell) : Prop :=
  ∀ cells args, TypeCells sc cells → getScargs T sc = returns args →
    ∀ i c a, cells[i]? = some c → args[i]? = some a →
      (EndsIn '*' c →
        (genNativeArgs args)[i + 2]? = some 'i' ∧ rustifyArg T a = returns ("i32" : Text)) ∧
      (¬ EndsIn '*' c → ∀ p, TypeResolves T c p →
        ((genNativeArgs args)[i + 2]? = some 'I' ↔ IsWide p) ∧
        ((genNativeArgs args)[i + 2]? = some 'I' ↔
          rustifyArg T a = returns ("i64" : Text) ∨ rustifyArg T a = returns ("u64" : Text)))

/-- The spelling of the type in the templates ends in `long`. -/
def LongSpelled (T : Templates) (c : Text) : Prop := endsWith "long" (templateSpelling T c)

/-- The first value of the primitive template that the alias chain of the spelling
meets is a 64-bit type. -/
def WideChain (T : Templates) (c : Text) : Prop :=
  templateSpelling T c ≠ [] ∧ ¬ EndsIn '*' (templateSpelling T c) ∧
    ∃ v, FirstPrimitive T (templateSpelling T c) v ∧ (IsWide v ∨ v = "i64".toList)

theorem rsName_wide_iff {v : Text} :
    (rsName v = "i64".toList ∨ rsName v = "u64".toList) ↔ IsWide v ∨ v = "i64".toList := by
  unfold rsName IsWide
  split
  · next width =>
      simp
  · next hs =>
      have hne : v ≠ ['s', '6', '4'] := fun heq => hs ['6', '4'] heq
      simp only [String.reduceToList, hne, false_or]
      tauto

theorem rustifyArg_wide_iff :
    (rustifyArg T (templateSpelling T c) = returns ("i64" : Text) ∨
      rustifyArg T (templateSpelling T c) = returns ("u64" : Text)) ↔ WideChain T c := by
  simp only [rustifyArg_eq_returns_iff, WideChain]
  constructor
  · rintro (⟨hne, ⟨_, heq⟩ | ⟨hstar, v, hv, _, hr⟩⟩ | ⟨hne, ⟨_, heq⟩ | ⟨hstar, v, hv, _, hr⟩⟩)
    · exact absurd heq (by decide)
    · exact ⟨hne, hstar, v, hv, rsName_wide_iff.mp (.inl hr.symm)⟩
    · exact absurd heq (by decide)
    · exact ⟨hne, hstar, v, hv, rsName_wide_iff.mp (.inr hr.symm)⟩
  · rintro ⟨hne, hstar, v, hv, hwide⟩
    have hvne : v ≠ [] := by
      rintro rfl
      revert hwide
      decide
    rcases rsName_wide_iff.mpr hwide with hr | hr
    · exact .inl ⟨hne, .inr ⟨hstar, v, hv, hvne, hr.symm⟩⟩
    · exact .inr ⟨hne, .inr ⟨hstar, v, hv, hvne, hr.symm⟩⟩

theorem nativeLetter_of_pointer {args : List Text} {i : Nat} {a : Text}
    (ha : args[i]? = some a) (hstar : EndsIn '*' a) :
    (genNativeArgs args)[i + 2]? = some 'i' := by
  rw [getElem?_genNativeArgs ha,
    nativeLetter_eq_i_iff.mpr (not_endsWith_long_of_endsIn hstar)]

theorem nativeLetter_wide_iff {args : List Text} {i : Nat} {a : Text}
    (ha : args[i]? = some a) :
    (genNativeArgs args)[i + 2]? = some 'I' ↔ endsWith "long" a := by
  rw [getElem?_genNativeArgs ha, Option.some_inj, nativeLetter_eq_I_iff]

/-- The widths of a row agree exactly when every type of the row that resolves to an
integer type `p` is spelled with a final `long`, and has a wide alias chain, just in
case `p` is a 64-bit type. -/
theorem widthsAgree_iff (T : Templates) (sc : SyscallRow Cell) :
    WidthsAgree T sc ↔
      ∀ cells, TypeCells sc cells → ∀ c ∈ cells, ¬ EndsIn '*' c →
        ∀ p, TypeResolves T c p →
          (LongSpelled T c ↔ IsWide p) ∧ (WideChain T c ↔ IsWide p) := by
  constructor
  · intro h cells hcells c hmem hc p hp
    obtain ⟨i, hi⟩ := List.getElem?_of_mem hmem
    have ha : (cells.map (scSpelling T))[i]? = some (templateSpelling T c) := by
      rw [List.getElem?_map, hi, ← scSpelling_eq_templateSpelling hc]
      rfl
    obtain ⟨hletter, hrust⟩ := (h cells _ hcells hcells.getScargs i c _ hi ha).2 hc p hp
    rw [nativeLetter_wide_iff ha] at hletter hrust
    rw [rustifyArg_wide_iff] at hrust
    exact ⟨hletter, hrust.symm.trans hletter⟩
  · intro h cells args hcells hargs i c a hi ha
    rw [hcells.getScargs] at hargs
    cases hargs
    have haeq : a = scSpelling T c := by
      rw [List.getElem?_map, hi] at ha
      exact (Option.some.inj ha).symm
    constructor
    · intro hstar
      have hstarA : EndsIn '*' a := by
        rw [haeq, scSpelling_of_endsIn hstar]
        exact hstar
      exact ⟨nativeLetter_of_pointer ha hstarA, rustifyArg_of_endsIn hstarA⟩
    · intro hc p hp
      obtain ⟨hlong, hchain⟩ := h cells hcells c (List.mem_of_getElem? hi) hc p hp
      rw [nativeLetter_wide_iff ha, haeq, scSpelling_eq_templateSpelling hc,
        rustifyArg_wide_iff]
      exact ⟨hlong, hlong.trans hchain.symm⟩

/-- A call with one argument of the type `c`. -/
def oneArgRow (c : Text) : SyscallRow Cell where
  nr := .str "500"
  syscall := .str "probe"
  nargs := .str "1"
  argTypes := [.str c]
  aliases := .str ""
  unusedAliases := .str ""
  archNrs := []

/-- `time_t` is an alias written directly as `s64`: the native signature says 32
bits, the Rust declaration 64. -/
theorem time_t_widths_disagree : ¬ WidthsAgree shippedTemplates (oneArgRow "time_t") := by
  intro h
  have hcells : TypeCells (oneArgRow "time_t") ["time_t"] := ⟨rfl, by decide⟩
  have hresolves : TypeResolves shippedTemplates "time_t" "s64" :=
    .follow (by decide) (by decide) (.done (by decide))
  have hpoint := h _ _ hcells hcells.getScargs 0 "time_t" "s64" rfl rfl
  have hletter := (hpoint.2 (by decide) "s64" hresolves).1
  exact absurd (hletter.mpr (by decide)) (by decide)

end NativeWidths

section RustTermination

/-- Integer types of the Rust language that `rs_simplify` can produce. -/
def rustIntegers : List Text := ["i8", "i16", "i32", "i64", "u8", "u16", "u32", "u64"]

/-- `rustify_args` ends on the argument type `a`, with a Rust integer type or an
error. -/
def EndsInInteger (T : Templates) (a : Text) : Prop :=
  (∃ e, rustifyArg T a = raises e) ∨ ∃ r ∈ rustIntegers, rustifyArg T a = returns r

/-- The alias chain of the spelling reaches the primitive template, and the first
value of that template on it is empty or an integer type. -/
def ReachesInteger (T : Templates) (s : Text) : Prop :=
  s = [] ∨ EndsIn '*' s ∨
    ∃ v, FirstPrimitive T s v ∧ (v = [] ∨ v ∈ witIntegers ∨ v ∈ rustIntegers)

theorem rsName_mem_rustIntegers_iff {v : Text} :
    rsName v ∈ rustIntegers ↔ v ∈ witIntegers ∨ v ∈ rustIntegers := by
  unfold rsName
  split
  · next width =>
      simp [rustIntegers, witIntegers]
  · next hs =>
      constructor
      · exact .inr
      · rintro (hwit | hrust)
        · simp only [witIntegers, List.mem_cons, List.not_mem_nil, or_false] at hwit
          rcases hwit with rfl | rfl | rfl | rfl | rfl | rfl | rfl | rfl
          all_goals first
            | exact absurd rfl (hs _)
            | decide
        · exact hrust

theorem endsInInteger_iff {a : Text} : EndsInInteger T a ↔ ReachesInteger T a := by
  by_cases hne : a = []
  · refine iff_of_true (.inl ⟨.indexError, ?_⟩) (.inl hne)
    simp [rustifyArg, hne]
  by_cases hstar : EndsIn '*' a
  · refine iff_of_true (.inr ⟨"i32", by decide, rustifyArg_of_endsIn hstar⟩) (.inr (.inl hstar))
  rw [EndsInInteger, ReachesInteger, rustifyArg_of_not_endsIn hne hstar]
  simp only [hne, hstar, false_or, rsSimplify_eq_raises_iff, rsSimplify_eq_returns_iff]
  constructor
  · rintro (⟨e, hv, rfl⟩ | ⟨r, hr, v, hv, _, rfl⟩)
    · exact ⟨[], hv, .inl rfl⟩
    · exact ⟨v, hv, .inr (rsName_mem_rustIntegers_iff.mp hr)⟩
  · rintro ⟨v, hv, rfl | hint⟩
    · exact .inl ⟨_, hv, rfl⟩
    · refine .inr ⟨rsName v, rsName_mem_rustIntegers_iff.mpr hint, v, hv, ?_, rfl⟩
      rintro rfl
      revert hint
      decide

/-- The argument types of the row, each taken by itself: in the list comprehension the first
one that does not come out would hide those behind it. -/
def RustifyEnds (T : Templates) (sc : SyscallRow Cell) : Prop :=
  ∀ args, getScargs T sc = returns args → ∀ a ∈ args, EndsInInteger T a

/-- The Rust types of a row come out, as integer types or errors, exactly when the
alias chains of its types all reach the primitive template at an integer type. -/
theorem rustifyEnds_iff (T : Templates) (sc : SyscallRow Cell) :
    RustifyEnds T sc ↔
      ∀ cells, TypeCells sc cells → ∀ c ∈ cells,
        EndsIn '*' c ∨ ReachesInteger T (templateSpelling T c) := by
  constructor
  · intro h cells hcells c hmem
    by_cases hstar : EndsIn '*' c
    · exact .inl hstar
    · have hend := h _ hcells.getScargs (scSpelling T c) (List.mem_map.mpr ⟨c, hmem, rfl⟩)
      rw [scSpelling_eq_templateSpelling hstar] at hend
      exact .inr (endsInInteger_iff.mp hend)
  · intro h args hargs a hmem
    obtain ⟨cells, hcells, rfl⟩ := getScargs_eq_returns_iff.mp hargs
    obtain ⟨c, hc, rfl⟩ := List.mem_map.mp hmem
    by_cases hstar : EndsIn '*' c
    · rw [scSpelling_of_endsIn hstar]
      exact endsInInteger_iff.mpr (.inr (.inl hstar))
    · rw [scSpelling_eq_templateSpelling hstar]
      exact endsInInteger_iff.mpr ((h cells hcells c hc).resolve_left hstar)

/-- A type of neither template becomes `UNDEF`, which the loop looks up for ever. -/
theorem unknown_type_diverges :
    ¬ RustifyEnds shippedTemplates (oneArgRow "loff_t") ∧
      ∀ fuel, rsLoop shippedTemplates fuel undef = none := by
  have hdiverges : rustifyArg shippedTemplates undef = diverges := by decide
  constructor
  · intro h
    have hcells : TypeCells (oneArgRow "loff_t") ["loff_t"] := ⟨rfl, by decide⟩
    rcases h [undef] (hcells.getScargs.trans (by decide)) undef (by simp) with
      ⟨e, he⟩ | ⟨r, _, hr⟩
    · simp [hdiverges] at he
    · simp [hdiverges] at hr
  · rw [← rsSimplify_diverges_iff, ← rustifyArg_of_not_endsIn (by decide) (by decide)]
    exact hdiverges

end RustTermination

section DeclaredTypes

/-- A parameter of a declaration or a cast: a pointer or a basic C type. -/
def IsCType (T : Templates) (q : Text) : Prop := EndsIn '*' q ∨ q ∈ basicTypes T

/-- The types that resolve to an integer type are spelled as a basic type of that
value, and all types of the row's declaration and of its case statement are C
types. -/
structure DeclaredTypesResolved (T : Templates) (sc : SyscallRow Cell) : Prop where
  spelled : ∀ cells args : List Text, TypeCells sc cells → getScargs T sc = returns args →
    ∀ (i : Nat) (c a : Text), cells[i]? = some c → args[i]? = some a → ¬ EndsIn '*' c →
      ∀ p, TypeResolves T c p → (basicTypes T).get? a = some p
  params : ∀ d, stubRow T (defStub T) sc = returns (some d) → ∀ q ∈ d.params, IsCType T q
  casts : ∀ e, stubRow T (caseStub T) sc = returns (some e) → ∀ q ∈ e.casts, IsCType T q

/-- The type is a basic type with the value `p`, or a complex type whose template
value is the name of such a basic type. -/
def DirectlyBasic (T : Templates) (c p : Text) : Prop :=
  (basicTypes T).get? c = some p ∨
    (c ∉ basicTypes T ∧
      (basicTypes T).get? ((complexTypes T).getD c undef) = some p)

/-- The type is a pointer, a basic type, or a complex type whose template value is a
pointer or a basic type. -/
def OneStepCType (T : Templates) (c : Text) : Prop :=
  IsCType T c ∨ IsCType T ((complexTypes T).getD c undef)

/-- The type is no alias of the empty name. -/
def ValueNotEmpty (T : Templates) (c : Text) : Prop :=
  EndsIn '*' c ∨ c ∈ basicTypes T ∨ (complexTypes T).get? c ≠ some []

theorem scSpelling_ne_nil_iff (hne : c ≠ []) : scSpelling T c ≠ [] ↔ ValueNotEmpty T c := by
  by_cases hstar : EndsIn '*' c
  · rw [scSpelling_of_endsIn hstar]
    exact iff_of_true hne (.inl hstar)
  unfold ValueNotEmpty
  rcases @scSpelling_cases T c hstar with ⟨v, hv, hs⟩ | ⟨hb, u, hu, hs⟩ | ⟨hb, hu, hs⟩
  · rw [hs]
    exact iff_of_true hne (.inr (.inl (Dict.mem_iff_get?.mpr ⟨v, hv⟩)))
  · simp [hs, hu, hstar, Dict.get?_eq_none_iff.mp hb]
  · have hundef : undef ≠ [] := by decide
    simp [hs, hu, hundef]

theorem directlyBasic_iff {p : Text} :
    DirectlyBasic T c p ↔ (basicTypes T).get? (templateSpelling T c) = some p := by
  unfold DirectlyBasic templateSpelling
  by_cases hb : c ∈ basicTypes T
  · simp [hb]
  · simp [hb, Dict.get?_eq_none_iff.mpr hb]

theorem isCType_anonymized_iff {a : Text} : IsCType T (anonymized T a) ↔ IsCType T a := by
  by_cases hstar : EndsIn '*' a
  · exact iff_of_true (.inl (endsIn_anonymized_iff.mpr hstar)) (.inl hstar)
  · rw [anonymized_of_not_endsIn hstar]

theorem oneStepCType_iff : OneStepCType T c ↔ IsCType T (scSpelling T c) := by
  by_cases hstar : EndsIn '*' c
  · rw [scSpelling_of_endsIn hstar]
    exact iff_of_true (.inl (.inl hstar)) (.inl hstar)
  by_cases hb : c ∈ basicTypes T
  · rw [scSpelling_of_basic hb]
    exact iff_of_true (.inl (.inr hb)) (.inr hb)
  · rw [scSpelling_eq_templateSpelling hstar, templateSpelling, if_neg hb, OneStepCType]
    constructor
    · rintro ((h | h) | h)
      · exact absurd h hstar
      · exact absurd h hb
      · exact h
    · exact .inr

theorem stubRow_defStub_eq_returns_iff {d : SyscallDef} :
    stubRow T (defStub T) sc = returns (some d) ↔
      ∃ cells, TypeCells sc cells ∧ (∀ c ∈ cells, scSpelling T c ≠ []) ∧
        d = ⟨sc.fnName.text, cells.map fun c => anonymized T (scSpelling T c)⟩ := by
  constructor
  · intro h
    obtain ⟨args, hargs, hdef⟩ := bind_eq_returns_iff.mp h
    obtain ⟨params, hparams, hd⟩ := bind_eq_returns_iff.mp hdef
    obtain ⟨cells, hcells, rfl⟩ := getScargs_eq_returns_iff.mp hargs
    refine ⟨cells, hcells, fun c hc hnil => ?_, ?_⟩
    · obtain ⟨y, hy⟩ := finishes_forEach_iff.mp ⟨params, hparams⟩ (scSpelling T c)
        (List.mem_map.mpr ⟨c, hc, rfl⟩)
      exact (anonymizeType_eq_returns_iff.mp hy).1 hnil
    · rw [eq_map_of_ptrAnonymize hparams, List.map_map] at hd
      injection hd with hd
      injection hd with hd
      exact hd.symm
  · rintro ⟨cells, hcells, hne, rfl⟩
    have hparams : ptrAnonymize T (cells.map (scSpelling T)) =
        returns ((cells.map (scSpelling T)).map (anonymized T)) := by
      refine forEach_eq_map fun a ha => ?_
      obtain ⟨c, hc, rfl⟩ := List.mem_map.mp ha
      exact anonymizeType_eq_returns_iff.mpr ⟨hne c hc, rfl⟩
    simp [stubRow, hcells.getScargs, defStub, hparams, List.map_map, Function.comp_def]

theorem casts_eq_params {e : CaseSyscall}
    (h : stubRow T (caseStub T) sc = returns (some e)) :
    ∃ d, stubRow T (defStub T) sc = returns (some d) ∧ e.casts = d.params := by
  obtain ⟨args, hargs, hcase⟩ := bind_eq_returns_iff.mp h
  unfold caseStub at hcase
  split at hcase
  · obtain ⟨casts, hcasts, he⟩ := bind_eq_returns_iff.mp hcase
    refine ⟨⟨sc.fnName.text, casts⟩, ?_, ?_⟩
    · rw [stubRow, hargs, returns_bind, defStub, hcasts, returns_bind]
    · cases he
      rfl
  · cases hcase

/-- The C types of a row are resolved exactly when its types need no more than one
lookup. -/
theorem declaredTypesResolved_iff (T : Templates) (sc : SyscallRow Cell) :
    DeclaredTypesResolved T sc ↔
      ∀ cells, TypeCells sc cells →
        (∀ c ∈ cells, ¬ EndsIn '*' c → ∀ p, TypeResolves T c p → DirectlyBasic T c p) ∧
        ((∀ c ∈ cells, ValueNotEmpty T c) → ∀ c ∈ cells, OneStepCType T c) := by
  have hvalues : ∀ cells, TypeCells sc cells →
      ((∀ c ∈ cells, scSpelling T c ≠ []) ↔ ∀ c ∈ cells, ValueNotEmpty T c) :=
    fun cells hcells => forall₂_congr fun c hc => scSpelling_ne_nil_iff (hcells.2 c hc)
  constructor
  · intro h cells hcells
    constructor
    · intro c hmem hc p hp
      obtain ⟨i, hi⟩ := List.getElem?_of_mem hmem
      have ha : (cells.map (scSpelling T))[i]? = some (scSpelling T c) := by
        rw [List.getElem?_map, hi]
        rfl
      have hspelled := h.spelled cells _ hcells hcells.getScargs i c _ hi ha hc p hp
      rw [scSpelling_eq_templateSpelling hc] at hspelled
      exact directlyBasic_iff.mpr hspelled
    · intro hne c hmem
      have hdef := stubRow_defStub_eq_returns_iff.mpr
        ⟨cells, hcells, (hvalues cells hcells).mpr hne, rfl⟩
      have hparam := h.params _ hdef (anonymized T (scSpelling T c))
        (List.mem_map.mpr ⟨c, hmem, rfl⟩)
      exact oneStepCType_iff.mpr (isCType_anonymized_iff.mp hparam)
  · intro h
    have hparams : ∀ d, stubRow T (defStub T) sc = returns (some d) →
        ∀ q ∈ d.params, IsCType T q := by
      intro d hd q hq
      obtain ⟨cells, hcells, hne, rfl⟩ := stubRow_defStub_eq_returns_iff.mp hd
      obtain ⟨c, hc, rfl⟩ := List.mem_map.mp hq
      exact isCType_anonymized_iff.mpr (oneStepCType_iff.mp
        ((h cells hcells).2 ((hvalues cells hcells).mp hne) c hc))
    refine ⟨?_, hparams, ?_⟩
    · intro cells args hcells hargs i c a hi ha hc p hp
      rw [hcells.getScargs] at hargs
      cases hargs
      rw [List.getElem?_map, hi] at ha
      cases ha
      have hbasic := (h cells hcells).1 c (List.mem_of_getElem? hi) hc p hp
      rw [scSpelling_eq_templateSpelling hc]
      exact directlyBasic_iff.mp hbasic
    · intro e he q hq
      obtain ⟨d, hd, hcasts⟩ := casts_eq_params he
      exact hparams d hd q (hcasts ▸ hq)

/-- `time_t` is declared as `s64`, which is no C type. -/
theorem time_t_declared_as_primitive :
    ¬ DeclaredTypesResolved shippedTemplates (oneArgRow "time_t") := by
  intro h
  have hparam := h.params ⟨"probe", ["s64"]⟩ rfl "s64" (by simp)
  revert hparam
  unfold IsCType
  decide

end DeclaredTypes

end Wali.ScalarTypes
