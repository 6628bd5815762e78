import Wali.PointerTranslation
import Wali.RecordDeclarations
import Wali.ScalarTypes

/-!
The type names that the interface `syscalls` introduces: whether the types of its
functions are among them when the generator misses no record, and whether a name is
introduced twice.
-/

namespace Wali.WitScoping

open Wali.ArgumentTypes
open Wali.InsertionDict
open Wali.PointerTranslation
open Wali.PythonText
open Wali.RecordDeclarations
open Wali.RunOutcome
open Wali.RunOutcome.Outcome
open Wali.ScalarTypes
open Wali.SyscallTable
open Wali.TypeTemplates
open Wali.WitStubs

/-- The names that the interface `syscalls` imports from `types`, declares as
aliases of `ptr`, and declares as records. -/
def introduced (wit : WitInterface) : List Text :=
  wit.compTypes.keys ++ (wit.uniqPtrTypes ++ declaredRecords wit.recordLines)

/-- A type that the functions of the interface may use. -/
def Known (wit : WitInterface) (t : Text) : Prop := t ∈ introduced wit ∨ t ∈ witPrimitives

instance (wit : WitInterface) (t : Text) : Decidable (Known wit t) :=
  inferInstanceAs (Decidable (_ ∨ _))

def pointee (p : Text) : Text := p.drop 4

/-- The pointees have a type or record declaration. -/
def PointeesDeclared (wit : WitInterface) : Prop :=
  ∀ p ∈ wit.uniqPtrTypes, pointee p ≠ "void" → pointee p ≠ "char" →
    pointee p ∈ wit.compTypes ∨ pointee p ∈ declaredRecords wit.recordLines

instance (wit : WitInterface) : Decidable (PointeesDeclared wit) :=
  inferInstanceAs (Decidable (∀ p ∈ wit.uniqPtrTypes, _ → _ → _ ∨ _))

/-- The types of the parameters are declared or WIT primitives. -/
def ParametersKnown (wit : WitInterface) : Prop :=
  ∀ f ∈ wit.methods, ∀ t ∈ f.argTypes, Known wit t

instance (wit : WitInterface) : Decidable (ParametersKnown wit) :=
  inferInstanceAs (Decidable (∀ f ∈ wit.methods, ∀ t ∈ f.argTypes, Known wit t))

/-- A name of the `types` interface. -/
def IsTypeName (T : Templates) (x : Text) : Prop :=
  x = syscallResult ∨ ∃ v ∈ combinedTypes T, x = kebab v

/-- The argument type is a pointer, or its name starts with `ptr-`, or the name is
that of a type of the templates, of a record or of a WIT primitive. -/
def Recognised (T : Templates) (recordContent c : Text) : Prop :=
  WitPointer c ∨ startsWith ptrPrefix (kebab (strip c)) ∨ IsTypeName T (kebab (strip c)) ∨
    kebab (strip c) ∈ declaredRecords recordContent ∨ kebab (strip c) ∈ witPrimitives

/-- `p` is the `ptr-` name of the argument type `c`: that of a pointer, or the name
of a type passed by value that starts so. -/
def AliasOf (c p : Text) : Prop :=
  (∃ x, strip c = x ++ ['*'] ∧ p = ptrPrefix ++ kebab x) ∨
    (¬ EndsIn '*' (strip c) ∧ p = kebab (strip c) ∧ startsWith ptrPrefix p)

/-- Records have names of their own, and the `ptr-` names of the argument types are
neither names of types nor of records. -/
structure NamesApart (T : Templates) (recordContent : Text)
    (rows : List (SyscallRow Cell)) : Prop where
  records : (declaredRecords recordContent).Nodup
  types : ∀ r ∈ declaredRecords recordContent, ¬ IsTypeName T r
  aliases : ∀ c p, ArgumentCell rows c → AliasOf c p →
    ¬ IsTypeName T p ∧ p ∉ declaredRecords recordContent

variable {T : Templates} {recordContent : Text} {rows : List (SyscallRow Cell)}
variable {wit : WitInterface} {c p t : Text}

theorem aliasOf_iff : AliasOf c p ↔ startsWith ptrPrefix p ∧ p = witType c := by
  by_cases hstar : EndsIn '*' (strip c)
  · obtain ⟨x, hx⟩ := endsIn_iff_concat.mp hstar
    have hname : witType c = ptrPrefix ++ kebab x := by
      rw [witType_of_witPointer ((witPointer_iff c).mpr hstar), hx]
      simp [kebab, replaceChar]
    rw [hname]
    constructor
    · rintro (⟨x', hx', rfl⟩ | ⟨hnot, _⟩)
      · rw [hx, List.append_cancel_right_eq] at hx'
        rw [hx']
        exact ⟨List.prefix_append _ _, rfl⟩
      · exact absurd hstar hnot
    · rintro ⟨_, rfl⟩
      exact .inl ⟨x, hx, rfl⟩
  · have hname : witType c = kebab (strip c) := by
      rw [witType, witArg, if_neg ((endsIn_kebab_iff _).not.mpr hstar)]
    rw [hname]
    constructor
    · rintro (⟨x, hx, _⟩ | ⟨_, rfl, hstarts⟩)
      · exact absurd (endsIn_iff_concat.mpr ⟨x, hx⟩) hstar
      · exact ⟨hstarts, rfl⟩
    · rintro ⟨hstarts, rfl⟩
      exact .inr ⟨hstar, rfl, hstarts⟩

theorem mem_values_of_basic {b v : Text} (h : (basicTypes T).get? b = some v) :
    v ∈ T.primitives.values := by
  obtain ⟨entry, hentry, heq⟩ := List.mem_map.mp (Dict.mem_pairs_of_get?_ofList h)
  cases heq
  exact List.mem_map.mpr ⟨entry, hentry, rfl⟩

theorem kebab_pointee (c : Text) : kebab (pointee (witType c)) = pointee (witType c) := by
  refine kebab_of_not_mem (fun h => ?_) (fun h => ?_)
  · exact not_mem_witType (by decide) (space_not_mem_kebab _) (List.mem_of_mem_drop h)
  · exact not_mem_witType (by decide) (score_not_mem_kebab _) (List.mem_of_mem_drop h)

section Interface

variable (hwit : genWitStubs T recordContent rows = returns wit)
include hwit

theorem mem_compTypes_iff {x : Text} : x ∈ wit.compTypes ↔ IsTypeName T x := by
  obtain ⟨_, _, htypes, _⟩ := genWitStubs_eq_returns_iff.mp hwit
  rw [htypes]
  exact mem_compTypes

theorem records_eq : declaredRecords wit.recordLines = declaredRecords recordContent := by
  obtain ⟨_, _, _, _, hcontent, _⟩ := genWitStubs_eq_returns_iff.mp hwit
  rw [declaredRecords_recordLines, hcontent]

theorem mem_aliases_iff :
    p ∈ wit.uniqPtrTypes ↔ ∃ c, ArgumentCell rows c ∧ AliasOf c p := by
  rw [mem_uniqPtrTypes hwit]
  constructor
  · rintro ⟨hstarts, c, hc, hp⟩
    exact ⟨c, hc, aliasOf_iff.mpr ⟨hstarts, hp⟩⟩
  · rintro ⟨c, hc, halias⟩
    obtain ⟨hstarts, hp⟩ := aliasOf_iff.mp halias
    exact ⟨hstarts, c, hc, hp⟩

theorem mem_introduced_iff {x : Text} :
    x ∈ introduced wit ↔
      IsTypeName T x ∨ (∃ c, ArgumentCell rows c ∧ AliasOf c x) ∨
        x ∈ declaredRecords recordContent := by
  rw [introduced, List.mem_append, List.mem_append, ← Dict.mem_iff, mem_compTypes_iff hwit,
    mem_aliases_iff hwit, records_eq hwit]

theorem known_writtenType_iff (hprim : ∀ v ∈ T.primitives.values, v ∈ witPrimitives)
    (hc : ArgumentCell rows c) :
    Known wit (writtenType T (witType c)) ↔ Recognised T recordContent c := by
  by_cases hptr : WitPointer c
  · have hstarts : startsWith ptrPrefix (witType c) := by
      rw [witType_of_witPointer hptr]
      exact List.prefix_append _ _
    rw [writtenType_of_startsWith hstarts]
    refine iff_of_true (.inl ((mem_introduced_iff hwit).mpr ?_)) (.inl hptr)
    exact .inr (.inl ⟨c, hc, aliasOf_iff.mpr ⟨hstarts, rfl⟩⟩)
  · have hname : witType c = kebab (strip c) := if_neg hptr
    have halias : (∃ c', ArgumentCell rows c' ∧ AliasOf c' (witType c)) ↔
        startsWith ptrPrefix (witType c) := by
      constructor
      · rintro ⟨c', _, h⟩
        exact (aliasOf_iff.mp h).1
      · intro hstarts
        exact ⟨c, hc, aliasOf_iff.mpr ⟨hstarts, rfl⟩⟩
    rcases hb : (basicTypes T).get? (witType c) with _ | v
    · rw [writtenType, Dict.getD_of_not_mem _ (Dict.get?_eq_none_iff.mp hb), Known,
        mem_introduced_iff hwit, halias, Recognised, hname]
      tauto
    · rw [writtenType, Dict.getD_of_get? _ hb]
      refine iff_of_true (.inr (hprim v (mem_values_of_basic hb))) (.inr (.inr (.inl (.inr ?_))))
      refine ⟨witType c, Dict.mem_union.mpr (.inl (Dict.mem_iff_get?.mpr ⟨v, hb⟩)), ?_⟩
      rw [hname, kebab_kebab]

/-- What the check computes: with no record missing, a pointee other than `void` and
`char` is a key of one of the two dictionaries or was found by the scan. -/
theorem pointee_declared (honly : OnlyDeclarations recordContent)
    (hmissing : wit.missingTypes = []) : PointeesDeclared wit := by
  intro p hp hvoid hchar
  obtain ⟨_, _, htypes, _, _, _, hmiss⟩ := genWitStubs_eq_returns_iff.mp hwit
  obtain ⟨hstarts, c, _, rfl⟩ := (mem_uniqPtrTypes hwit).mp hp
  by_cases hbasic : pointee (witType c) ∈ basicTypes T
  · refine .inl ((mem_compTypes_iff hwit).mpr (.inr ?_))
    exact ⟨_, Dict.mem_union.mpr (.inl hbasic), (kebab_pointee c).symm⟩
  by_cases hcomp : pointee (witType c) ∈ compTypes T
  · rw [htypes]
    exact .inl hcomp
  have hneeded : pointee (witType c) ∈ scPtrTypes T wit.uniqPtrTypes :=
    List.mem_filter.mpr ⟨List.mem_map.mpr ⟨_, hp, rfl⟩, by
      simp only [decide_eq_true_eq]
      exact ⟨hbasic, hcomp, hvoid, hchar⟩⟩
  rw [hmissing] at hmiss
  have hfound : pointee (witType c) ∈ recordTypes recordContent := by
    by_contra hnot
    exact List.not_mem_nil (hmiss ▸ List.mem_filter.mpr ⟨hneeded, by simpa using hnot⟩)
  rw [records_eq hwit]
  exact .inr (mem_declaredRecords_of_mem_recordTypes honly hfound)

/-- The keys of a dictionary and the items of a set do not repeat, so a name comes
twice only where two of the three kinds of names meet, or in the records. -/
theorem introduced_once_iff : (introduced wit).Nodup ↔ NamesApart T recordContent rows := by
  obtain ⟨buf, _, _, hptr, _⟩ := genWitStubs_eq_returns_iff.mp hwit
  have hkeys : wit.compTypes.keys.Nodup := wit.compTypes.nodup
  have haliases : wit.uniqPtrTypes.Nodup := by
    rw [hptr]
    exact nodup_sorted _
  rw [introduced, List.nodup_append', List.nodup_append', records_eq hwit]
  simp only [hkeys, haliases, true_and]
  constructor
  · rintro ⟨⟨hrecords, hapart⟩, htypes⟩
    refine ⟨hrecords, fun r hr htype => ?_, fun c p hc halias => ⟨fun htype => ?_, ?_⟩⟩
    · exact htypes ((mem_compTypes_iff hwit).mpr htype) (List.mem_append_right _ hr)
    · refine htypes ((mem_compTypes_iff hwit).mpr htype) (List.mem_append_left _ ?_)
      exact (mem_aliases_iff hwit).mpr ⟨c, hc, halias⟩
    · exact fun hr => hapart ((mem_aliases_iff hwit).mpr ⟨c, hc, halias⟩) hr
  · intro h
    refine ⟨⟨h.records, fun p hp hr => ?_⟩, fun x hx hrest => ?_⟩
    · obtain ⟨c, hc, halias⟩ := (mem_aliases_iff hwit).mp hp
      exact (h.aliases c p hc halias).2 hr
    · have htype : IsTypeName T x := (mem_compTypes_iff hwit).mp hx
      rcases List.mem_append.mp hrest with hp | hr
      · obtain ⟨c, hc, halias⟩ := (mem_aliases_iff hwit).mp hp
        exact (h.aliases c x hc halias).1 htype
      · exact h.types x hr htype

/-- The check does not look at the types passed by value: the type of a parameter is
known when the templates, the records or WIT know its argument type. -/
theorem known_parameter_iff (hprim : ∀ v ∈ T.primitives.values, v ∈ witPrimitives)
    {f : WitFunc} (hf : f ∈ wit.methods) {i : Nat} (hc : f.origArgs[i]? = some c)
    (ht : f.argTypes[i]? = some t) : Known wit t ↔ Recognised T recordContent c := by
  obtain ⟨htypes, horigin⟩ := origin_of_mem_methods hwit hf
  rw [htypes, List.getElem?_map, hc] at ht
  cases ht
  exact known_writtenType_iff hwit hprim (horigin c (List.mem_of_getElem? hc))

end Interface

def fdSetRecord : Text := "record fd-set \x7b\n  fds-bits: Array[128, u8]\n\x7d\n"

/-- Templates that alias a primitive type to a type WIT does not have. -/
def wordTemplates : Templates where
  primitives := Dict.ofList [("int", "word")]
  complex := Dict.ofList []

theorem argumentCell_oneArgRow {c' : Text} : ArgumentCell [oneArgRow c'] c ↔ c = c' := by
  have hcells : argCells (oneArgRow c') = returns ([c'].map Cell.str) := rfl
  constructor
  · rintro ⟨sc, hsc, cells, hargs, hc⟩
    rw [List.mem_singleton.mp hsc] at hargs
    rw [argCells_inj hargs hcells] at hc
    exact List.mem_singleton.mp hc
  · rintro rfl
    exact ⟨_, List.mem_singleton.mpr rfl, [c], hcells, List.mem_singleton.mpr rfl⟩

theorem fd_set_introduced_once :
    ∃ wit, genWitStubs shippedTemplates fdSetRecord [oneArgRow "fd_set*"] = returns wit ∧
      (introduced wit).Nodup := by
  refine ⟨_, rfl, (@introduced_once_iff _ _ [oneArgRow "fd_set*"] _ rfl).mpr ?_⟩
  have htypes : ∀ x ∈ ["fd-set".toList, "ptr-fd-set".toList],
      ¬ IsTypeName shippedTemplates x := by
    intro x hx
    refine mem_compTypes.not.mp ?_
    revert x
    decide
  refine ⟨by decide, fun r hr => htypes r ?_, fun c p hc halias => ?_⟩
  · revert r
    decide
  · obtain ⟨_, rfl⟩ := aliasOf_iff.mp halias
    rw [argumentCell_oneArgRow.mp hc]
    exact ⟨htypes _ (by decide), by decide⟩

/-- The C spelling of the template type `ptr-func` as an argument type: the interface
imports `ptr-func` and declares an alias of that name. -/
theorem ptr_func_introduced_twice :
    "ptr func".toList ∈ basicTypes shippedTemplates ∧
      ((compTypes shippedTemplates).keys ++ declaredRecords fdSetRecord).Nodup ∧
      ∃ wit, genWitStubs shippedTemplates fdSetRecord [oneArgRow "ptr func"] = returns wit ∧
        ¬ (introduced wit).Nodup := by
  refine ⟨by decide, by decide, _, rfl, ?_⟩
  decide

end Wali.WitScoping
