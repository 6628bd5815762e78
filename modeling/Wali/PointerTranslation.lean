import Wali.WamrStubs
import Wali.WitStubs

/-!
Which arguments each generator takes for pointers.
-/

namespace Wali.PointerTranslation

open Wali.ArgumentTypes
open Wali.InsertionDict
open Wali.PythonText
open Wali.RunOutcome
open Wali.RunOutcome.Outcome
open Wali.StubEmission
open Wali.SyscallTable
open Wali.TypeTemplates
open Wali.WamrStubs
open Wali.WitStubs

/-- The WIT generator takes the cell for a pointer: it writes a `ptr-` type in
place of a trailing `*`. -/
def WitPointer (c : Text) : Prop := EndsIn '*' (kebab (strip c))

/-- `impl_stub` emits `body` for the row with the argument cells `cells`. -/
structure EmitsBody (T : Templates) (sc : SyscallRow Cell) (cells : List Text)
    (body : WamrImpl) : Prop where
  typeCells : TypeCells sc cells
  emits : stubRow T implStub sc = returns (some body)

/-- The call in the body translates its `i`-th argument. -/
def Translated (body : WamrImpl) (i : Nat) : Prop :=
  body.callArgs[i]? = some (.maddr (i + 1))

/-- `name` is `ptr-` and what stands before the `*` of the stripped cell. -/
def PtrTypeFor (c name : Text) : Prop :=
  ∃ x, kebab (strip c) = x ++ ['*'] ∧ name = ptrPrefix ++ x

/-- What the WIT row loop makes of one cell. -/
def witCell (c : Cell) : Outcome PyErr Text := do
  let name ← witName c
  witArgType name

/-- `get_scargs` hands the `i`-th cell on as it is, whatever the templates. -/
def HandedOn (sc : SyscallRow Cell) (i : Nat) (c : Text) : Prop :=
  ∀ T args, getScargs T sc = returns args → args[i]? = some c

/-- `ptr_anonymize` leaves a `void*` or a pointer to a basic type at `i`. -/
def AnonymizedPointer (T : Templates) (sc : SyscallRow Cell) (i : Nat) : Prop :=
  ∃ args params p, getScargs T sc = returns args ∧ ptrAnonymize T args = returns params ∧
    params[i]? = some p ∧ (p = "void*" ∨ ∃ b ∈ basicTypes T, p = b ++ ['*'])

/-- `rustify_args` makes the `i32` of a pointer of the `i`-th type that `get_scargs`
returns: this type is an `i32` whatever the templates say of it. -/
def RustPointer (T : Templates) (sc : SyscallRow Cell) (i : Nat) : Prop :=
  ∃ args a, getScargs T sc = returns args ∧ args[i]? = some a ∧
    ∀ T', rustifyArgs T' [a] = returns ["i32".toList]

/-- The views of one cell agree: `MADDR` in the body, the `ptr-` type that the WIT
row loop makes of the cell and the one in the function it writes, and what
`get_scargs`, `ptr_anonymize` and `rustify_args` return for the cell. -/
structure PointerViewsAgree (T : Templates) (sc : SyscallRow Cell) (body : WamrImpl)
    (i : Nat) (c : Text) : Prop where
  wit : Translated body i ↔ ∃ name, witCell (.str c) = returns name ∧ PtrTypeFor c name
  signature : ∀ types f, witRow T sc = returns (types, some f) →
    (Translated body i ↔ ∃ name, f.argTypes[i]? = some name ∧ PtrTypeFor c name)
  scargs : Translated body i ↔ HandedOn sc i c
  anonymize : Translated body i ↔ AnonymizedPointer T sc i
  rustify : Translated body i ↔ RustPointer T sc i

/-- The views of all cells of a row agree. -/
def RowPointersAgree (T : Templates) (sc : SyscallRow Cell) : Prop :=
  ∀ cells body, EmitsBody T sc cells body →
    ∀ i c, cells[i]? = some c → PointerViewsAgree T sc body i c

/-- Either the cell ends in `*`, or no `*` becomes its last character: not by
stripping white space, and not by looking it up in the complex template. -/
def StarIsLast (T : Templates) (c : Text) : Prop :=
  EndsIn '*' c ∨
    (¬ EndsIn '*' (strip c) ∧
      (c ∈ basicTypes T ∨ ∀ u, (complexTypes T).get? c = some u → ¬ EndsIn '*' u))

variable {T : Templates} {sc : SyscallRow Cell} {cells : List Text} {body : WamrImpl}

theorem witPointer_iff (c : Text) : WitPointer c ↔ EndsIn '*' (strip c) :=
  endsIn_kebab_iff (strip c)

theorem witPointer_of_endsIn {c : Text} (h : EndsIn '*' c) : WitPointer c :=
  (witPointer_iff c).mpr (endsIn_strip not_isSpace_star h)

theorem witType_of_witPointer {c : Text} (h : WitPointer c) :
    witType c = ptrPrefix ++ (kebab (strip c)).dropLast :=
  if_pos h

theorem ptrTypeFor_witType_iff (c : Text) : PtrTypeFor c (witType c) ↔ WitPointer c := by
  constructor
  · rintro ⟨x, hx, _⟩
    exact endsIn_iff_concat.mpr ⟨x, hx⟩
  · intro hptr
    obtain ⟨x, hx⟩ := endsIn_iff_concat.mp hptr
    refine ⟨x, hx, ?_⟩
    rw [witType_of_witPointer hptr, hx, List.dropLast_concat]

theorem startsWith_of_witPointer {c : Text} (h : WitPointer c) :
    startsWith ptrPrefix (witType c) := by
  rw [witType_of_witPointer h]
  exact List.prefix_append _ _

theorem witCell_eq_returns_iff {c name : Text} :
    witCell (.str c) = returns name ↔ strip c ≠ [] ∧ name = witType c := by
  rw [witCell, witName, returns_bind, witArgType]
  split
  · next hnil => simp [kebab_eq_nil_iff.mp hnil]
  · next hne => simp [kebab_eq_nil_iff.not.mp hne, witType, eq_comm]

/-- The row loop makes a `ptr-` type of the cells that end in `*` once stripped. -/
theorem exists_witCell_iff (c : Text) :
    (∃ name, witCell (.str c) = returns name ∧ PtrTypeFor c name) ↔ WitPointer c := by
  constructor
  · rintro ⟨_, hname, hptr⟩
    obtain ⟨_, rfl⟩ := witCell_eq_returns_iff.mp hname
    exact (ptrTypeFor_witType_iff c).mp hptr
  · intro hptr
    refine ⟨witType c, witCell_eq_returns_iff.mpr ⟨fun hnil => ?_, rfl⟩,
      (ptrTypeFor_witType_iff c).mpr hptr⟩
    exact not_endsIn_nil _ (hnil ▸ (witPointer_iff c).mp hptr)

theorem getElem?_scSpelling {i : Nat} {c : Text} (hc : cells[i]? = some c) :
    (cells.map (scSpelling T))[i]? = some (scSpelling T c) := by
  rw [List.getElem?_map, hc]
  rfl

namespace EmitsBody

variable {i : Nat} {c : Text} (h : EmitsBody T sc cells body) (hc : cells[i]? = some c)
include h

theorem exists_signature_iff {types : List Text} {f : WitFunc} (hc : cells[i]? = some c)
    (hrow : witRow T sc = returns (types, some f)) :
    (∃ name, f.argTypes[i]? = some name ∧ PtrTypeFor c name) ↔ WitPointer c := by
  obtain ⟨cells', _, hcells, _, _, rfl, hentry⟩ := witRow_eq_returns_iff.mp hrow
  rw [← argCells_inj h.typeCells.1 hcells] at hentry
  split at hentry
  · cases hentry
    have hname : ((cells.map witType).map (writtenType T))[i]? =
        some (writtenType T (witType c)) := by
      simp [hc]
    simp only [hname, Option.some.injEq]
    constructor
    · rintro ⟨_, _, x, hx, _⟩
      exact endsIn_iff_concat.mpr ⟨x, hx⟩
    · intro hptr
      refine ⟨_, rfl, ?_⟩
      rw [writtenType_of_startsWith (startsWith_of_witPointer hptr)]
      exact (ptrTypeFor_witType_iff c).mpr hptr
  · cases hentry

theorem implStub_eq : implStub sc.nr sc.nargs sc.syscall sc.fnName
    (cells.map (scSpelling T)) = returns (some body) := by
  obtain ⟨args, hargs, hbody⟩ := bind_eq_returns_iff.mp h.emits
  rw [h.typeCells.getScargs] at hargs
  cases hargs
  exact hbody

theorem scSpelling_ne_nil {c : Text} (hmem : c ∈ cells) : scSpelling T c ≠ [] := by
  obtain ⟨hsupported, _⟩ := implStub_eq_returns h.implStub_eq
  exact finishes_implStub_iff.mp ⟨_, h.implStub_eq⟩ hsupported _ (List.mem_map_of_mem hmem)

include hc

theorem translated_iff : Translated body i ↔ EndsIn '*' (scSpelling T c) := by
  rw [Translated, getElem?_callArgs h.implStub_eq (getElem?_scSpelling hc)]
  split
  · next hstar => simp [hstar]
  · next hstar => simp [hstar]

theorem handedOn_iff : HandedOn sc i c ↔ EndsIn '*' c := by
  have hspelled : HandedOn sc i c ↔ ∀ T', scSpelling T' c = c := by
    refine forall_congr' fun T' => ?_
    simp only [h.typeCells.getScargs, returns.injEq, forall_eq', getElem?_scSpelling hc,
      Option.some.injEq]
  rw [hspelled]
  constructor
  · intro hkept
    by_contra hstar
    -- Without templates the type is unknown; UNDEF itself needs an alias to change.
    have hundef : undef = c := by
      rw [← hkept ⟨Dict.ofList [], Dict.ofList []⟩]
      exact (scSpelling_of_unknown hstar List.not_mem_nil rfl).symm
    have halias := hkept ⟨Dict.ofList [], Dict.ofList [(undef, "int".toList)]⟩
    rw [← hundef] at halias
    exact absurd halias (by decide)
  · exact fun hstar T' => scSpelling_of_endsIn hstar

theorem anonymizedPointer_iff :
    AnonymizedPointer T sc i ↔ EndsIn '*' (scSpelling T c) := by
  have hne : ∀ a ∈ cells.map (scSpelling T), a ≠ [] := by
    intro a ha
    obtain ⟨c', hc', rfl⟩ := List.mem_map.mp ha
    exact h.scSpelling_ne_nil hc'
  constructor
  · rintro ⟨args, params, p, hargs, hparams, hp, hpointer⟩
    rw [h.typeCells.getScargs, returns.injEq] at hargs
    subst hargs
    rw [eq_map_of_ptrAnonymize hparams, List.getElem?_map, getElem?_scSpelling hc,
      Option.map_some, Option.some.injEq] at hp
    rw [← endsIn_anonymized_iff (T := T), hp]
    rcases hpointer with rfl | ⟨b, _, rfl⟩
    · decide
    · exact endsIn_iff_concat.mpr ⟨b, rfl⟩
  · intro hstar
    obtain ⟨params, hparams⟩ := finishes_ptrAnonymize_iff.mpr hne
    refine ⟨_, params, anonymized T (scSpelling T c), h.typeCells.getScargs, hparams, ?_, ?_⟩
    · rw [eq_map_of_ptrAnonymize hparams, List.getElem?_map, getElem?_scSpelling hc]
      rfl
    · exact anonymized_of_endsIn hstar

theorem rustPointer_iff : RustPointer T sc i ↔ EndsIn '*' (scSpelling T c) := by
  have hspelled : RustPointer T sc i ↔
      ∀ T', rustifyArgs T' [scSpelling T c] = returns ["i32".toList] := by
    constructor
    · rintro ⟨args, a, hargs, ha, hrust⟩
      rw [h.typeCells.getScargs, returns.injEq] at hargs
      rw [← hargs, getElem?_scSpelling hc, Option.some.injEq] at ha
      rw [ha]
      exact hrust
    · intro hrust
      exact ⟨_, _, h.typeCells.getScargs, getElem?_scSpelling hc, hrust⟩
  rw [hspelled]
  exact rustifyArgs_singleton_iff

end EmitsBody

theorem pointerViewsAgree_iff (h : EmitsBody T sc cells body) {i : Nat} {c : Text}
    (hc : cells[i]? = some c) : PointerViewsAgree T sc body i c ↔ StarIsLast T c := by
  have hmaddr := h.translated_iff hc
  by_cases hstar : EndsIn '*' c
  · have hspelled : EndsIn '*' (scSpelling T c) := (scSpelling_of_endsIn hstar).symm ▸ hstar
    have hwit : WitPointer c := witPointer_of_endsIn hstar
    refine iff_of_true ?_ (.inl hstar)
    exact
      { wit := iff_of_true (hmaddr.mpr hspelled) ((exists_witCell_iff c).mpr hwit)
        signature := fun _ _ hrow =>
          iff_of_true (hmaddr.mpr hspelled) ((h.exists_signature_iff hc hrow).mpr hwit)
        scargs := iff_of_true (hmaddr.mpr hspelled) ((h.handedOn_iff hc).mpr hstar)
        anonymize := hmaddr.trans (h.anonymizedPointer_iff hc).symm
        rustify := hmaddr.trans (h.rustPointer_iff hc).symm }
  · constructor
    · intro hviews
      have hplain : ¬ Translated body i :=
        fun hm => hstar ((h.handedOn_iff hc).mp (hviews.scargs.mp hm))
      refine .inr ⟨?_, ?_⟩
      · intro hstrip
        refine hplain (hviews.wit.mpr ((exists_witCell_iff c).mpr ?_))
        exact (witPointer_iff c).mpr hstrip
      · by_contra hcomplex
        obtain ⟨hbasic, hvalue⟩ := not_or.mp hcomplex
        push Not at hvalue
        obtain ⟨u, hu, hstarU⟩ := hvalue
        exact hplain (hmaddr.mpr ((endsIn_scSpelling_iff hstar).mpr ⟨hbasic, u, hu, hstarU⟩))
    · rintro (hlast | ⟨hstrip, hcomplex⟩)
      · exact absurd hlast hstar
      · have hspelled : ¬ EndsIn '*' (scSpelling T c) := by
          rw [endsIn_scSpelling_iff hstar]
          rintro ⟨hbasic, u, hu, hstarU⟩
          rcases hcomplex with hmem | hnot
          · exact hbasic hmem
          · exact hnot u hu hstarU
        have hplain : ¬ Translated body i := fun hm => hspelled (hmaddr.mp hm)
        have hwit : ¬ WitPointer c := fun hw => hstrip ((witPointer_iff c).mp hw)
        exact
          { wit := iff_of_false hplain ((exists_witCell_iff c).not.mpr hwit)
            signature := fun _ _ hrow =>
              iff_of_false hplain ((h.exists_signature_iff hc hrow).not.mpr hwit)
            scargs := iff_of_false hplain ((h.handedOn_iff hc).not.mpr hstar)
            anonymize := hmaddr.trans (h.anonymizedPointer_iff hc).symm
            rustify := hmaddr.trans (h.rustPointer_iff hc).symm }

/-- The generators agree on the pointers of a row exactly when no cell of the row
hides a `*` behind trailing white space or behind an alias. -/
theorem rowPointersAgree_iff (T : Templates) (sc : SyscallRow Cell) :
    RowPointersAgree T sc ↔
      ∀ cells body, EmitsBody T sc cells body → ∀ c ∈ cells, StarIsLast T c := by
  constructor
  · intro h cells body hbody c hmem
    obtain ⟨i, hi⟩ := List.getElem?_of_mem hmem
    exact (pointerViewsAgree_iff hbody hi).mp (h cells body hbody i c hi)
  · intro h cells body hbody i c hi
    exact (pointerViewsAgree_iff hbody hi).mpr
      (h cells body hbody c (List.mem_of_getElem? hi))

/-- `read` with a blank after the type of its buffer. -/
def spacedRow : SyscallRow Cell where
  nr := .str "0"
  syscall := .str "read"
  nargs := .str "1"
  argTypes := [.str "void* "]
  aliases := .str ""
  unusedAliases := .str ""
  archNrs := []

/-- The host receives the guest address of a buffer that the WIT file declares as
a pointer. -/
theorem spacedRow_pointers_disagree : ¬ RowPointersAgree shippedTemplates spacedRow := by
  intro h
  have hbody : EmitsBody shippedTemplates spacedRow ["void* "]
      { nr := "0", fnName := "read", params := ["long a1"], numArgs := 1,
        callArgs := [.plain 1] } :=
    { typeCells := ⟨rfl, by decide⟩
      emits := rfl }
  have hmaddr := (h _ _ hbody 0 "void* " rfl).wit.mpr (by
    rw [exists_witCell_iff, witPointer_iff]
    decide)
  rw [Translated] at hmaddr
  exact absurd hmaddr (by decide)

end Wali.PointerTranslation
