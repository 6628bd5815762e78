import Wali.SyscallTable
import Wali.TypeTemplates

/-!
Argument types of a row: `get_scargs` with its two settings, `ptr_anonymize` and
`rustify_args`.
-/

namespace Wali.ArgumentTypes

open Wali.AliasResolution
open Wali.InsertionDict
open Wali.PythonText
open Wali.RunOutcome
open Wali.RunOutcome.Outcome
open Wali.SyscallTable
open Wali.TypeTemplates

/-- `get_scargs(x, False)`: the cells `a1`, ..., `an` as the table has them. -/
def argCells (x : SyscallRow Cell) : Outcome PyErr (List Cell) :=
  if x.nargs.truthy then do
    let n ← x.nargs.toInt
    forEach x.argType (List.range n.toNat)
  else returns []

/-- The C spelling that `get_scargs` puts in place of an argument type. -/
def scSpelling (T : Templates) (arg : Text) : Text :=
  if ¬ EndsIn '*' arg ∧ arg ∉ basicTypes T then (complexTypes T).getD arg undef else arg

def scType (T : Templates) : Cell → Outcome PyErr Text
  | .int _ => raises .typeError
  | .str [] => raises .indexError
  | .str (c :: cs) => returns (scSpelling T (c :: cs))

/-- `get_scargs(x)` -/
def getScargs (T : Templates) (x : SyscallRow Cell) : Outcome PyErr (List Text) := do
  let args ← argCells x
  forEach (scType T) args

def anonymized (T : Templates) (x : Text) : Text :=
  if EndsIn '*' x ∧ x.dropLast ∉ basicTypes T then "void*" else x

def anonymizeType (T : Templates) (x : Text) : Outcome PyErr Text :=
  if x = [] then raises .indexError else returns (anonymized T x)

def ptrAnonymize (T : Templates) (args : List Text) : Outcome PyErr (List Text) :=
  forEach (anonymizeType T) args

/-- The loop of `rs_simplify`, cut off after `fuel` rounds. -/
def rsLoop (T : Templates) (fuel : Nat) (v : Text) : Option Text :=
  whileLoop (· ∈ witPrimitiveSet T) (fun v => (combinedTypes T).getD v undef) fuel v

/-- `v if v[0] != 's' else 'i' + v[1:]` -/
def rsName : Text → Text
  | 's' :: width => 'i' :: width
  | v => v

/-- The loop only meets values of `COMBINED_TYPES` and `UNDEF`, so that many
rounds decide whether it ends (`rsSimplify_diverges_iff`). -/
def rsSimplify (T : Templates) (v : Text) : Outcome PyErr Text :=
  match rsLoop T ((combinedTypes T).values.length + 1) v with
  | none => diverges
  | some [] => raises .indexError
  | some (c :: cs) => returns (rsName (c :: cs))

def rustifyArg (T : Templates) (x : Text) : Outcome PyErr Text :=
  if x = [] then raises .indexError
  else if EndsIn '*' x then returns ("i32" : Text)
  else rsSimplify T x

def rustifyArgs (T : Templates) (args : List Text) : Outcome PyErr (List Text) :=
  forEach (rustifyArg T) args

/-- The argument cells of the row are the non-empty texts `cells`. -/
def TypeCells (x : SyscallRow Cell) (cells : List Text) : Prop :=
  argCells x = returns (cells.map Cell.str) ∧ ∀ c ∈ cells, c ≠ []

variable {T : Templates} {x : SyscallRow Cell}

theorem argCells_of_not_truthy (h : x.nargs.truthy = false) : argCells x = returns [] := by
  simp [argCells, h]

theorem argCells_of_truthy {n : Int} (h : x.nargs.truthy = true)
    (hn : x.nargs.toInt = returns n) :
    argCells x = forEach x.argType (List.range n.toNat) := by
  simp [argCells, h, hn]

theorem argCells_inj {cells cells' : List Text}
    (h : argCells x = returns (cells.map Cell.str))
    (h' : argCells x = returns (cells'.map Cell.str)) : cells = cells' := by
  have hlists := Outcome.returns.inj (h.symm.trans h')
  exact List.map_injective_iff.mpr (fun _ _ hc => Cell.str.inj hc) hlists

theorem getScargs_of_not_truthy (h : x.nargs.truthy = false) :
    getScargs T x = returns [] := by
  simp [getScargs, argCells_of_not_truthy h]

/-- A row with arguments passes `get_scargs` only when `int` accepts its argument
count, and then has that many argument cells. -/
theorem length_of_argCells {cells : List Cell} (h : argCells x = returns cells)
    (hsupported : x.nargs.truthy = true) :
    ∃ n, x.nargs.toInt = returns n ∧ cells.length = n.toNat := by
  rw [argCells, if_pos hsupported] at h
  obtain ⟨n, hn, hcells⟩ := bind_eq_returns_iff.mp h
  exact ⟨n, hn, by simpa using length_of_forEach hcells⟩

theorem scType_eq_returns_iff {cell : Cell} {a : Text} :
    scType T cell = returns a ↔ ∃ c, cell = .str c ∧ c ≠ [] ∧ a = scSpelling T c := by
  rcases cell with z | _ | ⟨c, cs⟩
  · simp [scType]
  · simp [scType]
  · simp [scType, eq_comm]

theorem forEach_scType_eq_returns_iff {cells : List Cell} {args : List Text} :
    forEach (scType T) cells = returns args ↔
      ∃ texts : List Text, cells = texts.map Cell.str ∧ (∀ c ∈ texts, c ≠ []) ∧
        args = texts.map (scSpelling T) := by
  induction cells generalizing args with
  | nil =>
      simp only [forEach_nil, returns.injEq]
      constructor
      · rintro rfl
        exact ⟨[], by simp⟩
      · rintro ⟨texts, htexts, _, rfl⟩
        simp [List.map_eq_nil_iff.mp htexts.symm]
  | cons cell cells ih =>
      simp only [forEach, bind_eq_returns_iff, scType_eq_returns_iff, returns.injEq]
      constructor
      · rintro ⟨a, ⟨c, rfl, hc, rfl⟩, as, has, rfl⟩
        obtain ⟨texts, rfl, htexts, rfl⟩ := ih.mp has
        exact ⟨c :: texts, rfl, by simpa using ⟨hc, htexts⟩, rfl⟩
      · rintro ⟨_ | ⟨c, texts⟩, htexts, hne, rfl⟩
        · simp at htexts
        · simp only [List.map_cons, List.cons.injEq] at htexts
          obtain ⟨rfl, rfl⟩ := htexts
          refine ⟨_, ⟨c, rfl, hne c (by simp), rfl⟩, texts.map (scSpelling T), ?_, rfl⟩
          exact ih.mpr ⟨texts, rfl, fun c' hc' => hne c' (by simp [hc']), rfl⟩

/-- `get_scargs` succeeds on the rows whose argument cells are non-empty texts and
spells each of them on its own. -/
theorem getScargs_eq_returns_iff {args : List Text} :
    getScargs T x = returns args ↔
      ∃ cells, TypeCells x cells ∧ args = cells.map (scSpelling T) := by
  simp only [getScargs, bind_eq_returns_iff, forEach_scType_eq_returns_iff, TypeCells]
  constructor
  · rintro ⟨_, hx, cells, rfl, hne, rfl⟩
    exact ⟨cells, ⟨hx, hne⟩, rfl⟩
  · rintro ⟨cells, ⟨hx, hne⟩, rfl⟩
    exact ⟨_, hx, cells, rfl, hne, rfl⟩

theorem TypeCells.getScargs {cells : List Text} (h : TypeCells x cells) :
    getScargs T x = returns (cells.map (scSpelling T)) :=
  getScargs_eq_returns_iff.mpr ⟨cells, h, rfl⟩

theorem TypeCells.unique {cells cells' : List Text} (h : TypeCells x cells)
    (h' : TypeCells x cells') : cells = cells' :=
  argCells_inj h.1 h'.1

theorem TypeCells.eq_nil_of_not_truthy {cells : List Text} (h : TypeCells x cells)
    (hx : x.nargs.truthy = false) : cells = [] := by
  have hcells := h.1
  rw [argCells_of_not_truthy hx, returns.injEq] at hcells
  exact List.map_eq_nil_iff.mp hcells.symm

theorem scSpelling_of_endsIn {c : Text} (h : EndsIn '*' c) : scSpelling T c = c := by
  simp [scSpelling, h]

theorem scSpelling_of_basic {c : Text} (h : c ∈ basicTypes T) : scSpelling T c = c := by
  simp [scSpelling, h]

theorem scSpelling_of_complex {c u : Text} (hc : ¬ EndsIn '*' c) (hb : c ∉ basicTypes T)
    (hu : (complexTypes T).get? c = some u) : scSpelling T c = u := by
  simp [scSpelling, hc, hb, Dict.getD_of_get? undef hu]

theorem scSpelling_of_unknown {c : Text} (hc : ¬ EndsIn '*' c) (hb : c ∉ basicTypes T)
    (hu : (complexTypes T).get? c = none) : scSpelling T c = undef := by
  simp [scSpelling, hc, hb, Dict.getD, hu]

theorem scSpelling_cases {c : Text} (hc : ¬ EndsIn '*' c) :
    (∃ v, (basicTypes T).get? c = some v ∧ scSpelling T c = c) ∨
      ((basicTypes T).get? c = none ∧
        ∃ u, (complexTypes T).get? c = some u ∧ scSpelling T c = u) ∨
      ((basicTypes T).get? c = none ∧ (complexTypes T).get? c = none ∧
        scSpelling T c = undef) := by
  cases hb : (basicTypes T).get? c with
  | some v =>
      exact .inl ⟨v, rfl, scSpelling_of_basic (Dict.mem_iff_get?.mpr ⟨v, hb⟩)⟩
  | none =>
      have hmem : c ∉ basicTypes T := Dict.get?_eq_none_iff.mp hb
      cases hu : (complexTypes T).get? c with
      | some u => exact .inr (.inl ⟨rfl, u, rfl, scSpelling_of_complex hc hmem hu⟩)
      | none => exact .inr (.inr ⟨rfl, rfl, scSpelling_of_unknown hc hmem hu⟩)

theorem endsIn_scSpelling_iff {c : Text} (hc : ¬ EndsIn '*' c) :
    EndsIn '*' (scSpelling T c) ↔
      c ∉ basicTypes T ∧ ∃ u, (complexTypes T).get? c = some u ∧ EndsIn '*' u := by
  rcases @scSpelling_cases T c hc with ⟨v, hv, hs⟩ | ⟨hnone, u, hu, hs⟩ | ⟨hnone, hu, hs⟩
  · have hmem : c ∈ basicTypes T := Dict.mem_iff_get?.mpr ⟨v, hv⟩
    simp [hs, hc, hmem]
  · have hmem : c ∉ basicTypes T := Dict.get?_eq_none_iff.mp hnone
    simp [hs, hu, hmem]
  · have hundef : ¬ EndsIn '*' undef := by decide
    simp [hs, hu, hundef]

theorem endsIn_anonymized_iff {a : Text} : EndsIn '*' (anonymized T a) ↔ EndsIn '*' a := by
  unfold anonymized
  split
  · next h => exact iff_of_true (by decide) h.1
  · rfl

theorem anonymized_of_not_endsIn {a : Text} (h : ¬ EndsIn '*' a) : anonymized T a = a := by
  simp [anonymized, h]

theorem anonymized_of_endsIn {a : Text} (h : EndsIn '*' a) :
    anonymized T a = "void*" ∨ ∃ b ∈ basicTypes T, anonymized T a = b ++ ['*'] := by
  obtain ⟨b, rfl⟩ := endsIn_iff_concat.mp h
  by_cases hb : b ∈ basicTypes T
  · exact .inr ⟨b, hb, by simp [anonymized, hb]⟩
  · exact .inl (by simp [anonymized, h, hb])

theorem anonymizeType_eq_returns_iff {a p : Text} :
    anonymizeType T a = returns p ↔ a ≠ [] ∧ p = anonymized T a := by
  by_cases ha : a = []
  · simp [anonymizeType, ha]
  · simp [anonymizeType, ha, eq_comm]

theorem finishes_ptrAnonymize_iff {args : List Text} :
    (ptrAnonymize T args).Finishes ↔ ∀ a ∈ args, a ≠ [] := by
  rw [ptrAnonymize, finishes_forEach_iff]
  refine forall₂_congr fun a _ => ?_
  constructor
  · rintro ⟨p, hp⟩
    exact (anonymizeType_eq_returns_iff.mp hp).1
  · intro ha
    exact ⟨anonymized T a, anonymizeType_eq_returns_iff.mpr ⟨ha, rfl⟩⟩

theorem eq_map_of_ptrAnonymize {args params : List Text}
    (h : ptrAnonymize T args = returns params) : params = args.map (anonymized T) := by
  have hpoint := forEach_eq_returns_iff.mp h
  clear h
  induction hpoint with
  | nil => rfl
  | cons ha _ ih => rw [List.map_cons, ← ih, (anonymizeType_eq_returns_iff.mp ha).2]

theorem length_of_rustifyArgs {args tys : List Text}
    (h : rustifyArgs T args = returns tys) : tys.length = args.length :=
  length_of_forEach h

section RustTypes

/-- The first value of the primitive template on the alias chain of `v`. -/
def FirstPrimitive (T : Templates) (v w : Text) : Prop :=
  Resolves (· ∈ witPrimitiveSet T) (fun u => some ((combinedTypes T).getD u undef)) v w

theorem rsLoop_bounded {v w : Text} :
    rsLoop T ((combinedTypes T).values.length + 1) v = some w ↔ FirstPrimitive T v w :=
  whileLoop_bounded (undef :: (combinedTypes T).values) fun _ => Dict.getD_mem_cons_values _

theorem exists_rsLoop_iff {v w : Text} :
    (∃ fuel, rsLoop T fuel v = some w) ↔ FirstPrimitive T v w :=
  exists_whileLoop_iff

/-- `rsSimplify` reports a run without end exactly when no number of rounds is
enough for the loop. -/
theorem rsSimplify_diverges_iff {v : Text} :
    rsSimplify T v = diverges ↔ ∀ fuel, rsLoop T fuel v = none := by
  constructor
  · intro h fuel
    by_contra hsome
    obtain ⟨w, hw⟩ := Option.ne_none_iff_exists'.mp hsome
    have hbounded := rsLoop_bounded.mpr (exists_rsLoop_iff.mp ⟨fuel, hw⟩)
    unfold rsSimplify at h
    rw [hbounded] at h
    rcases w with _ | ⟨c, cs⟩ <;> simp at h
  · intro h
    simp [rsSimplify, h]

theorem rsSimplify_eq_returns_iff {v r : Text} :
    rsSimplify T v = returns r ↔ ∃ w, FirstPrimitive T v w ∧ w ≠ [] ∧ r = rsName w := by
  simp only [← rsLoop_bounded, rsSimplify]
  split
  · next hnone => simp [hnone]
  · next hnil => simp [hnil]
  · next c cs hcons => simp [hcons, eq_comm]

theorem rsSimplify_eq_raises_iff {v : Text} {e : PyErr} :
    rsSimplify T v = raises e ↔ FirstPrimitive T v [] ∧ e = .indexError := by
  simp only [← rsLoop_bounded, rsSimplify]
  split
  · next hnone => simp [hnone]
  · next hnil => simp [hnil, eq_comm]
  · next c cs hcons => simp [hcons]

theorem rustifyArg_of_endsIn {a : Text} (h : EndsIn '*' a) :
    rustifyArg T a = returns ("i32" : Text) := by
  have hne : a ≠ [] := by
    rintro rfl
    exact not_endsIn_nil _ h
  simp [rustifyArg, hne, h]

theorem rustifyArg_of_not_endsIn {a : Text} (hne : a ≠ []) (h : ¬ EndsIn '*' a) :
    rustifyArg T a = rsSimplify T a := by
  simp [rustifyArg, hne, h]

theorem rustifyArg_eq_returns_iff {a r : Text} :
    rustifyArg T a = returns r ↔
      a ≠ [] ∧ ((EndsIn '*' a ∧ r = "i32") ∨
        (¬ EndsIn '*' a ∧ ∃ w, FirstPrimitive T a w ∧ w ≠ [] ∧ r = rsName w)) := by
  by_cases hne : a = []
  · simp [rustifyArg, hne]
  · by_cases hptr : EndsIn '*' a
    · simp [rustifyArg, hne, hptr, eq_comm]
    · simp [rustifyArg, hne, hptr, rsSimplify_eq_returns_iff]

/-- `rustify_args` makes an `i32` of a type, whatever the templates, where the type
ends in `*`: any other name has no Rust type under empty templates. -/
theorem rustifyArgs_singleton_iff {a : Text} :
    (∀ T', rustifyArgs T' [a] = returns ["i32".toList]) ↔ EndsIn '*' a := by
  have hsingle : ∀ T', rustifyArgs T' [a] = returns ["i32".toList] ↔
      rustifyArg T' a = returns "i32".toList := by
    intro T'
    simp [rustifyArgs, forEach, bind_eq_returns_iff]
  simp only [hsingle]
  constructor
  · intro hrust
    by_contra hstar
    obtain ⟨_, ⟨hptr, _⟩ | ⟨_, w, hw, _⟩⟩ :=
      rustifyArg_eq_returns_iff.mp (hrust ⟨Dict.ofList [], Dict.ofList []⟩)
    · exact hstar hptr
    · exact List.not_mem_nil hw.stops
  · exact fun hstar T' => rustifyArg_of_endsIn hstar

/-- The argument type `c` gets a Rust type: after `get_scargs` it is a pointer, or
its alias chain reaches the primitive template. -/
def HasRustType (T : Templates) (c : Text) : Prop :=
  scSpelling T c ≠ [] ∧
    (EndsIn '*' (scSpelling T c) ∨ ∃ w, FirstPrimitive T (scSpelling T c) w ∧ w ≠ [])

theorem finishes_rustifyArg_iff {c : Text} :
    (rustifyArg T (scSpelling T c)).Finishes ↔ HasRustType T c := by
  constructor
  · rintro ⟨r, hr⟩
    obtain ⟨hne, ⟨hstar, _⟩ | ⟨_, w, hw, hwne, _⟩⟩ := rustifyArg_eq_returns_iff.mp hr
    · exact ⟨hne, .inl hstar⟩
    · exact ⟨hne, .inr ⟨w, hw, hwne⟩⟩
  · rintro ⟨hne, htype⟩
    by_cases hstar : EndsIn '*' (scSpelling T c)
    · exact ⟨_, rustifyArg_of_endsIn hstar⟩
    · obtain ⟨w, hw, hwne⟩ := htype.resolve_left hstar
      exact ⟨rsName w, rustifyArg_eq_returns_iff.mpr ⟨hne, .inr ⟨hstar, w, hw, hwne, rfl⟩⟩⟩

end RustTypes

end Wali.ArgumentTypes
