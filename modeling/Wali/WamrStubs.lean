import Wali.StubEmission

/-!
`gen_wamr_stubs`: declarations, implementations and native symbols of the
runtime.
-/

namespace Wali.WamrStubs

open Wali.ArgumentTypes
open Wali.PythonText
open Wali.RunOutcome
open Wali.RunOutcome.Outcome
open Wali.StubEmission
open Wali.SyscallTable
open Wali.TypeTemplates

/-- `''.join([', ' + part for part in parts])` -/
def commaPrefixed (parts : List Text) : Text :=
  (parts.map fun part => (", " : Text) ++ part).flatten

structure WamrDecl where
  fnName : Text
  params : List Text

def WamrDecl.render (d : WamrDecl) : Text :=
  "long wali_syscall_" ++ d.fnName ++ " (wasm_exec_env_t exec_env" ++
    commaPrefixed d.params ++ ");"

def WamrDecl.signature (d : WamrDecl) : Text × Nat := (d.fnName, d.params.length)

/-- An argument expression `ai` or `MADDR(ai)` of the call in a body. -/
inductive CallArg
  | plain (i : Nat)
  | maddr (i : Nat)
  deriving DecidableEq

def CallArg.render : CallArg → Text
  | plain i => "a" ++ natText i
  | maddr i => "MADDR(a" ++ natText i ++ ")"

structure WamrImpl where
  nr : Text
  fnName : Text
  params : List Text
  numArgs : Nat
  callArgs : List CallArg

def WamrImpl.render (d : WamrImpl) : Text :=
  join "\n"
    ["// " ++ d.nr ++ " TODO",
      "long wali_syscall_" ++ d.fnName ++ " (wasm_exec_env_t exec_env" ++
        commaPrefixed d.params ++ ") \x7b",
      "\tSC(" ++ d.nr ++ " ," ++ d.fnName ++ ");",
      "\tERRSC(" ++ d.fnName ++ ");",
      "\tRETURN(__syscall" ++ natText d.numArgs ++ "(SYS_" ++ d.fnName ++
        commaPrefixed (d.callArgs.map CallArg.render) ++ "));",
      "\x7d\n"]

def WamrImpl.signature (d : WamrImpl) : Text × Nat := (d.fnName, d.params.length)

structure NativeSymbol where
  fnName : Text
  nativeArgs : Text

def NativeSymbol.render (s : NativeSymbol) : Text :=
  "\tNSYMBOL ( " ++ padLeft 20 ("SYS_" ++ s.fnName) ++ ", " ++
    padLeft 30 ("wali_syscall_" ++ s.fnName) ++ ", " ++ padLeft 12 s.nativeArgs ++ " ),"

/-- Letters between the parentheses of a native signature. -/
def parameterLetters (nativeArgs : Text) : Text :=
  ((nativeArgs.dropWhile (· != '(')).drop 1).takeWhile (· != ')')

def NativeSymbol.signature (s : NativeSymbol) : Text × Nat :=
  (s.fnName, (parameterLetters s.nativeArgs).length)

def longParams (args : List Text) : List Text :=
  args.mapIdx fun i _ => "long a" ++ natText (i + 1)

def declrStub : Stub WamrDecl := fun _ _ _ fnName args =>
  returns (some ⟨fnName.text, longParams args⟩)

def callArg : Text × Nat → Outcome PyErr CallArg
  | (argty, i) =>
      if argty = [] then raises .indexError
      else returns (if EndsIn '*' argty then .maddr (i + 1) else .plain (i + 1))

def implStub : Stub WamrImpl := fun nr nargs _ fnName args =>
  if nargs.truthy then do
    let callArgs ← forEach callArg args.zipIdx
    returns (some ⟨nr.text, fnName.text, longParams args, args.length, callArgs⟩)
  else returns none

def nativeLetter (x : Text) : Char :=
  if endsWith "long long" x ∨ endsWith "long" x then 'I' else 'i'

def genNativeArgs (args : List Text) : Text :=
  "\"(" ++ args.map nativeLetter ++ ")" ++ "I" ++ "\""

/-- `"SYS_" + fn_name` needs a text. -/
def symbolsStub : Stub NativeSymbol := fun _ nargs _ fnName args =>
  if nargs.truthy then
    match fnName with
    | .int _ => raises .typeError
    | .str fnName => returns (some ⟨fnName, genNativeArgs args⟩)
  else returns none

structure WamrFiles where
  declr : List WamrDecl
  impl : List WamrImpl
  symbols : List NativeSymbol

def genWamrStubs (T : Templates) (syscallInfo : List (SyscallRow Cell)) :
    Outcome PyErr WamrFiles := do
  let declr ← syscallIter T syscallInfo declrStub
  let impl ← syscallIter T syscallInfo implStub
  let symbols ← syscallIter T syscallInfo symbolsStub
  returns { declr, impl, symbols }

namespace WamrFiles

variable (files : WamrFiles)

def declrOut : Text := fileText WamrDecl.render files.declr [] []

def implOut : Text := fileText WamrImpl.render files.impl [] []

def symbolsOut : Text := fileText NativeSymbol.render files.symbols [] []

end WamrFiles

variable {T : Templates} {rows : List (SyscallRow Cell)} {files : WamrFiles}

theorem genWamrStubs_eq_returns_iff :
    genWamrStubs T rows = returns files ↔
      syscallIter T rows declrStub = returns files.declr ∧
        syscallIter T rows implStub = returns files.impl ∧
        syscallIter T rows symbolsStub = returns files.symbols := by
  simp only [genWamrStubs, bind_eq_returns_iff, returns.injEq]
  constructor
  · rintro ⟨declr, hdeclr, impl, himpl, symbols, hsymbols, rfl⟩
    exact ⟨hdeclr, himpl, hsymbols⟩
  · rintro ⟨hdeclr, himpl, hsymbols⟩
    exact ⟨_, hdeclr, _, himpl, _, hsymbols, rfl⟩

@[simp] theorem length_longParams (args : List Text) :
    (longParams args).length = args.length := by
  simp [longParams]

/-- A type that ends in `long long` ends in `long`. -/
theorem nativeLetter_eq_I_iff {x : Text} : nativeLetter x = 'I' ↔ endsWith "long" x := by
  have hlonglong : endsWith "long long" x → endsWith "long" x := fun h =>
    List.IsSuffix.trans (by decide) h
  unfold nativeLetter
  split
  · next h => simpa using h.elim hlonglong id
  · next h => simpa using fun hlong => h (.inr hlong)

theorem nativeLetter_eq_i_iff {x : Text} : nativeLetter x = 'i' ↔ ¬ endsWith "long" x := by
  rw [← nativeLetter_eq_I_iff]
  unfold nativeLetter
  split <;> simp

theorem not_endsWith_long_of_endsIn {x : Text} (h : EndsIn '*' x) : ¬ endsWith "long" x := by
  rintro ⟨body, rfl⟩
  simp [EndsIn] at h

theorem getElem?_genNativeArgs {args : List Text} {i : Nat} {a : Text}
    (h : args[i]? = some a) : (genNativeArgs args)[i + 2]? = some (nativeLetter a) := by
  have hlt : i < (args.map nativeLetter).length := by
    rw [List.length_map]
    exact (List.getElem?_eq_some_iff.mp h).1
  have hcons : genNativeArgs args = '"' :: '(' :: (args.map nativeLetter ++ ")I\"".toList) := by
    simp [genNativeArgs]
  rw [hcons]
  simp only [List.getElem?_cons_succ]
  rw [List.getElem?_append_left hlt, List.getElem?_map, h]
  rfl

theorem parameterLetters_genNativeArgs (args : List Text) :
    parameterLetters (genNativeArgs args) = args.map nativeLetter := by
  have hletters : ∀ c ∈ args.map nativeLetter, (c != ')') = true := by
    intro c hc
    obtain ⟨a, _, rfl⟩ := List.mem_map.mp hc
    unfold nativeLetter
    split <;> rfl
  have hdrop : (genNativeArgs args).dropWhile (· != '(') =
      '(' :: (args.map nativeLetter ++ ")I\"".toList) := by
    simp [genNativeArgs]
  rw [parameterLetters, hdrop, List.drop_one, List.tail_cons,
    List.takeWhile_append_of_pos hletters]
  simp

theorem length_parameterLetters (args : List Text) :
    (parameterLetters (genNativeArgs args)).length = args.length := by
  rw [parameterLetters_genNativeArgs, List.length_map]

theorem callArg_eq_returns_iff {argty : Text} {i : Nat} {e : CallArg} :
    callArg (argty, i) = returns e ↔
      argty ≠ [] ∧ e = if EndsIn '*' argty then .maddr (i + 1) else .plain (i + 1) := by
  by_cases ha : argty = []
  · simp [callArg, ha]
  · simp [callArg, ha, eq_comm]

theorem finishes_implStub_iff {nr nargs name fnName : Cell} {args : List Text} :
    (implStub nr nargs name fnName args).Finishes ↔
      (nargs.truthy = true → ∀ a ∈ args, a ≠ []) := by
  have hcall : (forEach callArg args.zipIdx).Finishes ↔ ∀ a ∈ args, a ≠ [] := by
    rw [finishes_forEach_iff]
    constructor
    · intro h a ha
      obtain ⟨i, hi⟩ := List.getElem?_of_mem ha
      obtain ⟨e, he⟩ := h (a, i) (List.mk_mem_zipIdx_iff_getElem?.mpr hi)
      exact (callArg_eq_returns_iff.mp he).1
    · rintro h ⟨a, i⟩ ha
      have hmem : a ∈ args := List.mem_of_getElem? (List.mk_mem_zipIdx_iff_getElem?.mp ha)
      exact ⟨_, callArg_eq_returns_iff.mpr ⟨h a hmem, rfl⟩⟩
  rw [← hcall, implStub]
  split
  · next hsupported =>
      simp only [hsupported, forall_const, finishes_bind_iff]
      exact exists_congr fun callArgs => and_iff_left (finishes_returns _)
  · next hunsupported => simp [hunsupported]

theorem finishes_symbolsStub_iff {nr nargs name fnName : Cell} {args : List Text} :
    (symbolsStub nr nargs name fnName args).Finishes ↔
      (nargs.truthy = true → fnName.IsStr) := by
  unfold symbolsStub
  split
  · next hsupported =>
      rcases fnName with z | fnName
      · simp [hsupported, Cell.IsStr]
      · simp [hsupported, Cell.IsStr]
  · next hunsupported => simp [hunsupported]

theorem finishes_genWamrStubs_iff :
    (genWamrStubs T rows).Finishes ↔
      ∀ sc ∈ rows, ∃ cells, TypeCells sc cells ∧ (∀ c ∈ cells, scSpelling T c ≠ []) ∧
        (sc.nargs.truthy = true → sc.fnName.IsStr) := by
  have hiters : (genWamrStubs T rows).Finishes ↔
      (syscallIter T rows declrStub).Finishes ∧ (syscallIter T rows implStub).Finishes ∧
        (syscallIter T rows symbolsStub).Finishes := by
    constructor
    · rintro ⟨files, h⟩
      obtain ⟨hdeclr, himpl, hsymbols⟩ := genWamrStubs_eq_returns_iff.mp h
      exact ⟨⟨_, hdeclr⟩, ⟨_, himpl⟩, ⟨_, hsymbols⟩⟩
    · rintro ⟨⟨_, hdeclr⟩, ⟨_, himpl⟩, ⟨_, hsymbols⟩⟩
      exact ⟨⟨_, _, _⟩, genWamrStubs_eq_returns_iff.mpr ⟨hdeclr, himpl, hsymbols⟩⟩
  simp only [hiters, finishes_syscallIter_iff, finishes_stubRow_iff, finishes_implStub_iff,
    finishes_symbolsStub_iff]
  constructor
  · rintro ⟨_, himpl, hsymbols⟩ sc hsc
    obtain ⟨cells, hcells, hne⟩ := himpl sc hsc
    obtain ⟨_, _, hname⟩ := hsymbols sc hsc
    refine ⟨cells, hcells, fun c hc => ?_, hname⟩
    have hsupported : sc.nargs.truthy = true := by
      by_contra hnot
      rw [hcells.eq_nil_of_not_truthy (by simpa using hnot)] at hc
      cases hc
    exact hne hsupported _ (List.mem_map.mpr ⟨c, hc, rfl⟩)
  · intro h
    refine ⟨fun sc hsc => ?_, fun sc hsc => ?_, fun sc hsc => ?_⟩
    · obtain ⟨cells, hcells, _, _⟩ := h sc hsc
      exact ⟨cells, hcells, finishes_returns _⟩
    · obtain ⟨cells, hcells, hne, _⟩ := h sc hsc
      refine ⟨cells, hcells, fun _ a ha => ?_⟩
      obtain ⟨c, hc, rfl⟩ := List.mem_map.mp ha
      exact hne c hc
    · obtain ⟨cells, hcells, _, hname⟩ := h sc hsc
      exact ⟨cells, hcells, hname⟩

/-- The body of a function passes one expression per argument, translated exactly
for the arguments whose type ends in `*`. -/
theorem implStub_eq_returns {nr nargs name fnName : Cell} {args : List Text}
    {entry : WamrImpl} (h : implStub nr nargs name fnName args = returns (some entry)) :
    nargs.truthy = true ∧ entry.fnName = fnName.text ∧ entry.params = longParams args ∧
      entry.numArgs = args.length ∧ entry.callArgs = args.zipIdx.map fun arg =>
        if EndsIn '*' arg.1 then CallArg.maddr (arg.2 + 1) else .plain (arg.2 + 1) := by
  unfold implStub at h
  split at h
  · next hsupported =>
      obtain ⟨callArgs, hcall, hentry⟩ := bind_eq_returns_iff.mp h
      cases hentry
      refine ⟨hsupported, rfl, rfl, rfl, ?_⟩
      have hpoint := forEach_eq_returns_iff.mp hcall
      clear h hcall
      generalize args.zipIdx = indexed at hpoint
      induction hpoint with
      | nil => rfl
      | cons ha _ ih => rw [List.map_cons, ← ih, (callArg_eq_returns_iff.mp ha).2]
  · cases h

theorem getElem?_callArgs {nr nargs name fnName : Cell} {args : List Text}
    {entry : WamrImpl} (h : implStub nr nargs name fnName args = returns (some entry))
    {i : Nat} {a : Text} (ha : args[i]? = some a) :
    entry.callArgs[i]? =
      some (if EndsIn '*' a then CallArg.maddr (i + 1) else .plain (i + 1)) := by
  rw [(implStub_eq_returns h).2.2.2.2, List.getElem?_map, List.getElem?_zipIdx, ha]
  simp

theorem declr_signature {declr : List WamrDecl}
    (h : syscallIter T rows declrStub = returns declr) :
    declr.map WamrDecl.signature = rows.map fun sc => (sc.fnName.text, arity sc) := by
  obtain ⟨buf, hbuf, rfl⟩ := syscallIter_eq_returns_iff.mp h
  refine map_of_forEach_rows (fun sc entry hrow => ?_) hbuf
  obtain ⟨args, hargs, hentry⟩ := bind_eq_returns_iff.mp hrow
  cases hentry
  simp [WamrDecl.signature, arity_of_getScargs hargs]

theorem impl_signature {impl : List WamrImpl}
    (h : syscallIter T rows implStub = returns impl) :
    impl.map WamrImpl.signature = listedFunctions rows := by
  refine map_of_syscallIter (fun nr nargs name fnName args entry hentry => ?_) h
  rcases entry with _ | entry
  · unfold implStub at hentry
    split at hentry
    · obtain ⟨_, _, hnone⟩ := bind_eq_returns_iff.mp hentry
      cases hnone
    · next hunsupported => simp [hunsupported]
  · obtain ⟨hsupported, hname, hparams, _, _⟩ := implStub_eq_returns hentry
    simp [WamrImpl.signature, hsupported, hname, hparams]

theorem symbols_signature {symbols : List NativeSymbol}
    (h : syscallIter T rows symbolsStub = returns symbols) :
    symbols.map NativeSymbol.signature = listedFunctions rows := by
  refine map_of_syscallIter (fun nr nargs name fnName args entry hentry => ?_) h
  unfold symbolsStub at hentry
  split at hentry
  · next hsupported =>
      split at hentry
      · cases hentry
      · cases hentry
        simp [NativeSymbol.signature, hsupported, length_parameterLetters, Cell.text]
  · next hunsupported =>
      cases hentry
      simp [hunsupported]

/-- In every emitted body `N` of `__syscallN` is the number of parameters and of
argument expressions. -/
theorem impl_numArgs {impl : List WamrImpl}
    (h : syscallIter T rows implStub = returns impl) :
    ∀ entry ∈ impl, entry.numArgs = entry.params.length ∧
      entry.callArgs.length = entry.numArgs := by
  obtain ⟨buf, hbuf, rfl⟩ := syscallIter_eq_returns_iff.mp h
  intro entry hentry
  rw [List.mem_filterMap] at hentry
  obtain ⟨_, hmem, hid⟩ := hentry
  cases hid
  obtain ⟨sc, _, hrow⟩ := exists_of_mem_forEach hbuf hmem
  obtain ⟨args, _, hstub⟩ := bind_eq_returns_iff.mp hrow
  obtain ⟨_, _, hparams, hnum, hcall⟩ := implStub_eq_returns hstub
  rw [hparams, hnum, hcall]
  simp

end Wali.WamrStubs
