import Wali.StubEmission

/-!
`gen_libc_stubs`: declarations and case statements for the C library, external
declarations and match arms for the Rust library.
-/

namespace Wali.LibcStubs

open Wali.ArgumentTypes
open Wali.PythonText
open Wali.RunOutcome
open Wali.RunOutcome.Outcome
open Wali.StubEmission
open Wali.SyscallTable
open Wali.TypeTemplates

structure SyscallDef where
  fnName : Text
  params : List Text

def SyscallDef.render (d : SyscallDef) : Text :=
  "WALI_SYSCALL_DEF (" ++ d.fnName ++ ", " ++ join "," d.params ++ ");"

def SyscallDef.signature (d : SyscallDef) : Text × Nat := (d.fnName, d.params.length)

structure CaseSyscall where
  name : Text
  fnName : Text
  casts : List Text

def CaseSyscall.render (c : CaseSyscall) : Text :=
  "\t\tCASE_SYSCALL (" ++ c.name ++ ", " ++ c.fnName ++ ", " ++
    join "," (c.casts.mapIdx fun i j => "(" ++ j ++ ")a" ++ natText (i + 1)) ++ ");"

def CaseSyscall.signature (c : CaseSyscall) : Text × Nat := (c.fnName, c.casts.length)

structure RustDef where
  nr : Text
  fnName : Text
  argTys : List Text

def RustDef.render (d : RustDef) : Text :=
  join "\n"
    ["\t/* " ++ d.nr ++ " */",
      "\t#[link_name = \"SYS_" ++ d.fnName ++ "\"]",
      "\tpub fn __syscall_SYS_" ++ d.fnName ++ "(" ++
        join ", " (d.argTys.mapIdx fun i j => "a" ++ natText (i + 1) ++ ": " ++ j) ++
        ") -> ::c_long;"]

def RustDef.signature (d : RustDef) : Text × Nat := (d.fnName, d.argTys.length)

inductive RustArm
  | matchArm (name fnName : Text) (args : List Text)
  | unimplemented (name nr : Text)

def RustArm.render : RustArm → Text
  | matchArm name fnName args =>
      "\t\tsuper::SYS_" ++ name ++ " => syscall_match_arm!(SYS_" ++ fnName ++ ", args, " ++
        join ", " args ++ "),"
  | unimplemented name nr =>
      "\t\tsuper::SYS_" ++ name ++ " => unimplemented!(\"WALI syscall '" ++ name ++ "' (" ++
        nr ++ ") unimplemented!\"),"

/-- Name and arity of a `syscall_match_arm!` arm. -/
def RustArm.signature? : RustArm → Option (Text × Nat)
  | matchArm _ fnName args => some (fnName, args.length)
  | unimplemented _ _ => none

def defStub (T : Templates) : Stub SyscallDef := fun _ _ _ fnName args => do
  let params ← ptrAnonymize T args
  returns (some ⟨fnName.text, params⟩)

def caseStub (T : Templates) : Stub CaseSyscall := fun _ nargs name fnName args =>
  if nargs.truthy then do
    let casts ← ptrAnonymize T args
    returns (some ⟨name.text, fnName.text, casts⟩)
  else returns none

def rustDefStub (T : Templates) : Stub RustDef := fun nr nargs _ fnName args =>
  if nargs.truthy then do
    let argTys ← rustifyArgs T args
    returns (some ⟨nr.text, fnName.text, argTys⟩)
  else returns none

def rustMatchStub : Stub RustArm := fun nr nargs name fnName args =>
  if nargs.truthy then
    returns (some (.matchArm name.text fnName.text (args.mapIdx fun x _ => "a" ++ natText x)))
  else returns (some (.unimplemented name.text nr.text))

structure LibcFiles where
  defs : List SyscallDef
  cases : List CaseSyscall
  rustDefs : List RustDef
  rustMatch : List RustArm

def genLibcStubs (T : Templates) (syscallInfo : List (SyscallRow Cell)) :
    Outcome PyErr LibcFiles := do
  let defs ← syscallIter T syscallInfo (defStub T)
  let cases ← syscallIter T syscallInfo (caseStub T)
  let rustDefs ← syscallIter T syscallInfo (rustDefStub T)
  let rustMatch ← syscallIter T syscallInfo rustMatchStub
  returns { defs, cases, rustDefs, rustMatch }

namespace LibcFiles

variable (files : LibcFiles)

def defsOut : Text := fileText SyscallDef.render files.defs [] []

def caseOut : Text := fileText CaseSyscall.render files.cases [] []

def rustDefsOut : Text :=
  fileText RustDef.render files.rustDefs
    (join "\n"
      ["// --- Autogenerated from WALI/scripts/autogen.py ---",
        "#[link(wasm_import_module = \"wali\")]", "extern \"C\" \x7b", ""])
    "\n\x7d"

def rustMatchOut : Text :=
  fileText RustArm.render files.rustMatch
    (join "\n"
      ["#[no_mangle]",
        "pub unsafe extern \"C\" fn syscall(num: ::c_long, mut args: ...) -> ::c_long \x7b",
        "\tuse core::unimplemented;", "\tmatch num \x7b", ""])
    (join "\n"
      ["", "\t\t_ => unimplemented!(\"WALI syscall number \x7b\x7d out-of-scope!\", num),",
        "\t\x7d", "\x7d"])

end LibcFiles

variable {T : Templates} {rows : List (SyscallRow Cell)} {files : LibcFiles}

theorem genLibcStubs_eq_returns_iff :
    genLibcStubs T rows = returns files ↔
      syscallIter T rows (defStub T) = returns files.defs ∧
        syscallIter T rows (caseStub T) = returns files.cases ∧
        syscallIter T rows (rustDefStub T) = returns files.rustDefs ∧
        syscallIter T rows rustMatchStub = returns files.rustMatch := by
  simp only [genLibcStubs, bind_eq_returns_iff, returns.injEq]
  constructor
  · rintro ⟨defs, hdefs, cases, hcases, rustDefs, hrust, rustMatch, hmatch, rfl⟩
    exact ⟨hdefs, hcases, hrust, hmatch⟩
  · rintro ⟨hdefs, hcases, hrust, hmatch⟩
    exact ⟨_, hdefs, _, hcases, _, hrust, _, hmatch, rfl⟩

theorem finishes_defStub_iff {nr nargs name fnName : Cell} {args : List Text} :
    (defStub T nr nargs name fnName args).Finishes ↔ ∀ a ∈ args, a ≠ [] := by
  rw [← @finishes_ptrAnonymize_iff T, defStub, finishes_bind_iff]
  exact exists_congr fun params => and_iff_left (finishes_returns _)

theorem finishes_caseStub_iff {nr nargs name fnName : Cell} {args : List Text} :
    (caseStub T nr nargs name fnName args).Finishes ↔
      (nargs.truthy = true → ∀ a ∈ args, a ≠ []) := by
  rw [← @finishes_ptrAnonymize_iff T, caseStub]
  split
  · next hsupported =>
      simp only [hsupported, forall_const, finishes_bind_iff]
      exact exists_congr fun casts => and_iff_left (finishes_returns _)
  · next hunsupported => simp [hunsupported]

theorem finishes_rustDefStub_iff {nr nargs name fnName : Cell} {args : List Text} :
    (rustDefStub T nr nargs name fnName args).Finishes ↔
      (nargs.truthy = true → ∀ a ∈ args, (rustifyArg T a).Finishes) := by
  rw [← finishes_forEach_iff, rustDefStub]
  split
  · next hsupported =>
      simp only [hsupported, forall_const, finishes_bind_iff]
      exact exists_congr fun argTys => and_iff_left (finishes_returns _)
  · next hunsupported => simp [hunsupported]

theorem finishes_rustMatchStub (nr nargs name fnName : Cell) (args : List Text) :
    (rustMatchStub nr nargs name fnName args).Finishes := by
  unfold rustMatchStub
  split <;> exact finishes_returns _

theorem finishes_genLibcStubs_iff :
    (genLibcStubs T rows).Finishes ↔
      ∀ sc ∈ rows, ∃ cells, TypeCells sc cells ∧ ∀ c ∈ cells, HasRustType T c := by
  have hiters : (genLibcStubs T rows).Finishes ↔
      (syscallIter T rows (defStub T)).Finishes ∧ (syscallIter T rows (caseStub T)).Finishes ∧
        (syscallIter T rows (rustDefStub T)).Finishes ∧
        (syscallIter T rows rustMatchStub).Finishes := by
    constructor
    · rintro ⟨files, h⟩
      obtain ⟨hdefs, hcases, hrust, hmatch⟩ := genLibcStubs_eq_returns_iff.mp h
      exact ⟨⟨_, hdefs⟩, ⟨_, hcases⟩, ⟨_, hrust⟩, ⟨_, hmatch⟩⟩
    · rintro ⟨⟨_, hdefs⟩, ⟨_, hcases⟩, ⟨_, hrust⟩, ⟨_, hmatch⟩⟩
      exact ⟨⟨_, _, _, _⟩, genLibcStubs_eq_returns_iff.mpr ⟨hdefs, hcases, hrust, hmatch⟩⟩
  simp only [hiters, finishes_syscallIter_iff, finishes_stubRow_iff, finishes_defStub_iff,
    finishes_caseStub_iff, finishes_rustDefStub_iff, ← finishes_rustifyArg_iff]
  constructor
  · rintro ⟨_, _, hrust, _⟩ sc hsc
    obtain ⟨cells, hcells, htypes⟩ := hrust sc hsc
    refine ⟨cells, hcells, fun c hc => ?_⟩
    have hsupported : sc.nargs.truthy = true := by
      by_contra hnot
      rw [hcells.eq_nil_of_not_truthy (by simpa using hnot)] at hc
      cases hc
    exact htypes hsupported _ (List.mem_map.mpr ⟨c, hc, rfl⟩)
  · intro h
    have hnonempty : ∀ sc ∈ rows, ∃ cells, TypeCells sc cells ∧
        ∀ a ∈ cells.map (scSpelling T), a ≠ [] := by
      intro sc hsc
      obtain ⟨cells, hcells, htypes⟩ := h sc hsc
      refine ⟨cells, hcells, fun a ha => ?_⟩
      obtain ⟨c, hc, rfl⟩ := List.mem_map.mp ha
      exact (finishes_rustifyArg_iff.mp (htypes c hc)).1
    refine ⟨hnonempty, fun sc hsc => ?_, fun sc hsc => ?_, fun sc hsc => ?_⟩
    · obtain ⟨cells, hcells, hne⟩ := hnonempty sc hsc
      exact ⟨cells, hcells, fun _ => hne⟩
    · obtain ⟨cells, hcells, htypes⟩ := h sc hsc
      refine ⟨cells, hcells, fun _ a ha => ?_⟩
      obtain ⟨c, hc, rfl⟩ := List.mem_map.mp ha
      exact htypes c hc
    · obtain ⟨cells, hcells, _⟩ := h sc hsc
      exact ⟨cells, hcells, finishes_rustMatchStub _ _ _ _ _⟩

theorem defStub_eq_returns {nr nargs name fnName : Cell} {args : List Text}
    {entry : Option SyscallDef} (h : defStub T nr nargs name fnName args = returns entry) :
    entry = some ⟨fnName.text, args.map (anonymized T)⟩ := by
  obtain ⟨params, hparams, hentry⟩ := bind_eq_returns_iff.mp h
  cases hentry
  rw [eq_map_of_ptrAnonymize hparams]

theorem caseStub_eq_returns {nr nargs name fnName : Cell} {args : List Text}
    {entry : Option CaseSyscall} (h : caseStub T nr nargs name fnName args = returns entry) :
    entry = if nargs.truthy then
      some ⟨name.text, fnName.text, args.map (anonymized T)⟩ else none := by
  unfold caseStub at h
  split at h
  · next hsupported =>
      obtain ⟨casts, hcasts, hentry⟩ := bind_eq_returns_iff.mp h
      cases hentry
      rw [if_pos hsupported, eq_map_of_ptrAnonymize hcasts]
  · next hunsupported =>
      cases h
      rw [if_neg hunsupported]

theorem rustDefStub_signature {nr nargs name fnName : Cell} {args : List Text}
    {entry : Option RustDef} (h : rustDefStub T nr nargs name fnName args = returns entry) :
    entry.map RustDef.signature =
      if nargs.truthy then some (fnName.text, args.length) else none := by
  unfold rustDefStub at h
  split at h
  · next hsupported =>
      obtain ⟨tys, htys, hentry⟩ := bind_eq_returns_iff.mp h
      cases hentry
      simp [RustDef.signature, hsupported, length_of_rustifyArgs htys]
  · next hunsupported =>
      cases h
      simp [hunsupported]

theorem rustMatchStub_signature {nr nargs name fnName : Cell} {args : List Text}
    {entry : Option RustArm} (h : rustMatchStub nr nargs name fnName args = returns entry) :
    entry.bind RustArm.signature? =
      if nargs.truthy then some (fnName.text, args.length) else none := by
  unfold rustMatchStub at h
  split at h
  · next hsupported =>
      cases h
      simp [RustArm.signature?, hsupported]
  · next hunsupported =>
      cases h
      simp [RustArm.signature?, hunsupported]

/-- Declared parameters of a row. -/
def defParams (T : Templates) (sc : SyscallRow Cell) : List Text :=
  match getScargs T sc with
  | .returns args => args.map (anonymized T)
  | _ => []

theorem defParams_of_getScargs {sc : SyscallRow Cell} {args : List Text}
    (h : getScargs T sc = returns args) : defParams T sc = args.map (anonymized T) := by
  simp [defParams, h]

theorem defs_eq_map {defs : List SyscallDef}
    (h : syscallIter T rows (defStub T) = returns defs) :
    (defs.map fun d => (d.fnName, d.params)) =
      rows.map fun sc => (sc.fnName.text, defParams T sc) := by
  obtain ⟨buf, hbuf, rfl⟩ := syscallIter_eq_returns_iff.mp h
  refine map_of_forEach_rows (fun sc entry hrow => ?_) hbuf
  obtain ⟨args, hargs, hentry⟩ := bind_eq_returns_iff.mp hrow
  rw [defStub_eq_returns hentry, defParams_of_getScargs hargs]
  rfl

theorem cases_eq_map {cases : List CaseSyscall}
    (h : syscallIter T rows (caseStub T) = returns cases) :
    (cases.map fun c => (c.fnName, c.casts)) =
      (rows.filter (·.nargs.truthy)).map fun sc => (sc.fnName.text, defParams T sc) := by
  obtain ⟨buf, hbuf, rfl⟩ := syscallIter_eq_returns_iff.mp h
  rw [← List.filterMap_eq_map]
  refine filterMap_of_forEach_rows (fun sc entry hrow => ?_) hbuf
  obtain ⟨args, hargs, hentry⟩ := bind_eq_returns_iff.mp hrow
  rw [caseStub_eq_returns hentry, defParams_of_getScargs hargs]
  split <;> rfl

theorem defs_signature {defs : List SyscallDef}
    (h : syscallIter T rows (defStub T) = returns defs) :
    defs.map SyscallDef.signature = rows.map fun sc => (sc.fnName.text, arity sc) := by
  obtain ⟨buf, hbuf, rfl⟩ := syscallIter_eq_returns_iff.mp h
  refine map_of_forEach_rows (fun sc entry hrow => ?_) hbuf
  obtain ⟨args, hargs, hentry⟩ := bind_eq_returns_iff.mp hrow
  rw [defStub_eq_returns hentry, arity_of_getScargs hargs]
  simp [SyscallDef.signature]

theorem cases_signature {cases : List CaseSyscall}
    (h : syscallIter T rows (caseStub T) = returns cases) :
    cases.map CaseSyscall.signature = listedFunctions rows := by
  refine map_of_syscallIter (fun nr nargs name fnName args entry hentry => ?_) h
  rw [caseStub_eq_returns hentry]
  split <;> simp [CaseSyscall.signature]

theorem rustDefs_signature {rustDefs : List RustDef}
    (h : syscallIter T rows (rustDefStub T) = returns rustDefs) :
    rustDefs.map RustDef.signature = listedFunctions rows :=
  map_of_syscallIter (fun _ _ _ _ _ _ => rustDefStub_signature) h

theorem rustMatch_signature {rustMatch : List RustArm}
    (h : syscallIter T rows rustMatchStub = returns rustMatch) :
    rustMatch.filterMap RustArm.signature? = listedFunctions rows :=
  filterMap_of_syscallIter (fun _ _ _ _ _ _ => rustMatchStub_signature) h

end Wali.LibcStubs
