import Wali.ArgumentTypes

/-!
The row loop that the libc and the WAMR generators share (`syscall_iter` and
`gen_and_write`). A stub function returns the structured entry of a row, or
nothing where the source returns the empty string that `filter(bool, buf)` drops;
`render` of an entry is the text that the source formats.
-/

namespace Wali.StubEmission

open Wali.ArgumentTypes
open Wali.PythonText
open Wali.RunOutcome
open Wali.RunOutcome.Outcome
open Wali.SyscallTable
open Wali.TypeTemplates

/-- `stub_fn(nr, nargs, name, fn_name, args)` -/
abbrev Stub (α : Type) :=
  (nr nargs name fnName : Cell) → (args : List Text) → Outcome PyErr (Option α)

variable {α σ : Type}

def stubRow (T : Templates) (stub : Stub α) (sc : SyscallRow Cell) :
    Outcome PyErr (Option α) := do
  let args ← getScargs T sc
  stub sc.nr sc.nargs sc.syscall sc.fnName args

def syscallIter (T : Templates) (syscallInfo : List (SyscallRow Cell)) (stub : Stub α) :
    Outcome PyErr (List α) := do
  let buf ← forEach (stubRow T stub) syscallInfo
  returns (buf.filterMap id)

/-- What `gen_and_write` writes to its output file. -/
def fileText (render : α → Text) (entries : List α) (prelude postlude : Text) : Text :=
  prelude ++ join "\n" (entries.map render) ++ postlude

/-- `int(x['# Args'])` read as a number of parameters. -/
def arity (sc : SyscallRow Cell) : Nat :=
  match sc.nargs.toInt with
  | .returns n => n.toNat
  | _ => 0

/-- Names and arities of the supported rows of a table, in table order. -/
def listedFunctions (rows : List (SyscallRow Cell)) : List (Text × Nat) :=
  (rows.filter (·.nargs.truthy)).map fun sc => (sc.fnName.text, arity sc)

variable {T : Templates} {stub : Stub α} {rows : List (SyscallRow Cell)} {entries : List α}

theorem syscallIter_eq_returns_iff :
    syscallIter T rows stub = returns entries ↔
      ∃ buf, forEach (stubRow T stub) rows = returns buf ∧ entries = buf.filterMap id := by
  rw [syscallIter, bind_eq_returns_iff]
  simp only [returns.injEq]
  exact exists_congr fun buf => and_congr_right fun _ => eq_comm

theorem finishes_syscallIter_iff :
    (syscallIter T rows stub).Finishes ↔ ∀ sc ∈ rows, (stubRow T stub sc).Finishes := by
  rw [← finishes_forEach_iff, syscallIter, finishes_bind_iff]
  constructor
  · rintro ⟨buf, hbuf, _⟩
    exact ⟨buf, hbuf⟩
  · rintro ⟨buf, hbuf⟩
    exact ⟨buf, hbuf, finishes_returns _⟩

theorem finishes_stubRow_iff {sc : SyscallRow Cell} :
    (stubRow T stub sc).Finishes ↔
      ∃ cells, TypeCells sc cells ∧
        (stub sc.nr sc.nargs sc.syscall sc.fnName (cells.map (scSpelling T))).Finishes := by
  rw [stubRow, finishes_bind_iff]
  constructor
  · rintro ⟨args, hargs, hstub⟩
    obtain ⟨cells, hcells, rfl⟩ := getScargs_eq_returns_iff.mp hargs
    exact ⟨cells, hcells, hstub⟩
  · rintro ⟨cells, hcells, hstub⟩
    exact ⟨_, hcells.getScargs, hstub⟩

/-- A row function whose entries carry one datum for each supported row yields
that datum for exactly the supported rows, in table order. -/
theorem filterMap_of_forEach_rows {row : SyscallRow Cell → Outcome PyErr (Option α)}
    {datum : α → Option σ} {expected : SyscallRow Cell → σ} {buf : List (Option α)}
    (hrow : ∀ sc entry, row sc = returns entry →
      entry.bind datum = if sc.nargs.truthy then some (expected sc) else none)
    (h : forEach row rows = returns buf) :
    (buf.filterMap id).filterMap datum = (rows.filter (·.nargs.truthy)).map expected := by
  induction rows generalizing buf with
  | nil =>
      simp only [forEach_nil, returns.injEq] at h
      simp [← h]
  | cons sc rows ih =>
      simp only [forEach, bind_eq_returns_iff, returns.injEq] at h
      obtain ⟨entry, hentry, buf', hbuf', rfl⟩ := h
      have hdatum := hrow sc entry hentry
      have hrest := ih hbuf'
      rcases entry with _ | value
      · by_cases hsc : sc.nargs.truthy
        · simp [hsc] at hdatum
        · simp [hsc, ← hrest]
      · by_cases hsc : sc.nargs.truthy
        · simp only [Option.bind_some, if_pos hsc] at hdatum
          simp [hsc, hdatum, ← hrest]
        · simp only [Option.bind_some, if_neg hsc] at hdatum
          simp [hsc, hdatum, ← hrest]

theorem map_of_forEach_rows {row : SyscallRow Cell → Outcome PyErr (Option α)}
    {datum : α → σ} {expected : SyscallRow Cell → σ} {buf : List (Option α)}
    (hrow : ∀ sc entry, row sc = returns entry → entry.map datum = some (expected sc))
    (h : forEach row rows = returns buf) :
    (buf.filterMap id).map datum = rows.map expected := by
  induction rows generalizing buf with
  | nil =>
      simp only [forEach_nil, returns.injEq] at h
      simp [← h]
  | cons sc rows ih =>
      simp only [forEach, bind_eq_returns_iff, returns.injEq] at h
      obtain ⟨entry, hentry, buf', hbuf', rfl⟩ := h
      obtain ⟨value, rfl, hvalue⟩ := Option.map_eq_some_iff.mp (hrow sc entry hentry)
      simp [hvalue, ← ih hbuf']

theorem arity_of_getScargs {sc : SyscallRow Cell} {args : List Text}
    (h : getScargs T sc = returns args) : arity sc = args.length := by
  by_cases hsc : sc.nargs.truthy
  · obtain ⟨cells, hcells, rfl⟩ := getScargs_eq_returns_iff.mp h
    obtain ⟨n, hn, hlength⟩ := length_of_argCells hcells.1 hsc
    simp only [List.length_map] at hlength
    simp [arity, hn, hlength]
  · rw [getScargs_of_not_truthy (by simpa using hsc)] at h
    cases h
    -- The argument counts that are not present are the int 0 and the empty text.
    rcases hn : sc.nargs with z | s
    · simp_all [Cell.truthy, arity, Cell.toInt]
    · simp_all [Cell.truthy, arity, Cell.toInt, parseInt, unsignedInt]

/-- A stub function that emits one entry for each supported row, with one parameter
per argument, lists the supported functions. -/
theorem filterMap_of_syscallIter {signature : α → Option (Text × Nat)}
    (hstub : ∀ nr nargs name fnName args entry,
      stub nr nargs name fnName args = returns entry →
      entry.bind signature = if nargs.truthy then some (fnName.text, args.length) else none)
    (h : syscallIter T rows stub = returns entries) :
    entries.filterMap signature = listedFunctions rows := by
  obtain ⟨buf, hbuf, rfl⟩ := syscallIter_eq_returns_iff.mp h
  refine filterMap_of_forEach_rows (fun sc entry hrow => ?_) hbuf
  obtain ⟨args, hargs, hentry⟩ := bind_eq_returns_iff.mp hrow
  rw [hstub _ _ _ _ _ _ hentry, arity_of_getScargs hargs]

theorem map_of_syscallIter {signature : α → Text × Nat}
    (hstub : ∀ nr nargs name fnName args entry,
      stub nr nargs name fnName args = returns entry →
      entry.map signature = if nargs.truthy then some (fnName.text, args.length) else none)
    (h : syscallIter T rows stub = returns entries) :
    entries.map signature = listedFunctions rows := by
  rw [← List.filterMap_eq_map]
  refine filterMap_of_syscallIter (fun nr nargs name fnName args entry hentry => ?_) h
  rw [← hstub nr nargs name fnName args entry hentry]
  cases entry <;> rfl

theorem listedFunctions_sublist (rows : List (SyscallRow Cell)) :
    (listedFunctions rows).Sublist (rows.map fun sc => (sc.fnName.text, arity sc)) :=
  List.Sublist.map _ List.filter_sublist

end Wali.StubEmission
