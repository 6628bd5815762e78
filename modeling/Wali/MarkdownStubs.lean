import Wali.SyscallTable

/-!
`gen_markdown_stubs`: the supported part of the table and the names of the kernel
that no supported row has.
-/

namespace Wali.MarkdownStubs

open Wali.PythonText
open Wali.RunOutcome
open Wali.RunOutcome.Outcome
open Wali.SyscallTable

/-- `syscalls['archs']` of the package `system_calls`: the call names of each
architecture. -/
abbrev SystemCalls := Text → Option (List Text)

def archRemap (x : Text) : Text := if x = "aarch64" then "arm64" else x

def archSupp (archs : List Text) : List Text := (archs ++ ["x86_64".toList]).map archRemap

def archCalls (syscalls : SystemCalls) (v : Text) : Outcome PyErr (List Text) :=
  match syscalls v with
  | some names => returns names
  | none => raises (.keyError v)

/-- `supp_set` -/
def suppSet (syscallInfo : List (SyscallRow Cell)) : List Cell :=
  (syscallInfo.filter (·.nargs.truthy)).map (·.syscall)

def argColumn (x : Nat) : Text := "a" ++ natText (x + 1)

/-- Those of the columns `a1`, ..., `a6` that the data frame of the rows lacks. -/
def missingColumns (syscallInfo : List (SyscallRow Cell)) : List Text :=
  ((List.range 6).filter fun x =>
    !syscallInfo.any fun sc => decide (x < sc.argTypes.length)).map argColumn

structure SupportRow where
  syscall : Cell
  nargs : Cell
  args : List Cell
  deriving DecidableEq

def supportRow (sc : SyscallRow Cell) : SupportRow := ⟨sc.syscall, sc.nargs, sc.argTypes.take 6⟩

/-- `supp_format_df` for a part of the rows. -/
def suppFormatDf (supported : List Cell) (rows : List (SyscallRow Cell)) : List SupportRow :=
  (rows.filter (·.syscall ∈ supported)).map supportRow

structure SupportReport where
  supported : List SupportRow
  unsupported : List Text

/-- The text in place of `[[NUM_SUPPORTED_SYSCALLS_STUB]]`. -/
def SupportReport.numSupported (report : SupportReport) : Text := natText report.supported.length

def genMarkdownStubs (syscalls : SystemCalls) (syscallInfo : List (SyscallRow Cell))
    (archs : List Text) : Outcome PyErr SupportReport := do
  let calls ← forEach (archCalls syscalls) (archSupp archs)
  if syscallInfo.isEmpty then raises (.keyError "Syscall")
  else if missingColumns syscallInfo ≠ [] then
    raises (.keyError ("[" ++ join ", " ((missingColumns syscallInfo).map fun a =>
      "'" ++ a ++ "'") ++ "] not in index"))
  else
    returns
      { supported := suppFormatDf (suppSet syscallInfo) syscallInfo
        unsupported := sorted (calls.flatten.filter (.str · ∉ suppSet syscallInfo)) }

variable {syscalls : SystemCalls} {rows : List (SyscallRow Cell)} {archs : List Text}

theorem archCalls_eq_returns_iff {v : Text} {names : List Text} :
    archCalls syscalls v = returns names ↔ syscalls v = some names := by
  unfold archCalls
  split
  · next names' h => simp [h]
  · next h => simp [h]

theorem missingColumns_eq_nil_iff :
    missingColumns rows = [] ↔ ∀ x < 6, ∃ sc ∈ rows, x < sc.argTypes.length := by
  simp [missingColumns, List.filter_eq_nil_iff]

theorem missingColumns_parseCsv {t : CsvTable} (hrows : t.parseCsv.1 ≠ []) :
    missingColumns t.parseCsv.1 = [] ↔ 6 ≤ t.argColumns := by
  have hwidth : ∀ sc ∈ t.parseCsv.1, sc.argTypes.length = t.argColumns := by
    intro sc hsc
    obtain ⟨row, hrow, rfl⟩ := List.mem_map.mp (List.mem_filter.mp hsc).1
    simpa [CsvTable.readRow] using t.argWidth row hrow
  rw [missingColumns_eq_nil_iff]
  constructor
  · intro h
    obtain ⟨sc, hsc, hlt⟩ := h 5 (by omega)
    rw [hwidth sc hsc] at hlt
    omega
  · intro h x hx
    obtain ⟨sc, hsc⟩ := List.exists_mem_of_ne_nil _ hrows
    exact ⟨sc, hsc, by rw [hwidth sc hsc]; omega⟩

theorem genMarkdownStubs_eq_returns_iff {report : SupportReport} :
    genMarkdownStubs syscalls rows archs = returns report ↔
      rows ≠ [] ∧ missingColumns rows = [] ∧
        ∃ calls, forEach (archCalls syscalls) (archSupp archs) = returns calls ∧
          report.supported = suppFormatDf (suppSet rows) rows ∧
          report.unsupported = sorted (calls.flatten.filter (.str · ∉ suppSet rows)) := by
  rcases report with ⟨supported, unsupported⟩
  rw [genMarkdownStubs, bind_eq_returns_iff]
  constructor
  · rintro ⟨calls, hcalls, h⟩
    split at h
    · cases h
    · next hrows =>
        split at h
        · cases h
        · next hcolumns =>
            cases h
            refine ⟨?_, by simpa using hcolumns, calls, hcalls, rfl, rfl⟩
            rintro rfl
            exact hrows rfl
  · rintro ⟨hrows, hcolumns, calls, hcalls, rfl, rfl⟩
    refine ⟨calls, hcalls, ?_⟩
    rw [if_neg (by simpa using hrows), if_neg (by simp [hcolumns])]

theorem finishes_genMarkdownStubs_iff :
    (genMarkdownStubs syscalls rows archs).Finishes ↔
      rows ≠ [] ∧ missingColumns rows = [] ∧ ∀ v ∈ archSupp archs, (syscalls v).isSome := by
  have hcalls : (forEach (archCalls syscalls) (archSupp archs)).Finishes ↔
      ∀ v ∈ archSupp archs, (syscalls v).isSome := by
    rw [finishes_forEach_iff]
    refine forall₂_congr fun v _ => ?_
    rw [Option.isSome_iff_exists]
    exact exists_congr fun names => archCalls_eq_returns_iff
  rw [← hcalls]
  constructor
  · rintro ⟨report, h⟩
    obtain ⟨hrows, hcolumns, calls, hfor, _, _⟩ := genMarkdownStubs_eq_returns_iff.mp h
    exact ⟨hrows, hcolumns, calls, hfor⟩
  · rintro ⟨hrows, hcolumns, calls, hfor⟩
    exact ⟨⟨_, _⟩, genMarkdownStubs_eq_returns_iff.mpr
      ⟨hrows, hcolumns, calls, hfor, rfl, rfl⟩⟩

theorem mem_suppSet {sc : SyscallRow Cell} (h : sc ∈ rows) (hsc : sc.nargs.truthy = true) :
    sc.syscall ∈ suppSet rows :=
  List.mem_map.mpr ⟨sc, List.mem_filter.mpr ⟨h, hsc⟩, rfl⟩

theorem suppFormatDf_append (supported : List Cell) (pre post : List (SyscallRow Cell)) :
    suppFormatDf supported (pre ++ post) =
      suppFormatDf supported pre ++ suppFormatDf supported post := by
  simp [suppFormatDf]

end Wali.MarkdownStubs
