import Wali.MarkdownStubs
import Mathlib.Logic.Basic

/-!
The support report against the names of the kernel: each of them in the
supported table or in the unsupported list, and the number of supported rows.
-/

namespace Wali.SupportPartition

open Wali.MarkdownStubs
open Wali.PythonText
open Wali.RunOutcome
open Wali.RunOutcome.Outcome
open Wali.SyscallTable

/-- The row has an entry in the column `# Args`. -/
def ArgsPresent (sc : SyscallRow Cell) : Prop := sc.nargs ≠ .str []

instance (sc : SyscallRow Cell) : Decidable (ArgsPresent sc) :=
  inferInstanceAs (Decidable (sc.nargs ≠ .str []))

/-- `x` is the row's syscall, alias or unused alias. -/
def NamedBy (sc : SyscallRow Cell) (x : Text) : Prop :=
  x ≠ [] ∧ (sc.syscall.text = x ∨ sc.aliases.text = x ∨ sc.unusedAliases.text = x)

/-- The call names of all selected architectures. -/
def kernelNames (syscalls : SystemCalls) (archs : List Text) : List Text :=
  (archSupp archs).flatMap fun v => (syscalls v).getD []

/-- The supported table shows a row for the name `x`. -/
def InSupportedTable (rows : List (SyscallRow Cell)) (report : SupportReport) (x : Text) : Prop :=
  ∃ sc ∈ rows, ArgsPresent sc ∧ NamedBy sc x ∧ supportRow sc ∈ report.supported

structure Partitions (kernel : List Text) (rows : List (SyscallRow Cell))
    (report : SupportReport) : Prop where
  exactlyOne : ∀ x ∈ kernel, Xor (InSupportedTable rows report x) (x ∈ report.unsupported)
  notUnsupported : ∀ sc ∈ rows, ArgsPresent sc → ∀ x, NamedBy sc x → x ∉ report.unsupported
  number : report.numSupported = natText (rows.countP fun sc => ArgsPresent sc)

/-- Some row with a count that Python takes for true has this `Syscall` entry. -/
def HasCountedRow (rows : List (SyscallRow Cell)) (name : Cell) : Prop :=
  ∃ sc ∈ rows, sc.nargs.truthy = true ∧ sc.syscall = name

instance (rows : List (SyscallRow Cell)) (name : Cell) : Decidable (HasCountedRow rows name) :=
  inferInstanceAs (Decidable (∃ sc ∈ rows, sc.nargs.truthy = true ∧ sc.syscall = name))

theorem mem_suppSet_iff {rows : List (SyscallRow Cell)} {name : Cell} :
    name ∈ suppSet rows ↔ HasCountedRow rows name := by
  simp only [suppSet, List.mem_map, List.mem_filter, HasCountedRow, and_assoc]

theorem countP_eq_iff_of_imp {α : Type} {p q : α → Bool} {xs : List α}
    (h : ∀ x ∈ xs, p x = true → q x = true) :
    xs.countP p = xs.countP q ↔ ∀ x ∈ xs, q x = true → p x = true := by
  induction xs with
  | nil => simp
  | cons x xs ih =>
      have hxs := ih fun x' hx' => h x' (by simp [hx'])
      have hle : xs.countP p ≤ xs.countP q :=
        List.countP_mono_left fun x' hx' => h x' (by simp [hx'])
      have hx := h x (by simp)
      rw [List.forall_mem_cons, ← hxs, List.countP_cons, List.countP_cons]
      cases hp : p x <;> cases hq : q x <;> simp_all
      omega

/-- What a table and the tables of the architectures must satisfy for the report
to be written and right. -/
structure Reportable (syscalls : SystemCalls) (archs : List Text) (t : CsvTable) : Prop where
  someRow : t.parseCsv.1 ≠ []
  columns : 6 ≤ t.argColumns
  knownArchs : ∀ v ∈ archSupp archs, (syscalls v).isSome
  names : ∀ x ∈ kernelNames syscalls archs, ∀ sc ∈ t.parseCsv.1, ArgsPresent sc → NamedBy sc x →
    HasCountedRow t.parseCsv.1 (.str x)
  counts : ∀ sc ∈ t.parseCsv.1, ArgsPresent sc ↔ HasCountedRow t.parseCsv.1 sc.syscall

section Rows

variable {t : CsvTable} {syscalls : SystemCalls} {archs : List Text}
  {rows : List (SyscallRow Cell)} {report : SupportReport}

theorem not_str_of_intColumn {column : List Text} {s : Text} (h : IntColumn column)
    (hs : s ∈ column) (s' : Text) : readCell column s ≠ .str s' := by
  obtain ⟨z, hz⟩ := Option.isSome_iff_exists.mp (h s hs)
  simp [readCell, h, hz]

/-- A column of integers has no blank cell; in any other column the counts that are
present are the texts that Python takes for true. -/
theorem argsPresent_uniform (t : CsvTable) :
    (∀ sc ∈ t.parseCsv.1, ArgsPresent sc) ∨
      ∀ sc ∈ t.parseCsv.1, ArgsPresent sc → sc.nargs.truthy = true := by
  by_cases hcolumn : IntColumn (t.column (·.nargs))
  · refine .inl fun sc hsc => ?_
    obtain ⟨row, hrow, rfl⟩ := List.mem_map.mp (List.mem_filter.mp hsc).1
    exact not_str_of_intColumn hcolumn (List.mem_map_of_mem hrow) []
  · refine .inr fun sc hsc hpresent => ?_
    obtain ⟨row, hrow, rfl⟩ := List.mem_map.mp (List.mem_filter.mp hsc).1
    have hcell : (t.readRow row).nargs = .str row.nargs := by
      simp [CsvTable.readRow, readCell, hcolumn]
    rw [ArgsPresent, hcell] at hpresent
    rw [hcell]
    simpa [Cell.truthy] using hpresent

theorem length_suppFormatDf (rows : List (SyscallRow Cell)) :
    (suppFormatDf (suppSet rows) rows).length =
      rows.countP fun sc => HasCountedRow rows sc.syscall := by
  rw [suppFormatDf, List.length_map, List.countP_eq_length_filter]
  congr 1
  refine List.filter_congr fun sc _ => ?_
  rw [decide_eq_decide, mem_suppSet_iff]

theorem number_iff (t : CsvTable) :
    (suppFormatDf (suppSet t.parseCsv.1) t.parseCsv.1).length =
        t.parseCsv.1.countP (fun sc => ArgsPresent sc) ↔
      ∀ sc ∈ t.parseCsv.1, ArgsPresent sc ↔ HasCountedRow t.parseCsv.1 sc.syscall := by
  rw [length_suppFormatDf]
  rcases argsPresent_uniform t with hall | htruthy
  · have himp : ∀ sc ∈ t.parseCsv.1, decide (HasCountedRow t.parseCsv.1 sc.syscall) = true →
        decide (ArgsPresent sc) = true := fun sc hsc _ => decide_eq_true (hall sc hsc)
    rw [countP_eq_iff_of_imp himp]
    simp only [decide_eq_true_eq]
    exact forall₂_congr fun sc hsc =>
      ⟨fun h => ⟨h, fun _ => hall sc hsc⟩, fun h => h.1⟩
  · have himp : ∀ sc ∈ t.parseCsv.1, decide (ArgsPresent sc) = true →
        decide (HasCountedRow t.parseCsv.1 sc.syscall) = true := fun sc hsc hpresent =>
      decide_eq_true ⟨sc, hsc, htruthy sc hsc (of_decide_eq_true hpresent), rfl⟩
    rw [eq_comm, countP_eq_iff_of_imp himp]
    simp only [decide_eq_true_eq]
    refine forall₂_congr fun sc hsc => ⟨fun h => ⟨fun hpresent => ?_, h⟩, fun h => h.2⟩
    exact of_decide_eq_true (himp sc hsc (decide_eq_true hpresent))

theorem mem_kernelNames_iff {calls : List (List Text)}
    (h : forEach (archCalls syscalls) (archSupp archs) = returns calls) {x : Text} :
    x ∈ kernelNames syscalls archs ↔ x ∈ calls.flatten := by
  rw [kernelNames, List.mem_flatMap, List.mem_flatten]
  constructor
  · rintro ⟨v, hv, hx⟩
    obtain ⟨names, hnames, hcalls⟩ := exists_mem_of_forEach h hv
    rw [archCalls_eq_returns_iff.mp hcalls] at hx
    exact ⟨names, hnames, hx⟩
  · rintro ⟨names, hnames, hx⟩
    obtain ⟨v, hv, hcalls⟩ := exists_of_mem_forEach h hnames
    refine ⟨v, hv, ?_⟩
    rw [archCalls_eq_returns_iff.mp hcalls]
    exact hx

theorem report_spec (h : genMarkdownStubs syscalls rows archs = returns report) :
    report.supported = suppFormatDf (suppSet rows) rows ∧
      ∀ x, x ∈ report.unsupported ↔
        x ∈ kernelNames syscalls archs ∧ ¬ HasCountedRow rows (.str x) := by
  obtain ⟨_, _, calls, hcalls, hsupported, hunsupported⟩ :=
    genMarkdownStubs_eq_returns_iff.mp h
  refine ⟨hsupported, fun x => ?_⟩
  rw [hunsupported, mem_sorted, List.mem_filter, mem_kernelNames_iff hcalls, decide_eq_true_eq,
    mem_suppSet_iff]

theorem mem_supported_of_present (h : genMarkdownStubs syscalls rows archs = returns report)
    {sc : SyscallRow Cell} (hsc : sc ∈ rows) (hcounted : HasCountedRow rows sc.syscall) :
    supportRow sc ∈ report.supported := by
  rw [(report_spec h).1]
  exact List.mem_map_of_mem
    (List.mem_filter.mpr ⟨hsc, decide_eq_true (mem_suppSet_iff.mpr hcounted)⟩)

theorem inSupportedTable_of_counted
    (h : genMarkdownStubs syscalls t.parseCsv.1 archs = returns report) {x : Text}
    (hcounted : HasCountedRow t.parseCsv.1 (.str x)) :
    InSupportedTable t.parseCsv.1 report x := by
  obtain ⟨sc, hsc, htruthy, hname⟩ := hcounted
  have hnamed : sc.syscall.truthy = true := by simpa using (List.mem_filter.mp hsc).2
  refine ⟨sc, hsc, ?_, ⟨?_, .inl ?_⟩, mem_supported_of_present h hsc ⟨sc, hsc, htruthy, rfl⟩⟩
  · intro hblank
    rw [hblank] at htruthy
    cases htruthy
  · rintro rfl
    rw [hname] at hnamed
    cases hnamed
  · rw [hname]
    rfl

end Rows

/-- The report is written, shows every kernel name once and the right number if and
only if the table is reportable. -/
theorem support_report_partitions_iff (syscalls : SystemCalls) (archs : List Text)
    (t : CsvTable) :
    (∃ report, genMarkdownStubs syscalls t.parseCsv.1 archs = returns report ∧
        Partitions (kernelNames syscalls archs) t.parseCsv.1 report) ↔
      Reportable syscalls archs t := by
  constructor
  · rintro ⟨report, hreport, hpartitions⟩
    obtain ⟨hrows, hcolumns, harchs⟩ := finishes_genMarkdownStubs_iff.mp ⟨report, hreport⟩
    obtain ⟨hsupported, hunsupported⟩ := report_spec hreport
    have hnumber := hpartitions.number
    rw [SupportReport.numSupported, hsupported] at hnumber
    exact
      { someRow := hrows
        columns := (missingColumns_parseCsv hrows).mp hcolumns
        knownArchs := harchs
        names := fun x hx sc hsc hpresent hnamed => by
          by_contra hcounted
          exact hpartitions.notUnsupported sc hsc hpresent x hnamed
            ((hunsupported x).mpr ⟨hx, hcounted⟩)
        counts := (number_iff t).mp (natText_injective hnumber) }
  · rintro ⟨hrows, hcolumns, harchs, hnames, hcounts⟩
    obtain ⟨report, hreport⟩ := finishes_genMarkdownStubs_iff.mpr
      ⟨hrows, (missingColumns_parseCsv hrows).mpr hcolumns, harchs⟩
    obtain ⟨hsupported, hunsupported⟩ := report_spec hreport
    refine ⟨report, hreport, fun x hx => ?_, fun sc hsc hpresent x hnamed hx => ?_, ?_⟩
    · by_cases hcounted : HasCountedRow t.parseCsv.1 (.str x)
      · refine .inl ⟨inSupportedTable_of_counted hreport hcounted, fun hx' => ?_⟩
        exact ((hunsupported x).mp hx').2 hcounted
      · refine .inr ⟨(hunsupported x).mpr ⟨hx, hcounted⟩, ?_⟩
        rintro ⟨sc, hsc, hpresent, hnamed, _⟩
        exact hcounted (hnames x hx sc hsc hpresent hnamed)
    · obtain ⟨hkernel, hcounted⟩ := (hunsupported x).mp hx
      exact hcounted (hnames x hkernel sc hsc hpresent hnamed)
    · rw [SupportReport.numSupported, hsupported, (number_iff t).mpr hcounts]

/-- The row of `fadvise`, which the kernel of some architectures calls `fadvise64`. -/
def fadviseRow : SyscallRow Text where
  nr := "221"
  syscall := "fadvise"
  nargs := "4"
  argTypes := ["int", "off_t", "off_t", "int", [], []]
  aliases := []
  unusedAliases := "fadvise64"
  archNrs := ["223"]

def fadviseTable : CsvTable where
  argColumns := 6
  archs := ["aarch64"]
  rows := [fadviseRow]
  argWidth := by decide
  archWidth := by decide

theorem fadvise64_listed_unsupported :
    ∃ report, genMarkdownStubs (fun _ => some ["fadvise64"]) fadviseTable.parseCsv.1 ["aarch64"] =
        returns report ∧
      "fadvise64".toList ∈ report.unsupported ∧
      ¬ Partitions (kernelNames (fun _ => some ["fadvise64"]) ["aarch64"])
        fadviseTable.parseCsv.1 report := by
  obtain ⟨report, hreport⟩ := finishes_genMarkdownStubs_iff.mpr
    (⟨by decide, by decide, by simp⟩ : fadviseTable.parseCsv.1 ≠ [] ∧
      missingColumns fadviseTable.parseCsv.1 = [] ∧
      ∀ v ∈ archSupp ["aarch64"], ((fun _ => some ["fadvise64"] : SystemCalls) v).isSome)
  have hlisted : "fadvise64".toList ∈ report.unsupported := by
    rw [(report_spec hreport).2]
    exact ⟨by decide, by decide⟩
  have hrows : fadviseTable.parseCsv.1 = [fadviseTable.readRow fadviseRow] := rfl
  refine ⟨report, hreport, hlisted, fun h => ?_⟩
  exact h.notUnsupported (fadviseTable.readRow fadviseRow) (by simp [hrows]) (by decide)
    "fadvise64" ⟨by decide, by decide⟩ hlisted

end Wali.SupportPartition
