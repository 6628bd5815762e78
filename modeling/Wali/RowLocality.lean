import Wali.LibcStubs
import Wali.MarkdownStubs
import Wali.WamrStubs
import Wali.WitStubs

/-!
What the generators emit for a row of the CSV file, and how far this depends on the
other rows.
-/

namespace Wali.RowLocality

open Wali.ArgumentTypes
open Wali.InsertionDict
open Wali.LibcStubs
open Wali.MarkdownStubs
open Wali.PythonText
open Wali.RunOutcome
open Wali.RunOutcome.Outcome
open Wali.StubEmission
open Wali.SyscallTable
open Wali.TypeTemplates
open Wali.WamrStubs
open Wali.WitStubs

/-- A row on which no generator stops: its function name is a text, and if an
argument count is present, then `int` accepts it and that many argument cells hold
texts, not all white space, with a Rust type. -/
structure AcceptedRow (T : Templates) (sc : SyscallRow Cell) : Prop where
  fnName : sc.fnName.IsStr
  args : sc.nargs.truthy = true → ∃ n, sc.nargs.toInt = returns n ∧
    ∀ i < n.toNat, ∃ c, sc.argTypes[i]? = some (.str c) ∧ strip c ≠ [] ∧ HasRustType T c

variable {T : Templates} {recordContent : Text} {rows pre post : List (SyscallRow Cell)}
  {sc : SyscallRow Cell}

theorem ne_nil_of_strip_ne_nil {c : Text} (h : strip c ≠ []) : c ≠ [] := by
  rintro rfl
  exact h rfl

theorem acceptedRow_iff :
    AcceptedRow T sc ↔ sc.fnName.IsStr ∧ ∃ cells, TypeCells sc cells ∧
      ∀ c ∈ cells, strip c ≠ [] ∧ HasRustType T c := by
  constructor
  · rintro ⟨hname, hargs⟩
    refine ⟨hname, ?_⟩
    by_cases hsc : sc.nargs.truthy = true
    · obtain ⟨n, hn, hcells⟩ := hargs hsc
      choose! cell hcell using hcells
      refine ⟨(List.range n.toNat).map cell, ⟨?_, ?_⟩, ?_⟩
      · rw [argCells_of_truthy hsc hn, List.map_map]
        refine forEach_eq_map fun i hi => ?_
        rw [SyscallRow.argType, (hcell i (List.mem_range.mp hi)).1]
        rfl
      · intro c hc
        obtain ⟨i, hi, rfl⟩ := List.mem_map.mp hc
        exact ne_nil_of_strip_ne_nil (hcell i (List.mem_range.mp hi)).2.1
      · intro c hc
        obtain ⟨i, hi, rfl⟩ := List.mem_map.mp hc
        exact (hcell i (List.mem_range.mp hi)).2
    · exact ⟨[], ⟨argCells_of_not_truthy (by simpa using hsc), by simp⟩, by simp⟩
  · rintro ⟨hname, cells, hcells, htypes⟩
    refine ⟨hname, fun hsc => ?_⟩
    obtain ⟨n, hn, hlength⟩ := length_of_argCells hcells.1 hsc
    rw [List.length_map] at hlength
    refine ⟨n, hn, fun i hi => ?_⟩
    have hlt : i < cells.length := by omega
    have hrow := hcells.1
    rw [argCells_of_truthy hsc hn] at hrow
    have hcell := getElem?_of_forEach hrow (List.getElem?_range hi)
      (by rw [List.getElem?_map, List.getElem?_eq_getElem hlt]; rfl)
    refine ⟨cells[i], ?_, htypes _ (List.getElem_mem hlt)⟩
    unfold SyscallRow.argType at hcell
    split at hcell
    · next hsome =>
        cases hcell
        exact hsome
    · cases hcell

theorem finishes_generators_iff :
    ((genLibcStubs T rows).Finishes ∧ (genWamrStubs T rows).Finishes ∧
      (genWitStubs T recordContent rows).Finishes) ↔ ∀ sc ∈ rows, AcceptedRow T sc := by
  simp only [finishes_genLibcStubs_iff, finishes_genWamrStubs_iff, finishes_genWitStubs_iff,
    acceptedRow_iff]
  constructor
  · rintro ⟨hlibc, _, hwit⟩ sc hsc
    obtain ⟨cells, hcells, htypes⟩ := hlibc sc hsc
    obtain ⟨hname, cells', hcells', hstrip⟩ := hwit sc hsc
    have hunique : cells = cells' := hcells.unique
      ⟨hcells', fun c hc => ne_nil_of_strip_ne_nil (hstrip c hc)⟩
    exact ⟨hname, cells, hcells, fun c hc => ⟨hstrip c (hunique ▸ hc), htypes c hc⟩⟩
  · intro h
    refine ⟨fun sc hsc => ?_, fun sc hsc => ?_, fun sc hsc => ?_⟩
    all_goals obtain ⟨hname, cells, hcells, htypes⟩ := h sc hsc
    · exact ⟨cells, hcells, fun c hc => (htypes c hc).2⟩
    · exact ⟨cells, hcells, fun c hc => (htypes c hc).2.1, fun _ => hname⟩
    · exact ⟨hname, cells, hcells.1, fun c hc => (htypes c hc).1⟩

/-- Among the functions that a file lists for the whole table, `f` stands between
those of the rows above and those of the rows below. -/
def ListedBetween (f : Text × Nat) (before all after : List (Text × Nat)) : Prop :=
  all = before ++ f :: after

def LibcEmits (T : Templates) (pre rows post : List (SyscallRow Cell)) (f : Text × Nat) :
    Prop :=
  ∃ before files after, genLibcStubs T pre = returns before ∧
    genLibcStubs T rows = returns files ∧ genLibcStubs T post = returns after ∧
    ListedBetween f (before.defs.map (·.signature)) (files.defs.map (·.signature))
      (after.defs.map (·.signature)) ∧
    ListedBetween f (before.cases.map (·.signature)) (files.cases.map (·.signature))
      (after.cases.map (·.signature)) ∧
    ListedBetween f (before.rustDefs.map (·.signature)) (files.rustDefs.map (·.signature))
      (after.rustDefs.map (·.signature)) ∧
    ListedBetween f (before.rustMatch.filterMap (·.signature?))
      (files.rustMatch.filterMap (·.signature?)) (after.rustMatch.filterMap (·.signature?))

def WamrEmits (T : Templates) (pre rows post : List (SyscallRow Cell)) (f : Text × Nat) :
    Prop :=
  ∃ before files after, genWamrStubs T pre = returns before ∧
    genWamrStubs T rows = returns files ∧ genWamrStubs T post = returns after ∧
    ListedBetween f (before.declr.map (·.signature)) (files.declr.map (·.signature))
      (after.declr.map (·.signature)) ∧
    ListedBetween f (before.impl.map (·.signature)) (files.impl.map (·.signature))
      (after.impl.map (·.signature)) ∧
    ListedBetween f (before.symbols.map (·.signature)) (files.symbols.map (·.signature))
      (after.symbols.map (·.signature))

def WitEmits (T : Templates) (recordContent : Text) (pre rows post : List (SyscallRow Cell))
    (f : Text × Nat) : Prop :=
  ∃ before wit after, genWitStubs T recordContent pre = returns before ∧
    genWitStubs T recordContent rows = returns wit ∧
    genWitStubs T recordContent post = returns after ∧
    ListedBetween (replaceChar '_' '-' f.1, f.2) (before.methods.map (·.signature))
      (wit.methods.map (·.signature)) (after.methods.map (·.signature))

/-- The report lists the row as supported at its own place, and the name of its
call not as unsupported. -/
def CountedAsSupported (syscalls : SystemCalls) (archs : List Text)
    (pre rows post : List (SyscallRow Cell)) (sc : SyscallRow Cell) : Prop :=
  ∃ report, genMarkdownStubs syscalls rows archs = returns report ∧
    report.supported = suppFormatDf (suppSet rows) pre ++
      supportRow sc :: suppFormatDf (suppSet rows) post ∧
    ∀ name, sc.syscall = .str name → name ∉ report.unsupported

/-- The generators emit the function of `row`, with `n` parameters, in all files that
they write for the table, and the report counts it. -/
structure EmitsRow (T : Templates) (recordContent : Text) (syscalls : SystemCalls)
    (t : CsvTable) (pre : List (SyscallRow Text)) (row : SyscallRow Text)
    (post : List (SyscallRow Text)) (n : Nat) : Prop where
  libc : LibcEmits T (t.readRows pre) t.parseCsv.1 (t.readRows post)
    ((t.readRow row).fnName.text, n)
  wamr : WamrEmits T (t.readRows pre) t.parseCsv.1 (t.readRows post)
    ((t.readRow row).fnName.text, n)
  wit : WitEmits T recordContent (t.readRows pre) t.parseCsv.1 (t.readRows post)
    ((t.readRow row).fnName.text, n)
  markdown : CountedAsSupported syscalls t.parseCsv.2 (t.readRows pre) t.parseCsv.1
    (t.readRows post) (t.readRow row)

/-- The table has all argument columns, known architectures and accepted rows only,
the row names a call, and its argument count is not the int 0. -/
structure RowPresent (T : Templates) (syscalls : SystemCalls) (t : CsvTable)
    (row : SyscallRow Text) : Prop where
  accepted : ∀ sc ∈ t.parseCsv.1, AcceptedRow T sc
  columns : 6 ≤ t.argColumns
  archs : ∀ v ∈ archSupp t.archs, (syscalls v).isSome
  named : (t.readRow row).syscall.truthy = true
  counted : numeralValue row.nargs ≠ 0 ∨ ¬ IntColumn (t.column (·.nargs))

theorem listedFunctions_append (pre post : List (SyscallRow Cell)) :
    listedFunctions (pre ++ post) = listedFunctions pre ++ listedFunctions post := by
  simp [listedFunctions]

theorem listedBetween_of_truthy (hsc : sc.nargs.truthy = true) :
    ListedBetween (sc.fnName.text, arity sc) (listedFunctions pre)
      (listedFunctions (pre ++ sc :: post)) (listedFunctions post) := by
  simp [ListedBetween, listedFunctions, hsc]

theorem accepted_around (h : ∀ x ∈ pre ++ sc :: post, AcceptedRow T x) :
    (∀ x ∈ pre, AcceptedRow T x) ∧ ∀ x ∈ post, AcceptedRow T x :=
  ⟨fun x hx => h x (by simp [hx]), fun x hx => h x (by simp [hx])⟩

theorem libcEmits_of_accepted (hsc : sc.nargs.truthy = true)
    (h : ∀ x ∈ pre ++ sc :: post, AcceptedRow T x) :
    LibcEmits T pre (pre ++ sc :: post) post (sc.fnName.text, arity sc) := by
  obtain ⟨hpre, hpost⟩ := accepted_around h
  obtain ⟨before, hbefore⟩ := ((@finishes_generators_iff T [] pre).mpr hpre).1
  obtain ⟨files, hfiles⟩ := ((@finishes_generators_iff T [] _).mpr h).1
  obtain ⟨after, hafter⟩ := ((@finishes_generators_iff T [] post).mpr hpost).1
  refine ⟨before, files, after, hbefore, hfiles, hafter, ?_⟩
  obtain ⟨hdefs, hcases, hrust, hmatch⟩ := genLibcStubs_eq_returns_iff.mp hfiles
  obtain ⟨hdefs₁, hcases₁, hrust₁, hmatch₁⟩ := genLibcStubs_eq_returns_iff.mp hbefore
  obtain ⟨hdefs₂, hcases₂, hrust₂, hmatch₂⟩ := genLibcStubs_eq_returns_iff.mp hafter
  refine ⟨?_, ?_, ?_, ?_⟩
  · rw [defs_signature hdefs, defs_signature hdefs₁, defs_signature hdefs₂]
    exact List.map_append
  · rw [cases_signature hcases, cases_signature hcases₁, cases_signature hcases₂]
    exact listedBetween_of_truthy hsc
  · rw [rustDefs_signature hrust, rustDefs_signature hrust₁, rustDefs_signature hrust₂]
    exact listedBetween_of_truthy hsc
  · rw [rustMatch_signature hmatch, rustMatch_signature hmatch₁, rustMatch_signature hmatch₂]
    exact listedBetween_of_truthy hsc

theorem wamrEmits_of_accepted (hsc : sc.nargs.truthy = true)
    (h : ∀ x ∈ pre ++ sc :: post, AcceptedRow T x) :
    WamrEmits T pre (pre ++ sc :: post) post (sc.fnName.text, arity sc) := by
  obtain ⟨hpre, hpost⟩ := accepted_around h
  obtain ⟨before, hbefore⟩ := ((@finishes_generators_iff T [] pre).mpr hpre).2.1
  obtain ⟨files, hfiles⟩ := ((@finishes_generators_iff T [] _).mpr h).2.1
  obtain ⟨after, hafter⟩ := ((@finishes_generators_iff T [] post).mpr hpost).2.1
  refine ⟨before, files, after, hbefore, hfiles, hafter, ?_⟩
  obtain ⟨hdeclr, himpl, hsymbols⟩ := genWamrStubs_eq_returns_iff.mp hfiles
  obtain ⟨hdeclr₁, himpl₁, hsymbols₁⟩ := genWamrStubs_eq_returns_iff.mp hbefore
  obtain ⟨hdeclr₂, himpl₂, hsymbols₂⟩ := genWamrStubs_eq_returns_iff.mp hafter
  refine ⟨?_, ?_, ?_⟩
  · rw [declr_signature hdeclr, declr_signature hdeclr₁, declr_signature hdeclr₂]
    exact List.map_append
  · rw [impl_signature himpl, impl_signature himpl₁, impl_signature himpl₂]
    exact listedBetween_of_truthy hsc
  · rw [symbols_signature hsymbols, symbols_signature hsymbols₁, symbols_signature hsymbols₂]
    exact listedBetween_of_truthy hsc

theorem witEmits_of_accepted (hsc : sc.nargs.truthy = true)
    (h : ∀ x ∈ pre ++ sc :: post, AcceptedRow T x) :
    WitEmits T recordContent pre (pre ++ sc :: post) post (sc.fnName.text, arity sc) := by
  obtain ⟨hpre, hpost⟩ := accepted_around h
  obtain ⟨before, hbefore⟩ := (finishes_generators_iff.mpr hpre).2.2
  obtain ⟨wit, hwit⟩ := (finishes_generators_iff.mpr h).2.2
  obtain ⟨after, hafter⟩ := (finishes_generators_iff.mpr hpost).2.2
  refine ⟨before, wit, after, hbefore, hwit, hafter, ?_⟩
  rw [methods_signature hbefore, methods_signature hwit, methods_signature hafter]
  have hlisted : listedFunctions (pre ++ sc :: post) =
      listedFunctions pre ++ (sc.fnName.text, arity sc) :: listedFunctions post :=
    listedBetween_of_truthy hsc
  rw [ListedBetween, hlisted, List.map_append, List.map_cons]

theorem countedAsSupported_of_truthy {syscalls : SystemCalls} {archs : List Text}
    (hsc : sc.nargs.truthy = true) (hcolumns : missingColumns (pre ++ sc :: post) = [])
    (harchs : ∀ v ∈ archSupp archs, (syscalls v).isSome) :
    CountedAsSupported syscalls archs pre (pre ++ sc :: post) post sc := by
  obtain ⟨report, hreport⟩ :=
    finishes_genMarkdownStubs_iff.mpr ⟨by simp, hcolumns, harchs⟩
  obtain ⟨_, _, calls, _, hsupported, hunsupported⟩ :=
    genMarkdownStubs_eq_returns_iff.mp hreport
  have hmem : sc.syscall ∈ suppSet (pre ++ sc :: post) := mem_suppSet (by simp) hsc
  refine ⟨report, hreport, ?_, ?_⟩
  · rw [hsupported, suppFormatDf_append]
    simp [suppFormatDf, hmem]
  · intro name hname hlisted
    rw [hunsupported, mem_sorted, List.mem_filter] at hlisted
    rw [hname] at hmem
    simp [hmem] at hlisted

theorem parseCsv_of_named {t : CsvTable} {pre post : List (SyscallRow Text)}
    {row : SyscallRow Text} (hrows : t.rows = pre ++ row :: post)
    (hnamed : (t.readRow row).syscall.truthy = true) :
    t.parseCsv.1 = t.readRows pre ++ t.readRow row :: t.readRows post := by
  simp [CsvTable.parseCsv, hrows, CsvTable.readRows, hnamed]

/-- A numeral is read as an argument count that is present, unless it is 0 and the
whole column is read as ints. -/
theorem truthy_nargs_iff {t : CsvTable} {row : SyscallRow Text} (h : IsNumeral row.nargs) :
    (t.readRow row).nargs.truthy = true ↔
      numeralValue row.nargs ≠ 0 ∨ ¬ IntColumn (t.column (·.nargs)) := by
  have hread : (t.readRow row).nargs = readCell (t.column (·.nargs)) row.nargs := rfl
  rw [hread, readCell_of_isNumeral h]
  split
  · next hint => simp [Cell.truthy, hint]
  · next hint => simp [Cell.truthy, hint, h.1]

theorem arity_readRow {t : CsvTable} {row : SyscallRow Text} (h : IsNumeral row.nargs) :
    arity (t.readRow row) = numeralValue row.nargs := by
  have hread : (t.readRow row).nargs.toInt = returns (numeralValue row.nargs : Int) :=
    toInt_readCell_of_isNumeral h
  simp [arity, hread]

theorem truthy_of_libcEmits {t : CsvTable} {pre post : List (SyscallRow Text)}
    {row : SyscallRow Text} {f : Text × Nat} (hrows : t.rows = pre ++ row :: post)
    (h : LibcEmits T (t.readRows pre) t.parseCsv.1 (t.readRows post) f) :
    (t.readRow row).syscall.truthy = true ∧ (t.readRow row).nargs.truthy = true := by
  obtain ⟨before, files, after, hbefore, hfiles, hafter, _, hcases, _⟩ := h
  rw [cases_signature (genLibcStubs_eq_returns_iff.mp hbefore).2.1,
    cases_signature (genLibcStubs_eq_returns_iff.mp hfiles).2.1,
    cases_signature (genLibcStubs_eq_returns_iff.mp hafter).2.1] at hcases
  have hlength := congrArg List.length hcases
  have hsplit : t.parseCsv.1 = t.readRows pre ++ (t.readRows [row] ++ t.readRows post) := by
    rw [← readRows_append, ← readRows_append]
    simp [CsvTable.parseCsv, hrows]
  rw [hsplit, listedFunctions_append, listedFunctions_append] at hlength
  simp only [List.length_append, List.length_cons] at hlength
  have hrow : (listedFunctions (t.readRows [row])).length = 1 := by omega
  by_contra hnot
  have hnone : listedFunctions (t.readRows [row]) = [] := by
    simp only [listedFunctions, CsvTable.readRows, List.map_cons, List.map_nil]
    rw [List.map_eq_nil_iff, List.filter_eq_nil_iff]
    intro sc hsc
    obtain ⟨hmem, hnamed⟩ := List.mem_filter.mp hsc
    rw [List.mem_singleton] at hmem
    subst hmem
    exact fun hpresent => hnot ⟨hnamed, hpresent⟩
  rw [hnone] at hrow
  cases hrow

/-- A row whose argument count is the numeral `n` is emitted with `n` parameters and
counted, exactly when no row of the table stops a generator, the row names a call,
and `n` is not 0 in a column of integers. -/
theorem emitsRow_iff {syscalls : SystemCalls} {t : CsvTable}
    {pre post : List (SyscallRow Text)} {row : SyscallRow Text}
    (hrows : t.rows = pre ++ row :: post) (hnargs : IsNumeral row.nargs) :
    EmitsRow T recordContent syscalls t pre row post (numeralValue row.nargs) ↔
      RowPresent T syscalls t row := by
  constructor
  · rintro ⟨hlibc, hwamr, hwit, hmarkdown⟩
    obtain ⟨hnamed, hpresent⟩ := truthy_of_libcEmits hrows hlibc
    obtain ⟨_, _, _, _, hfiles, _⟩ := hlibc
    obtain ⟨_, _, _, _, hwamrFiles, _⟩ := hwamr
    obtain ⟨_, _, _, _, hwitFile, _⟩ := hwit
    obtain ⟨_, hreport, _⟩ := hmarkdown
    obtain ⟨hne, hcolumns, harchs⟩ := finishes_genMarkdownStubs_iff.mp ⟨_, hreport⟩
    exact
      { accepted := finishes_generators_iff.mp ⟨⟨_, hfiles⟩, ⟨_, hwamrFiles⟩, ⟨_, hwitFile⟩⟩
        columns := (missingColumns_parseCsv hne).mp hcolumns
        archs := harchs
        named := hnamed
        counted := (truthy_nargs_iff hnargs).mp hpresent }
  · rintro ⟨haccepted, hcolumns, harchs, hnamed, hcounted⟩
    have hpresent : (t.readRow row).nargs.truthy = true :=
      (truthy_nargs_iff hnargs).mpr hcounted
    have hparse := parseCsv_of_named hrows hnamed
    have hmissing : missingColumns t.parseCsv.1 = [] :=
      (missingColumns_parseCsv (by simp [hparse])).mpr hcolumns
    rw [hparse] at haccepted hmissing
    constructor
    · rw [hparse, ← arity_readRow hnargs]
      exact libcEmits_of_accepted hpresent haccepted
    · rw [hparse, ← arity_readRow hnargs]
      exact wamrEmits_of_accepted hpresent haccepted
    · rw [hparse, ← arity_readRow hnargs]
      exact witEmits_of_accepted hpresent haccepted
    · rw [hparse]
      exact countedAsSupported_of_truthy hpresent hmissing harchs

/-- A call without arguments. -/
def getpidRow : SyscallRow Text where
  nr := "39"
  syscall := "getpid"
  nargs := "0"
  argTypes := [[], [], [], [], [], []]
  aliases := []
  unusedAliases := []
  archNrs := []

/-- A call that the table does not support: its argument count is blank. -/
def shmgetRow : SyscallRow Text where
  nr := "29"
  syscall := "shmget"
  nargs := []
  argTypes := [[], [], [], [], [], []]
  aliases := []
  unusedAliases := []
  archNrs := []

def tableOf (rows : List (SyscallRow Text)) (hrows : ∀ row ∈ rows, row.argTypes.length = 6)
    (harchs : ∀ row ∈ rows, row.archNrs.length = 0) : CsvTable where
  argColumns := 6
  archs := []
  rows := rows
  argWidth := hrows
  archWidth := harchs

def mixedTable : CsvTable := tableOf [getpidRow, shmgetRow] (by decide) (by decide)

def integerTable : CsvTable := tableOf [getpidRow] (by decide) (by decide)

theorem getpid_emitted_of_blank_count :
    EmitsRow shippedTemplates [] (fun _ => some []) mixedTable [] getpidRow [shmgetRow] 0 := by
  have hpresent : RowPresent shippedTemplates (fun _ => some []) mixedTable getpidRow :=
    { accepted := by
        intro sc hsc
        have hrows : mixedTable.parseCsv.1 =
            [mixedTable.readRow getpidRow, mixedTable.readRow shmgetRow] := rfl
        rw [hrows] at hsc
        rcases List.mem_pair.mp hsc with rfl | rfl
        · exact ⟨trivial, fun _ => ⟨0, by decide, fun i hi => absurd hi (by simp)⟩⟩
        · exact ⟨trivial, fun h => absurd h (by decide)⟩
      columns := by decide
      archs := by simp
      named := by decide
      counted := .inr (by decide) }
  exact (emitsRow_iff rfl (by decide)).mpr hpresent

/-- Without the blank cell the column is read as ints, and no file lists the call. -/
theorem getpid_dropped_from_integer_table :
    IsNumeral getpidRow.nargs ∧
      ¬ EmitsRow shippedTemplates [] (fun _ => some []) integerTable [] getpidRow [] 0 := by
  refine ⟨by decide, fun h => ?_⟩
  have hrows : integerTable.rows = [] ++ getpidRow :: [] := rfl
  have hpresent := (truthy_of_libcEmits hrows h.libc).2
  exact absurd hpresent (by decide)

end Wali.RowLocality
