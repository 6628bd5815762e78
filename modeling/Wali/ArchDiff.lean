import Wali.WitStubs

/-!
`gen_arch_diff_stubs`: for each architecture the names of the rows that have the
number -1 there.
-/

namespace Wali.ArchDiff

open Wali.PythonText
open Wali.RunOutcome
open Wali.RunOutcome.Outcome
open Wali.SyscallTable
open Wali.WitStubs

section Program

/-- `sc[f"{arch}_NR"]`, the architecture with its number among the columns -/
def archNr (sc : SyscallRow Cell) (arch : Text × Nat) : Outcome PyErr Cell :=
  ofOption (.keyError (arch.1 ++ "_NR")) sc.archNrs[arch.2]?

/-- `cell and int(cell) == -1` -/
def isUndefined (cell : Cell) : Outcome PyErr Bool :=
  if cell.truthy then do
    let nr ← cell.toInt
    returns (nr == -1)
  else returns false

/-- What a round of the loop adds to the list of an architecture. -/
def undefinedCell (sc : SyscallRow Cell) (arch : Text × Nat) : Outcome PyErr (Option Cell) := do
  let cell ← archNr sc arch
  let missing ← isUndefined cell
  returns (if missing then some sc.syscall else none)

/-- `bufs.values()`; the architectures have different names. -/
def bufs (syscallInfo : List (SyscallRow Cell)) (archs : List Text) :
    Outcome PyErr (List (List Cell)) := do
  let rounds ← forEach (fun sc => forEach (undefinedCell sc) archs.zipIdx) syscallInfo
  returns ((List.range archs.length).map fun i => rounds.filterMap fun round => (round[i]?).join)

/-- `'\n'.join(buf)` -/
def bufText (buf : List Cell) : Outcome PyErr Text := do
  let lines ← forEach joinItem buf
  returns (join "\n" lines)

/-- The texts of the files `{arch}_undefined.out`, in order. -/
def genArchDiffStubs (syscallInfo : List (SyscallRow Cell)) (archs : List Text) :
    Outcome PyErr (List Text) := do
  let bufs ← bufs syscallInfo archs
  forEach bufText bufs

end Program

section Cells

variable {column : List Text} {s : Text}

theorem parseInt_of_integerCell? {z : Int} (h : integerCell? s = some z) :
    parseInt s = some z := by
  have hsigned : ∀ (sign : Char) (digits : Text), isIntSpace sign = false → IsNumeral digits →
      ((sign :: digits).dropWhile isIntSpace).rdropWhile isIntSpace = sign :: digits := by
    intro sign digits hsign hdigits
    rw [List.dropWhile_cons_of_neg (by simp [hsign]), List.rdropWhile_eq_self_iff]
    intro hne
    have hlast : (sign :: digits).getLast hne ∈ digits := by
      rw [List.getLast_cons hdigits.1]
      exact List.getLast_mem hdigits.1
    simp [isIntSpace_of_isDigit (hdigits.2 _ hlast)]
  have hunsigned : ∀ {digits : Text}, IsNumeral digits →
      unsignedInt digits = some (numeralValue digits) := by
    intro digits hdigits
    obtain ⟨c, cs, rfl⟩ := List.exists_cons_of_ne_nil hdigits.1
    have hc : c.isDigit = true := hdigits.2 c (by simp)
    rw [unsignedInt, decimalDigit?_of_isDigit hc, Option.bind_some,
      digitsFrom_of_isDigit fun c' hc' => hdigits.2 c' (by simp [hc'])]
    simp [numeralValue, numeralValueFrom]
  unfold integerCell? at h
  split at h
  · next digits =>
      split at h
      · next hdigits =>
          cases h
          rw [parseInt, hsigned '-' digits (by decide) hdigits]
          simp [hunsigned hdigits]
      · cases h
  · next digits =>
      split at h
      · next hdigits =>
          cases h
          rw [parseInt, hsigned '+' digits (by decide) hdigits]
          simp [hunsigned hdigits]
      · cases h
  · split at h
    · next hdigits =>
        cases h
        exact parseInt_of_isNumeral hdigits
    · cases h

/-- The cell of an architecture is blank or a number. -/
def IsNrCell (s : Text) : Prop := s = [] ∨ (parseInt s).isSome

instance (s : Text) : Decidable (IsNrCell s) :=
  inferInstanceAs (Decidable (s = [] ∨ (parseInt s).isSome = true))

theorem truthy_str (s : Text) : (Cell.str s).truthy = decide (s ≠ []) := by
  cases s <;> rfl

theorem isUndefined_str (s : Text) :
    isUndefined (.str s) =
      if s = [] then returns false else ofOption .valueError ((parseInt s).map (· == -1)) := by
  rw [isUndefined, truthy_str]
  by_cases hs : s = []
  · simp [hs]
  · rw [if_pos (by simpa using hs), if_neg hs, Cell.toInt]
    cases parseInt s <;> rfl

/-- Whether a column is read as integers or as texts makes no difference. -/
theorem isUndefined_readCell (hs : s ∈ column) :
    isUndefined (readCell column s) = isUndefined (.str s) := by
  by_cases hcolumn : IntColumn column
  · obtain ⟨z, hz⟩ := Option.isSome_iff_exists.mp (hcolumn s hs)
    have hne : s ≠ [] := by
      rintro rfl
      cases hz
    have hread : readCell column s = .int z := by simp [readCell, hcolumn, hz]
    rw [hread, isUndefined_str, if_neg hne, parseInt_of_integerCell? hz, isUndefined]
    by_cases hzero : z = 0
    · subst hzero
      rfl
    · simp [Cell.truthy, hzero, Cell.toInt, ofOption]
  · rw [readCell, if_neg hcolumn]

theorem isUndefined_str_eq_returns_iff {missing : Bool} :
    isUndefined (.str s) = returns missing ↔
      IsNrCell s ∧ missing = decide (parseInt s = some (-1)) := by
  rw [isUndefined_str, IsNrCell]
  by_cases hs : s = []
  · have hblank : parseInt ([] : Text) ≠ some (-1) := by decide
    subst hs
    simp only [if_true, returns.injEq, true_or, true_and, hblank, decide_false]
    exact eq_comm
  · rw [if_neg hs, ofOption_eq_returns_iff]
    cases parseInt s with
    | none => simp [hs]
    | some z =>
        simp only [Option.map_some, Option.some.injEq, hs, Option.isSome_some, or_true, true_and]
        exact eq_comm

end Cells

section Tables

variable {t : CsvTable}

/-- Names of the rows that have the number -1 for the architecture `i`. -/
def undefinedNames (t : CsvTable) (i : Nat) : List Text :=
  (t.rows.filter fun row =>
    row.syscall ≠ [] ∧ parseInt (row.archNrs.getD i []) = some (-1)).map (·.syscall)

theorem parseCsv_of_names (hnames : ¬ IntColumn (t.column (·.syscall))) :
    t.parseCsv.1 = (t.rows.filter (·.syscall ≠ [])).map t.readRow ∧
      ∀ row ∈ t.rows, (t.readRow row).syscall = .str row.syscall := by
  have hread : ∀ row ∈ t.rows, (t.readRow row).syscall = .str row.syscall := by
    intro row _
    simp [CsvTable.readRow, readCell, hnames]
  refine ⟨?_, hread⟩
  change (t.rows.map t.readRow).filter (·.syscall.truthy) = _
  rw [List.filter_map]
  refine congrArg _ (List.filter_congr fun row hrow => ?_)
  rw [Function.comp_apply, hread row hrow, truthy_str]

theorem archNr_readRow {row : SyscallRow Text} (hrow : row ∈ t.rows) {arch : Text × Nat}
    (harch : arch ∈ t.archs.zipIdx) :
    ∃ s ∈ row.archNrs, s = row.archNrs.getD arch.2 [] ∧
      archNr (t.readRow row) arch = returns (readCell (t.column (·.archNrs.getD arch.2 [])) s) := by
  have hlt : arch.2 < row.archNrs.length := by
    rw [t.archWidth row hrow]
    exact (List.getElem?_eq_some_iff.mp (List.mk_mem_zipIdx_iff_getElem?.mp harch)).1
  refine ⟨row.archNrs[arch.2], List.getElem_mem hlt, ?_, ?_⟩
  · rw [List.getD_eq_getElem?_getD, List.getElem?_eq_getElem hlt]
    rfl
  · rw [archNr, CsvTable.readRow, ofOption_eq_returns_iff, List.getElem?_mapIdx,
      List.getElem?_eq_getElem hlt]
    rfl

theorem undefinedCell_readRow {row : SyscallRow Text} (hrow : row ∈ t.rows) {arch : Text × Nat}
    (harch : arch ∈ t.archs.zipIdx) {entry : Option Cell}
    (hread : (t.readRow row).syscall = .str row.syscall) :
    undefinedCell (t.readRow row) arch = returns entry ↔
      IsNrCell (row.archNrs.getD arch.2 []) ∧
        entry = if parseInt (row.archNrs.getD arch.2 []) = some (-1) then
          some (.str row.syscall) else none := by
  obtain ⟨s, _, hs, hnr⟩ := archNr_readRow hrow harch
  have hcolumn : s ∈ t.column (·.archNrs.getD arch.2 []) := by
    rw [hs]
    exact List.mem_map_of_mem hrow
  rw [undefinedCell, hnr, returns_bind, isUndefined_readCell hcolumn, ← hs, hread,
    bind_eq_returns_iff]
  simp only [isUndefined_str_eq_returns_iff, returns.injEq]
  constructor
  · rintro ⟨_, ⟨hcell, rfl⟩, rfl⟩
    exact ⟨hcell, by simp⟩
  · rintro ⟨hcell, rfl⟩
    exact ⟨_, ⟨hcell, rfl⟩, by simp⟩

/-- The entries of a row that the loop appends to the lists of the architectures. -/
theorem forEach_undefinedCell_iff {row : SyscallRow Text} (hrow : row ∈ t.rows)
    (hread : (t.readRow row).syscall = .str row.syscall) {round : List (Option Cell)} :
    forEach (undefinedCell (t.readRow row)) t.archs.zipIdx = returns round ↔
      (∀ s ∈ row.archNrs, IsNrCell s) ∧
        round = t.archs.zipIdx.map fun arch =>
          if parseInt (row.archNrs.getD arch.2 []) = some (-1) then
            some (.str row.syscall) else none := by
  rw [forEach_eq_returns_iff_map fun arch harch entry => undefinedCell_readRow hrow harch hread]
  refine and_congr_left fun _ => ?_
  constructor
  · intro h s hs
    obtain ⟨i, hi, rfl⟩ := List.getElem_of_mem hs
    have hlt : i < t.archs.length := by rwa [← t.archWidth row hrow]
    have harch := h (t.archs[i], i)
      (List.mk_mem_zipIdx_iff_getElem?.mpr (List.getElem?_eq_getElem hlt))
    rwa [List.getD_eq_getElem?_getD, List.getElem?_eq_getElem hi] at harch
  · intro h arch harch
    obtain ⟨s, hs, heq, _⟩ := archNr_readRow hrow harch
    exact heq ▸ h s hs

/-- The list of an architecture, taken from the entries of all rows. -/
theorem filterMap_rounds {i : Nat} (hi : i < t.archs.length) (rows : List (SyscallRow Text)) :
    (((rows.filter (·.syscall ≠ [])).map fun row => t.archs.zipIdx.map fun arch =>
        if parseInt (row.archNrs.getD arch.2 []) = some (-1) then
          some (Cell.str row.syscall) else none).filterMap fun round => (round[i]?).join) =
      ((rows.filter fun row =>
        row.syscall ≠ [] ∧ parseInt (row.archNrs.getD i []) = some (-1)).map (·.syscall)).map
          .str := by
  have hentry : ∀ row : SyscallRow Text, ((t.archs.zipIdx.map fun arch =>
      if parseInt (row.archNrs.getD arch.2 []) = some (-1) then
        some (Cell.str row.syscall) else none)[i]?).join =
      if parseInt (row.archNrs.getD i []) = some (-1) then some (.str row.syscall) else none := by
    intro row
    rw [List.getElem?_map, List.getElem?_zipIdx, List.getElem?_eq_getElem hi]
    simp
  induction rows with
  | nil => rfl
  | cons row rows ih =>
      by_cases hname : row.syscall = []
      · simpa [hname] using ih
      · by_cases hnr : parseInt (row.archNrs.getD i []) = some (-1)
        · have hrow := hentry row
          rw [if_pos hnr] at hrow
          simp only [List.filter_cons, hname, hnr, ne_eq, not_false_eq_true, decide_true,
            true_and, if_true, List.map_cons, List.filterMap_cons, hrow, ih]
        · have hrow := hentry row
          rw [if_neg hnr] at hrow
          simp only [List.filter_cons, hname, hnr, ne_eq, not_false_eq_true, decide_true,
            and_false, decide_false, Bool.false_eq_true, if_true, if_false, List.map_cons,
            List.filterMap_cons, hrow, ih]

theorem bufs_eq_returns_iff (hnames : ¬ IntColumn (t.column (·.syscall)))
    {buffers : List (List Cell)} :
    bufs t.parseCsv.1 t.archs = returns buffers ↔
      (∀ row ∈ t.rows, row.syscall ≠ [] → ∀ s ∈ row.archNrs, IsNrCell s) ∧
        buffers = (List.range t.archs.length).map fun i => (undefinedNames t i).map .str := by
  obtain ⟨hrows, hread⟩ := parseCsv_of_names hnames
  have hbuffers : ((List.range t.archs.length).map fun i =>
      (((t.rows.filter (·.syscall ≠ [])).map fun row => t.archs.zipIdx.map fun arch =>
        if parseInt (row.archNrs.getD arch.2 []) = some (-1) then
          some (Cell.str row.syscall) else none).filterMap fun round => (round[i]?).join)) =
      (List.range t.archs.length).map fun i => (undefinedNames t i).map .str :=
    List.map_congr_left fun i hi => filterMap_rounds (List.mem_range.mp hi) t.rows
  rw [bufs, hrows, forEach_comp, bind_eq_returns_iff]
  simp only [forEach_eq_returns_iff_map fun row hrow round =>
    forEach_undefinedCell_iff (List.mem_filter.mp hrow).1 (hread row (List.mem_filter.mp hrow).1),
    returns.injEq]
  have hcells : (∀ row ∈ t.rows.filter (·.syscall ≠ []), ∀ s ∈ row.archNrs, IsNrCell s) ↔
      ∀ row ∈ t.rows, row.syscall ≠ [] → ∀ s ∈ row.archNrs, IsNrCell s := by
    simp [List.mem_filter]
  rw [← hcells, ← hbuffers]
  constructor
  · rintro ⟨_, ⟨hcells, rfl⟩, rfl⟩
    exact ⟨hcells, rfl⟩
  · rintro ⟨hcells, rfl⟩
    exact ⟨_, ⟨hcells, rfl⟩, rfl⟩

theorem bufText_str (names : List Text) : bufText (names.map .str) = returns (join "\n" names) := by
  have hlines : forEach joinItem (names.map Cell.str) = returns names := by
    rw [forEach_comp]
    exact (forEach_eq_map fun _ _ => rfl).trans (congrArg returns (List.map_id names))
  rw [bufText, hlines]
  rfl

/-- The file of an architecture depends on its own cells of each row only: on the
numbers in them, whether or not their column is one of integers. -/
theorem archDiff_iff (hnames : ¬ IntColumn (t.column (·.syscall)))
    {texts : List Text} :
    genArchDiffStubs t.parseCsv.1 t.parseCsv.2 = returns texts ↔
      (∀ row ∈ t.rows, row.syscall ≠ [] → ∀ s ∈ row.archNrs, IsNrCell s) ∧
        texts = (List.range t.archs.length).map fun i => join "\n" (undefinedNames t i) := by
  have htexts : forEach bufText ((List.range t.archs.length).map fun i =>
      (undefinedNames t i).map Cell.str) =
      returns ((List.range t.archs.length).map fun i => join "\n" (undefinedNames t i)) := by
    rw [forEach_comp]
    exact forEach_eq_map fun i _ => bufText_str (undefinedNames t i)
  change genArchDiffStubs t.parseCsv.1 t.archs = _ ↔ _
  rw [genArchDiffStubs, bind_eq_returns_iff]
  simp only [bufs_eq_returns_iff hnames]
  constructor
  · rintro ⟨_, ⟨hcells, rfl⟩, h⟩
    rw [htexts, returns.injEq] at h
    exact ⟨hcells, h.symm⟩
  · rintro ⟨hcells, rfl⟩
    exact ⟨_, ⟨hcells, rfl⟩, htexts⟩

/-- Three calls of two architectures; the column of the second one holds a blank cell. -/
def forkTable : CsvTable where
  argColumns := 0
  archs := ["x86_64", "aarch64"]
  rows := [
    { nr := "57", syscall := "fork", nargs := "0", argTypes := [], aliases := "",
      unusedAliases := "", archNrs := ["57", "-1"] },
    { nr := "58", syscall := "vfork", nargs := "0", argTypes := [], aliases := "",
      unusedAliases := "", archNrs := ["58", " -1"] },
    { nr := "435", syscall := "clone3", nargs := "2", argTypes := [], aliases := "",
      unusedAliases := "", archNrs := ["435", ""] }]
  argWidth := by decide
  archWidth := by decide

theorem fork_undefined :
    genArchDiffStubs forkTable.parseCsv.1 forkTable.parseCsv.2 =
      returns [[], "fork\nvfork".toList] :=
  (archDiff_iff (by decide)).mpr ⟨by decide, by decide⟩

end Tables

end Wali.ArchDiff
