import Wali.RunOutcome
import Wali.PythonText

/-!
The syscall table: rows as `pandas` reads them and the row filter of
`parse_csv`.
-/

namespace Wali.SyscallTable

open Wali.PythonText
open Wali.RunOutcome

/-- A cell of a data frame column: columns of integers hold ints, every other
column holds the cells' texts. -/
inductive Cell
  | int (z : Int)
  | str (s : Text)
  deriving DecidableEq

namespace Cell

def truthy : Cell → Bool
  | int z => z != 0
  | str s => !s.isEmpty

/-- `str(cell)`, also the text that `format` puts in place of the cell. -/
def text : Cell → Text
  | int z => intText z
  | str s => s

def toInt : Cell → Outcome PyErr Int
  | int z => .returns z
  | str s =>
      match parseInt s with
      | some z => .returns z
      | none => .raises .valueError

def IsStr : Cell → Prop
  | int _ => False
  | str _ => True

end Cell

/-- One row of the table, columns `a1`, `a2`, ... as a list. -/
structure SyscallRow (γ : Type) where
  nr : γ
  syscall : γ
  nargs : γ
  argTypes : List γ
  aliases : γ
  unusedAliases : γ
  archNrs : List γ

namespace SyscallRow

def argType (x : SyscallRow Cell) (i : Nat) : Outcome PyErr Cell :=
  match x.argTypes[i]? with
  | some cell => .returns cell
  | none => .raises (.keyError ("a" ++ natText (i + 1)))

/-- `sc['Aliases'] if sc['Aliases'] else sc['Syscall']` -/
def fnName (x : SyscallRow Cell) : Cell := if x.aliases.truthy then x.aliases else x.syscall

end SyscallRow

/-- The cells of the CSV file below its two heading lines. -/
structure CsvTable where
  argColumns : Nat
  archs : List Text
  rows : List (SyscallRow Text)
  argWidth : ∀ row ∈ rows, row.argTypes.length = argColumns
  archWidth : ∀ row ∈ rows, row.archNrs.length = archs.length

/-- A cell that `read_csv` reads as an integer: an optional sign and a decimal
numeral. -/
def integerCell? : Text → Option Int
  | '-' :: digits => if IsNumeral digits then some (-(numeralValue digits : Int)) else none
  | '+' :: digits => if IsNumeral digits then some (numeralValue digits) else none
  | digits => if IsNumeral digits then some (numeralValue digits) else none

def IntColumn (column : List Text) : Prop := ∀ s ∈ column, (integerCell? s).isSome

instance (column : List Text) : Decidable (IntColumn column) :=
  inferInstanceAs (Decidable (∀ s ∈ column, (integerCell? s).isSome = true))

/-- Reading of the cell `s` of a column, as assumed of `pandas`: a column of integers is
returned as ints, any other column verbatim. A column of decimals (`-1.0`) or of truth
values, which `pandas` converts too, is not covered. -/
def readCell (column : List Text) (s : Text) : Cell :=
  if IntColumn column then
    match integerCell? s with
    | some z => .int z
    | none => .str s
  else .str s

namespace CsvTable

variable (t : CsvTable)

def column (field : SyscallRow Text → Text) : List Text := t.rows.map field

/-- `pd.read_csv(filepath, skiprows=1, keep_default_na=False)` on one row. -/
def readRow (row : SyscallRow Text) : SyscallRow Cell where
  nr := readCell (t.column (·.nr)) row.nr
  syscall := readCell (t.column (·.syscall)) row.syscall
  nargs := readCell (t.column (·.nargs)) row.nargs
  argTypes := row.argTypes.mapIdx fun i s => readCell (t.column (·.argTypes.getD i [])) s
  aliases := readCell (t.column (·.aliases)) row.aliases
  unusedAliases := readCell (t.column (·.unusedAliases)) row.unusedAliases
  archNrs := row.archNrs.mapIdx fun i s => readCell (t.column (·.archNrs.getD i [])) s

/-- The rows `[x for x in df.to_dict(orient='records') if x['Syscall']]` read from
a part of the file. -/
def readRows (rows : List (SyscallRow Text)) : List (SyscallRow Cell) :=
  (rows.map t.readRow).filter (·.syscall.truthy)

def parseCsv : List (SyscallRow Cell) × List Text := (t.readRows t.rows, t.archs)

end CsvTable

theorem integerCell?_of_isNumeral {s : Text} (h : IsNumeral s) :
    integerCell? s = some (numeralValue s : Int) := by
  obtain ⟨c, cs, rfl⟩ := List.exists_cons_of_ne_nil h.1
  have hc : c.isDigit = true := h.2 c (by simp)
  have hminus : c ≠ '-' := by
    rintro rfl
    exact absurd hc (by decide)
  have hplus : c ≠ '+' := by
    rintro rfl
    exact absurd hc (by decide)
  unfold integerCell?
  split
  · next digits heq => exact absurd (List.cons.inj heq).1 hminus
  · next digits heq => exact absurd (List.cons.inj heq).1 hplus
  · rw [if_pos h]

theorem readCell_of_isNumeral {column : List Text} {s : Text} (h : IsNumeral s) :
    readCell column s =
      if IntColumn column then .int (numeralValue s) else .str s := by
  simp [readCell, integerCell?_of_isNumeral h]

theorem toInt_readCell_of_isNumeral {column : List Text} {s : Text} (h : IsNumeral s) :
    (readCell column s).toInt = .returns (numeralValue s : Int) := by
  rw [readCell_of_isNumeral h]
  split
  · rfl
  · simp [Cell.toInt, parseInt_of_isNumeral h]

theorem readRows_append (t : CsvTable) (rows rows' : List (SyscallRow Text)) :
    t.readRows (rows ++ rows') = t.readRows rows ++ t.readRows rows' := by
  simp [CsvTable.readRows]

end Wali.SyscallTable
