import Wali.CanonicalOrder
import Wali.RunOutcome
import Wali.SyscallDesc

/-!
`main` of `parse_syscalls.py`: the names between the two rules of every strace
summary, written to `syscall_list.txt` in the order of their numbers.
-/

namespace Wali.ParseSyscalls

open Wali.CanonicalOrder
open Wali.PythonText
open Wali.RunOutcome
open Wali.RunOutcome.Outcome
open Wali.SyscallDesc

/-- What a file opened for text gives in place of `\r\n` and `\r`. -/
def universalNewlines : Text → Text
  | '\r' :: '\n' :: s => '\n' :: universalNewlines s
  | '\r' :: s => '\n' :: universalNewlines s
  | c :: s => c :: universalNewlines s
  | [] => []

/-- Lines with their line feeds; the last line may have none. -/
def linesOf : Text → List Text
  | [] => []
  | c :: s =>
      if c = '\n' then [c] :: linesOf s
      else
        match linesOf s with
        | [] => [[c]]
        | line :: lines => (c :: line) :: lines

/-- `f.readlines()` -/
def readlines (content : Text) : List Text := linesOf (universalNewlines content)

/-- `x.split()` -/
def split (x : Text) : List Text := (x.splitOnP isSpace).filter (!·.isEmpty)

/-- `line.startswith('-----')` -/
def IsRule (line : Text) : Prop := startsWith "-----" line

instance (line : Text) : Decidable (IsRule line) :=
  inferInstanceAs (Decidable (startsWith "-----" line))

/-- The numbers of the rules among lines that are counted from `i` on. -/
def rulesFrom (i : Nat) (lines : List Text) : List Nat :=
  ((lines.zipIdx i).filter fun (line, _) => IsRule line).map Prod.snd

/-- `[i for i, line in enumerate(lines) if line.startswith('-----')]` -/
def rules (lines : List Text) : List Nat := rulesFrom 0 lines

/-- `trace` of one file. -/
def traceOf (content : Text) : Outcome PyErr (List (List Text)) :=
  let lines := readlines content
  let splitLines := lines.map split
  match rules lines with
  | [start, stop] => returns ((splitLines.take stop).drop (start + 1))
  | _ => raises .valueError

/-- `x[-1]` -/
def lastField (x : List Text) : Outcome PyErr Text := ofOption .indexError x.getLast?

def syscallsFile (content : Text) : Outcome PyErr (List Text) := do
  let trace ← traceOf content
  forEach lastField trace

/-- The names that `syscall_set` has received when all files are read. -/
def syscallsAdded (files : List Text) : Outcome PyErr (List Text) := do
  let syscalls ← forEach syscallsFile files
  returns syscalls.flatten

/-- `syscall_nrs[x]` -/
def syscallNr (x : Text) : Outcome PyErr Nat := ofOption (.keyError x) (syscallNrs.get? x)

/-- A key of `syscall_desc` that is no number has no text here: the keys looked
up are values of `syscall_nrs`. -/
def syscallText (nr : Nat) : Outcome PyErr (Text × Text) :=
  ofOption (.keyError (natText nr)) (syscallDesc.get? nr)

structure ListEntry where
  nr : Nat
  name : Text
  desc : Text
  deriving DecidableEq

/-- `','.join([str(nr), x, desc])` -/
def ListEntry.line (entry : ListEntry) : Text :=
  join "," [natText entry.nr, entry.name, entry.desc]

/-- The key of a name, computed once for each name before anything is compared. -/
def withNr (x : Text) : Outcome PyErr (Nat × Text) := do
  let nr ← syscallNr x
  returns (nr, x)

/-- `sorted(syscall_set, key=lambda x: syscall_nrs[x])` -/
def syscallList (syscallSet : List Text) : Outcome PyErr (List Text) := do
  let keyed ← forEach withNr syscallSet
  returns ((sortOn Prod.fst keyed).map Prod.snd)

def listEntry (x : Text) : Outcome PyErr ListEntry := do
  let nr ← syscallNr x
  let entry ← syscallText nr
  returns ⟨nr, x, entry.2⟩

def compiledSyscallDesc (syscallSet : List Text) : Outcome PyErr (List ListEntry) := do
  let names ← syscallList syscallSet
  forEach listEntry names

/-- `'\n'.join(compiled_syscall_desc)` -/
def listText (entries : List ListEntry) : Text := join "\n" (entries.map ListEntry.line)

/-- A run with the contents that it leaves in `syscall_list.txt`; `none` is a
file that does not exist. -/
structure MergeRun where
  outcome : Outcome PyErr Unit
  listFile : Option Text

/-- The files in the order of `directory.glob`. Opening the list for writing
empties it before the names are sorted and looked up. -/
def main (order : SetOrder Text) (files : List Text) (previous : Option Text) : MergeRun :=
  match syscallsAdded files with
  | raises error => ⟨raises error, previous⟩
  | diverges => ⟨diverges, previous⟩
  | returns added =>
      match compiledSyscallDesc (order.iterate added) with
      | returns entries => ⟨returns (), some (listText entries)⟩
      | raises error => ⟨raises error, some []⟩
      | diverges => ⟨diverges, some []⟩

example : readlines "a b\r\n-----\rc" = ["a b\n".toList, "-----\n".toList, "c".toList] := by
  decide

example : split "  0.01  3 read\n" = ["0.01".toList, "3".toList, "read".toList] := by decide

section Fields

theorem split_of_blank {x : Text} (h : ∀ c ∈ x, isSpace c = true) : split x = [] := by
  induction x with
  | nil => rfl
  | cons c s ih =>
      have hc : isSpace c = true := h c (by simp)
      have hs : split s = [] := ih fun c' hc' => h c' (by simp [hc'])
      unfold split at hs ⊢
      rw [show c :: s = [] ++ c :: s from rfl, List.splitOnP_append_cons _ _ hc,
        List.filter_append, hs]
      rfl

theorem split_append_space {x s : Text} {c : Char} (hc : isSpace c = true) :
    split (x ++ c :: s) = split x ++ split s := by
  unfold split
  rw [List.splitOnP_append_cons _ _ hc, List.filter_append]

theorem split_word {x : Text} (hne : x ≠ []) (h : ∀ c ∈ x, isSpace c = false) :
    split x = [x] := by
  unfold split
  rw [List.splitOnP_eq_singleton h]
  simp [hne]

/-- `x` is the last field of the row: white space or nothing around it, none in
it. -/
structure LastField (row x : Text) : Prop where
  ne_nil : x ≠ []
  solid : ∀ c ∈ x, isSpace c = false
  placed : ∃ before after, row = before ++ x ++ after ∧ (∀ c ∈ after, isSpace c = true) ∧
    (before = [] ∨ ∃ s c, before = s ++ [c] ∧ isSpace c = true)

theorem split_last {x after : Text} (hne : x ≠ []) (hx : ∀ c ∈ x, isSpace c = false)
    (hafter : ∀ c ∈ after, isSpace c = true) : split (x ++ after) = [x] := by
  cases after with
  | nil => rw [List.append_nil, split_word hne hx]
  | cons c s =>
      rw [split_append_space (hafter c (by simp)), split_word hne hx,
        split_of_blank fun c' hc' => hafter c' (by simp [hc'])]
      rfl

theorem LastField.getLast?_split {row x : Text} (h : LastField row x) :
    (split row).getLast? = some x := by
  obtain ⟨before, after, rfl, hafter, rfl | ⟨s, c, rfl, hc⟩⟩ := h.placed
  · rw [List.nil_append, split_last h.ne_nil h.solid hafter]
    rfl
  · rw [List.append_assoc, List.append_assoc, List.singleton_append, split_append_space hc,
      split_last h.ne_nil h.solid hafter]
    simp

theorem blank_or_lastField (row : Text) :
    (∀ c ∈ row, isSpace c = true) ∨ ∃ x, LastField row x := by
  induction row with
  | nil => exact .inl (by simp)
  | cons c s ih =>
      rcases ih with hblank | ⟨x, hne, hx, before, after, rfl, hafter, hbefore⟩
      · cases hc : isSpace c with
        | true =>
            refine .inl fun c' hc' => ?_
            rcases List.mem_cons.mp hc' with rfl | hc'
            · exact hc
            · exact hblank c' hc'
        | false => exact .inr ⟨[c], by simp, by simpa using hc, [], s, by simp, hblank, .inl rfl⟩
      · rcases hbefore with rfl | ⟨t, d, rfl, hd⟩
        · cases hc : isSpace c with
          | true =>
              exact .inr ⟨x, hne, hx, [c], after, by simp, hafter, .inr ⟨[], c, by simp, hc⟩⟩
          | false =>
              refine .inr ⟨c :: x, by simp, ?_, [], after, by simp, hafter, .inl rfl⟩
              intro c' hc'
              rcases List.mem_cons.mp hc' with rfl | hc'
              · exact hc
              · exact hx c' hc'
        · exact .inr ⟨x, hne, hx, c :: (t ++ [d]), after, by simp, hafter,
            .inr ⟨c :: t, d, by simp, hd⟩⟩

theorem lastField_split_eq_returns_iff {row x : Text} :
    lastField (split row) = returns x ↔ LastField row x := by
  rw [lastField, ofOption_eq_returns_iff]
  refine ⟨fun h => ?_, LastField.getLast?_split⟩
  rcases blank_or_lastField row with hblank | ⟨y, hy⟩
  · rw [split_of_blank hblank] at h
    cases h
  · rw [hy.getLast?_split] at h
    cases h
    exact hy

end Fields

section Rules

theorem rulesFrom_cons (i : Nat) (line : Text) (lines : List Text) :
    rulesFrom i (line :: lines) =
      if IsRule line then i :: rulesFrom (i + 1) lines else rulesFrom (i + 1) lines := by
  unfold rulesFrom
  rw [List.zipIdx_cons, List.filter_cons]
  by_cases h : IsRule line <;> simp [h]

theorem rulesFrom_eq_nil_iff {i : Nat} {lines : List Text} :
    rulesFrom i lines = [] ↔ ∀ line ∈ lines, ¬ IsRule line := by
  induction lines generalizing i with
  | nil => simp [rulesFrom]
  | cons line lines ih =>
      rw [rulesFrom_cons]
      by_cases h : IsRule line <;> simp [h, ih]

theorem rulesFrom_eq_cons_iff {i j : Nat} {js : List Nat} {lines : List Text} :
    rulesFrom i lines = j :: js ↔ ∃ before rule after, lines = before ++ rule :: after ∧
      (∀ line ∈ before, ¬ IsRule line) ∧ IsRule rule ∧ j = i + before.length ∧
      rulesFrom (j + 1) after = js := by
  induction lines generalizing i with
  | nil => simp [rulesFrom]
  | cons line lines ih =>
      rw [rulesFrom_cons]
      by_cases h : IsRule line
      · rw [if_pos h]
        constructor
        · intro heq
          cases heq
          exact ⟨[], line, lines, rfl, by simp, h, rfl, rfl⟩
        · rintro ⟨_ | ⟨line', before⟩, rule, after, hlines, hbefore, _, hj, hjs⟩
          · cases hlines
            simp only [List.length_nil, Nat.add_zero] at hj
            rw [hj, ← hjs, hj]
          · cases hlines
            exact absurd h (hbefore _ (by simp))
      · rw [if_neg h, ih]
        constructor
        · rintro ⟨before, rule, after, rfl, hbefore, hrule, hj, hjs⟩
          refine ⟨line :: before, rule, after, rfl, ?_, hrule, ?_, hjs⟩
          · intro line' hline'
            rcases List.mem_cons.mp hline' with rfl | hline'
            · exact h
            · exact hbefore _ hline'
          · rw [List.length_cons]
            omega
        · rintro ⟨_ | ⟨line', before⟩, rule, after, hlines, hbefore, hrule, hj, hjs⟩
          · cases hlines
            exact absurd hrule h
          · cases hlines
            refine ⟨before, rule, after, rfl, fun l hl => hbefore l (by simp [hl]), hrule, ?_, hjs⟩
            rw [List.length_cons] at hj
            omega

/-- `rows` are the lines between the two rules of a summary. -/
def Summary (lines rows : List Text) : Prop :=
  ∃ before rule rule' after, lines = before ++ rule :: (rows ++ rule' :: after) ∧
    IsRule rule ∧ IsRule rule' ∧
    (∀ line ∈ before, ¬ IsRule line) ∧ (∀ line ∈ rows, ¬ IsRule line) ∧
    ∀ line ∈ after, ¬ IsRule line

theorem slice_between (before rows after : List Text) (rule rule' : Text) :
    ((before ++ rule :: (rows ++ rule' :: after)).take
      (before.length + 1 + rows.length)).drop (before.length + 1) = rows := by
  have hsplit : before ++ rule :: (rows ++ rule' :: after) =
      (before ++ [rule]) ++ (rows ++ rule' :: after) := by simp
  have hlength : before.length + 1 = (before ++ [rule]).length := by simp
  rw [hsplit, hlength, List.take_length_add_append, List.drop_left, List.take_left]

theorem summary_iff {lines rows : List Text} :
    Summary lines rows ↔ ∃ start stop, rules lines = [start, stop] ∧
      rows = (lines.take stop).drop (start + 1) := by
  constructor
  · rintro ⟨before, rule, rule', after, rfl, hrule, hrule', hbefore, hrows, hafter⟩
    refine ⟨before.length, before.length + 1 + rows.length, ?_,
      (slice_between before rows after rule rule').symm⟩
    refine rulesFrom_eq_cons_iff.mpr ⟨before, rule, _, rfl, hbefore, hrule, by omega, ?_⟩
    exact rulesFrom_eq_cons_iff.mpr ⟨rows, rule', after, rfl, hrows, hrule', by omega,
      rulesFrom_eq_nil_iff.mpr hafter⟩
  · rintro ⟨start, stop, hrules, rfl⟩
    obtain ⟨before, rule, rest, rfl, hbefore, hrule, hstart, hrest⟩ :=
      rulesFrom_eq_cons_iff.mp hrules
    obtain ⟨rows, rule', after, rfl, hrows, hrule', hstop, hafter⟩ :=
      rulesFrom_eq_cons_iff.mp hrest
    have hslice := slice_between before rows after rule rule'
    rw [show before.length = start by omega, show start + 1 + rows.length = stop by omega]
      at hslice
    rw [hslice]
    exact ⟨before, rule, rule', after, rfl, hrule, hrule', hbefore, hrows,
      rulesFrom_eq_nil_iff.mp hafter⟩

/-- The rules determine the rows between them. -/
theorem Summary.unique {lines rows rows' : List Text} (h : Summary lines rows)
    (h' : Summary lines rows') : rows = rows' := by
  rw [summary_iff] at h h'
  obtain ⟨start, stop, hrules, rfl⟩ := h
  obtain ⟨start', stop', hrules', rfl⟩ := h'
  rw [hrules] at hrules'
  cases hrules'
  rfl

theorem traceOf_eq_returns_iff {content : Text} {trace : List (List Text)} :
    traceOf content = returns trace ↔
      ∃ rows, Summary (readlines content) rows ∧ trace = rows.map split := by
  simp only [traceOf, summary_iff]
  constructor
  · intro h
    split at h
    · next start stop hrules =>
        cases h
        refine ⟨_, ⟨start, stop, hrules, rfl⟩, ?_⟩
        rw [← List.map_take, ← List.map_drop]
    · cases h
  · rintro ⟨_, ⟨start, stop, hrules, rfl⟩, rfl⟩
    rw [hrules, List.map_drop, List.map_take]

end Rules

section Names

/-- The file is read to its end: two rules, no blank row between them. -/
def Readable (content : Text) : Prop :=
  ∃ rows, Summary (readlines content) rows ∧ ∀ row ∈ rows, ∃ x, LastField row x

/-- The name `x` occurs in a row between the two rules. -/
def Occurs (content x : Text) : Prop :=
  ∃ rows row, Summary (readlines content) rows ∧ row ∈ rows ∧ LastField row x

theorem forEach_split {f : List Text → Outcome PyErr Text} {rows : List Text} :
    forEach f (rows.map split) = forEach (fun row => f (split row)) rows := by
  induction rows with
  | nil => rfl
  | cons row rows ih => rw [List.map_cons, forEach, forEach, ih]

theorem syscallsFile_eq_returns_iff {content : Text} {names : List Text} :
    syscallsFile content = returns names ↔
      ∃ rows, Summary (readlines content) rows ∧ List.Forall₂ LastField rows names := by
  rw [syscallsFile, bind_eq_returns_iff]
  have hfields : ∀ rows : List Text, forEach lastField (rows.map split) = returns names ↔
      List.Forall₂ LastField rows names := by
    intro rows
    rw [forEach_split, forEach_eq_returns_iff]
    simp only [lastField_split_eq_returns_iff]
  constructor
  · rintro ⟨trace, htrace, hnames⟩
    rw [traceOf_eq_returns_iff] at htrace
    obtain ⟨rows, hrows, rfl⟩ := htrace
    exact ⟨rows, hrows, (hfields rows).mp hnames⟩
  · rintro ⟨rows, hrows, hnames⟩
    refine ⟨rows.map split, ?_, (hfields rows).mpr hnames⟩
    rw [traceOf_eq_returns_iff]
    exact ⟨rows, hrows, rfl⟩

theorem finishes_syscallsFile_iff {content : Text} :
    (syscallsFile content).Finishes ↔ Readable content := by
  constructor
  · rintro ⟨names, h⟩
    rw [syscallsFile_eq_returns_iff] at h
    obtain ⟨rows, hrows, hfields⟩ := h
    refine ⟨rows, hrows, fun row hrow => ?_⟩
    obtain ⟨i, hi⟩ := List.getElem?_of_mem hrow
    obtain ⟨hlt, rfl⟩ := List.getElem?_eq_some_iff.mp hi
    exact ⟨_, (List.forall₂_iff_get.mp hfields).2 i hlt (hfields.length_eq ▸ hlt)⟩
  · rintro ⟨rows, hrows, hfields⟩
    choose! field hfield using hfields
    refine ⟨rows.map field, ?_⟩
    rw [syscallsFile_eq_returns_iff]
    refine ⟨rows, hrows, ?_⟩
    rw [List.forall₂_map_right_iff]
    exact List.forall₂_same.mpr hfield

theorem mem_syscallsFile_iff {content : Text} {names : List Text}
    (h : syscallsFile content = returns names) {x : Text} :
    x ∈ names ↔ Occurs content x := by
  rw [syscallsFile_eq_returns_iff] at h
  obtain ⟨rows, hrows, hfields⟩ := h
  constructor
  · intro hx
    obtain ⟨i, hi⟩ := List.getElem?_of_mem hx
    obtain ⟨hlt, rfl⟩ := List.getElem?_eq_some_iff.mp hi
    have hlt' : i < rows.length := hfields.length_eq ▸ hlt
    exact ⟨rows, rows[i], hrows, List.getElem_mem hlt',
      (List.forall₂_iff_get.mp hfields).2 i hlt' hlt⟩
  · rintro ⟨rows', row, hrows', hrow, hx⟩
    cases hrows.unique hrows'
    obtain ⟨i, hi⟩ := List.getElem?_of_mem hrow
    obtain ⟨hlt, rfl⟩ := List.getElem?_eq_some_iff.mp hi
    have hlt' : i < names.length := hfields.length_eq ▸ hlt
    have hpoint := (List.forall₂_iff_get.mp hfields).2 i hlt hlt'
    have heq : x = names[i] := by
      have hlast := hpoint.getLast?_split
      simp only [List.get_eq_getElem] at hlast
      rw [hx.getLast?_split] at hlast
      exact Option.some.inj hlast
    rw [heq]
    exact List.getElem_mem hlt'

theorem syscallsAdded_eq_returns_iff {files added : List Text} :
    syscallsAdded files = returns added ↔
      ∃ syscalls, forEach syscallsFile files = returns syscalls ∧ syscalls.flatten = added := by
  simp only [syscallsAdded, bind_eq_returns_iff, returns.injEq]

theorem finishes_syscallsAdded_iff {files : List Text} :
    (syscallsAdded files).Finishes ↔ ∀ content ∈ files, Readable content := by
  have hfiles : (forEach syscallsFile files).Finishes ↔ ∀ content ∈ files, Readable content := by
    rw [finishes_forEach_iff]
    exact forall₂_congr fun content _ => finishes_syscallsFile_iff
  rw [← hfiles]
  constructor
  · rintro ⟨added, h⟩
    obtain ⟨syscalls, hsyscalls, _⟩ := syscallsAdded_eq_returns_iff.mp h
    exact ⟨syscalls, hsyscalls⟩
  · rintro ⟨syscalls, hsyscalls⟩
    exact ⟨_, syscallsAdded_eq_returns_iff.mpr ⟨syscalls, hsyscalls, rfl⟩⟩

theorem mem_syscallsAdded_iff {files added : List Text}
    (h : syscallsAdded files = returns added) {x : Text} :
    x ∈ added ↔ ∃ content ∈ files, Occurs content x := by
  obtain ⟨syscalls, hsyscalls, rfl⟩ := syscallsAdded_eq_returns_iff.mp h
  rw [List.mem_flatten]
  constructor
  · rintro ⟨names, hnames, hx⟩
    obtain ⟨content, hcontent, hfile⟩ := exists_of_mem_forEach hsyscalls hnames
    exact ⟨content, hcontent, (mem_syscallsFile_iff hfile).mp hx⟩
  · rintro ⟨content, hcontent, hx⟩
    obtain ⟨names, hnames, hfile⟩ := exists_mem_of_forEach hsyscalls hcontent
    exact ⟨names, hnames, (mem_syscallsFile_iff hfile).mpr hx⟩

end Names

section Entries

/-- A name of `syscall_desc`. -/
def Known (x : Text) : Prop := ∃ nr desc, syscallDesc.get? nr = some (x, desc)

theorem syscallNr_eq_returns_iff {x : Text} {nr : Nat} :
    syscallNr x = returns nr ↔ ∃ desc, syscallDesc.get? nr = some (x, desc) := by
  rw [← syscallNrs_get?_eq_some_iff, syscallNr, ofOption_eq_returns_iff]

theorem finishes_syscallNr_iff {x : Text} : (syscallNr x).Finishes ↔ Known x :=
  exists_congr fun _ => syscallNr_eq_returns_iff

theorem withNr_eq_returns_iff {x : Text} {keyed : Nat × Text} :
    withNr x = returns keyed ↔ syscallNr x = returns keyed.1 ∧ keyed.2 = x := by
  rw [withNr, bind_eq_returns_iff]
  constructor
  · rintro ⟨nr, hnr, heq⟩
    cases heq
    exact ⟨hnr, rfl⟩
  · rintro ⟨hnr, rfl⟩
    exact ⟨keyed.1, hnr, rfl⟩

theorem listEntry_eq_returns_iff {x : Text} {entry : ListEntry} :
    listEntry x = returns entry ↔
      entry.name = x ∧ syscallDesc.get? entry.nr = some (entry.name, entry.desc) := by
  rw [listEntry, bind_eq_returns_iff]
  constructor
  · rintro ⟨nr, hnr, h⟩
    obtain ⟨⟨name, desc⟩, hentry, heq⟩ := bind_eq_returns_iff.mp h
    cases heq
    obtain ⟨desc', hdesc'⟩ := syscallNr_eq_returns_iff.mp hnr
    rw [syscallText, ofOption_eq_returns_iff, hdesc'] at hentry
    cases hentry
    exact ⟨rfl, hdesc'⟩
  · rintro ⟨rfl, hentry⟩
    refine ⟨entry.nr, syscallNr_eq_returns_iff.mpr ⟨_, hentry⟩, ?_⟩
    rw [syscallText, hentry]
    rfl

theorem finishes_listEntry_iff {x : Text} : (listEntry x).Finishes ↔ Known x := by
  constructor
  · rintro ⟨entry, h⟩
    obtain ⟨rfl, hentry⟩ := listEntry_eq_returns_iff.mp h
    exact ⟨entry.nr, entry.desc, hentry⟩
  · rintro ⟨nr, desc, hentry⟩
    exact ⟨⟨nr, x, desc⟩, listEntry_eq_returns_iff.mpr ⟨rfl, hentry⟩⟩

theorem map_snd_of_withNr {names : List Text} {keyed : List (Nat × Text)}
    (h : forEach withNr names = returns keyed) : keyed.map Prod.snd = names := by
  have hpoint := forEach_eq_returns_iff.mp h
  clear h
  induction hpoint with
  | nil => rfl
  | cons hx _ ih => rw [List.map_cons, ih, (withNr_eq_returns_iff.mp hx).2]

theorem map_name_of_listEntry {names : List Text} {entries : List ListEntry}
    (h : forEach listEntry names = returns entries) : entries.map ListEntry.name = names := by
  have hpoint := forEach_eq_returns_iff.mp h
  clear h
  induction hpoint with
  | nil => rfl
  | cons hx _ ih => rw [List.map_cons, ih, (listEntry_eq_returns_iff.mp hx).1]

theorem syscallList_eq_returns_iff {names sortedNames : List Text} :
    syscallList names = returns sortedNames ↔
      ∃ keyed, forEach withNr names = returns keyed ∧
        (sortOn Prod.fst keyed).map Prod.snd = sortedNames := by
  simp only [syscallList, bind_eq_returns_iff, returns.injEq]

theorem perm_syscallList {names sortedNames : List Text}
    (h : syscallList names = returns sortedNames) : sortedNames.Perm names := by
  obtain ⟨keyed, hkeyed, rfl⟩ := syscallList_eq_returns_iff.mp h
  have hperm : ((sortOn Prod.fst keyed).map Prod.snd).Perm (keyed.map Prod.snd) :=
    (perm_sortOn keyed).map _
  rwa [map_snd_of_withNr hkeyed] at hperm

theorem pairwise_syscallList {names sortedNames : List Text} (hnodup : names.Nodup)
    (h : syscallList names = returns sortedNames) :
    sortedNames.Pairwise fun x y =>
      ∀ nr nr', syscallNr x = returns nr → syscallNr y = returns nr' → nr < nr' := by
  obtain ⟨keyed, hkeyed, rfl⟩ := syscallList_eq_returns_iff.mp h
  have hnr : ∀ p ∈ keyed, syscallNr p.2 = returns p.1 := by
    intro p hp
    obtain ⟨x, _, hx⟩ := exists_of_mem_forEach hkeyed hp
    obtain ⟨hnr, rfl⟩ := withNr_eq_returns_iff.mp hx
    exact hnr
  -- two pairs with one number have the name that `syscall_desc` gives the number
  have hinj : Set.InjOn Prod.fst {p | p ∈ keyed} := by
    intro p hp q hq heq
    obtain ⟨desc, hdesc⟩ := syscallNr_eq_returns_iff.mp (hnr p hp)
    obtain ⟨desc', hdesc'⟩ := syscallNr_eq_returns_iff.mp (hnr q hq)
    rw [show p.1 = q.1 from heq, hdesc'] at hdesc
    exact Prod.ext heq (congrArg Prod.fst (Option.some.inj hdesc)).symm
  have hkeys : keyed.Nodup := List.Nodup.of_map Prod.snd (map_snd_of_withNr hkeyed ▸ hnodup)
  refine List.pairwise_map.mpr ((pairwise_lt_sortOn hkeys hinj).imp_of_mem ?_)
  intro p q hp hq hpq nr nr' hx hy
  rw [hnr p (mem_sortOn.mp hp)] at hx
  rw [hnr q (mem_sortOn.mp hq)] at hy
  cases hx
  cases hy
  exact hpq

theorem finishes_syscallList_iff {names : List Text} :
    (syscallList names).Finishes ↔ ∀ x ∈ names, Known x := by
  have hkeyed : (forEach withNr names).Finishes ↔ ∀ x ∈ names, Known x := by
    rw [finishes_forEach_iff]
    refine forall₂_congr fun x _ => ?_
    rw [← finishes_syscallNr_iff]
    constructor
    · rintro ⟨keyed, h⟩
      exact ⟨keyed.1, (withNr_eq_returns_iff.mp h).1⟩
    · rintro ⟨nr, h⟩
      exact ⟨(nr, x), withNr_eq_returns_iff.mpr ⟨h, rfl⟩⟩
  rw [← hkeyed]
  constructor
  · rintro ⟨sortedNames, h⟩
    obtain ⟨keyed, hkeyed, _⟩ := syscallList_eq_returns_iff.mp h
    exact ⟨keyed, hkeyed⟩
  · rintro ⟨keyed, hkeyed⟩
    exact ⟨_, syscallList_eq_returns_iff.mpr ⟨keyed, hkeyed, rfl⟩⟩

theorem compiledSyscallDesc_eq_returns_iff {names : List Text} {entries : List ListEntry} :
    compiledSyscallDesc names = returns entries ↔
      ∃ sortedNames, syscallList names = returns sortedNames ∧
        forEach listEntry sortedNames = returns entries :=
  bind_eq_returns_iff

theorem finishes_compiledSyscallDesc_iff {names : List Text} :
    (compiledSyscallDesc names).Finishes ↔ ∀ x ∈ names, Known x := by
  constructor
  · rintro ⟨entries, h⟩
    obtain ⟨sortedNames, hsorted, _⟩ := compiledSyscallDesc_eq_returns_iff.mp h
    exact finishes_syscallList_iff.mp ⟨sortedNames, hsorted⟩
  · intro h
    obtain ⟨sortedNames, hsorted⟩ := finishes_syscallList_iff.mpr h
    have hlisted : (forEach listEntry sortedNames).Finishes :=
      finishes_forEach_iff.mpr fun x hx =>
        finishes_listEntry_iff.mpr (h x ((perm_syscallList hsorted).mem_iff.mp hx))
    obtain ⟨entries, hentries⟩ := hlisted
    exact ⟨entries, compiledSyscallDesc_eq_returns_iff.mpr ⟨sortedNames, hsorted, hentries⟩⟩

theorem names_of_compiledSyscallDesc {names : List Text} {entries : List ListEntry}
    (h : compiledSyscallDesc names = returns entries) :
    (entries.map ListEntry.name).Perm names := by
  obtain ⟨sortedNames, hsorted, hentries⟩ := compiledSyscallDesc_eq_returns_iff.mp h
  rw [map_name_of_listEntry hentries]
  exact perm_syscallList hsorted

theorem get?_of_compiledSyscallDesc {names : List Text} {entries : List ListEntry}
    (h : compiledSyscallDesc names = returns entries) {entry : ListEntry}
    (hentry : entry ∈ entries) :
    syscallDesc.get? entry.nr = some (entry.name, entry.desc) := by
  obtain ⟨sortedNames, _, hentries⟩ := compiledSyscallDesc_eq_returns_iff.mp h
  obtain ⟨x, _, hx⟩ := exists_of_mem_forEach hentries hentry
  exact (listEntry_eq_returns_iff.mp hx).2

theorem pairwise_compiledSyscallDesc {names : List Text} {entries : List ListEntry}
    (hnodup : names.Nodup) (h : compiledSyscallDesc names = returns entries) :
    entries.Pairwise fun entry entry' => entry.nr < entry'.nr := by
  have hget : ∀ entry ∈ entries, syscallNr entry.name = returns entry.nr := fun entry hentry =>
    syscallNr_eq_returns_iff.mpr ⟨_, get?_of_compiledSyscallDesc h hentry⟩
  obtain ⟨sortedNames, hsorted, hentries⟩ := compiledSyscallDesc_eq_returns_iff.mp h
  have hpairwise := pairwise_syscallList hnodup hsorted
  rw [← map_name_of_listEntry hentries, List.pairwise_map] at hpairwise
  refine hpairwise.imp_of_mem ?_
  intro entry entry' hentry hentry' hlt
  exact hlt _ _ (hget entry hentry) (hget entry' hentry')

end Entries

end Wali.ParseSyscalls
