import Wali.MatchBoundaries
import Wali.RecordDeclarations
import Wali.StubTexts
import Wali.TypesInterface
import Wali.WitScoping

/-!
The `syscalls` interface in `wali.wit`, read back line by line.
-/

namespace Wali.SyscallsInterface

open Wali.ArrayExpansion
open Wali.ArrayMatching
open Wali.InsertionDict
open Wali.LineForms
open Wali.MatchBoundaries
open Wali.PythonText
open Wali.RecordDeclarations
open Wali.RegexMatching
open Wali.RunOutcome.Outcome
open Wali.ScalarTypes
open Wali.StubEmission
open Wali.StubTexts
open Wali.SyscallTable
open Wali.TemplateFilling
open Wali.TextReplace
open Wali.TypeFile
open Wali.TypesInterface
open Wali.TypeTemplates
open Wali.WitScoping
open Wali.WitStubs

section Forms

/-- `use interface.{names};` -/
def useForm : LineForm where
  head := "\tuse "
  seps := [".\x7b"]
  tail := "\x7d;"

/-- `type name = ptr;` -/
def aliasForm : LineForm where
  head := "\ttype "
  seps := []
  tail := " = ptr;"

/-- `SYS-name: func(params) -> syscall-result;` -/
def methodForm : LineForm where
  head := "\tSYS-"
  seps := [": func("]
  tail := ") -> syscall-result;"

/-- `a1: type` -/
def paramForm : LineForm where
  head := "a"
  seps := [": "]
  tail := []

def usedNames (fields : List Text) : Text × List Text :=
  (fields.head?.getD [], readItems (fields.getLast?.getD []))

/-- The name of a method, and number and type of each parameter -/
def methodOf (fields : List Text) : Text × List (List Text) :=
  (fields.head?.getD [], (readItems (fields.getLast?.getD [])).filterMap (readLine paramForm))

def aliasHeading : Text := "\t/// Readable pointer types"

/-- The names that are defined between the heading and the next empty line -/
def readAliases (text : Text) : List Text :=
  (((text.splitOn '\n').dropWhile (· ≠ aliasHeading)).takeWhile (· ≠ [])).flatMap fun line =>
    (readLine aliasForm line).getD []

end Forms

section Entries

variable {f : WitFunc} {s : Text}

/-- A cell that keeps to its item, its line and its brackets. -/
def IsCell (s : Text) : Prop := IsBare s ∧ '[' ∉ s

instance (s : Text) : Decidable (IsCell s) := inferInstanceAs (Decidable (IsBare s ∧ '[' ∉ s))

theorem isCell_iff : IsCell s ↔ ∀ c ∈ s, c ∉ ",\n[".toList := by
  have hchars : ",\n[".toList = [',', '\n', '['] := rfl
  simp only [IsCell, IsBare, hchars, List.mem_cons, List.not_mem_nil, or_false]
  constructor
  · rintro ⟨⟨hcomma, hline⟩, hbracket⟩ c hc (rfl | rfl | rfl) <;> contradiction
  · intro h
    exact ⟨⟨fun hc => h _ hc (.inl rfl), fun hc => h _ hc (.inr (.inl rfl))⟩,
      fun hc => h _ hc (.inr (.inr rfl))⟩

/-- A method as its line shows it -/
def declared (f : WitFunc) : Text × List (List Text) :=
  (f.name, f.argTypes.mapIdx fun i ty => [natText (i + 1), ty])

/-- A method whose texts keep to their places in the lines. -/
structure PlainMethod (f : WitFunc) : Prop where
  fnName : IsWord f.fnName
  nr : IsCell f.nr
  origArgs : ∀ c ∈ f.origArgs, IsCell c
  argTypes : ∀ ty ∈ f.argTypes, IsCell ty

def paramText (i : Nat) (ty : Text) : Text := lineText paramForm [natText (i + 1), ty]

theorem paramText_eq (i : Nat) (ty : Text) :
    paramText i ty = "a" ++ natText (i + 1) ++ ": " ++ ty := by
  simp [paramText, lineText, fieldsText, paramForm]

theorem readLine_paramText (i : Nat) (ty : Text) :
    readLine paramForm (paramText i ty) = some [natText (i + 1), ty] := by
  refine readLine_lineText ⟨by simp, fun c hc heq => ?_, trivial⟩
  cases heq
  exact absurd (isDigit_of_mem_natText hc) (by decide)

theorem isCell_paramText (i : Nat) {ty : Text} (h : IsCell ty) : IsCell (paramText i ty) := by
  rw [paramText_eq, isCell_iff]
  simp only [List.mem_append]
  rintro c (((hc | hc) | hc) | hc)
  · exact (by decide : ∀ c ∈ "a".toList, c ∉ ",\n[".toList) c hc
  · intro hmem
    have hdigit := isDigit_of_mem_natText hc
    exact absurd hdigit ((by decide : ∀ c ∈ ",\n[".toList, ¬ c.isDigit = true) c hmem)
  · exact (by decide : ∀ c ∈ ": ".toList, c ∉ ",\n[".toList) c hc
  · exact isCell_iff.mp h c hc

def commentLine (f : WitFunc) : Text :=
  "\t// [" ++ f.nr ++ "] " ++ f.fnName ++ "(" ++ join ", " f.origArgs ++ ")"

def methodLine (f : WitFunc) : Text :=
  lineText methodForm [f.name, join ", " (f.argTypes.mapIdx paramText)]

theorem fieldsText_pair (sep a b : Text) : fieldsText [sep] [a, b] = a ++ (sep ++ b) := by
  simp [fieldsText]

theorem methodLine_eq (f : WitFunc) : methodLine f = "\tSYS-" ++ f.name ++ ": func(" ++
    join ", " (f.argTypes.mapIdx paramText) ++ ") -> syscall-result;" := by
  unfold methodLine lineText methodForm
  rw [fieldsText_pair]
  simp only [List.append_assoc]

theorem render_eq (f : WitFunc) : f.render = commentLine f ++ '\n' :: methodLine f := by
  have hparams : (f.argTypes.mapIdx fun i arg => "a" ++ natText (i + 1) ++ ": " ++ arg) =
      f.argTypes.mapIdx paramText :=
    congrArg (f.argTypes.mapIdx ·) (funext fun i => funext fun ty => (paramText_eq i ty).symm)
  have hpair : ∀ first last : Text, join "\n" [first, last] = first ++ '\n' :: last := by
    intro first last
    rw [join_cons (List.cons_ne_nil _ _), List.append_assoc]
    simp [join]
  rw [methodLine_eq, WitFunc.render, hparams, hpair]
  rfl

theorem newline_not_mem_commentLine (h : PlainMethod f) : '\n' ∉ commentLine f := by
  have hargs : '\n' ∉ join ", " f.origArgs :=
    newline_not_mem_join (by decide) fun c hc => (h.origArgs c hc).1
  unfold commentLine
  repeat' refine newline_not_mem_append ?_ ?_
  all_goals first | decide | exact h.nr.1.2 | exact (isBare_of_isWord h.fnName).2 | exact hargs

theorem name_lacks {c : Char} (h : IsWord f.fnName) (hc : ¬ (c.isAlphanum = true ∨ c = '_'))
    (hdash : c ≠ '-') : c ∉ f.name := by
  intro hmem
  rcases mem_of_mem_replaceChar hmem with rfl | hmem
  · exact hdash rfl
  · exact not_mem_of_isWord h hc hmem

theorem params_cells (h : PlainMethod f) : ∀ p ∈ f.argTypes.mapIdx paramText, IsCell p :=
  forall_mem_mapIdx fun i ty hty => isCell_paramText i (h.argTypes ty hty)

theorem readItems_params (h : PlainMethod f) :
    readItems (join ", " (f.argTypes.mapIdx paramText)) = f.argTypes.mapIdx paramText := by
  refine readItems_intercalate fun p hp => ?_
  have hcell := params_cells h p hp
  obtain ⟨i, _, rfl⟩ := List.mem_mapIdx.mp hp
  refine ⟨?_, hcell.1.1, ?_⟩
  · rw [paramText_eq]
    exact List.cons_ne_nil _ _
  · rw [paramText_eq]
    rintro ⟨⟩

theorem filterMap_params (tys : List Text) :
    (tys.mapIdx paramText).filterMap (readLine paramForm) =
      tys.mapIdx fun i ty => [natText (i + 1), ty] := by
  rw [List.mapIdx_eq_zipIdx_map, List.mapIdx_eq_zipIdx_map, List.filterMap_map,
    ← List.filterMap_eq_map]
  refine List.filterMap_congr fun p _ => ?_
  simp only [Function.comp_apply, readLine_paramText]

theorem newline_not_mem_methodFields (h : PlainMethod f) :
    ∀ field ∈ [f.name, join ", " (f.argTypes.mapIdx paramText)], '\n' ∉ field := by
  intro field hfield
  rcases List.mem_pair.mp hfield with rfl | rfl
  · exact name_lacks h.fnName (by decide) (by decide)
  · exact newline_not_mem_join (by decide) fun p hp => (params_cells h p hp).1

theorem newline_not_mem_methodLine (h : PlainMethod f) : '\n' ∉ methodLine f :=
  newline_not_mem_lineText (by decide) (newline_not_mem_methodFields h)

theorem read_method (h : PlainMethod f) :
    (readLines methodForm f.render).map methodOf = [declared f] := by
  have hcomment : readLine methodForm (commentLine f) = none :=
    @readLine_of_ne _ _ 1 'S' '/' rfl rfl (by decide)
  have hfits : Fits methodForm.seps [f.name, join ", " (f.argTypes.mapIdx paramText)] := by
    refine ⟨by simp, fun c hc heq => ?_, trivial⟩
    cases heq
    exact name_lacks h.fnName (by decide) (by decide) hc
  rw [render_eq, readLines_append, readLines_of_newline_not_mem (newline_not_mem_commentLine h),
    hcomment, methodLine,
    readLines_lineText (by decide) (newline_not_mem_methodFields h) hfits]
  simp only [Option.toList_none, List.nil_append, List.map_cons, List.map_nil, methodOf,
    List.head?_cons, Option.getD_some, List.getLast?_cons_cons, List.getLast?_singleton,
    readItems_params h, filterMap_params]
  rfl

end Entries

section Parts

variable {T : Templates} {recordContent : Text} {rows : List (SyscallRow Cell)}

theorem join_append {xs ys : List Text} (hxs : xs ≠ []) (hys : ys ≠ []) :
    join "\n" (xs ++ ys) = join "\n" xs ++ '\n' :: join "\n" ys := by
  induction xs with
  | nil => exact absurd rfl hxs
  | cons x xs ih =>
      cases xs with
      | nil =>
          rw [List.singleton_append, join_cons hys, List.append_assoc]
          simp [join]
      | cons next xs =>
          rw [List.cons_append, join_cons (by simp), ih (List.cons_ne_nil _ _),
            join_cons (List.cons_ne_nil _ _)]
          simp only [List.append_assoc]

variable (wit : WitInterface)

def useLine : Text := lineText useForm ["types", join ", " wit.compTypes.keys]

/-- The lines of the interface in front of the records -/
def beforeRecords : List Text :=
  "interface syscalls \x7b".toList :: useLine wit :: aliasHeading ::
    (wit.uniqPtrTypes.map WitInterface.ptrLine ++ [[], "\t/// Record types".toList])

/-- The lines of the interface behind the records -/
def afterRecords : List Text :=
  [] :: "\t/// Syscall methods".toList :: (wit.methods.map WitFunc.render ++ ["\x7d".toList])

/-- The lines of the file between the types and the records -/
def opening : List Text :=
  [] :: "/// Raw user-space Linux syscall wrappers".toList :: beforeRecords wit

/-- The lines of the file between the types and the pointer types -/
def aboveAliases : List Text :=
  [[], "/// Raw user-space Linux syscall wrappers", "interface syscalls \x7b", useLine wit]

/-- The lines of the file behind the records -/
def ending : List Text := afterRecords wit ++ witInterfaces

theorem useLine_eq :
    useLine wit = "\tuse types.\x7b" ++ join ", " wit.compTypes.keys ++ "\x7d;" := by
  have hhead : "\tuse types.\x7b".toList = "\tuse " ++ ("types" ++ ".\x7b") := rfl
  unfold useLine lineText useForm
  rw [fieldsText_pair, hhead]
  simp only [List.append_assoc]

theorem opening_eq : opening wit = aboveAliases wit ++ aliasHeading ::
    (wit.uniqPtrTypes.map WitInterface.ptrLine ++ [[], "\t/// Record types".toList]) := rfl

theorem scIf_eq : wit.scIf = beforeRecords wit ++ (wit.recordLines :: afterRecords wit) := by
  unfold WitInterface.scIf WitInterface.scPrelude beforeRecords afterRecords aliasHeading
  rw [useLine_eq]
  simp only [List.cons_append, List.append_assoc, List.nil_append]

theorem beforeRecords_ne_nil : beforeRecords wit ≠ [] := List.cons_ne_nil _ _

theorem afterRecords_ne_nil : afterRecords wit ≠ [] := List.cons_ne_nil _ _

theorem join_scIf : join "\n" wit.scIf =
    join "\n" (beforeRecords wit) ++ '\n' ::
      (wit.recordLines ++ '\n' :: join "\n" (afterRecords wit)) := by
  rw [scIf_eq, join_append (beforeRecords_ne_nil wit) (List.cons_ne_nil _ _),
    join_cons (afterRecords_ne_nil wit), List.append_assoc]
  rfl

theorem join_ending : join "\n" (ending wit) =
    '\n' :: ("\t/// Syscall methods" ++ '\n' ::
      join "\n" (wit.methods.map WitFunc.render ++ "\x7d".toList :: witInterfaces)) := by
  unfold ending afterRecords
  rw [List.cons_append, List.cons_append, List.append_assoc, join_cons (List.cons_ne_nil _ _),
    join_cons (by simp), List.append_assoc]
  rfl

theorem toList_cons (c : Char) (s : List Char) :
    (String.ofList (c :: s)).toList = c :: (String.ofList s).toList := by
  rw [String.toList_ofList, String.toList_ofList]

theorem join_opening : join "\n" (opening wit) = '\n' ::
    ("/// Raw user-space Linux syscall wrappers" ++ '\n' :: join "\n" (beforeRecords wit)) := by
  unfold opening
  rw [join_cons (List.cons_ne_nil _ _), join_cons (beforeRecords_ne_nil wit), List.append_assoc]
  rfl

/-- The filled template as a text with the lines of the records in it -/
theorem fill_eq : witTemplate.fill (WitSlot.text wit) =
    join "\n" (witPreamble ++ wit.typeIf) ++ '\n' ::
      (join "\n" (opening wit) ++ '\n' :: (wit.recordLines ++ '\n' :: join "\n" (ending wit))) := by
  have hending : join "\n" (ending wit) =
      join "\n" (afterRecords wit) ++ '\n' :: join "\n" witInterfaces :=
    join_append (afterRecords_ne_nil wit) (List.cons_ne_nil _ _)
  have htypes : join "\n" (witPreamble ++ wit.typeIf) =
      join "\n" witPreamble ++ '\n' :: join "\n" wit.typeIf :=
    join_append (List.cons_ne_nil _ _) (List.cons_ne_nil _ _)
  have htitle : "\n/// Raw user-space Linux syscall wrappers".toList =
      '\n' :: "/// Raw user-space Linux syscall wrappers".toList := toList_cons _ _
  have hfill : witTemplate.fill (WitSlot.text wit) = join "\n" witPreamble ++
      ('\n' :: (join "\n" wit.typeIf ++
        ('\n' :: ("\n/// Raw user-space Linux syscall wrappers" ++
          ('\n' :: (join "\n" wit.scIf ++ ('\n' :: (join "\n" witInterfaces ++ [])))))))) := by
    simp only [witTemplate, Layout.fill, Segment.fill, WitSlot.text, List.flatMap_cons,
      List.flatMap_nil, List.cons_append]
  rw [hfill, htitle, htypes, join_opening, hending, join_scIf, List.append_nil]
  simp only [List.append_assoc, List.cons_append]

end Parts

section Arrays

variable {blanks s t : Text} {c : Char} {lines : List Text} {wit : WitInterface}

/-- A comment, from its slashes on -/
def comment (c : Char) (t : Text) : Text := '/' :: '/' :: '/' :: ' ' :: c :: t

def IsLineBlank (c : Char) : Prop := c = '\n' ∨ c = '\t'

instance (c : Char) : Decidable (IsLineBlank c) := inferInstanceAs (Decidable (c = '\n' ∨ c = '\t'))

theorem head_comment (hblanks : ∀ d ∈ blanks, IsLineBlank d) :
    ∀ d, (blanks ++ comment c t).head? = some d → IsLineBlank d ∨ d = '/' := by
  cases blanks with
  | nil =>
      rintro d ⟨⟩
      exact .inr rfl
  | cons e blanks =>
      rintro d ⟨⟩
      exact .inl (hblanks _ List.mem_cons_self)

/-- A run of white space that begins in front of the comment ends there. -/
theorem rest_of_blanks {u v : Text} (hblanks : ∀ d ∈ blanks, IsLineBlank d)
    (huv : blanks ++ comment c t = u ++ v) (hu : ∀ d ∈ u, isSpace d = true) :
    ∃ blanks', v = blanks' ++ comment c t ∧ ∀ d ∈ blanks', IsLineBlank d := by
  rcases List.append_eq_append_iff.mp huv with ⟨a, rfl, ha⟩ | ⟨a, rfl, ha⟩
  · cases a with
    | nil => exact ⟨[], ha.symm, by simp⟩
    | cons d a =>
        have hslash : isSpace '/' = true := by
          obtain rfl : '/' = d := (List.cons.inj ha).1
          exact hu _ (by simp)
        exact absurd hslash (by decide)
  · exact ⟨a, ha, fun d hd => hblanks d (List.mem_append_right u hd)⟩

theorem elemTail_comment (hc : isSpace c = false) (hbracket : c ≠ ']') (t : Text) :
    matchPrefix elemTail (comment c t) = none := by
  have hnext : ∀ d, (' ' :: c :: t).head? = some d → isNonSpace d = false := by
    rintro d ⟨⟩
    decide
  refine @matchPrefix_run_eq_none _ (' ' :: c :: t) ['/', '/', '/'] 1 isNonSpace true (by decide)
    hnext fun u v huv _ => ?_
  cases v with
  | nil =>
      by_contra h
      rw [← ne_eq, closing_ne_none_iff, List.nil_append, List.dropWhile_cons_of_pos (by decide),
        List.dropWhile_cons_of_neg (by simp [hc])] at h
      exact hbracket (Option.some.inj h)
  | cons d v =>
      have hd : d ∈ ['/', '/', '/'] := huv ▸ (by simp)
      obtain rfl : d = '/' := by simpa using hd
      exact closing_of_head (by decide) (by decide) _

/-- No array in front of a comment takes a part of it. -/
theorem stops_comment (hblanks : ∀ d ∈ blanks, IsLineBlank d) (hne : blanks ≠ [])
    (hc : isSpace c = false) (hbracket : c ≠ ']') (t : Text) :
    Stops arrayPattern (blanks ++ comment c t) := by
  have hfirst : ∀ d, (blanks ++ comment c t).head? = some d → IsLineBlank d := by
    obtain ⟨e, u, rfl⟩ := List.exists_cons_of_ne_nil hne
    rintro d ⟨⟩
    exact hblanks _ List.mem_cons_self
  have hchar : ∀ d, ¬ IsLineBlank d → (blanks ++ comment c t).head? ≠ some d :=
    fun d hd heq => hd (hfirst d heq)
  have hother : ∀ {p : Char → Bool}, p '\n' = false → p '\t' = false →
      ∀ d, (blanks ++ comment c t).head? = some d → p d = false := by
    intro p hline htab d hd
    rcases hfirst d hd with rfl | rfl
    · exact hline
    · exact htab
  have hclosing : Stops closing (blanks ++ comment c t) := by
    refine stops_run (fun u v huv hu => ?_) (stops_char (hchar _ (by decide)) trivial)
    obtain ⟨blanks', rfl, hblanks'⟩ := rest_of_blanks hblanks huv hu
    refine matchPrefix_char_of_head fun heq => ?_
    rcases head_comment hblanks' _ heq with hblank | hslash
    · exact absurd hblank (by decide)
    · exact absurd hslash (by decide)
  have helem : Stops elemTail (blanks ++ comment c t) :=
    stops_run_of_head (hother (by decide) (by decide)) hclosing
  have hcomma : Stops (.char ',' :: .run 0 isSpace false :: elemTail) (blanks ++ comment c t) := by
    refine stops_char (hchar _ (by decide)) (stops_run (fun u v huv hu => ?_) helem)
    obtain ⟨blanks', rfl, hblanks'⟩ := rest_of_blanks hblanks huv hu
    cases blanks' with
    | nil => exact elemTail_comment hc hbracket t
    | cons d blanks' =>
        refine matchPrefix_run_of_head ?_
        rintro e ⟨⟩
        rcases hblanks' d List.mem_cons_self with rfl | rfl <;> decide
  have htail : Stops arrayTail (blanks ++ comment c t) := by
    refine stops_run (fun u v huv hu => ?_)
      (stops_run_of_head (hother (by decide) (by decide)) hcomma)
    obtain ⟨blanks', rfl, hblanks'⟩ := rest_of_blanks hblanks huv hu
    refine matchPrefix_run_of_head fun d hd => ?_
    rcases head_comment hblanks' d hd with (rfl | rfl) | rfl <;> decide
  exact ⟨hchar _ (by decide), hchar _ (by decide), hchar _ (by decide), hchar _ (by decide),
    hchar _ (by decide), hchar _ (by decide), htail⟩

theorem arrayFree_join (h : ∀ line ∈ lines, ArrayFree line) : ArrayFree (join "\n" lines) := by
  induction lines with
  | nil => exact ArrayFree.of_bracket_not_mem (by decide)
  | cons line lines ih =>
      obtain ⟨hline, hrest⟩ := List.forall_mem_cons.mp h
      by_cases hlast : lines = []
      · subst hlast
        simpa [join] using hline
      · rw [join_cons hlast, List.append_assoc]
        exact arrayFree_append_cons (by decide) hline (ih hrest)

theorem groups_of_arrayPattern {groups : List Text} {rest : Text}
    (h : matchPrefix arrayPattern s = some (groups, rest)) :
    ∃ num ty, groups = [num, ty] ∧ ∀ c ∈ ty, isSpace c = false := by
  obtain ⟨u, rfl, _⟩ := @prefix_of_matchPrefix_lit arrayTail s "Array[" (by
    rw [show lit "Array[".toList ++ arrayTail = arrayPattern from rfl, h]
    exact Option.some_ne_none _)
  have htail : matchPrefix arrayTail u = some (groups, rest) :=
    (matchPrefix_lit_append "Array[" arrayTail u).symm.trans h
  obtain ⟨_, _, _, _, _, _, hnum, rfl⟩ := exists_of_matchPrefix_run htail
  obtain ⟨num, _, _, _, _, _, hcomma, rfl⟩ := exists_of_matchPrefix_run hnum
  obtain ⟨_, _, hspaces⟩ := exists_of_matchPrefix_char hcomma
  obtain ⟨_, _, _, _, _, _, helem, rfl⟩ := exists_of_matchPrefix_run hspaces
  obtain ⟨ty, _, _, _, _, hty, hclosing, rfl⟩ := exists_of_matchPrefix_run helem
  obtain ⟨rfl, _⟩ := eq_of_closing hclosing
  exact ⟨num, ty, rfl, fun c hc => isNonSpace_iff.mp (hty c hc)⟩

/-- The tuple for an array begins with `t` and keeps to its line. -/
theorem foreign_matchrep {w : Text} (hw : 't' ∉ w) :
    Foreign arrayPattern matchrep ('\n' :: w) := by
  intro s groups rest hmatch
  obtain ⟨num, ty, rfl, hty⟩ := groups_of_arrayPattern hmatch
  refine ⟨⟨'t', _, rfl, by simpa using hw⟩, fun c hc heq => ?_⟩
  cases heq
  unfold matchrep tupleText at hc
  rcases List.mem_append.mp hc with hc | hc
  · exact absurd hc (by decide)
  rcases List.mem_append.mp hc with hc | hc
  · rcases mem_of_mem_join hc with hc | ⟨part, hpart, hc⟩
    · exact absurd hc (by decide)
    · rw [List.eq_of_mem_replicate hpart] at hc
      exact absurd (hty _ hc) (by decide)
  · exact absurd hc (by decide)

/-- When arrays are replaced, no line gets another beginning. -/
theorem not_prefix_expandArrays {w : Text} (hw : 't' ∉ w) (hline : '\n' ∉ w)
    (h : ∀ line ∈ s.splitOn '\n', ¬ w <+: line) :
    ∀ line ∈ (expandArrays s).splitOn '\n', ¬ w <+: line := by
  intro line hmem hbegins
  have hinfix : '\n' :: w <:+: '\n' :: expandArrays s :=
    (newline_infix_iff hline).mpr ⟨line, hmem, hbegins⟩
  have hcopied : expandArrays ('\n' :: s) = '\n' :: expandArrays s :=
    expandArrays_line (ArrayFree.of_bracket_not_mem List.not_mem_nil) s
  rw [← hcopied] at hinfix
  obtain ⟨line', hline', hbegins'⟩ :=
    (newline_infix_iff hline).mp (infix_of_infix_subst (foreign_matchrep hw) hinfix)
  exact h line' hline' hbegins'

theorem stops_ending (wit : WitInterface) :
    Stops arrayPattern ('\n' :: join "\n" (ending wit)) := by
  rw [join_ending]
  exact @stops_comment ['\n', '\n', '\t'] 'S' (by decide) (by decide) (by decide) (by decide) _

theorem stops_opening (wit : WitInterface) (s : Text) :
    Stops arrayPattern ('\n' :: (join "\n" (opening wit) ++ s)) := by
  rw [join_opening]
  exact @stops_comment ['\n', '\n'] 'R' (by decide) (by decide) (by decide) (by decide) _

/-- The arrays of the types and of the records are replaced, each part by itself. -/
theorem expandArrays_parts (hopening : ArrayFree (join "\n" (opening wit)))
    (hending : ArrayFree (join "\n" (ending wit))) :
    expandArrays (witTemplate.fill (WitSlot.text wit)) =
      expandArrays (join "\n" (witPreamble ++ wit.typeIf)) ++ '\n' ::
        (join "\n" (opening wit) ++ '\n' ::
          (expandArrays wit.recordLines ++ '\n' :: join "\n" (ending wit))) := by
  have hcopied : ∀ s, expandArrays ('\n' :: s) = '\n' :: expandArrays s :=
    expandArrays_line (ArrayFree.of_bracket_not_mem List.not_mem_nil)
  have hrecords : expandArrays (wit.recordLines ++ '\n' :: join "\n" (ending wit)) =
      expandArrays wit.recordLines ++ '\n' :: join "\n" (ending wit) := by
    rw [expandArrays, subst_append_of_stops (stops_ending wit), ← expandArrays, ← expandArrays,
      hcopied, expandArrays_of_arrayFree hending]
  rw [fill_eq, expandArrays, subst_append_of_stops (stops_opening wit _), ← expandArrays,
    ← expandArrays, hcopied, expandArrays_line hopening, hrecords]

end Arrays

section Lines

variable {lines : List Text} {line s : Text} {c : Char} {form : LineForm}

theorem splitOn_lines (h : ∀ line ∈ lines, '\n' ∉ line) (hne : lines ≠ []) :
    (join "\n" lines).splitOn '\n' = lines :=
  List.splitOn_intercalate '\n' h hne

theorem indent_of_not_mem (h : '\n' ∉ s) : indent s = s := by
  induction s with
  | nil => rfl
  | cons c s ih =>
      rw [List.mem_cons, not_or] at h
      rw [indent_cons (Ne.symm h.1), ih h.2]

theorem splitOn_indent (s : Text) :
    ('\t' :: indent s).splitOn '\n' = (s.splitOn '\n').map ('\t' :: ·) := by
  by_cases hline : '\n' ∈ s
  · obtain ⟨first, rest, rfl, hfirst⟩ := List.eq_append_cons_of_mem hline
    have htab : '\n' ∉ '\t' :: first := by simpa using hfirst
    have htext : '\t' :: indent (first ++ '\n' :: rest) =
        ('\t' :: first) ++ '\n' :: '\t' :: indent rest := by
      rw [indent_append, indent_newline, indent_of_not_mem hfirst]
      rfl
    have ih := splitOn_indent rest
    rw [htext, List.splitOn_append_cons_self_of_not_mem htab, ih,
      List.splitOn_append_cons_self_of_not_mem hfirst]
    rfl
  · have htab : '\n' ∉ '\t' :: s := by simpa using hline
    rw [indent_of_not_mem hline, List.splitOn_eq_singleton htab, List.splitOn_eq_singleton hline]
    rfl
termination_by s.length

/-- The lines of the template stand in the interface with a tab in front. -/
theorem splitOn_recordLines (wit : WitInterface) :
    wit.recordLines.splitOn '\n' = (wit.recordContent.splitOn '\n').map ('\t' :: ·) :=
  splitOn_indent wit.recordContent

theorem lacks_toList {banned s : List Char} (h : ∀ c ∈ s, c ∉ banned) :
    ∀ c ∈ (String.ofList s).toList, c ∉ banned := by
  rwa [String.toList_ofList]

theorem lacks_shipped :
    ∀ lines ∈ [witPreamble, witInterfaces], ∀ line ∈ lines, ∀ c ∈ line, c ∉ "\n\t[".toList := by
  simp only [witPreamble, witInterfaces, List.map_cons, List.map_nil, List.forall_mem_cons]
  and_intros
  all_goals first | exact lacks_toList (by decide) | exact fun _ h => absurd h List.not_mem_nil

/-- No form of a line fits where its first characters do not stand. -/
theorem readLine_of_not_prefix (hform : ['\t', c] <+: form.head) (h : ¬ ['\t', c] <+: line) :
    readLine form line = none :=
  readLine_of_not_head fun hhead => h (hform.trans hhead)

theorem newline_not_mem_typeLine {entry : Text × Text} (h : ParsedEntry entry) :
    '\n' ∉ WitInterface.typeLine entry := by
  have hkey : '\n' ∉ entry.1 := fun hmem => absurd (h.key _ hmem) (by decide)
  unfold WitInterface.typeLine
  repeat' refine newline_not_mem_append ?_ ?_
  all_goals first | decide | exact hkey | exact h.line

/-- The lines in front of the interface: none of its lines begins as one of the others. -/
theorem not_prefix_types {wit : WitInterface}
    (hentries : ∀ entry ∈ wit.compTypes.entries, ParsedEntry entry) (hc : c ≠ 't') :
    ∀ line ∈ (join "\n" (witPreamble ++ wit.typeIf)).splitOn '\n', ¬ ['\t', c] <+: line := by
  have hall : ∀ line ∈ witPreamble ++ wit.typeIf, '\n' ∉ line ∧ ¬ ['\t', c] <+: line := by
    intro line hline
    rcases List.mem_append.mp hline with hline | hline
    · have hlacks := lacks_shipped _ (by simp) line hline
      refine ⟨fun hmem => hlacks _ hmem (by decide), fun hbegins => ?_⟩
      exact hlacks '\t' (hbegins.subset (by simp)) (by decide)
    · unfold WitInterface.typeIf at hline
      rcases List.mem_cons.mp hline with rfl | hline
      · refine ⟨by decide, ?_⟩
        rintro ⟨rest, hrest⟩
        cases hrest
      rcases List.mem_append.mp hline with hline | hline
      · obtain ⟨entry, hentry, rfl⟩ := List.mem_map.mp hline
        refine ⟨newline_not_mem_typeLine (hentries entry hentry), ?_⟩
        rintro ⟨rest, hrest⟩
        exact hc (List.cons.inj (List.cons.inj hrest).2).1
      · obtain rfl := List.mem_singleton.mp hline
        refine ⟨by decide, ?_⟩
        rintro ⟨rest, hrest⟩
        cases hrest
  rw [splitOn_lines (fun line hline => (hall line hline).1) (List.cons_ne_nil _ _)]
  exact fun line hline => (hall line hline).2

end Lines

section Reading

/-- An interface whose texts keep to their lines. -/
structure PlainWit (wit : WitInterface) : Prop where
  entries : ∀ entry ∈ wit.compTypes.entries, ParsedEntry entry
  keys : ∀ k ∈ wit.compTypes.keys, ',' ∉ k ∧ '[' ∉ k
  aliases : ∀ x ∈ wit.uniqPtrTypes, IsCell x
  methods : ∀ f ∈ wit.methods, PlainMethod f
  records : ∀ line ∈ wit.recordContent.splitOn '\n',
    ¬ "SYS-".toList <+: line ∧ ¬ "use ".toList <+: line

variable {wit : WitInterface} {form : LineForm} {c : Char}

theorem key_of_mem_keys (hwit : PlainWit wit) {k : Text} (h : k ∈ wit.compTypes.keys) :
    k ≠ [] ∧ ∀ c ∈ k, isKeyChar c = true := by
  obtain ⟨entry, hentry, rfl⟩ := List.mem_map.mp h
  exact ⟨(hwit.entries entry hentry).key_ne_nil, (hwit.entries entry hentry).key⟩

theorem names_lack (hwit : PlainWit wit) :
    ∀ c ∈ join ", " wit.compTypes.keys, c ∉ "\n[".toList := by
  intro c hc hmem
  rcases mem_of_mem_join hc with hc | ⟨k, hk, hc⟩
  · exact (by decide : ∀ c ∈ ", ".toList, c ∉ "\n[".toList) c hc hmem
  · have hchars : c = '\n' ∨ c = '[' := by simpa using hmem
    rcases hchars with rfl | rfl
    · exact absurd ((key_of_mem_keys hwit hk).2 _ hc) (by decide)
    · exact (hwit.keys k hk).2 hc

theorem ptrLine_eq (x : Text) : WitInterface.ptrLine x = lineText aliasForm [x] := by
  unfold WitInterface.ptrLine lineText aliasForm
  rw [fieldsText_nil, List.flatten_singleton, List.append_assoc]

theorem opening_lacks (hwit : PlainWit wit) :
    ∀ line ∈ opening wit, ∀ c ∈ line, c ∉ "\n[".toList := by
  have happend : ∀ {a b : Text}, (∀ c ∈ a, c ∉ "\n[".toList) → (∀ c ∈ b, c ∉ "\n[".toList) →
      ∀ c ∈ a ++ b, c ∉ "\n[".toList :=
    fun ha hb c hc => (List.mem_append.mp hc).elim (ha c) (hb c)
  have hkey : ∀ x ∈ wit.uniqPtrTypes, ∀ c ∈ x, c ∉ "\n[".toList := by
    intro x hx c hc hmem
    exact isCell_iff.mp (hwit.aliases x hx) c hc (List.mem_cons_of_mem ',' hmem)
  have huse : ∀ c ∈ useLine wit, c ∉ "\n[".toList := by
    rw [useLine_eq]
    exact happend (happend (lacks_toList (by decide)) (names_lack hwit)) (lacks_toList (by decide))
  unfold opening beforeRecords aliasHeading
  simp only [List.forall_mem_cons, List.forall_mem_append, List.forall_mem_map]
  refine ⟨by simp, lacks_toList (by decide), lacks_toList (by decide), huse,
    lacks_toList (by decide), fun x hx => ?_, by simp, lacks_toList (by decide), by simp⟩
  unfold WitInterface.ptrLine
  exact happend (happend (lacks_toList (by decide)) (hkey x hx)) (lacks_toList (by decide))

theorem arrayFree_bracket {s : Text} (h : '[' ∉ s) : ArrayFree ('[' :: s) := by
  intro hinside
  rcases List.infix_cons_iff.mp hinside with hbegins | hinside
  · obtain ⟨rest, hrest⟩ := hbegins
    cases hrest
  · exact h (hinside.subset (by decide))

theorem arrayFree_render {f : WitFunc} (h : PlainMethod f) : ArrayFree f.render := by
  have hname : '[' ∉ f.name := name_lacks h.fnName (by decide) (by decide)
  have hparams : '[' ∉ join ", " (f.argTypes.mapIdx paramText) := by
    intro hmem
    rcases mem_of_mem_join hmem with hmem | ⟨p, hp, hmem⟩
    · exact absurd hmem (by decide)
    · exact (params_cells h p hp).2 hmem
  have horig : '[' ∉ join ", " f.origArgs := by
    intro hmem
    rcases mem_of_mem_join hmem with hmem | ⟨c, hc, hmem⟩
    · exact absurd hmem (by decide)
    · exact (h.origArgs c hc).2 hmem
  have hmethod : '[' ∉ methodLine f := by
    rw [methodLine_eq]
    repeat' refine List.not_mem_append ?_ ?_
    all_goals first | decide | assumption
  have hrest : '[' ∉ f.nr ++ ("] " ++ (f.fnName ++ ("(" ++ (join ", " f.origArgs ++ ")")))) := by
    have hfn : '[' ∉ f.fnName := not_mem_of_isWord h.fnName (by decide)
    have hnr := h.nr.2
    repeat' refine List.not_mem_append ?_ ?_
    all_goals first | decide | assumption
  have hcomment : commentLine f = "\t//" ++ ' ' :: '[' ::
      (f.nr ++ ("] " ++ (f.fnName ++ ("(" ++ (join ", " f.origArgs ++ ")"))))) := by
    unfold commentLine
    simp only [List.append_assoc]
    rfl
  rw [render_eq, hcomment]
  exact arrayFree_append_cons (by decide)
    (arrayFree_append_cons (by decide) (ArrayFree.of_bracket_not_mem (by decide))
      (arrayFree_bracket hrest))
    (ArrayFree.of_bracket_not_mem hmethod)

theorem arrayFree_ending (hwit : PlainWit wit) : ArrayFree (join "\n" (ending wit)) := by
  have hempty : ArrayFree [] := ArrayFree.of_bracket_not_mem List.not_mem_nil
  have hheading : ArrayFree "\t/// Syscall methods".toList :=
    ArrayFree.of_bracket_not_mem (not_mem_toList (by decide))
  have hbrace : ArrayFree "\x7d".toList := ArrayFree.of_bracket_not_mem (by decide)
  refine arrayFree_join ?_
  unfold ending afterRecords
  simp only [List.forall_mem_cons, List.forall_mem_append, List.forall_mem_map, List.cons_append]
  refine ⟨hempty, hheading, ⟨fun f hf => arrayFree_render (hwit.methods f hf), hbrace, by simp⟩,
    fun line hline => ArrayFree.of_bracket_not_mem fun hmem => ?_⟩
  exact lacks_shipped _ (by simp) line hline _ hmem (by decide)

/-- The lines of the written file that have a form -/
theorem readLines_parts (hwit : PlainWit wit) :
    readLines form (expandArrays (witTemplate.fill (WitSlot.text wit))) =
      readLines form (expandArrays (join "\n" (witPreamble ++ wit.typeIf))) ++
        ((opening wit).filterMap (readLine form) ++
          (readLines form (expandArrays wit.recordLines) ++
            readLines form (join "\n" (ending wit)))) := by
  have hopening := opening_lacks hwit
  have hfree : ArrayFree (join "\n" (opening wit)) :=
    arrayFree_join fun line hline => ArrayFree.of_bracket_not_mem fun hmem =>
      hopening line hline _ hmem (by decide)
  have hlines : readLines form (join "\n" (opening wit)) = (opening wit).filterMap (readLine form) := by
    rw [readLines, splitOn_lines (fun line hline hmem => hopening line hline _ hmem (by decide))
      (List.cons_ne_nil _ _)]
  rw [expandArrays_parts hfree (arrayFree_ending hwit), readLines_append, readLines_append,
    readLines_append, hlines]

theorem readLines_types (hwit : PlainWit wit) (hform : ['\t', c] <+: form.head) (hc : c ≠ 't')
    (hline : c ≠ '\n') :
    readLines form (expandArrays (join "\n" (witPreamble ++ wit.typeIf))) = [] := by
  refine readLines_of_not_prefix hform ?_
  refine not_prefix_expandArrays ?_ ?_ (not_prefix_types hwit.entries hc)
  · simpa using Ne.symm hc
  · simpa using Ne.symm hline

theorem readLines_records {w : Text} (hform : '\t' :: w <+: form.head) (hw : 't' ∉ w)
    (hline : '\n' ∉ w) (h : ∀ line ∈ wit.recordContent.splitOn '\n', ¬ w <+: line) :
    readLines form (expandArrays wit.recordLines) = [] := by
  refine readLines_of_not_prefix hform ?_
  refine not_prefix_expandArrays (by simpa using hw) (by simpa using hline) ?_
  rw [splitOn_recordLines]
  intro line hmem hbegins
  obtain ⟨line, hcontent, rfl⟩ := List.mem_map.mp hmem
  exact h line hcontent (List.cons_prefix_cons.mp hbegins).2

theorem filterMap_opening (hform : ['\t', c] <+: form.head) (hc : c ≠ 't') (hslash : c ≠ '/') :
    (opening wit).filterMap (readLine form) = (readLine form (useLine wit)).toList := by
  have hnone : ∀ line : Text, ¬ ['\t', c] <+: line → readLine form line = none :=
    fun line => readLine_of_not_prefix hform
  have hcomment : ∀ s : Text, ¬ ['\t', c] <+: '\t' :: '/' :: s := by
    rintro s ⟨rest, hrest⟩
    exact hslash (List.cons.inj (List.cons.inj hrest).2).1
  have hother : ∀ (d : Char) (s : Text), d ≠ '\t' → ¬ ['\t', c] <+: d :: s := by
    rintro d s hd ⟨rest, hrest⟩
    exact hd (List.cons.inj hrest).1.symm
  have halias : ∀ x : Text, readLine form (WitInterface.ptrLine x) = none := by
    refine fun x => hnone _ ?_
    rintro ⟨rest, hrest⟩
    exact hc (List.cons.inj (List.cons.inj hrest).2).1
  have haliases : (wit.uniqPtrTypes.map WitInterface.ptrLine).filterMap (readLine form) = [] := by
    rw [List.filterMap_map, List.filterMap_eq_nil_iff]
    exact fun x _ => halias x
  have hempty : readLine form [] = none := hnone _ (by simp)
  have htitle : readLine form "/// Raw user-space Linux syscall wrappers".toList = none :=
    hnone _ (hother '/' _ (by decide))
  have hinterface : readLine form "interface syscalls \x7b".toList = none :=
    hnone _ (hother 'i' _ (by decide))
  have haliasHeading : readLine form aliasHeading = none := hnone _ (hcomment _)
  have hrecordHeading : readLine form "\t/// Record types".toList = none := hnone _ (hcomment _)
  unfold opening beforeRecords
  rw [List.filterMap_cons_none hempty, List.filterMap_cons_none htitle,
    List.filterMap_cons_none hinterface, List.filterMap_cons,
    List.filterMap_cons_none haliasHeading, List.filterMap_append, haliases,
    List.filterMap_cons_none hempty, List.filterMap_cons_none hrecordHeading]
  cases readLine form (useLine wit) <;> rfl

theorem readLines_ending (hform : ['\t', c] <+: form.head) (hslash : c ≠ '/') :
    readLines form (join "\n" (ending wit)) =
      wit.methods.flatMap fun f => readLines form f.render := by
  have hempty : readLine form [] = none := readLine_of_not_prefix hform (by simp)
  have hheading : readLines form "\t/// Syscall methods".toList = [] := by
    have hline : '\n' ∉ "\t/// Syscall methods".toList := not_mem_toList (by decide)
    have hnone : readLine form "\t/// Syscall methods".toList = none := by
      refine readLine_of_not_prefix hform ?_
      rintro ⟨rest, hrest⟩
      exact hslash (List.cons.inj (List.cons.inj hrest).2).1
    rw [readLines_of_newline_not_mem hline, hnone]
    rfl
  have hshipped : ∀ line ∈ "\x7d".toList :: witInterfaces, readLines form line = [] := by
    intro line hline
    have hlacks : '\n' ∉ line ∧ '\t' ∉ line := by
      rcases List.mem_cons.mp hline with rfl | hline
      · exact ⟨by decide, by decide⟩
      · have hlacks := lacks_shipped _ (by simp) line hline
        exact ⟨fun hmem => hlacks _ hmem (by decide), fun hmem => hlacks _ hmem (by decide)⟩
    have hnone : readLine form line = none :=
      readLine_of_not_prefix hform fun hbegins => hlacks.2 (hbegins.subset (by simp))
    rw [readLines_of_newline_not_mem hlacks.1, hnone]
    rfl
  have hlines : ∀ lines : List Text,
      readLines form (join "\n" lines) = lines.flatMap (readLines form) :=
    readLines_intercalate hempty
  have hrest : ("\x7d".toList :: witInterfaces).flatMap (readLines form) = [] :=
    List.flatMap_eq_nil_iff.mpr hshipped
  have hfirst : ∀ s : Text, readLines form ('\n' :: s) = readLines form s := by
    intro s
    have happend := readLines_append form [] s
    rwa [List.nil_append, readLines_of_newline_not_mem List.not_mem_nil, hempty] at happend
  rw [join_ending, hfirst, readLines_append, hheading, List.nil_append, hlines,
    List.flatMap_append, hrest, List.append_nil, List.flatMap_map]

/-- The methods of the written interface are read with the names and types they were given. -/
theorem read_methods (hwit : PlainWit wit) :
    (readLines methodForm (expandArrays (witTemplate.fill (WitSlot.text wit)))).map methodOf =
      wit.methods.map declared := by
  have hform : ['\t', 'S'] <+: methodForm.head := ⟨"YS-".toList, rfl⟩
  have hrecords : readLines methodForm (expandArrays wit.recordLines) = [] :=
    readLines_records (w := "SYS-".toList) ⟨[], rfl⟩ (by decide) (by decide)
      fun line hline => (hwit.records line hline).1
  have huse : readLine methodForm (useLine wit) = none :=
    @readLine_of_ne _ _ 1 'S' 'u' rfl rfl (by decide)
  rw [readLines_parts hwit, readLines_types hwit hform (by decide) (by decide), hrecords,
    filterMap_opening hform (by decide) (by decide), huse, readLines_ending hform (by decide),
    Option.toList_none, List.nil_append, List.nil_append, List.nil_append, List.map_flatMap,
    List.map_eq_flatMap]
  exact List.flatMap_congr fun f hf => read_method (hwit.methods f hf)

/-- The names that the written interface imports are those of the `types` interface. -/
theorem read_use (hwit : PlainWit wit) :
    (readLines useForm (expandArrays (witTemplate.fill (WitSlot.text wit)))).map usedNames =
      [("types".toList, wit.compTypes.keys)] := by
  have hform : ['\t', 'u'] <+: useForm.head := ⟨"se ".toList, rfl⟩
  have hrecords : readLines useForm (expandArrays wit.recordLines) = [] :=
    readLines_records (w := "use ".toList) ⟨[], rfl⟩ (by decide) (by decide)
      fun line hline => (hwit.records line hline).2
  have hmethods : ∀ f ∈ wit.methods, readLines useForm f.render = [] := by
    intro f hf
    have hcomment : readLine useForm (commentLine f) = none :=
      @readLine_of_ne _ _ 1 'u' '/' rfl rfl (by decide)
    have hmethod : readLine useForm (methodLine f) = none :=
      @readLine_of_ne _ _ 1 'u' 'S' rfl rfl (by decide)
    rw [render_eq, readLines_append,
      readLines_of_newline_not_mem (newline_not_mem_commentLine (hwit.methods f hf)), hcomment,
      readLines_of_newline_not_mem (newline_not_mem_methodLine (hwit.methods f hf)), hmethod]
    rfl
  have hitems : readItems (join ", " wit.compTypes.keys) = wit.compTypes.keys := by
    refine readItems_intercalate fun k hk => ?_
    obtain ⟨hne, hchars⟩ := key_of_mem_keys hwit hk
    refine ⟨hne, (hwit.keys k hk).1, fun hhead => ?_⟩
    exact absurd (hchars ' ' (List.mem_of_mem_head? hhead)) (by decide)
  have hfits : Fits useForm.seps ["types".toList, join ", " wit.compTypes.keys] := by
    refine ⟨by decide, fun c hc heq => ?_, trivial⟩
    cases heq
    exact absurd hc (by decide)
  have huse : readLine useForm (useLine wit) = some ["types".toList, join ", " wit.compTypes.keys] :=
    readLine_lineText hfits
  rw [readLines_parts hwit, readLines_types hwit hform (by decide) (by decide), hrecords,
    filterMap_opening hform (by decide) (by decide), huse, readLines_ending hform (by decide),
    List.flatMap_eq_nil_iff.mpr hmethods]
  simp only [Option.toList_some, List.nil_append, List.append_nil, List.map_cons, List.map_nil,
    usedNames, List.head?_cons, Option.getD_some, List.getLast?_cons_cons,
    List.getLast?_singleton, hitems]

/-- The lines from a heading to the next empty line -/
theorem cut_section {heading : Text} {before body rest : List Text}
    (hbefore : ∀ line ∈ before, line ≠ heading) (hheading : heading ≠ [])
    (hbody : ∀ line ∈ body, line ≠ []) :
    ((before ++ heading :: (body ++ [] :: rest)).dropWhile (· ≠ heading)).takeWhile (· ≠ []) =
      heading :: body := by
  rw [List.dropWhile_append_of_pos (by simpa using hbefore),
    List.dropWhile_cons_of_neg (by simp), List.takeWhile_cons_of_pos (by simpa using hheading),
    List.takeWhile_append_of_pos (by simpa using hbody), List.takeWhile_cons_of_neg (by simp),
    List.append_nil]

/-- The pointer types that the written interface defines -/
theorem read_aliases (hwit : PlainWit wit) :
    readAliases (expandArrays (witTemplate.fill (WitSlot.text wit))) = wit.uniqPtrTypes := by
  have hopening := opening_lacks hwit
  have hfree : ArrayFree (join "\n" (opening wit)) :=
    arrayFree_join fun line hline => ArrayFree.of_bracket_not_mem fun hmem =>
      hopening line hline _ hmem (by decide)
  have hslash : ∀ line : Text, ¬ ['\t', '/'] <+: line → line ≠ aliasHeading := by
    rintro line hline rfl
    exact hline ⟨"// Readable pointer types".toList, rfl⟩
  have htypes : ∀ line ∈ (expandArrays (join "\n" (witPreamble ++ wit.typeIf))).splitOn '\n',
      line ≠ aliasHeading := by
    refine fun line hline => hslash line ?_
    exact not_prefix_expandArrays (by decide) (by decide)
      (not_prefix_types hwit.entries (by decide)) line hline
  have habove : ∀ line ∈ aboveAliases wit, line ≠ aliasHeading := by
    simp only [aboveAliases, List.forall_mem_cons]
    refine ⟨?_, ?_, ?_, ?_, by simp⟩
    all_goals
      refine hslash _ ?_
      rintro ⟨rest, hrest⟩
      cases hrest
  have hbody : ∀ line ∈ wit.uniqPtrTypes.map WitInterface.ptrLine, line ≠ [] := by
    intro line hline
    obtain ⟨x, _, rfl⟩ := List.mem_map.mp hline
    exact List.cons_ne_nil _ _
  obtain ⟨rest, hlines⟩ : ∃ rest,
      (expandArrays (witTemplate.fill (WitSlot.text wit))).splitOn '\n' =
        ((expandArrays (join "\n" (witPreamble ++ wit.typeIf))).splitOn '\n' ++ aboveAliases wit) ++
          aliasHeading :: (wit.uniqPtrTypes.map WitInterface.ptrLine ++ [] :: rest) := by
    rw [expandArrays_parts hfree (arrayFree_ending hwit), List.splitOn_append_cons_self,
      List.splitOn_append_cons_self,
      splitOn_lines (fun line hline hmem => hopening line hline _ hmem (by decide))
        (List.cons_ne_nil _ _), opening_eq]
    simp only [List.append_assoc, List.cons_append, List.nil_append]
    exact ⟨_, rfl⟩
  have hheading : (readLine aliasForm aliasHeading).getD [] = [] := by decide +kernel
  have halias : ∀ x : Text, (readLine aliasForm (WitInterface.ptrLine x)).getD [] = [x] := by
    intro x
    have hfits : Fits aliasForm.seps [x] := fits_last x
    rw [ptrLine_eq, readLine_lineText hfits]
    rfl
  unfold readAliases
  rw [hlines, cut_section (List.forall_mem_append.mpr ⟨htypes, habove⟩) (List.cons_ne_nil _ _) hbody,
    List.flatMap_cons, hheading,
    List.nil_append, List.flatMap_map]
  simp only [halias, List.flatMap_singleton']

end Reading

section Tables

variable {T : Templates} {recordContent : Text} {rows : List (SyscallRow Cell)}
  {wit : WitInterface}

/-- Tables, type files and records whose texts keep to the lines of the file. -/
structure PlainInputs (T : Templates) (recordContent : Text) (rows : List (SyscallRow Cell)) :
    Prop where
  names : ∀ sc ∈ rows, IsWord sc.fnName.text
  nrs : ∀ sc ∈ rows, IsCell sc.nr.text
  cells : ∀ c, ArgumentCell rows c → IsCell c
  values : ∀ v ∈ (basicTypes T).values, IsCell v
  keys : ∀ k ∈ (compTypes T).keys, ',' ∉ k ∧ '[' ∉ k
  records : ∀ line ∈ recordContent.splitOn '\n',
    ¬ "SYS-".toList <+: line ∧ ¬ "use ".toList <+: line

theorem isCell_witType {c : Text} (h : IsCell c) : IsCell (witType c) := by
  rw [isCell_iff] at h ⊢
  intro d hd hbanned
  have hptr : d ∉ ptrPrefix :=
    fun hmem => (by decide : ∀ e ∈ ptrPrefix, e ∉ ",\n[".toList) d hmem hbanned
  refine not_mem_witType hptr (fun hmem => ?_) hd
  rcases mem_of_mem_kebab hmem with rfl | hmem
  · exact absurd hbanned (by decide)
  · have hinside : strip c <:+: c :=
      (List.rdropWhile_prefix _ _).isInfix.trans (List.dropWhile_suffix _).isInfix
    exact h d (hinside.subset hmem) hbanned

theorem plainWit_of_inputs
    (hT : ∀ origin ∈ T.primitives.entries ++ T.complex.entries, ParsedEntry origin)
    (hplain : PlainInputs T recordContent rows)
    (hwit : genWitStubs T recordContent rows = returns wit) : PlainWit wit := by
  obtain ⟨_, _, hcomp, _, hcontent, _, _⟩ := genWitStubs_eq_returns_iff.mp hwit
  have hwritten : ∀ c, ArgumentCell rows c → IsCell (writtenType T (witType c)) := by
    intro c hc
    rcases List.mem_cons.mp (@Dict.getD_mem_cons_values _ _ _ (basicTypes T) (witType c)
      (witType c)) with heq | hvalue
    · rw [writtenType, heq]
      exact isCell_witType (hplain.cells c hc)
    · exact hplain.values _ hvalue
  refine ⟨fun entry hentry => ?_, hcomp ▸ hplain.keys, fun x hx => ?_, fun f hf => ?_,
    hcontent ▸ hplain.records⟩
  · exact parsedEntry_compTypes hT (hcomp ▸ hentry)
  · obtain ⟨_, c, hc, rfl⟩ := (mem_uniqPtrTypes hwit).mp hx
    exact isCell_witType (hplain.cells c hc)
  · obtain ⟨sc, hsc, _, hfn, hnr, hcells, hargs⟩ := (mem_methods_iff hwit).mp hf
    have hcell : ∀ c ∈ f.origArgs, ArgumentCell rows c :=
      fun c hc => ⟨sc, hsc, f.origArgs, hcells, hc⟩
    refine ⟨?_, hnr ▸ hplain.nrs sc hsc, fun c hc => hplain.cells c (hcell c hc), fun ty hty => ?_⟩
    · have hname := hplain.names sc hsc
      rwa [hfn] at hname
    · rw [hargs] at hty
      obtain ⟨c, hc, rfl⟩ := List.mem_map.mp hty
      exact hwritten c (hcell c hc)

/-- The `syscalls` interface of the written `wali.wit`, read line by line: it imports the names
of the `types` interface, defines the pointer types, and declares the supported calls in table
order, each with the types of its parameters. -/
theorem syscalls_interface_reads_back {primitives complex : Text}
    (hplain : PlainInputs ⟨parseTypeFile primitives, parseTypeFile complex⟩ recordContent rows)
    (hwit : genWitStubs ⟨parseTypeFile primitives, parseTypeFile complex⟩ recordContent rows =
      returns wit) :
    (readLines useForm (witText (witTemplate.fill WitSlot.mark) wit)).map usedNames =
        [("types".toList, wit.compTypes.keys)] ∧
      readAliases (witText (witTemplate.fill WitSlot.mark) wit) = wit.uniqPtrTypes ∧
      (readLines methodForm (witText (witTemplate.fill WitSlot.mark) wit)).map methodOf =
        wit.methods.map declared ∧
      ((readLines methodForm (witText (witTemplate.fill WitSlot.mark) wit)).map methodOf).map
          (fun m => (m.1, m.2.length)) =
        (listedFunctions rows).map fun f => (replaceChar '_' '-' f.1, f.2) := by
  have hplainWit : PlainWit wit := by
    refine plainWit_of_inputs (fun origin horigin => ?_) hplain hwit
    rcases List.mem_append.mp horigin with horigin | horigin
    · exact parsedEntry_of_parseTypeFile horigin
    · exact parsedEntry_of_parseTypeFile horigin
  have htext : witText (witTemplate.fill WitSlot.mark) wit =
      expandArrays (witTemplate.fill (WitSlot.text wit)) := by
    rw [witText, fillWit_fill witTemplate_marked hwit]
  have hmethods := read_methods hplainWit
  have hsignature : (fun m : Text × List (List Text) => (m.1, m.2.length)) ∘ declared =
      WitFunc.signature := by
    funext f
    simp [declared, WitFunc.signature]
  rw [htext]
  refine ⟨read_use hplainWit, read_aliases hplainWit, hmethods, ?_⟩
  rw [hmethods, List.map_map, hsignature, methods_signature hwit]

def intSetRecord : Text := "record int-set \x7b\n  bits: Array[4, s32]\n\x7d\n"

theorem int_set_interface_reads_back :
    ∃ wit, genWitStubs fsidTemplates intSetRecord [oneArgRow "int*"] = returns wit ∧
      readAliases (witText (witTemplate.fill WitSlot.mark) wit) = ["ptr-int".toList] ∧
      (readLines methodForm (witText (witTemplate.fill WitSlot.mark) wit)).map methodOf =
        [("probe".toList, [["1".toList, "ptr-int".toList]])] := by
  have hplain : PlainInputs fsidTemplates intSetRecord [oneArgRow "int*"] := by
    refine ⟨by decide, by decide, fun c hc => ?_, by decide +kernel, by decide +kernel, by decide⟩
    rw [argumentCell_oneArgRow.mp hc]
    decide
  have hwit : genWitStubs fsidTemplates intSetRecord [oneArgRow "int*"] = returns _ := rfl
  obtain ⟨_, haliases, hmethods, _⟩ :=
    @syscalls_interface_reads_back intSetRecord [oneArgRow "int*"] _ wordType fsidType hplain hwit
  exact ⟨_, hwit, haliases.trans (by decide +kernel), hmethods.trans (by decide +kernel)⟩

end Tables

end Wali.SyscallsInterface
