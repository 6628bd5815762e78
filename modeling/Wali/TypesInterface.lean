import Wali.ArrayTuples
import Wali.TemplateFilling
import Wali.TypeFile

/-!
The `types` interface in `wali.wit`, read back with `parse_type_file`.
-/

namespace Wali.TypesInterface

open Wali.ArrayExpansion
open Wali.ArrayMatching
open Wali.ArrayTuples
open Wali.InsertionDict
open Wali.PythonText
open Wali.RegexMatching
open Wali.RunOutcome.Outcome
open Wali.ScalarTypes
open Wali.SyscallTable
open Wali.TemplateFilling
open Wali.TextReplace
open Wali.TypeFile
open Wali.TypeTemplates
open Wali.WitStubs

section ArrayLines

variable {s t line before num ty key value : Text}

theorem arrayFree_append_cons {c : Char} (hc : c ∉ "Array[".toList) (hs : ArrayFree s)
    (ht : ArrayFree t) : ArrayFree (s ++ c :: t) := by
  intro hinside
  rcases infix_of_append_cons hc hinside with h | h
  · exact hs h
  · exact ht h

/-- A line without arrays is copied, whatever follows. -/
theorem expandArrays_line (hline : ArrayFree line) (s : Text) :
    expandArrays (line ++ '\n' :: s) = line ++ '\n' :: expandArrays s := by
  have hcopied : expandArrays ((line ++ ['\n']) ++ s) = (line ++ ['\n']) ++ expandArrays s := by
    refine subst_append_of_none fun v hv hne => ?_
    rcases List.suffix_concat_iff.mp hv with rfl | ⟨t, rfl, ht⟩
    · exact absurd rfl hne
    by_contra hmatch
    obtain ⟨u, hu, _⟩ := prefix_of_matchPrefix_lit hmatch
    rw [List.append_assoc, List.cons_append, List.nil_append] at hu
    have hstarts : "Array[".toList <+: t := prefix_of_prefix_append_cons (by decide) ⟨u, hu.symm⟩
    exact hline (hstarts.isInfix.trans ht.isInfix)
  simpa using hcopied

/-- A type without arrays, or an array of a type that is written without white space. -/
def PlainOrArray (v : Text) : Prop :=
  ArrayFree v ∨ ∃ num elem, IsNumeral num ∧ IsElem elem ∧ v = arrayText num elem []

theorem expandArrays_of_arrayFree (h : ArrayFree s) : expandArrays s = s := by
  have hlit := expandArrays_lit h .none
  have hnil : expandArrays [] = [] := rfl
  rwa [Arrays.source, List.append_nil, hnil, List.append_nil] at hlit

/-- The text of the next lines does not begin with a closing bracket. -/
def Unclosed (s : Text) : Prop := (s.dropWhile isSpace).head? ≠ some ']'

theorem expandArrays_arrayLine (hbefore : ArrayFree before) (hnum : IsNumeral num)
    (hty : IsElem ty) (hs : Unclosed s) :
    expandArrays (before ++ arrayText num ty (';' :: '\n' :: s)) =
      before ++ (tupleText (numeralValue num) ty ++ ';' :: '\n' :: expandArrays s) := by
  have hclosed : Closed (';' :: '\n' :: s) := by
    have htake : (';' :: '\n' :: s).takeWhile isNonSpace = [';'] := rfl
    have hdrop : (';' :: '\n' :: s).dropWhile isNonSpace = '\n' :: s := rfl
    refine ⟨by rw [htake]; decide, ?_⟩
    rw [hdrop]
    exact hs
  have hcopied : expandArrays (before ++ arrayText num ty (';' :: '\n' :: s)) =
      before ++ expandArrays (arrayText num ty (';' :: '\n' :: s)) := by
    refine subst_append_of_none fun v hv hne => matchPrefix_of_arrayFree hbefore ?_ hv hne
    rintro c ⟨⟩
    rfl
  have hend : expandArrays ([';'] ++ '\n' :: s) = [';'] ++ '\n' :: expandArrays s :=
    expandArrays_line (ArrayFree.of_bracket_not_mem (by decide)) s
  rw [hcopied, expandArrays_of_closed hnum hty hclosed]
  exact congrArg (fun u => before ++ (tupleText (numeralValue num) ty ++ u)) hend

end ArrayLines

section Interface

variable {entry : Text × Text} {entries : List (Text × Text)} {s : Text}

/-- The lines of declarations, each with its end -/
def typeLines (entries : List (Text × Text)) : Text :=
  entries.flatMap fun entry => WitInterface.typeLine entry ++ ['\n']

def interfaceText (entries : List (Text × Text)) : Text :=
  "interface types \x7b".toList ++ '\n' :: (typeLines entries ++ "\x7d".toList)

theorem join_concat (lines : List Text) (last : Text) :
    join "\n" (lines ++ [last]) = (lines.flatMap fun line => line ++ ['\n']) ++ last := by
  induction lines with
  | nil => simp [join]
  | cons line lines ih =>
      rw [List.cons_append, join_cons (by simp), ih, List.flatMap_cons, List.append_assoc,
        List.append_assoc, List.append_assoc]
      rfl

theorem typeIf_eq (wit : WitInterface) :
    wit.typeIf = ("interface types \x7b".toList ::
      wit.compTypes.entries.map WitInterface.typeLine) ++ ["\x7d".toList] := by
  unfold WitInterface.typeIf
  rw [List.cons_append]

theorem join_typeIf (wit : WitInterface) :
    join "\n" wit.typeIf = interfaceText wit.compTypes.entries := by
  unfold interfaceText typeLines
  rw [typeIf_eq, join_concat, List.flatMap_cons, List.flatMap_map, List.append_assoc,
    List.append_assoc, List.cons_append, List.nil_append]

/-- The entry with its arrays written as tuples -/
def expandEntry (entry : Text × Text) : Text × Text := (entry.1, expandArrays entry.2)

theorem typeLine_append (entry : Text × Text) (s : Text) :
    WitInterface.typeLine entry ++ s =
      "\ttype ".toList ++ (entry.1 ++ (" = ".toList ++ (entry.2 ++ ';' :: s))) := by
  unfold WitInterface.typeLine
  simp only [List.append_assoc]
  rfl

theorem arrayFree_declaration {key t : Text} (hkey : ArrayFree key) (ht : ArrayFree t) :
    ArrayFree ("\ttype ".toList ++ (key ++ (" = ".toList ++ t))) := by
  have htext : "\ttype ".toList ++ (key ++ (" = ".toList ++ t)) =
      "\ttype".toList ++ ' ' :: (key ++ ' ' :: (['='] ++ ' ' :: t)) := rfl
  have hstart : ArrayFree "\ttype".toList := ArrayFree.of_bracket_not_mem (by decide)
  have hequals : ArrayFree ['='] := ArrayFree.of_bracket_not_mem (by decide)
  rw [htext]
  exact arrayFree_append_cons (by decide) hstart (arrayFree_append_cons (by decide) hkey
    (arrayFree_append_cons (by decide) hequals ht))

theorem arrayText_append (num ty s t : Text) :
    arrayText num ty s ++ t = arrayText num ty (s ++ t) := by
  unfold arrayText
  simp only [List.append_assoc, List.cons_append]

theorem expandArrays_typeLine (hkey : ArrayFree entry.1) (hvalue : PlainOrArray entry.2)
    (hs : Unclosed s) :
    expandArrays (WitInterface.typeLine entry ++ '\n' :: s) =
      WitInterface.typeLine (expandEntry entry) ++ '\n' :: expandArrays s := by
  obtain ⟨key, value⟩ := entry
  have hnil : ArrayFree [] := ArrayFree.of_bracket_not_mem (by decide)
  rcases hvalue with hvalue | ⟨num, elem, hnum, helem, rfl⟩
  · have hline : ArrayFree (WitInterface.typeLine (key, value)) := by
      rw [← List.append_nil (WitInterface.typeLine (key, value)), typeLine_append]
      exact arrayFree_declaration hkey (arrayFree_append_cons (by decide) hvalue hnil)
    rw [expandArrays_line hline, expandEntry, expandArrays_of_arrayFree hvalue]
  · have htuple : expandArrays (arrayText num elem []) = tupleText (numeralValue num) elem := by
      rw [expandArrays_of_closed hnum helem ⟨by simp, by simp⟩]
      exact List.append_nil _
    have hbefore : ArrayFree ("\ttype ".toList ++ (key ++ (" = ".toList ++ []))) :=
      arrayFree_declaration hkey hnil
    have harray := expandArrays_arrayLine hbefore hnum helem hs
    rw [typeLine_append, typeLine_append, expandEntry, htuple, arrayText_append]
    simpa only [List.append_assoc, List.nil_append] using harray

theorem unclosed_typeLines (hs : Unclosed s) : Unclosed (typeLines entries ++ s) := by
  cases entries with
  | nil => exact hs
  | cons entry entries =>
      unfold typeLines
      rw [List.flatMap_cons, List.append_assoc, List.append_assoc, typeLine_append]
      rintro ⟨⟩

theorem typeLines_cons (entry : Text × Text) (entries : List (Text × Text)) (s : Text) :
    typeLines (entry :: entries) ++ s =
      WitInterface.typeLine entry ++ '\n' :: (typeLines entries ++ s) := by
  unfold typeLines
  rw [List.flatMap_cons, List.append_assoc, List.append_assoc, List.cons_append, List.nil_append]

/-- Every declaration of the interface is expanded by itself. -/
theorem expandArrays_typeLines
    (h : ∀ entry ∈ entries, ArrayFree entry.1 ∧ PlainOrArray entry.2) (hs : Unclosed s) :
    expandArrays (typeLines entries ++ s) =
      typeLines (entries.map expandEntry) ++ expandArrays s := by
  induction entries with
  | nil => rfl
  | cons entry entries ih =>
      obtain ⟨⟨hkey, hvalue⟩, hrest⟩ := List.forall_mem_cons.mp h
      have hline := expandArrays_typeLine hkey hvalue (@unclosed_typeLines entries s hs)
      rw [typeLines_cons, hline, ih hrest, List.map_cons, typeLines_cons]

theorem expandArrays_interfaceText
    (h : ∀ entry ∈ entries, ArrayFree entry.1 ∧ PlainOrArray entry.2) (s : Text) :
    expandArrays (interfaceText entries ++ '\n' :: s) =
      interfaceText (entries.map expandEntry) ++ '\n' :: expandArrays s := by
  have hhead : ArrayFree "interface types \x7b".toList := ArrayFree.of_bracket_not_mem (by decide)
  have hend : ArrayFree "\x7d".toList := ArrayFree.of_bracket_not_mem (by decide)
  have hunclosed : Unclosed ("\x7d".toList ++ '\n' :: s) := by
    rintro ⟨⟩
  unfold interfaceText
  rw [List.append_assoc, List.cons_append, expandArrays_line hhead, List.append_assoc,
    expandArrays_typeLines h hunclosed, expandArrays_line hend]
  simp only [List.append_assoc, List.cons_append]

end Interface

section Declarations

variable {entry : Text × Text} {s rest content : Text} {groups : List Text}

/-- A declaration as `parse_type_file` finds it: a name without white space, and a value on one
line that begins with no white space. -/
structure ParsedEntry (entry : Text × Text) : Prop where
  key_ne_nil : entry.1 ≠ []
  key : ∀ c ∈ entry.1, isKeyChar c = true
  line : '\n' ∉ entry.2
  first : ∀ c, entry.2.head? = some c → isSpace c = false

/-- The group of the value. -/
def valueTail : Pattern := [.run 0 isLineChar true, .char ';']

theorem eq_of_valueTail (h : matchPrefix valueTail s = some (groups, rest)) :
    ∃ value, groups = [value] ∧ s = value ++ ';' :: rest ∧ ∀ c ∈ value, isLineChar c = true := by
  obtain ⟨value, t, groups', rfl, _, hvalue, htail, rfl⟩ := exists_of_matchPrefix_run h
  obtain ⟨u, rfl, hnil⟩ := exists_of_matchPrefix_char htail
  rw [matchPrefix_nil] at hnil
  cases hnil
  exact ⟨value, rfl, rfl, hvalue⟩

/-- The white space in front of a value is all taken before the value begins. -/
theorem head_of_blankTail
    (h : matchPrefix (.run 0 isSpace false :: valueTail) s = some (groups, rest)) :
    ∃ value, groups = [value] ∧ (∀ c ∈ value, isLineChar c = true) ∧
      ∀ c, value.head? = some c → isSpace c = false := by
  have hspace : ∀ c ∈ s.takeWhile isSpace ++ [], isSpace c = true := by
    rw [List.append_nil]
    exact fun c hc => List.mem_takeWhile_imp hc
  have hfull : matchPrefix valueTail (s.dropWhile isSpace) ≠ none := by
    obtain ⟨blanks, t, groups', rfl, _, hblanks, hmatch, _⟩ := exists_of_matchPrefix_run h
    obtain ⟨value, _, rfl, hvalue⟩ := eq_of_valueTail hmatch
    have hdrop : (blanks ++ (value ++ ';' :: rest)).dropWhile isSpace =
        value.dropWhile isSpace ++ ';' :: rest := by
      rw [List.dropWhile_append_of_pos hblanks, List.dropWhile_append]
      split
      · next hnil => rw [List.isEmpty_iff.mp hnil]; rfl
      · rfl
    rw [hdrop]
    have hmatches : Matches valueTail (value.dropWhile isSpace ++ ';' :: rest)
        [value.dropWhile isSpace] rest :=
      .run _ (Nat.zero_le _) (fun c hc => hvalue c ((List.dropWhile_suffix _).subset hc))
        (.char (.nil rest))
    exact hmatches.matchPrefix_ne_none
  obtain ⟨u, v, groups', rest', huv, hmatch, hrun⟩ := @matchPrefix_run_longest valueTail
    (s.dropWhile isSpace) (s.takeWhile isSpace) [] 0 isSpace false hspace (head_dropWhile s)
    (Nat.zero_le _) hfull
  obtain ⟨rfl, rfl⟩ := List.append_eq_nil_iff.mp huv.symm
  rw [List.append_nil, List.takeWhile_append_dropWhile, h] at hrun
  cases hrun
  obtain ⟨value, hgroups, hsplit, hvalue⟩ := eq_of_valueTail hmatch
  refine ⟨value, hgroups, hvalue, fun c hc => head_dropWhile s c ?_⟩
  rw [List.nil_append] at hsplit
  rw [hsplit, List.head?_append, hc, Option.some_or]

theorem parsedEntry_of_parseTypeFile (h : entry ∈ (parseTypeFile content).entries) :
    ParsedEntry entry := by
  have hpairs := Dict.mem_pairs_of_get?_ofList (Dict.get?_eq_some_iff.mpr h)
  obtain ⟨gs, hgs, hpair⟩ := List.mem_filterMap.mp hpairs
  obtain ⟨s, rest, hmatch⟩ := exists_of_mem_findall hgs
  obtain ⟨t, rfl, _⟩ := prefix_of_matchPrefix_lit (by rw [← prog, hmatch]; exact Option.some_ne_none _)
  rw [prog, matchPrefix_lit_append] at hmatch
  obtain ⟨key, _, _, rfl, hkey, hkeyChars, hblank, rfl⟩ := exists_of_matchPrefix_run hmatch
  obtain ⟨_, _, _, rfl, _, _, hequals, rfl⟩ := exists_of_matchPrefix_run hblank
  obtain ⟨_, rfl, hvaluePart⟩ := exists_of_matchPrefix_char hequals
  obtain ⟨value, rfl, hvalue, hfirst⟩ := head_of_blankTail hvaluePart
  obtain rfl : (key, value) = entry := Option.some.inj hpair
  refine ⟨List.length_pos_iff.mp hkey, hkeyChars, fun hmem => ?_, hfirst⟩
  exact isLineChar_iff.mp (hvalue _ hmem) rfl

end Declarations

section Names

variable {T : Templates} {entry : Text × Text} {old new c : Char} {s : Text}

theorem mem_of_mem_replaceChar (h : c ∈ replaceChar old new s) : c = new ∨ c ∈ s := by
  obtain ⟨d, hd, heq⟩ := List.mem_map.mp h
  split at heq
  · exact .inl heq.symm
  · exact .inr (heq ▸ hd)

theorem mem_of_mem_kebab (h : c ∈ kebab s) : c = '-' ∨ c ∈ s :=
  (mem_of_mem_replaceChar h).elim .inl fun h => (mem_of_mem_replaceChar h)

theorem head_of_replaceChar (h : (replaceChar old new s).head? = some c) :
    c = new ∨ s.head? = some c := by
  rw [replaceChar, List.head?_map] at h
  obtain ⟨d, hd, heq⟩ := Option.map_eq_some_iff.mp h
  split at heq
  · exact .inl heq.symm
  · exact .inr (heq ▸ hd)

/-- A value as it stands in the dictionaries: as parsed, or with a blank or `_` for each `-`. -/
def Respelled (v u : Text) : Prop := u = v ∨ ∃ ch, (ch = ' ' ∨ ch = '_') ∧ u = sub v ch

theorem respelled_complexValue (T : Templates) (v : Text) : Respelled v (complexValue T v) := by
  unfold complexValue
  split
  · exact .inr ⟨' ', .inl rfl, rfl⟩
  · exact .inr ⟨'_', .inr rfl, rfl⟩

theorem origin_of_combinedTypes (h : entry ∈ (combinedTypes T).entries) :
    ∃ origin ∈ T.primitives.entries ++ T.complex.entries, ∃ ch, (ch = ' ' ∨ ch = '_') ∧
      entry.1 = sub origin.1 ch ∧ Respelled origin.2 entry.2 := by
  obtain ⟨key, value⟩ := entry
  have hget := Dict.get?_eq_some_iff.mpr h
  rw [get?_combinedTypes, Option.or_eq_some_iff] at hget
  rcases hget with hget | ⟨_, hget⟩
  · obtain ⟨origin, horigin, heq⟩ := List.mem_map.mp (Dict.mem_pairs_of_get?_ofList hget)
    cases heq
    exact ⟨origin, List.mem_append_right _ horigin, '_', .inr rfl, rfl,
      respelled_complexValue T origin.2⟩
  · obtain ⟨origin, horigin, heq⟩ := List.mem_map.mp (Dict.mem_pairs_of_get?_ofList hget)
    cases heq
    exact ⟨origin, List.mem_append_left _ horigin, ' ', .inl rfl, rfl, .inl rfl⟩

theorem isKeyChar_kebab {k : Text} {ch : Char} (hch : ch = ' ' ∨ ch = '_')
    (hk : ∀ c ∈ k, isKeyChar c = true) : ∀ c ∈ kebab (sub k ch), isKeyChar c = true := by
  intro c hc
  rcases mem_of_mem_kebab hc with rfl | hsub
  · decide
  rcases mem_of_mem_replaceChar hsub with rfl | hmem
  · rcases hch with rfl | rfl
    · exact absurd hc (space_not_mem_kebab _)
    · exact absurd hc (score_not_mem_kebab _)
  · exact hk c hmem

theorem line_compValue {v u : Text} (hu : Respelled v u) (hv : '\n' ∉ v) :
    '\n' ∉ compValue u := by
  have hline : '\n' ∉ u := by
    rcases hu with rfl | ⟨ch, hch, rfl⟩
    · exact hv
    · intro h
      rcases mem_of_mem_replaceChar h with rfl | h
      · exact absurd hch (by decide)
      · exact hv h
  intro h
  unfold compValue at h
  split at h
  · exact (mem_of_mem_replaceChar h).elim (by decide) hline
  · rw [rep_eq_kebab] at h
    exact (mem_of_mem_kebab h).elim (by decide) hline

theorem first_compValue {v u : Text} (hu : Respelled v u)
    (hv : ∀ c, v.head? = some c → isSpace c = false) :
    ∀ c, (compValue u).head? = some c → isSpace c = false := by
  have hfirst : ∀ c, u.head? = some c → c = ' ' ∨ isSpace c = false := by
    intro c hc
    rcases hu with rfl | ⟨ch, hch, rfl⟩
    · exact .inr (hv c hc)
    · rcases head_of_replaceChar hc with rfl | hc
      · rcases hch with rfl | rfl
        · exact .inl rfl
        · exact .inr (by decide)
      · exact .inr (hv c hc)
  have hblank : ∀ c, c = '-' ∨ u.head? = some c → c ≠ ' ' → isSpace c = false := by
    rintro c (rfl | hc) hne
    · decide
    · exact (hfirst c hc).resolve_left hne
  intro c hc
  unfold compValue at hc
  split at hc
  · next harray =>
      refine hblank c (head_of_replaceChar hc) ?_
      rintro rfl
      obtain ⟨t, rfl⟩ := harray
      cases hc
  · rw [rep_eq_kebab] at hc
    have hspace : c ≠ ' ' := by
      rintro rfl
      exact space_not_mem_kebab u (List.mem_of_mem_head? hc)
    refine hblank c ?_ hspace
    rcases head_of_replaceChar hc with rfl | hc
    · exact .inl rfl
    · exact head_of_replaceChar hc

end Names

section ReadBack

variable {T : Templates} {entry : Text × Text} {entries : List (Text × Text)} {s line : Text}

theorem parsedEntry_compTypes
    (hT : ∀ origin ∈ T.primitives.entries ++ T.complex.entries, ParsedEntry origin)
    (h : entry ∈ (compTypes T).entries) : ParsedEntry entry := by
  rcases entry_of_compTypes h with rfl | ⟨origin, horigin, rfl⟩
  · exact ⟨by decide, by decide, by decide, by decide⟩
  obtain ⟨parsed, hparsed, ch, hch, hkey, hvalue⟩ := origin_of_combinedTypes horigin
  obtain ⟨hne, hkeyChars, hline, hfirst⟩ := hT parsed hparsed
  have hname : (compEntry origin).1 = kebab (sub parsed.1 ch) := by
    rw [compEntry, rep_eq_kebab, hkey]
  refine ⟨?_, ?_, line_compValue hvalue hline, first_compValue hvalue hfirst⟩
  · rwa [hname, ne_eq, kebab_eq_nil_iff, sub, replaceChar_eq_nil_iff]
  · rw [hname]
    exact isKeyChar_kebab hch hkeyChars

theorem parsedEntry_expandEntry (h : ParsedEntry entry) (hvalue : PlainOrArray entry.2) :
    ParsedEntry (expandEntry entry) := by
  obtain ⟨hne, hkey, hline, hfirst⟩ := h
  rcases hvalue with hvalue | ⟨num, elem, hnum, helem, hvalue⟩
  · have hsame : expandEntry entry = entry := by
      rw [expandEntry, expandArrays_of_arrayFree hvalue]
    rw [hsame]
    exact ⟨hne, hkey, hline, hfirst⟩
  · have htuple : (expandEntry entry).2 = tupleText (numeralValue num) elem := by
      rw [expandEntry, hvalue, expandArrays_of_closed hnum helem ⟨by simp, by simp⟩]
      exact List.append_nil _
    refine ⟨hne, hkey, ?_, ?_⟩
    · rw [htuple]
      refine not_mem_tupleText (by decide) _ fun hmem => ?_
      exact absurd (helem.not_isSpace _ hmem) (by decide)
    · rw [htuple]
      rintro c ⟨⟩
      decide

theorem findall_line (hline : ¬ "type ".toList <:+: line) (s : Text) :
    findall prog (line ++ '\n' :: s) = findall prog s := by
  have hcopied : findall prog (line ++ '\n' :: s) = findall prog ('\n' :: s) := by
    refine findall_append_of_none fun v hv _ => ?_
    by_contra hmatch
    obtain ⟨u, hu, _⟩ := prefix_of_matchPrefix_lit hmatch
    have hstarts : "type ".toList <+: v := prefix_of_prefix_append_cons (by decide) ⟨u, hu.symm⟩
    exact hline (hstarts.isInfix.trans hv.isInfix)
  rw [hcopied, findall_cons_of_ne (by decide)]

/-- A line of the interface is one match, also where the value holds a semicolon. -/
theorem findall_typeLine (h : ParsedEntry entry) (s : Text) :
    findall prog (WitInterface.typeLine entry ++ '\n' :: s) =
      [entry.1, entry.2] :: findall prog s := by
  obtain ⟨key, value⟩ := entry
  obtain ⟨hne, hkey, hline, hfirst⟩ := h
  have hvalue : matchPrefix valueTail (value ++ ';' :: '\n' :: s) = some ([value], '\n' :: s) :=
    matchPrefix_value hline (by rw [List.takeWhile_cons_of_neg (by decide)]; simp)
  have hvalueHead : ∀ c, (value ++ ';' :: '\n' :: s).head? = some c → isSpace c = false := by
    intro c hc
    cases value with
    | nil =>
        cases hc
        decide
    | cons d value => exact hfirst c hc
  have hmatch : matchPrefix prog (declText key " " " " value ++ '\n' :: s) =
      some ([key, value], '\n' :: s) := by
    have htext : declText key " " " " value ++ '\n' :: s =
        "type ".toList ++ (key ++ ([' '] ++ '=' :: ([' '] ++ (value ++ ';' :: '\n' :: s)))) := by
      simp [declText]
    have hblank : ∀ c ∈ [' '], isSpace c = true := by decide
    rw [htext, prog, matchPrefix_lit_append]
    refine matchPrefix_run hkey (by rintro c ⟨⟩; decide) (List.length_pos_iff.mpr hne) ?_
    refine matchPrefix_run hblank (by rintro c ⟨⟩; decide) (Nat.zero_le _) ?_
    rw [matchPrefix_char]
    exact matchPrefix_run hblank hvalueHead (Nat.zero_le _) hvalue
  have hline : WitInterface.typeLine (key, value) ++ '\n' :: s =
      '\t' :: (declText key " " " " value ++ '\n' :: s) := by
    rw [typeLine_append]
    simp [declText]
  have hdecl : declText key " " " " value ≠ [] := by simp [declText]
  rw [hline, findall_cons_of_ne (by decide), findall_match hdecl hmatch,
    findall_cons_of_ne (by decide)]

theorem findall_typeLines (h : ∀ entry ∈ entries, ParsedEntry entry) (s : Text) :
    (findall prog (typeLines entries ++ s)).filterMap pair? =
      entries ++ (findall prog s).filterMap pair? := by
  induction entries with
  | nil => rfl
  | cons entry entries ih =>
      obtain ⟨hentry, hrest⟩ := List.forall_mem_cons.mp h
      rw [typeLines_cons, findall_typeLine hentry, List.filterMap_cons, ih hrest]
      rfl

/-- The interface is a file that `parse_type_file` reads. -/
theorem parseTypeFile_interfaceText (h : ∀ entry ∈ entries, ParsedEntry entry)
    (hnodup : (entries.map Prod.fst).Nodup) :
    (parseTypeFile (interfaceText entries)).entries = entries := by
  have hhead : ¬ "type ".toList <:+: "interface types \x7b".toList := by decide +kernel
  have hbrace : "\x7d".toList = ['\x7d'] := rfl
  have hfound : (findall prog (interfaceText entries)).filterMap pair? = entries := by
    unfold interfaceText
    rw [findall_line hhead, findall_typeLines h, hbrace, findall_cons_of_ne (by decide),
      findall_nil, List.filterMap_nil, List.append_nil]
  rw [parseTypeFile, hfound, Dict.entries_ofList_of_nodup hnodup]

theorem arrayFree_witPreamble : ArrayFree (join "\n" witPreamble) := by
  refine ArrayFree.of_bracket_not_mem fun h => ?_
  rcases mem_of_mem_join h with h | ⟨line, hline, h⟩
  · exact absurd h (by decide)
  have hlines : ∀ line ∈ witPreamble, '[' ∉ line := by
    simp only [witPreamble, List.map_cons, List.map_nil, List.forall_mem_cons]
    and_intros
    all_goals first | exact not_mem_toList (by decide) | exact fun _ h => absurd h List.not_mem_nil
  exact hlines line hline h

/-- What `parse_type_file` would find in the `types` interface of the written `wali.wit`: the
names and values that the generator listed, with tuples for the arrays. Values may hold any
text on one line, as the type files may. -/
theorem types_interface_reads_back {primitives complex recordContent : Text}
    {rows : List (SyscallRow Cell)} {wit : WitInterface}
    (hwit : genWitStubs ⟨parseTypeFile primitives, parseTypeFile complex⟩ recordContent rows =
      returns wit)
    (htypes : ∀ entry ∈ wit.compTypes.entries, ArrayFree entry.1 ∧ PlainOrArray entry.2) :
    (∃ rest, witText (witTemplate.fill WitSlot.mark) wit =
      join "\n" witPreamble ++ '\n' ::
        (interfaceText (wit.compTypes.entries.map expandEntry) ++ '\n' :: rest)) ∧
      (parseTypeFile (interfaceText (wit.compTypes.entries.map expandEntry))).entries =
        wit.compTypes.entries.map expandEntry := by
  obtain ⟨_, _, hcomp, _⟩ := genWitStubs_eq_returns_iff.mp hwit
  constructor
  · have hfilled : ∃ behind, fillWit (witTemplate.fill WitSlot.mark) wit =
        join "\n" witPreamble ++ '\n' ::
          (interfaceText wit.compTypes.entries ++ '\n' :: behind) := by
      rw [fillWit_fill witTemplate_marked hwit, ← join_typeIf]
      exact ⟨_, rfl⟩
    obtain ⟨behind, hbehind⟩ := hfilled
    refine ⟨expandArrays behind, ?_⟩
    rw [witText, hbehind, expandArrays_line arrayFree_witPreamble,
      expandArrays_interfaceText htypes]
  · have hparsed : ∀ entry ∈ wit.compTypes.entries.map expandEntry, ParsedEntry entry := by
      intro entry hentry
      obtain ⟨origin, horigin, rfl⟩ := List.mem_map.mp hentry
      refine parsedEntry_expandEntry (parsedEntry_compTypes ?_ (hcomp ▸ horigin))
        (htypes origin horigin).2
      intro parsed hparsed
      rcases List.mem_append.mp hparsed with hparsed | hparsed
      · exact parsedEntry_of_parseTypeFile hparsed
      · exact parsedEntry_of_parseTypeFile hparsed
    have hkeys : (wit.compTypes.entries.map expandEntry).map Prod.fst =
        wit.compTypes.entries.map Prod.fst := by
      rw [List.map_map]
      rfl
    exact parseTypeFile_interfaceText hparsed (hkeys ▸ wit.compTypes.nodup)

def wordType : Text := "type int = s32;\n"

def fsidType : Text := "type fsid-t = Array[2, s32];\n"

def fsidTemplates : Templates := ⟨parseTypeFile wordType, parseTypeFile fsidType⟩

theorem compTypes_fsidTemplates : (compTypes fsidTemplates).entries =
    [(syscallResult, "s64".toList), ("int".toList, "s32".toList),
      ("fsid-t".toList, "Array[2, s32]".toList)] := by
  decide +kernel

theorem fsid_interface_reads_back :
    ∃ wit, genWitStubs fsidTemplates [] [oneArgRow "int"] = returns wit ∧
      (parseTypeFile (interfaceText (wit.compTypes.entries.map expandEntry))).entries =
        wit.compTypes.entries.map expandEntry := by
  refine ⟨_, rfl, (@types_interface_reads_back wordType fsidType [] [oneArgRow "int"] _ rfl ?_).2⟩
  intro entry hentry
  have hmem : entry ∈ (compTypes fsidTemplates).entries := hentry
  rw [compTypes_fsidTemplates] at hmem
  have hcases : entry = (syscallResult, "s64".toList) ∨ entry = ("int".toList, "s32".toList) ∨
      entry = ("fsid-t".toList, "Array[2, s32]".toList) := by simpa using hmem
  have hfree : ∀ s : Text, '[' ∉ s → ArrayFree s := fun _ => ArrayFree.of_bracket_not_mem
  rcases hcases with rfl | rfl | rfl
  · exact ⟨hfree _ (by decide), .inl (hfree _ (by decide))⟩
  · exact ⟨hfree _ (by decide), .inl (hfree _ (by decide))⟩
  · exact ⟨hfree _ (by decide), .inr ⟨"2", "s32", by decide, ⟨by decide, by decide⟩, rfl⟩⟩

end ReadBack

end Wali.TypesInterface
