import Wali.WitStubs

/-!
The record declarations of a WIT text, and what the scan of `gen_wit_stubs` for
`record (\S+)` finds of them.
-/

namespace Wali.RecordDeclarations

open Wali.PythonText
open Wali.WitStubs

def isWitSpace (c : Char) : Bool := c = ' ' || c = '\t' || c = '\n' || c = '\r'

def isNameChar (c : Char) : Bool := c.isAlphanum || c = '-' || c = '%'

/-- Where a reader of a WIT text stands: in the code, behind a name or not, behind
a slash, or in a comment; block comments nest. -/
inductive Place
  | code
  | name
  | slash
  | line
  | block (depth : Nat)
  | blockSlash (depth : Nat)
  | blockStar (depth : Nat)
  deriving DecidableEq

namespace Place

def codeNext (c : Char) : Place :=
  if c = '/' then slash else if isNameChar c then name else code

def next : Place → Char → Place
  | code, c => codeNext c
  | name, c => codeNext c
  | slash, c => if c = '/' then line else if c = '*' then block 0 else codeNext c
  | line, c => if c = '\n' then code else line
  | block d, c => if c = '/' then blockSlash d else if c = '*' then blockStar d else block d
  | blockSlash d, c =>
      if c = '*' then block (d + 1) else if c = '/' then blockSlash d else block d
  | blockStar d, c =>
      if c = '/' then (match d with | 0 => code | d + 1 => block d)
      else if c = '*' then blockStar d else block d

end Place

/-- The name in `record name {`. -/
def declaredName? (s : Text) : Option Text :=
  let rest := (s.drop 6).dropWhile isWitSpace
  if startsWith "record" s ∧ rest ≠ s.drop 6 ∧ rest.takeWhile isNameChar ≠ [] ∧
      startsWith "\x7b" ((rest.dropWhile isNameChar).dropWhile isWitSpace) then
    some (rest.takeWhile isNameChar)
  else none

def declaredFrom (place : Place) : Text → List Text
  | [] => []
  | c :: cs =>
      (if place = .code then declaredName? (c :: cs) else none).toList ++
        declaredFrom (place.next c) cs

/-- The records that a WIT text declares, in order. -/
def declaredRecords (content : Text) : List Text := declaredFrom .code content

def onlyDeclarationsFrom (place : Place) : Text → Prop
  | [] => True
  | c :: cs =>
      (startsWith "record " (c :: cs) → place = .code ∧
        declaredName? (c :: cs) = some (((c :: cs).drop 7).takeWhile (!isSpace ·))) ∧
      onlyDeclarationsFrom (place.next c) cs

instance decidableOnlyDeclarationsFrom (place : Place) (s : Text) :
    Decidable (onlyDeclarationsFrom place s) :=
  match s with
  | [] => isTrue trivial
  | c :: cs =>
      have := decidableOnlyDeclarationsFrom (place.next c) cs
      inferInstanceAs (Decidable (_ ∧ _))

/-- Wherever the text `record ` occurs, a declaration begins, and its name is
followed by white space. -/
def OnlyDeclarations (content : Text) : Prop := onlyDeclarationsFrom .code content

instance (content : Text) : Decidable (OnlyDeclarations content) :=
  inferInstanceAs (Decidable (onlyDeclarationsFrom .code content))

def indent (s : Text) : Text := s.flatMap fun c => if c = '\n' then ['\n', '\t'] else [c]

variable {s : Text} {c : Char}

theorem mem_declaredFrom_of_mem_findRecords {skip : Nat} {place : Place} {name : Text}
    (honly : onlyDeclarationsFrom place s) (h : name ∈ findRecords skip s) :
    name ∈ declaredFrom place s := by
  induction s generalizing skip place with
  | nil => cases skip <;> simp [findRecords] at h
  | cons c cs ih =>
      obtain ⟨hhere, hrest⟩ := honly
      rw [declaredFrom, List.mem_append]
      cases skip with
      | succ skip => exact .inr (ih hrest h)
      | zero =>
          rw [findRecords, recordName?] at h
          by_cases hmatch : startsWith "record " (c :: cs) ∧
              ((c :: cs).drop 7).takeWhile (!isSpace ·) ≠ []
          · rw [if_pos hmatch] at h
            rcases List.mem_cons.mp h with rfl | htail
            · obtain ⟨hplace, hname⟩ := hhere hmatch.1
              refine .inl ?_
              rw [if_pos hplace, hname]
              simp
            · exact .inr (ih hrest htail)
          · rw [if_neg hmatch] at h
            exact .inr (ih hrest h)

/-- On such texts the scan finds declared records only. -/
theorem mem_declaredRecords_of_mem_recordTypes {content name : Text}
    (honly : OnlyDeclarations content) (h : name ∈ recordTypes content) :
    name ∈ declaredRecords content :=
  mem_declaredFrom_of_mem_findRecords honly h

section Indentation

theorem indent_cons (hc : c ≠ '\n') : indent (c :: s) = c :: indent s := by
  simp [indent, hc]

theorem indent_newline : indent ('\n' :: s) = '\n' :: '\t' :: indent s := by
  simp [indent]

theorem indent_append (u : Text) : indent (u ++ s) = indent u ++ indent s :=
  List.flatMap_append

theorem dropWhile_isWitSpace_indent :
    (indent s).dropWhile isWitSpace = indent (s.dropWhile isWitSpace) := by
  induction s with
  | nil => rfl
  | cons c s ih =>
      by_cases hc : c = '\n'
      · subst hc
        rw [indent_newline]
        simpa [List.dropWhile_cons, isWitSpace] using ih
      · rw [indent_cons hc, List.dropWhile_cons, List.dropWhile_cons]
        split
        · exact ih
        · rw [indent_cons hc]

theorem isNameChar_newline : isNameChar '\n' = false := by decide

theorem takeWhile_isNameChar_indent :
    (indent s).takeWhile isNameChar = s.takeWhile isNameChar := by
  induction s with
  | nil => rfl
  | cons c s ih =>
      by_cases hc : c = '\n'
      · subst hc
        simp [indent_newline, isNameChar_newline]
      · rw [indent_cons hc, List.takeWhile_cons, List.takeWhile_cons, ih]

theorem dropWhile_isNameChar_indent :
    (indent s).dropWhile isNameChar = indent (s.dropWhile isNameChar) := by
  induction s with
  | nil => rfl
  | cons c s ih =>
      by_cases hc : c = '\n'
      · subst hc
        simp [indent_newline, isNameChar_newline]
      · rw [indent_cons hc, List.dropWhile_cons, List.dropWhile_cons]
        split
        · exact ih
        · rw [indent_cons hc]

theorem startsWith_indent_iff {pre : Text} (hpre : '\n' ∉ pre) :
    startsWith pre (indent s) ↔ startsWith pre s := by
  induction pre generalizing s with
  | nil => simp [startsWith]
  | cons p pre ih =>
      obtain ⟨hp, hpre⟩ := not_or.mp (List.mem_cons.not.mp hpre)
      cases s with
      | nil => simp [startsWith, indent]
      | cons c s =>
          by_cases hc : c = '\n'
          · subst hc
            simp [startsWith, indent_newline, Ne.symm hp]
          · rw [indent_cons hc]
            simp only [startsWith, List.cons_prefix_cons]
            exact and_congr_right fun _ => ih hpre

theorem indent_injective {t : Text} (h : indent s = indent t) : s = t := by
  induction s generalizing t with
  | nil =>
      cases t with
      | nil => rfl
      | cons d t => by_cases hd : d = '\n' <;> simp [indent, hd] at h
  | cons c s ih =>
      cases t with
      | nil => by_cases hc : c = '\n' <;> simp [indent, hc] at h
      | cons d t =>
          by_cases hc : c = '\n' <;> by_cases hd : d = '\n'
          · subst hc hd
            simp only [indent_newline, List.cons.injEq, true_and] at h
            rw [ih h]
          · subst hc
            rw [indent_newline, indent_cons hd] at h
            exact absurd (List.cons.inj h).1.symm hd
          · subst hd
            rw [indent_newline, indent_cons hc] at h
            exact absurd (List.cons.inj h).1 hc
          · rw [indent_cons hc, indent_cons hd] at h
            obtain ⟨rfl, hrest⟩ := List.cons.inj h
            rw [ih hrest]

theorem declaredName?_of_not_startsWith (h : ¬ startsWith "record" s) :
    declaredName? s = none :=
  if_neg fun hname => h hname.1

theorem declaredName?_indent : declaredName? (indent s) = declaredName? s := by
  by_cases hrecord : startsWith "record" s
  · obtain ⟨rest, rfl⟩ := hrecord
    have hword : indent "record".toList = "record".toList := by decide
    have hdrop : ("record".toList ++ indent rest).drop 6 = indent rest := rfl
    have hdrop' : ("record".toList ++ rest).drop 6 = rest := rfl
    have hspace : indent (rest.dropWhile isWitSpace) ≠ indent rest ↔
        rest.dropWhile isWitSpace ≠ rest :=
      not_congr ⟨indent_injective, congrArg indent⟩
    have hprefix : ∀ t, startsWith "record" ("record".toList ++ t) := fun t => ⟨t, rfl⟩
    unfold declaredName?
    rw [indent_append, hword]
    simp only [hdrop, hdrop', dropWhile_isWitSpace_indent, takeWhile_isNameChar_indent,
      dropWhile_isNameChar_indent, hspace, hprefix, true_and,
      startsWith_indent_iff (by decide : '\n' ∉ "\x7b".toList)]
  · have hindent : ¬ startsWith "record" (indent s) :=
      (startsWith_indent_iff (by decide)).not.mpr hrecord
    rw [declaredName?_of_not_startsWith hindent, declaredName?_of_not_startsWith hrecord]

theorem Place.next_newline_tab (place : Place) :
    (place.next '\n').next '\t' = place.next '\n' := by
  cases place <;> rfl

theorem declaredName?_of_ne (hc : c ≠ 'r') : declaredName? (c :: s) = none := by
  refine declaredName?_of_not_startsWith ?_
  rintro ⟨rest, heq⟩
  exact hc (List.cons.inj heq).1.symm

theorem declaredFrom_of_ne (place : Place) (hc : c ≠ 'r') :
    declaredFrom place (c :: s) = declaredFrom (place.next c) s := by
  simp [declaredFrom, declaredName?_of_ne hc]

theorem declaredFrom_indent (place : Place) :
    declaredFrom place (indent s) = declaredFrom place s := by
  induction s generalizing place with
  | nil => rfl
  | cons c s ih =>
      by_cases hc : c = '\n'
      · subst hc
        rw [indent_newline, declaredFrom_of_ne _ (by decide), declaredFrom_of_ne _ (by decide),
          declaredFrom_of_ne _ (by decide), Place.next_newline_tab, ih]
      · have hname := @declaredName?_indent (c :: s)
        rw [indent_cons hc] at hname ⊢
        rw [declaredFrom, declaredFrom, hname, ih]

/-- The indented lines of the interface declare the records of the template. -/
theorem declaredRecords_recordLines (wit : WitInterface) :
    declaredRecords wit.recordLines = declaredRecords wit.recordContent := by
  change declaredFrom .code ('\t' :: indent wit.recordContent) = _
  rw [declaredFrom_of_ne _ (by decide), declaredFrom_indent]
  rfl

end Indentation

end Wali.RecordDeclarations
