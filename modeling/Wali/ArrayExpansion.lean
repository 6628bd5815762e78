import Wali.PythonText
import Wali.RegexMatching
import Wali.RunOutcome

/-!
The last step of `gen_wit_stubs`: arrays of fixed size are rewritten to tuples, since
WIT has no such arrays.
-/

namespace Wali.ArrayExpansion

open Wali.PythonText
open Wali.RegexMatching
open Wali.RunOutcome
open Wali.RunOutcome.Outcome

section Program

/-- `\d` -/
def isDecimal (c : Char) : Bool := (decimalDigit? c).isSome

/-- `\S` -/
def isNonSpace (c : Char) : Bool := !isSpace c

/-- The end of the pattern, behind the element type. -/
def closing : Pattern := [.run 0 isSpace false, .char ']']

/-- The pattern from the group of the element type on. -/
def elemTail : Pattern := .run 1 isNonSpace true :: closing

/-- The pattern behind `Array\[`. -/
def arrayTail : Pattern :=
  .run 0 isSpace false :: .run 1 isDecimal true :: .char ',' :: .run 0 isSpace false :: elemTail

/-- `Array\[\s*(\d+),\s*(\S+)\s*\]` -/
def arrayPattern : Pattern := lit "Array[".toList ++ arrayTail

def tupleText (n : Nat) (ty : Text) : Text :=
  "tuple<" ++ (join "," (List.replicate n ty) ++ ">")

/-- `"tuple<{}>".format(','.join([ty] * int(num_elem)))`; a text of decimal digits is
an `int`. -/
def matchrep : List Text → Text
  | [num_elem, ty] => tupleText ((parseInt num_elem).getD 0).toNat ty
  | _ => []

/-- `re.sub` over the filled template -/
def expandArrays (fillTemp : Text) : Text := subst arrayPattern matchrep fillTemp

/-- The exception of `[ty] * int(num_elem)`: a numeral that is too long for `int`, a count
that is no index of a list, or copies that do not fit in memory. -/
def repeatError (fits : Nat → Text → Bool) : List Text → Option PyErr
  | [num_elem, ty] =>
      if 4300 < num_elem.length then some .valueError
      else if maxsize < ((parseInt num_elem).getD 0).toNat then some .overflowError
      else if fits ((parseInt num_elem).getD 0).toNat ty then none
      else some .memoryError
  | _ => none

/-- `re.sub` with the exceptions of its function: the first array that cannot be repeated
ends it. -/
def subArrays (fits : Nat → Text → Bool) (fillTemp : Text) : Outcome PyErr Text :=
  match (findall arrayPattern fillTemp).findSome? (repeatError fits) with
  | some error => raises error
  | none => returns (expandArrays fillTemp)

/-- All arrays of the text can be repeated. -/
def ArraysFit (fits : Nat → Text → Bool) (fillTemp : Text) : Prop :=
  ∀ groups ∈ findall arrayPattern fillTemp, repeatError fits groups = none

theorem subArrays_eq_returns_iff {fits : Nat → Text → Bool} {fillTemp text : Text} :
    subArrays fits fillTemp = returns text ↔
      ArraysFit fits fillTemp ∧ text = expandArrays fillTemp := by
  rw [ArraysFit, ← List.findSome?_eq_none_iff, subArrays]
  split
  · next herror => simp [herror]
  · next hnone => simp [hnone, eq_comm]

theorem repeatError_of_subArrays {fits : Nat → Text → Bool} {fillTemp : Text} {error : PyErr}
    (h : subArrays fits fillTemp = raises error) :
    ∃ groups ∈ findall arrayPattern fillTemp, repeatError fits groups = some error := by
  unfold subArrays at h
  split at h
  · next herror =>
      cases h
      exact List.exists_of_findSome?_eq_some herror
  · cases h

theorem subArrays_ne_diverges (fits : Nat → Text → Bool) (fillTemp : Text) :
    subArrays fits fillTemp ≠ diverges := by
  unfold subArrays
  split <;> simp

end Program

section Documents

/-- A character of a type name. -/
def isTypeChar (c : Char) : Bool := !isSpace c && !"[],<>".toList.contains c

mutual

inductive TypeExpr
  | ident (name : Text)
  | generic (name : Text) (args : TypeArgs)
  | array (num : Text) (elem : TypeExpr)

inductive TypeArgs
  | last (arg : TypeExpr)
  | more (arg : TypeExpr) (blank : Bool) (args : TypeArgs)

end

def comma (blank : Bool) : Text := if blank then ", " else ","

mutual

/-- `name`, `name<arg, arg>` with or without the blanks, or `Array[num, elem]` -/
def TypeExpr.text : TypeExpr → Text
  | .ident name => name
  | .generic name args => name ++ '<' :: (args.text ++ ['>'])
  | .array num elem => "Array[" ++ (num ++ (", " ++ (elem.text ++ [']'])))

def TypeArgs.text : TypeArgs → Text
  | .last arg => arg.text
  | .more arg blank args => arg.text ++ (comma blank ++ args.text)

end

mutual

/-- The type with tuples for the arrays. -/
def TypeExpr.expanded : TypeExpr → Text
  | .ident name => name
  | .generic name args => name ++ '<' :: (args.expanded ++ ['>'])
  | .array num elem => tupleText (numeralValue num) elem.expanded

def TypeArgs.expanded : TypeArgs → Text
  | .last arg => arg.expanded
  | .more arg blank args => arg.expanded ++ (comma blank ++ args.expanded)

end

theorem TypeExpr.text_generic (name : Text) (args : TypeArgs) :
    (TypeExpr.generic name args).text = name ++ '<' :: (args.text ++ ['>']) := rfl

theorem TypeExpr.text_array (num : Text) (elem : TypeExpr) :
    (TypeExpr.array num elem).text = "Array[" ++ (num ++ (", " ++ (elem.text ++ [']']))) := rfl

theorem TypeArgs.text_more (arg : TypeExpr) (blank : Bool) (args : TypeArgs) :
    (TypeArgs.more arg blank args).text = arg.text ++ (comma blank ++ args.text) := rfl

theorem TypeExpr.expanded_generic (name : Text) (args : TypeArgs) :
    (TypeExpr.generic name args).expanded = name ++ '<' :: (args.expanded ++ ['>']) := rfl

theorem TypeArgs.expanded_more (arg : TypeExpr) (blank : Bool) (args : TypeArgs) :
    (TypeArgs.more arg blank args).expanded =
      arg.expanded ++ (comma blank ++ args.expanded) := rfl

def IsTypeName (name : Text) : Prop := name ≠ [] ∧ ∀ c ∈ name, isTypeChar c = true

mutual

def TypeExpr.WellFormed : TypeExpr → Prop
  | .ident name => IsTypeName name
  | .generic name args => IsTypeName name ∧ args.WellFormed
  | .array num elem => IsNumeral num ∧ elem.WellFormed

def TypeArgs.WellFormed : TypeArgs → Prop
  | .last arg => arg.WellFormed
  | .more arg _ args => arg.WellFormed ∧ args.WellFormed

end

/-- The text of an array in front of other text. -/
def arrayText (num ty rest : Text) : Text := "Array[" ++ (num ++ (", " ++ (ty ++ ']' :: rest)))

def ArrayFree (s : Text) : Prop := ¬ "Array[".toList <:+: s

/-- What may follow an array: no closing bracket before the next white space, and none
right behind that white space. -/
def Closed (s : Text) : Prop :=
  ']' ∉ s.takeWhile isNonSpace ∧
    ((s.dropWhile isNonSpace).dropWhile isSpace).head? ≠ some ']'

/-- Arrays `Array[num, elem]`, each with the text `lit` behind it. -/
inductive Arrays
  | none
  | more (num : Text) (elem : TypeExpr) (lit : Text) (rest : Arrays)

namespace Arrays

def source : Arrays → Text
  | .none => []
  | .more num elem lit rest => arrayText num elem.text (lit ++ rest.source)

def expanded : Arrays → Text
  | .none => []
  | .more num elem lit rest =>
      tupleText (numeralValue num) elem.expanded ++ (lit ++ rest.expanded)

def WellFormed : Arrays → Prop
  | .none => True
  | .more num elem lit rest =>
      IsNumeral num ∧ elem.WellFormed ∧ ArrayFree lit ∧ rest.WellFormed

/-- Every element type is written without white space. -/
def Unspaced : Arrays → Prop
  | .none => True
  | .more _ elem _ rest => (∀ c ∈ elem.text, isSpace c = false) ∧ rest.Unspaced

/-- Every bracket that closes an array is the one the pattern takes. -/
def Delimited : Arrays → Prop
  | .none => True
  | .more _ _ lit rest => Closed (lit ++ rest.source) ∧ rest.Delimited

end Arrays

/-- A text with arrays in it. -/
structure Doc where
  lead : Text
  arrays : Arrays

namespace Doc

variable (doc : Doc)

def source : Text := doc.lead ++ doc.arrays.source

def expanded : Text := doc.lead ++ doc.arrays.expanded

def WellFormed : Prop := ArrayFree doc.lead ∧ doc.arrays.WellFormed

/-- The arrays are expanded, nothing else is changed, and no array is left. -/
def Expands : Prop :=
  expandArrays doc.source = doc.expanded ∧ ArrayFree (expandArrays doc.source)

end Doc

end Documents

section Types

/-- Text that the group for the element type can take whole, up to the bracket behind
it. -/
def IsElem (s : Text) : Prop := s ≠ [] ∧ ∀ c ∈ s, isSpace c = false ∧ c ≠ ']'

/-- A blank stands in the text before any closing bracket, and neither white space nor a
closing bracket behind it. -/
def Spaced (s : Text) : Prop :=
  ∃ u c v, s = u ++ ' ' :: c :: v ∧ IsElem u ∧ isSpace c = false ∧ c ≠ ']'

/-- The two ways to write a type. -/
def Written (text expanded : Text) : Prop := IsElem text ∧ expanded = text ∨ Spaced text

variable {s t expanded : Text}

theorem IsElem.append (hs : IsElem s) (ht : ∀ c ∈ t, isSpace c = false ∧ c ≠ ']') :
    IsElem (s ++ t) :=
  ⟨by simp [hs.1], fun c hc => (List.mem_append.mp hc).elim (hs.2 c) (ht c)⟩

theorem Spaced.append (hs : Spaced s) (t : Text) : Spaced (s ++ t) := by
  obtain ⟨u, c, v, rfl, hu, hc⟩ := hs
  exact ⟨u, c, v ++ t, by simp, hu, hc⟩

theorem IsElem.append_spaced (hs : IsElem s) (ht : Spaced t) : Spaced (s ++ t) := by
  obtain ⟨u, c, v, rfl, hu, hc⟩ := ht
  exact ⟨s ++ u, c, v, by simp, hs.append hu.2, hc⟩

theorem Written.head (h : Written s expanded) :
    ∃ c v, s = c :: v ∧ isSpace c = false ∧ c ≠ ']' := by
  have helem : ∀ u, IsElem u → ∀ v, ∃ c v', u ++ v = c :: v' ∧ isSpace c = false ∧ c ≠ ']' := by
    intro u hu v
    obtain ⟨c, u, rfl⟩ := List.exists_cons_of_ne_nil hu.1
    exact ⟨c, u ++ v, rfl, hu.2 c (by simp)⟩
  rcases h with ⟨hs, _⟩ | ⟨u, c, v, rfl, hu, _⟩
  · simpa using helem s hs []
  · exact helem u hu _

theorem IsElem.append_blank (hs : IsElem s) (ht : Written t expanded) :
    Spaced (s ++ ' ' :: t) := by
  obtain ⟨c, v, rfl, hc⟩ := ht.head
  exact ⟨s, c, v, rfl, hs, hc⟩

theorem IsTypeName.isElem {name : Text} (h : IsTypeName name) : IsElem name := by
  refine ⟨h.1, fun c hc => ?_⟩
  have htype := h.2 c hc
  simp only [isTypeChar, Bool.and_eq_true, Bool.not_eq_true'] at htype
  refine ⟨htype.1, ?_⟩
  rintro rfl
  exact absurd htype.2 (by decide)

theorem isElem_numeral {num : Text} (h : IsNumeral num) : IsElem num := by
  refine ⟨h.1, fun c hc => ⟨isSpace_of_isDigit (h.2 c hc), ?_⟩⟩
  rintro rfl
  exact absurd (h.2 _ hc) (by decide)

mutual

/-- A type is written without white space and then holds no array, or with a blank
behind its first part. -/
theorem TypeExpr.written : ∀ ty : TypeExpr, ty.WellFormed → Written ty.text ty.expanded
  | .ident name, h => .inl ⟨IsTypeName.isElem h, rfl⟩
  | .generic name args, h => by
      have hname : IsElem (name ++ ['<']) := h.1.isElem.append (by decide)
      have htext : name ++ '<' :: (args.text ++ ['>']) =
          (name ++ ['<']) ++ (args.text ++ ['>']) := by simp
      rw [TypeExpr.text_generic, TypeExpr.expanded_generic, htext]
      rcases TypeArgs.written args h.2 with ⟨hargs, hexpanded⟩ | hargs
      · refine .inl ⟨?_, by simp [hexpanded]⟩
        exact hname.append (hargs.append (by decide)).2
      · exact .inr (hname.append_spaced (hargs.append _))
  | .array num elem, h => by
      have harray : IsElem "Array[" := ⟨by decide, by decide⟩
      have hnum : IsElem ("Array[" ++ num ++ [',']) :=
        (harray.append (isElem_numeral h.1).2).append (by decide)
      have htext : "Array[" ++ (num ++ (", " ++ (elem.text ++ [']']))) =
          ("Array[" ++ num ++ [',']) ++ ' ' :: elem.text ++ [']'] := by
        have hcomma : (", " : Text) = [',', ' '] := rfl
        rw [hcomma]
        simp only [List.append_assoc, List.cons_append, List.nil_append]
      rw [TypeExpr.text_array, htext]
      exact .inr ((hnum.append_blank (TypeExpr.written elem h.2)).append _)

theorem TypeArgs.written : ∀ args : TypeArgs, args.WellFormed → Written args.text args.expanded
  | .last arg, h => TypeExpr.written arg h
  | .more arg blank args, h => by
      have hargs := TypeArgs.written args h.2
      rw [TypeArgs.text_more, TypeArgs.expanded_more]
      rcases TypeExpr.written arg h.1 with ⟨harg, hexpanded⟩ | harg
      · have hcomma : IsElem (arg.text ++ [',']) := harg.append (by decide)
        cases blank with
        | true =>
            have htext : arg.text ++ (comma true ++ args.text) =
                (arg.text ++ [',']) ++ ' ' :: args.text := by simp [comma]
            rw [htext]
            exact .inr (hcomma.append_blank hargs)
        | false =>
            have htext (s t : Text) : s ++ (comma false ++ t) = (s ++ [',']) ++ t := by
              simp [comma]
            rw [htext, htext, hexpanded]
            rcases hargs with ⟨hargs, hargsExpanded⟩ | hargs
            · exact .inl ⟨hcomma.append hargs.2, by rw [hargsExpanded]⟩
            · exact .inr (hcomma.append_spaced hargs)
      · exact .inr (harg.append _)

end

theorem not_mem_tupleText {c : Char} (hc : c ∉ "tuple<,>".toList) (n : Nat) (h : c ∉ s) :
    c ∉ tupleText n s := by
  have hjoin : c ∉ join "," (List.replicate n s) := by
    intro hmem
    rcases mem_of_mem_join hmem with hcomma | ⟨part, hpart, hmem⟩
    · obtain rfl : c = ',' := by simpa using hcomma
      exact hc (by decide)
    · exact h (List.eq_of_mem_replicate hpart ▸ hmem)
  have hends : c ∉ "tuple<".toList ∧ c ∉ ">".toList := by
    constructor
    · exact fun hmem => hc (List.mem_append_left ",>".toList hmem)
    · exact fun hmem => hc (List.mem_append_right "tuple<,".toList hmem)
  unfold tupleText
  rw [List.mem_append, List.mem_append, not_or, not_or]
  exact ⟨hends.1, hjoin, hends.2⟩

theorem IsTypeName.not_mem {name : Text} (h : IsTypeName name) {c : Char}
    (hc : isTypeChar c = false) : c ∉ name := by
  intro hmem
  rw [h.2 c hmem] at hc
  cases hc

mutual

theorem TypeExpr.bracket_not_mem_expanded :
    ∀ ty : TypeExpr, ty.WellFormed → '[' ∉ ty.expanded
  | .ident name, h => IsTypeName.not_mem h (by decide)
  | .generic name args, h => by
      have hname : '[' ∉ name := h.1.not_mem (by decide)
      have hargs := TypeArgs.bracket_not_mem_expanded args h.2
      rw [TypeExpr.expanded_generic]
      simp [hname, hargs]
  | .array num elem, h =>
      not_mem_tupleText (by decide) _ (TypeExpr.bracket_not_mem_expanded elem h.2)

theorem TypeArgs.bracket_not_mem_expanded :
    ∀ args : TypeArgs, args.WellFormed → '[' ∉ args.expanded
  | .last arg, h => TypeExpr.bracket_not_mem_expanded arg h
  | .more arg blank args, h => by
      have hcomma : '[' ∉ comma blank := by cases blank <;> decide
      have harg := TypeExpr.bracket_not_mem_expanded arg h.1
      have hargs := TypeArgs.bracket_not_mem_expanded args h.2
      rw [TypeArgs.expanded_more]
      simp [hcomma, harg, hargs]

end

theorem Written.isElem {s expanded : Text} (h : Written s expanded)
    (hs : ∀ c ∈ s, isSpace c = false) : IsElem s ∧ expanded = s := by
  rcases h with h | ⟨u, c, v, rfl, _⟩
  · exact h
  · exact absurd (hs ' ' (by simp)) (by decide)

theorem IsElem.not_isSpace (hty : IsElem ty) : ∀ c ∈ ty, isSpace c = false :=
  fun c hc => (hty.2 c hc).1

end Types

section Free

variable {s t lit : Text} {arrays : Arrays}

theorem infix_of_append_cons {p a b : Text} {c : Char} (hc : c ∉ p) (h : p <:+: a ++ c :: b) :
    p <:+: a ∨ p <:+: b := by
  obtain ⟨u, v, huv⟩ := h
  rcases List.append_eq_append_iff.mp huv with ⟨w, rfl, _⟩ | ⟨w, hw, htail⟩
  · exact .inl ⟨u, w, rfl⟩
  cases w with
  | nil => exact .inl ⟨u, [], by simpa using hw⟩
  | cons d w =>
      obtain ⟨rfl, rfl⟩ := List.cons.inj htail
      rcases List.append_eq_append_iff.mp hw with ⟨x, _, rfl⟩ | ⟨x, _, hx⟩
      · simp at hc
      cases x with
      | nil =>
          obtain rfl : c :: w = p := by simpa using hx
          simp at hc
      | cons e x =>
          obtain ⟨rfl, rfl⟩ := List.cons.inj hx
          exact .inr ⟨x, v, by simp⟩

theorem tupleText_eq (n : Nat) (ty : Text) :
    tupleText n ty = 't' :: ("uple<".toList ++ join "," (List.replicate n ty)) ++ ['>'] := by
  unfold tupleText
  rw [← List.append_assoc]
  rfl

theorem ArrayFree.of_append (h : ArrayFree (s ++ t)) : ArrayFree t :=
  fun hinside => h (hinside.trans (List.suffix_append s t).isInfix)

theorem ArrayFree.of_bracket_not_mem (h : '[' ∉ s) : ArrayFree s :=
  fun hinside => h (hinside.subset (by decide))

theorem ArrayFree.append_tupleText {n : Nat} {ty : Text} (hs : ArrayFree s) (hty : '[' ∉ ty)
    (ht : ArrayFree t) : ArrayFree (s ++ (tupleText n ty ++ t)) := by
  have hbracket := not_mem_tupleText (by decide) n hty
  intro hinside
  rw [tupleText_eq] at hbracket hinside
  rw [List.append_assoc] at hinside
  rcases infix_of_append_cons (by decide) hinside with h | h
  · exact hs h
  rcases infix_of_append_cons (by decide) h with h | h
  · refine ArrayFree.of_bracket_not_mem ?_ h
    simp only [List.cons_append, List.mem_cons, List.mem_append] at hbracket ⊢
    tauto
  · exact ht h

theorem Arrays.arrayFree_expanded (harrays : arrays.WellFormed) (hlit : ArrayFree lit) :
    ArrayFree (lit ++ arrays.expanded) := by
  induction arrays generalizing lit with
  | none => simpa [Arrays.expanded] using hlit
  | more num elem lit' rest ih =>
      obtain ⟨_, helem, hlit', hrest⟩ := harrays
      exact hlit.append_tupleText (elem.bracket_not_mem_expanded helem) (ih hrest hlit')

end Free

end Wali.ArrayExpansion
