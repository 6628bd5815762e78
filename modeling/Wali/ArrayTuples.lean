import Wali.ArrayMatching

/-!
When the arrays of a text are all rewritten to tuples.
-/

namespace Wali.ArrayTuples

open Wali.ArrayExpansion
open Wali.ArrayMatching
open Wali.PythonText
open Wali.RegexMatching

section Substitution

variable {ty num lit rest : Text} {arrays : Arrays}

theorem expandArrays_lit (hlit : ArrayFree lit) (arrays : Arrays) :
    expandArrays (lit ++ arrays.source) = lit ++ expandArrays arrays.source :=
  subst_append_of_none fun _ hv hne => matchPrefix_of_arrayFree hlit (head_source arrays) hv hne

theorem matchrep_of_isNumeral (hnum : IsNumeral num) (ty : Text) :
    matchrep [num, ty] = tupleText (numeralValue num) ty := by
  rw [matchrep, parseInt_of_isNumeral hnum]
  rfl

/-- The group `ty'` of a match that ends behind the text `taken`. -/
theorem expandArrays_arrayText (hnum : IsNumeral num) (hty : IsElem ty) {ty' taken : Text}
    (helem : matchPrefix elemTail (ty ++ ']' :: (taken ++ rest)) = some ([ty'], rest)) :
    expandArrays (arrayText num ty (taken ++ rest)) =
      tupleText (numeralValue num) ty' ++ expandArrays rest := by
  have htext : arrayText num ty (taken ++ rest) =
      ("Array[" ++ (num ++ (", " ++ (ty ++ ']' :: taken)))) ++ rest := by
    unfold arrayText
    simp only [List.append_assoc, List.cons_append]
  have hne : ("Array[" ++ (num ++ (", " ++ (ty ++ ']' :: taken))) : Text) ≠ [] :=
    List.cons_ne_nil 'A' _
  have hmatch : matchPrefix arrayPattern (arrayText num ty (taken ++ rest)) =
      some ([num, ty'], rest) := by
    rw [matchPrefix_arrayText hnum (.inl ⟨hty, rfl⟩ : Written ty ty), helem]
    rfl
  rw [htext] at hmatch ⊢
  rw [expandArrays, subst_match hne hmatch, matchrep_of_isNumeral hnum]
  rfl

theorem expandArrays_of_closed (hnum : IsNumeral num) (hty : IsElem ty) (hrest : Closed rest) :
    expandArrays (arrayText num ty rest) =
      tupleText (numeralValue num) ty ++ expandArrays rest :=
  @expandArrays_arrayText ty num rest hnum hty ty []
    (elemTail_of_closed hty.1 hty.not_isSpace hrest)

/-- Without a match at the array its text up to the bracket is copied. -/
theorem expandArrays_of_spaced (hnum : IsNumeral num) (hty : Spaced ty) (rest : Text) :
    ∃ out, expandArrays (arrayText num ty rest) = "Array[" ++ out := by
  have hmatch : matchPrefix arrayPattern (arrayText num ty rest) = none := by
    rw [matchPrefix_arrayText hnum (.inr hty : Written ty ty), elemTail_of_spaced hty]
    rfl
  refine ⟨_, subst_append_of_none ?_⟩
  intro v hv hne
  rcases List.suffix_cons_iff.mp hv with rfl | hv
  · exact hmatch
  · obtain ⟨c, v, rfl⟩ := List.exists_cons_of_ne_nil hne
    have hc : c ≠ 'A' := by
      rintro rfl
      have hmem : 'A' ∈ "rray[".toList := hv.subset (by simp)
      exact absurd hmem (by decide)
    exact matchPrefix_of_ne hc _

theorem expandArrays_of_not_closed (hnum : IsNumeral num) (hty : IsElem ty)
    (harrays : arrays.WellFormed) (hlit : ArrayFree lit)
    (hrest : ¬ Closed (lit ++ arrays.source)) :
    ∃ ty' y z, lit = y ++ ']' :: z ∧ ArrayFree z ∧
      expandArrays (arrayText num ty (lit ++ arrays.source)) =
        tupleText (numeralValue num) ty' ++ (z ++ expandArrays arrays.source) := by
  obtain ⟨x, blanks, rest, hsplit, hx, hblanks, helem⟩ :=
    elemTail_of_not_closed hty.not_isSpace hrest
  obtain ⟨z, rfl, rfl⟩ := exists_lit_of_bracket harrays hx hblanks hsplit
  have hz : ArrayFree z := fun hinside => hlit (hinside.trans ⟨x ++ (blanks ++ [']']), [], by simp⟩)
  refine ⟨ty ++ ']' :: x, x ++ blanks, z, by simp, hz, ?_⟩
  have htaken : x ++ (blanks ++ ']' :: z) ++ arrays.source =
      (x ++ (blanks ++ [']'])) ++ (z ++ arrays.source) := by simp
  rw [htaken] at helem ⊢
  rw [expandArrays_arrayText hnum hty helem, expandArrays_lit hz]

end Substitution

section Expansion

variable {num lit : Text} {elem : TypeExpr} {arrays rest : Arrays} {doc : Doc}

/-- The arrays behind an array are rewritten as they are without it, whichever bracket
the match takes for it. -/
theorem exists_expandArrays_more (h : (Arrays.more num elem lit rest).WellFormed)
    (helem : IsElem elem.text) :
    ∃ out, expandArrays (Arrays.more num elem lit rest).source =
      out ++ expandArrays rest.source := by
  obtain ⟨hnum, _, hlit, hrest⟩ := h
  by_cases hclosed : Closed (lit ++ rest.source)
  · refine ⟨tupleText (numeralValue num) elem.text ++ lit, ?_⟩
    rw [Arrays.source, expandArrays_of_closed hnum helem hclosed, expandArrays_lit hlit,
      List.append_assoc]
  · obtain ⟨ty, _, z, _, _, hexpand⟩ :=
      expandArrays_of_not_closed hnum helem hrest hlit hclosed
    refine ⟨tupleText (numeralValue num) ty ++ z, ?_⟩
    rw [Arrays.source, hexpand, List.append_assoc]

theorem expandArrays_source (harrays : arrays.WellFormed) (hunspaced : arrays.Unspaced)
    (hdelimited : arrays.Delimited) : expandArrays arrays.source = arrays.expanded := by
  induction arrays with
  | none => rfl
  | more num elem lit rest ih =>
      obtain ⟨hnum, helem, hlit, hrest⟩ := harrays
      obtain ⟨hisElem, hexpanded⟩ := (elem.written helem).isElem hunspaced.1
      rw [Arrays.source, expandArrays_of_closed hnum hisElem hdelimited.1, expandArrays_lit hlit,
        ih hrest hunspaced.2 hdelimited.2, Arrays.expanded, hexpanded]

theorem unspaced_of_arrayFree (harrays : arrays.WellFormed)
    (hfree : ArrayFree (expandArrays arrays.source)) : arrays.Unspaced := by
  induction arrays with
  | none => trivial
  | more num elem lit rest ih =>
      rcases elem.written harrays.2.1 with ⟨helem, _⟩ | hspaced
      · obtain ⟨out, hout⟩ := exists_expandArrays_more harrays helem
        rw [hout] at hfree
        exact ⟨helem.not_isSpace, ih harrays.2.2.2 hfree.of_append⟩
      · obtain ⟨out, hout⟩ := expandArrays_of_spaced harrays.1 hspaced (lit ++ rest.source)
        rw [Arrays.source, hout] at hfree
        exact absurd (List.prefix_append _ out).isInfix hfree

/-- Behind a bracket taken from the text after an array the output is right again, but
a tuple ends where the bracket should stand. -/
theorem exists_of_not_delimited (harrays : arrays.WellFormed)
    (hunspaced : arrays.Unspaced) (hdelimited : ¬ arrays.Delimited) :
    ∃ x y z, expandArrays arrays.source = x ++ '>' :: z ∧ arrays.expanded = y ++ ']' :: z := by
  induction arrays with
  | none => exact absurd trivial hdelimited
  | more num elem lit rest ih =>
      obtain ⟨hnum, helem, hlit, hrest⟩ := id harrays
      have hisElem := ((elem.written helem).isElem hunspaced.1).1
      by_cases hrestDelimited : rest.Delimited
      · have hclosed : ¬ Closed (lit ++ rest.source) := fun h => hdelimited ⟨h, hrestDelimited⟩
        obtain ⟨ty, y, z, rfl, _, hexpand⟩ :=
          expandArrays_of_not_closed hnum hisElem hrest hlit hclosed
        rw [Arrays.source, hexpand,
          expandArrays_source hrest hunspaced.2 hrestDelimited, Arrays.expanded]
        obtain ⟨x, hx⟩ : ∃ x, tupleText (numeralValue num) ty = x ++ ['>'] :=
          ⟨_, tupleText_eq _ ty⟩
        exact ⟨x, tupleText (numeralValue num) elem.expanded ++ y, z ++ rest.expanded,
          by simp [hx], by simp⟩
      · obtain ⟨x, y, z, hx, hy⟩ := ih hrest hunspaced.2 hrestDelimited
        obtain ⟨out, hout⟩ := exists_expandArrays_more harrays hisElem
        rw [hout, hx, Arrays.expanded, hy]
        exact ⟨out ++ x, tupleText (numeralValue num) elem.expanded ++ (lit ++ y), z, by simp,
          by simp⟩

/-- Arrays are expanded exactly if no element type is written with white space, and no
closing bracket behind an array can be taken for its own. -/
theorem expands_iff (hdoc : doc.WellFormed) :
    doc.Expands ↔ doc.arrays.Unspaced ∧ doc.arrays.Delimited := by
  obtain ⟨hlead, harrays⟩ := hdoc
  have hsource : expandArrays doc.source = doc.lead ++ expandArrays doc.arrays.source :=
    expandArrays_lit hlead doc.arrays
  rw [Doc.Expands, hsource, Doc.expanded]
  constructor
  · rintro ⟨hexpanded, hfree⟩
    have hunspaced := unspaced_of_arrayFree harrays hfree.of_append
    refine ⟨hunspaced, ?_⟩
    by_contra hdelimited
    obtain ⟨x, y, z, hx, hy⟩ := exists_of_not_delimited harrays hunspaced hdelimited
    rw [hx, hy, ← List.append_assoc, ← List.append_assoc] at hexpanded
    have hends := (List.append_inj' hexpanded rfl).2
    exact absurd (List.cons.inj hends).1 (by decide)
  · rintro ⟨hunspaced, hdelimited⟩
    rw [expandArrays_source harrays hunspaced hdelimited]
    exact ⟨rfl, doc.arrays.arrayFree_expanded harrays hlead⟩

def fsidDoc : Doc where
  lead := "type fsid-t = ".toList
  arrays := .more "2".toList (.ident "s32".toList) ";\ntype uts-str = ".toList
    (.more "3".toList (.ident "u8".toList) ";\n".toList .none)

theorem fsidDoc_expanded :
    expandArrays "type fsid-t = Array[2, s32];\ntype uts-str = Array[3, u8];\n".toList =
        "type fsid-t = tuple<s32,s32>;\ntype uts-str = tuple<u8,u8,u8>;\n".toList ∧
      fsidDoc.Expands := by
  have hdoc : fsidDoc.WellFormed := by
    refine ⟨ArrayFree.of_bracket_not_mem (by decide), ⟨by decide, by decide⟩, ⟨by decide, by decide⟩,
      ArrayFree.of_bracket_not_mem (by decide), ⟨by decide, by decide⟩, ⟨by decide, by decide⟩,
      ArrayFree.of_bracket_not_mem (by decide), trivial⟩
  have hexpands : fsidDoc.Expands :=
    (expands_iff hdoc).mpr ⟨⟨by decide, by decide, trivial⟩,
      ⟨by decide, by decide⟩, ⟨by decide, by decide⟩, trivial⟩
  exact ⟨hexpands.1, hexpands⟩

def dirDoc : Doc where
  lead := "type dir = ".toList
  arrays := .more "2".toList
    (.generic "tuple".toList (.more (.ident "u8".toList) true (.last (.ident "u32".toList))))
    ";\n".toList .none

theorem dirDoc_not_expanded : dirDoc.WellFormed ∧ ¬ dirDoc.Expands := by
  have hdoc : dirDoc.WellFormed := by
    refine ⟨ArrayFree.of_bracket_not_mem (by decide), ⟨by decide, by decide⟩, ⟨⟨by decide, by decide⟩,
      ⟨by decide, by decide⟩, by decide, by decide⟩, ArrayFree.of_bracket_not_mem (by decide), trivial⟩
  have hsource : expandArrays dirDoc.source = "type dir = Array[2, tuple<u8, u32>];\n".toList := by
    decide +kernel
  refine ⟨hdoc, fun h => ?_⟩
  have hfree := h.2
  rw [hsource] at hfree
  exact hfree ⟨"type dir = ".toList, "2, tuple<u8, u32>];\n".toList, by decide⟩

end Expansion

end Wali.ArrayTuples
