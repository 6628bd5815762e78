import Wali.ArrayExpansion

/-!
Where the pattern for arrays matches, and where the match ends.
-/

namespace Wali.ArrayMatching

open Wali.ArrayExpansion
open Wali.PythonText
open Wali.RegexMatching

section Matching

variable {s t ty num rest : Text} {groups : List Text}

theorem isNonSpace_iff {c : Char} : isNonSpace c = true ↔ isSpace c = false := by
  simp [isNonSpace]

theorem head_dropWhile {p : Char → Bool} (s : Text) :
    ∀ c, (s.dropWhile p).head? = some c → p c = false := by
  intro c hc
  have hnot := List.head?_dropWhile_not p s
  rw [hc] at hnot
  exact hnot

theorem closing_bracket (s : Text) : matchPrefix closing (']' :: s) = some ([], s) :=
  @matchPrefix_run [.char ']'] (']' :: s) [] s [] 0 isSpace false (by simp)
    (by rintro c ⟨⟩; decide) le_rfl (by simp)

theorem closing_ne_none_iff :
    matchPrefix closing s ≠ none ↔ (s.dropWhile isSpace).head? = some ']' := by
  constructor
  · intro h
    by_contra hhead
    apply h
    rw [← @List.takeWhile_append_dropWhile _ isSpace s]
    refine matchPrefix_run_eq_none (fun c hc => List.mem_takeWhile_imp hc) (head_dropWhile s) ?_
    intro u v huv _
    apply matchPrefix_char_of_head
    cases v with
    | nil => exact hhead
    | cons c v =>
        rintro ⟨⟩
        have hbracket : isSpace ']' = true :=
          List.mem_takeWhile_imp (show ']' ∈ s.takeWhile isSpace by simp [huv])
        exact absurd hbracket (by decide)
  · intro h
    obtain ⟨rest, hrest⟩ := List.head?_eq_some_iff.mp h
    rw [← @List.takeWhile_append_dropWhile _ isSpace s, hrest]
    exact (Matches.run (s.takeWhile isSpace) (Nat.zero_le _) (fun c hc => List.mem_takeWhile_imp hc)
      (.char (.nil rest))).matchPrefix_ne_none

theorem eq_of_closing (h : matchPrefix closing s = some (groups, rest)) :
    groups = [] ∧ ∃ blanks, (∀ c ∈ blanks, isSpace c = true) ∧ s = blanks ++ ']' :: rest := by
  cases matches_of_matchPrefix h with
  | run blanks _ hblanks hbracket =>
      cases hbracket with
      | char hnil =>
          cases hnil
          exact ⟨rfl, blanks, hblanks, rfl⟩

theorem closing_of_head {c : Char} (hc : isSpace c = false) (hbracket : c ≠ ']') (s : Text) :
    matchPrefix closing (c :: s) = none := by
  by_contra h
  rw [← ne_eq, closing_ne_none_iff, List.dropWhile_cons_of_neg (by simp [hc])] at h
  exact hbracket (Option.some.inj h)

/-- What the group of the element type can end before: the text behind the bracket of
the array, cut at its first white space. -/
theorem closed_iff :
    Closed s ↔ ∀ u v, s.takeWhile isNonSpace = u ++ v →
      matchPrefix closing (v ++ s.dropWhile isNonSpace) = none := by
  have hspace : ∀ c ∈ s.takeWhile isNonSpace, isSpace c = false := fun c hc =>
    isNonSpace_iff.mp (List.mem_takeWhile_imp hc)
  constructor
  · rintro ⟨hmem, hhead⟩ u v huv
    cases v with
    | nil =>
        by_contra h
        exact hhead (closing_ne_none_iff.mp h)
    | cons c v =>
        rw [huv] at hmem hspace
        refine closing_of_head (hspace c (by simp)) ?_ _
        rintro rfl
        simp at hmem
  · intro h
    constructor
    · intro hmem
      obtain ⟨u, v, huv⟩ := List.append_of_mem hmem
      have hnone := h u (']' :: v) huv
      rw [List.cons_append, closing_bracket] at hnone
      cases hnone
    · intro hhead
      exact closing_ne_none_iff.mpr hhead (h _ [] (List.append_nil _).symm)

theorem isNonSpace_group (hty : ∀ c ∈ ty, isSpace c = false) (s : Text) :
    ∀ c ∈ ty ++ ']' :: s.takeWhile isNonSpace, isNonSpace c = true := by
  intro c hc
  rcases List.mem_append.mp hc with hc | hc
  · exact isNonSpace_iff.mpr (hty c hc)
  · rcases List.mem_cons.mp hc with rfl | hc
    · decide
    · exact List.mem_takeWhile_imp hc

theorem elemTail_of_closed (hne : ty ≠ []) (hty : ∀ c ∈ ty, isSpace c = false)
    (hs : Closed s) : matchPrefix elemTail (ty ++ ']' :: s) = some ([ty], s) := by
  have hsplit : ty ++ ']' :: s =
      ty ++ (']' :: s.takeWhile isNonSpace) ++ s.dropWhile isNonSpace := by
    rw [List.append_assoc, List.cons_append, List.takeWhile_append_dropWhile]
  rw [hsplit]
  refine matchPrefix_run_append (isNonSpace_group hty s) (head_dropWhile s)
    (List.length_pos_iff.mpr hne) ?_ ?_
  · rw [List.cons_append, closing_bracket, List.takeWhile_append_dropWhile]
  · intro u v huv hu
    obtain ⟨c, u, rfl⟩ := List.exists_cons_of_ne_nil hu
    exact closed_iff.mp hs u v (List.cons.inj huv).2

/-- Otherwise the group takes in the bracket of the array, and the match ends at a later
bracket. -/
theorem elemTail_of_not_closed (hty : ∀ c ∈ ty, isSpace c = false) (hs : ¬ Closed s) :
    ∃ x blanks rest, s = x ++ (blanks ++ ']' :: rest) ∧ (∀ c ∈ x, isNonSpace c = true) ∧
      (∀ c ∈ blanks, isSpace c = true) ∧
      matchPrefix elemTail (ty ++ ']' :: s) = some ([ty ++ ']' :: x], rest) := by
  rw [closed_iff] at hs
  push Not at hs
  obtain ⟨u, v, huv, hmatch⟩ := hs
  have hsplit : ty ++ ']' :: s = (ty ++ ']' :: u) ++ v ++ s.dropWhile isNonSpace := by
    rw [List.append_assoc ty, List.cons_append, ← huv, List.append_assoc, List.cons_append,
      List.takeWhile_append_dropWhile]
  have hclass : ∀ c ∈ (ty ++ ']' :: u) ++ v, isNonSpace c = true := by
    have hgroup := isNonSpace_group hty s
    rw [huv] at hgroup
    simpa using hgroup
  obtain ⟨u', v', groups, rest, rfl, hclosing, hrun⟩ :=
    matchPrefix_run_longest hclass (head_dropWhile s) (show 1 ≤ _ by simp; omega) hmatch
  obtain ⟨rfl, blanks, hblanks, hrest⟩ := eq_of_closing hclosing
  refine ⟨u ++ u', blanks, rest, ?_, ?_, hblanks, ?_⟩
  · rw [← hrest, ← List.append_assoc, List.append_assoc u, ← huv,
      List.takeWhile_append_dropWhile]
  · intro c hc
    exact hclass c (by simp at hc ⊢; tauto)
  · rw [hsplit, elemTail, hrun]
    simp

theorem elemTail_of_spaced (ht : Spaced t) (s : Text) : matchPrefix elemTail (t ++ s) = none := by
  obtain ⟨u, c, v, rfl, ⟨_, hu⟩, hc, hbracket⟩ := ht
  rw [List.append_assoc]
  refine matchPrefix_run_eq_none (fun d hd => isNonSpace_iff.mpr (hu d hd).1) ?_ ?_
  · rintro d ⟨⟩
    decide
  · intro w x hwx _
    cases x with
    | nil =>
        by_contra h
        rw [← ne_eq, closing_ne_none_iff] at h
        simp only [List.nil_append, List.cons_append] at h
        rw [List.dropWhile_cons_of_pos (by decide),
          List.dropWhile_cons_of_neg (by simp [hc])] at h
        exact hbracket (Option.some.inj h)
    | cons d x =>
        have hd := hu d (by simp [hwx])
        exact closing_of_head hd.1 hd.2 _

theorem arrayPattern_append (hnum : IsNumeral num)
    (hs : ∀ c, s.head? = some c → isSpace c = false) :
    matchPrefix arrayPattern ("Array[" ++ (num ++ (", " ++ s))) =
      (matchPrefix elemTail s).map fun m => (num :: m.1, m.2) := by
  have hdigit : ∀ c ∈ num, isDecimal c = true := by
    intro c hc
    rw [isDecimal, decimalDigit?_of_isDigit (hnum.2 c hc)]
    rfl
  have hcomma : ∀ c, (',' :: ([' '] ++ s)).head? = some c → isDecimal c = false := by
    rintro c ⟨⟩
    decide
  have hfirst : ∀ c, (num ++ ',' :: ([' '] ++ s)).head? = some c → isSpace c = false := by
    obtain ⟨d, digits, rfl⟩ := List.exists_cons_of_ne_nil hnum.1
    rintro c ⟨⟩
    exact isSpace_of_isDigit (hnum.2 d (by simp))
  have htext : (num ++ (", " ++ s) : Text) = [] ++ (num ++ ',' :: ([' '] ++ s)) := rfl
  have hblank : ∀ c ∈ [' '], isSpace c = true := by decide
  rw [arrayPattern, matchPrefix_lit_append, htext]
  cases helem : matchPrefix elemTail s with
  | some m =>
      refine matchPrefix_run (by simp) hfirst le_rfl ?_
      refine matchPrefix_run hdigit hcomma (List.length_pos_iff.mpr hnum.1) ?_
      rw [matchPrefix_char]
      exact matchPrefix_run hblank hs (Nat.zero_le _) helem
  | none =>
      refine matchPrefix_run_eq_none (by simp) hfirst ?_
      intro u v huv _
      obtain ⟨rfl, rfl⟩ := List.append_eq_nil_iff.mp huv.symm
      rw [List.nil_append]
      refine matchPrefix_run_eq_none hdigit hcomma ?_
      intro u v huv _
      cases v with
      | nil =>
          rw [List.nil_append, matchPrefix_char]
          refine matchPrefix_run_eq_none hblank hs ?_
          intro u v huv _
          cases v with
          | nil => exact helem
          | cons c v =>
              have hc : isNonSpace c = false := by
                have hspace := hblank c (by simp [huv])
                simp [isNonSpace, hspace]
              refine @matchPrefix_run_eq_none closing (c :: v ++ s) [] 1 isNonSpace true (by simp)
                ?_ ?_
              · rintro d ⟨⟩
                exact hc
              · intro u v huv hleast
                rw [(List.append_eq_nil_iff.mp huv.symm).1] at hleast
                cases hleast
      | cons c v =>
          apply matchPrefix_char_of_head
          rintro ⟨⟩
          exact absurd (hdigit ',' (by simp [huv])) (by decide)

end Matching

section Texts

variable {s ty num lit rest : Text} {elem : TypeExpr} {arrays : Arrays}

theorem matchPrefix_of_ne {c : Char} (hc : c ≠ 'A') (s : Text) :
    matchPrefix arrayPattern (c :: s) = none :=
  matchPrefix_char_of_head fun h => hc (Option.some.inj h)

/-- No match begins in text without `Array[`, at the end of the text or in front of an
array. -/
theorem matchPrefix_of_arrayFree (hlit : ArrayFree lit)
    (hs : ∀ c, s.head? = some c → c = 'A') {v : Text} (hv : v <:+ lit) (hne : v ≠ []) :
    matchPrefix arrayPattern (v ++ s) = none := by
  by_contra h
  obtain ⟨t, heq, _⟩ := prefix_of_matchPrefix_lit h
  rcases List.append_eq_append_iff.mp heq with ⟨u, harray, hs'⟩ | ⟨u, rfl, _⟩
  · cases u with
    | nil =>
        rw [List.append_nil] at harray
        exact hlit (harray ▸ hv.isInfix)
    | cons c u =>
        obtain rfl : c = 'A' := hs c (by simp [hs'])
        obtain ⟨d, v, rfl⟩ := List.exists_cons_of_ne_nil hne
        have hmem : 'A' ∈ "rray[".toList := by
          have htail := congrArg List.tail harray
          change "rray[".toList = v ++ 'A' :: u at htail
          simp [htail]
        exact absurd hmem (by decide)
  · exact hlit ((List.prefix_append _ u).isInfix.trans hv.isInfix)

theorem head_source (arrays : Arrays) : ∀ c, arrays.source.head? = some c → c = 'A' := by
  cases arrays with
  | none =>
      rintro c ⟨⟩
  | more num elem lit rest =>
      rintro c ⟨⟩
      rfl

theorem matchPrefix_arrayText {expanded : Text} (hnum : IsNumeral num) (hty : Written ty expanded)
    (rest : Text) :
    matchPrefix arrayPattern (arrayText num ty rest) =
      (matchPrefix elemTail (ty ++ ']' :: rest)).map fun m => (num :: m.1, m.2) := by
  refine arrayPattern_append hnum fun c hc => ?_
  obtain ⟨d, v, rfl, hd, _⟩ := hty.head
  cases hc
  exact hd

theorem spaced_source (hnum : IsNumeral num) (helem : elem.WellFormed) (rest : Text) :
    Spaced (arrayText num elem.text rest) := by
  have harray : Spaced (TypeExpr.array num elem).text := by
    rcases TypeExpr.written (.array num elem) ⟨hnum, helem⟩ with ⟨hisElem, _⟩ | hspaced
    · have hblank : ' ' ∈ (TypeExpr.array num elem).text := by
        rw [TypeExpr.text_array]
        simp
      exact absurd (hisElem.not_isSpace ' ' hblank) (by decide)
    · exact hspaced
  have htext : arrayText num elem.text rest = (TypeExpr.array num elem).text ++ rest := by
    rw [TypeExpr.text_array]
    unfold arrayText
    simp only [List.append_assoc, List.cons_append, List.nil_append]
  rw [htext]
  exact harray.append rest

/-- No array begins inside the text that a match takes behind the bracket of an array:
it would have a match of the group at its head. -/
theorem source_ne_bracket (harrays : arrays.WellFormed) {x blanks a : Text}
    (hx : ∀ c ∈ x, isNonSpace c = true) (hblanks : ∀ c ∈ blanks, isSpace c = true)
    (ha : a <:+ x ++ blanks) (rest : Text) : a ++ ']' :: rest ≠ arrays.source := by
  intro h
  have hhead : ∀ c v, a ++ ']' :: rest = c :: v → c = 'A' := by
    intro c v hc
    exact head_source arrays c (by rw [← h, hc]; rfl)
  obtain ⟨u, hu⟩ := ha
  rcases List.append_eq_append_iff.mp hu with ⟨b, rfl, rfl⟩ | ⟨b, rfl, hb⟩
  · cases b with
    | nil =>
        cases blanks with
        | nil => exact absurd (hhead ']' rest rfl) (by decide)
        | cons c blanks =>
            obtain rfl : c = 'A' := hhead c (blanks ++ ']' :: rest) rfl
            exact absurd (hblanks 'A' (by simp)) (by decide)
    | cons c b =>
        have hmatch : Matches elemTail ((c :: b) ++ (blanks ++ ']' :: rest)) [c :: b] rest :=
          .run (c :: b) (by simp) (fun d hd => hx d (List.mem_append_right u hd))
            (.run blanks (Nat.zero_le _) hblanks (.char (.nil rest)))
        cases arrays with
        | none => simp [Arrays.source] at h
        | more num elem lit arrays =>
            have hspaced := spaced_source harrays.1 harrays.2.1 (lit ++ arrays.source)
            have hnone := elemTail_of_spaced hspaced []
            rw [List.append_nil] at hnone
            rw [List.append_assoc] at h
            rw [h] at hmatch
            exact hmatch.matchPrefix_ne_none hnone
  · cases a with
    | nil => exact absurd (hhead ']' rest rfl) (by decide)
    | cons c a =>
        obtain rfl : c = 'A' := hhead c (a ++ ']' :: rest) rfl
        exact absurd (hblanks 'A' (by simp [hb])) (by decide)

/-- A match that ends at a later bracket ends in front of the next array. -/
theorem exists_lit_of_bracket (harrays : arrays.WellFormed) {x blanks : Text}
    (hx : ∀ c ∈ x, isNonSpace c = true) (hblanks : ∀ c ∈ blanks, isSpace c = true)
    (h : lit ++ arrays.source = x ++ (blanks ++ ']' :: rest)) :
    ∃ z, lit = x ++ (blanks ++ ']' :: z) ∧ rest = z ++ arrays.source := by
  rw [← List.append_assoc] at h
  rcases List.append_eq_append_iff.mp h with ⟨b, hsplit, hsource⟩ | ⟨b, rfl, hb⟩
  · exact absurd hsource.symm (source_ne_bracket harrays hx hblanks ⟨lit, hsplit.symm⟩ rest)
  · cases b with
    | nil =>
        have hnil : [] <:+ x ++ blanks := List.nil_suffix
        exact absurd hb (source_ne_bracket harrays hx hblanks hnil rest)
    | cons c z =>
        obtain ⟨rfl, rfl⟩ := List.cons.inj hb
        exact ⟨z, by simp, rfl⟩

end Texts

end Wali.ArrayMatching
