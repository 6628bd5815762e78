import Wali.IndentedText

/-!
Files of assignments, one on a line among other texts: what is written on the lines is
what a reader of the language takes from them.
-/

namespace Wali.AssignmentLines

open Wali.IndentedText

/-- `head name op value tail`, where blanks may stand around `op` -/
structure Statement where
  head : List Char
  op : List Char
  tail : List Char
  spaced : Bool
  isName : Char → Bool
  /-- The value that a text begins with, and the rest of the text -/
  value : List Char → Option (List Char × List Char)

section Spans

/-- The run of characters that a text begins with ends where the first other one stands. -/
theorem span_append {p : Char → Bool} {body rest : List Char} (hbody : ∀ c ∈ body, p c = true)
    (hrest : ∀ c, rest.head? = some c → p c = false) :
    (body ++ rest).takeWhile p = body ∧ (body ++ rest).dropWhile p = rest := by
  rw [List.takeWhile_append_of_pos hbody, List.dropWhile_append_of_pos hbody]
  cases rest with
  | nil => simp
  | cons c rest => simp [hrest c rfl]

end Spans

section Values

/-- A value that goes on up to a comment. Continued lines are not read. -/
def lineValue (comment : Char) (s : List Char) : Option (List Char × List Char) :=
  if '\\' ∈ s then none else some (s.takeWhile (· ≠ comment), [])

def innerDepth (nests : Bool) (depth : Nat) (c : Char) : Nat :=
  if nests && c == '(' then depth + 1 else if nests && c == ')' then depth - 1 else depth

/-- A word up to a character that ends words; within parentheses no character does, where
these nest. -/
def splitWord (ends : List Char) (nests : Bool) : Nat → List Char → List Char × List Char
  | _, [] => ([], [])
  | depth, c :: cs =>
      if depth = 0 ∧ c ∈ ends then ([], c :: cs)
      else
        (c :: (splitWord ends nests (innerDepth nests depth c) cs).1,
          (splitWord ends nests (innerDepth nests depth c) cs).2)

/-- A word, or a text between quotation marks that has no escapes -/
def wordValue (ends : List Char) (nests : Bool) : List Char → Option (List Char × List Char)
  | '"' :: s =>
      if '"' ∈ s ∧ '\\' ∉ s.takeWhile (· ≠ '"') then
        some (s.takeWhile (· ≠ '"'), (s.dropWhile (· ≠ '"')).drop 1)
      else none
  | s => some (splitWord ends nests 0 s)

def writeValue (quoted : Bool) (value : List Char) : List Char :=
  if quoted then '"' :: (value ++ ['"']) else value

variable {ends : List Char} {nests : Bool} {value tail : List Char}

theorem lineValue_eq {comment : Char} (hcomment : comment ∉ value) (hescape : '\\' ∉ value) :
    lineValue comment value = some (value, []) := by
  have hall : ∀ c ∈ value, decide (c ≠ comment) = true :=
    fun c hc => decide_eq_true fun heq => hcomment (heq ▸ hc)
  have htake := (@span_append _ value [] hall (by simp)).1
  rw [List.append_nil] at htake
  rw [lineValue, if_neg hescape, htake]

theorem splitWord_append (hends : ∀ c ∈ value, c ∉ ends)
    (hparens : nests = true → '(' ∉ value ∧ ')' ∉ value)
    (htail : ∀ c, tail.head? = some c → c ∈ ends) :
    splitWord ends nests 0 (value ++ tail) = (value, tail) := by
  induction value with
  | nil =>
      cases tail with
      | nil => rfl
      | cons c tail => rw [List.nil_append, splitWord, if_pos ⟨rfl, htail c rfl⟩]
  | cons c value ih =>
      obtain ⟨hc, hends⟩ := List.forall_mem_cons.mp hends
      have hdepth : innerDepth nests 0 c = 0 := by
        cases nests with
        | false => rfl
        | true =>
            obtain ⟨hopen, hclose⟩ := hparens rfl
            have hne : c ≠ '(' := fun heq => hopen (heq ▸ List.mem_cons_self)
            simp [innerDepth, hne]
      have hrest := ih hends fun hnests =>
        ⟨fun h => (hparens hnests).1 (List.mem_cons_of_mem c h),
          fun h => (hparens hnests).2 (List.mem_cons_of_mem c h)⟩
      rw [List.cons_append, splitWord, if_neg (by simp [hc]), hdepth, hrest]

theorem wordValue_word (hends : ∀ c ∈ value, c ∉ ends)
    (hparens : nests = true → '(' ∉ value ∧ ')' ∉ value)
    (htail : ∀ c, tail.head? = some c → c ∈ ends)
    (hquote : (value ++ tail).head? ≠ some '"') :
    wordValue ends nests (value ++ tail) = some (value, tail) := by
  rw [← splitWord_append hends hparens htail]
  generalize value ++ tail = s at hquote
  unfold wordValue
  split
  case h_1 => exact absurd rfl hquote
  case h_2 => rfl

theorem wordValue_quoted (hquote : '"' ∉ value) (hescape : '\\' ∉ value) :
    wordValue ends nests (writeValue true value ++ tail) = some (value, tail) := by
  have hall : ∀ c ∈ value, decide (c ≠ '"') = true :=
    fun c hc => decide_eq_true fun heq => hquote (heq ▸ hc)
  obtain ⟨htake, hdrop⟩ := @span_append _ value ('"' :: tail) hall (by simp)
  have hwritten : writeValue true value ++ tail = '"' :: (value ++ '"' :: tail) := by
    simp [writeValue]
  have hread : '"' ∈ value ++ '"' :: tail ∧
      '\\' ∉ (value ++ '"' :: tail).takeWhile (· ≠ '"') := by
    rw [htake]
    exact ⟨List.mem_append_right _ List.mem_cons_self, hescape⟩
  rw [hwritten, wordValue, if_pos hread, htake, hdrop]
  rfl

end Values

namespace Statement

variable (st : Statement)

def skip (s : List Char) : List Char := if st.spaced then s.dropWhile (· == ' ') else s

/-- The blank that is written in front of a value -/
def gap : List Char := if st.spaced then [' '] else []

def readAssignment (s : List Char) : Option (List Char × List Char) :=
  let rest := st.skip (s.dropWhile st.isName)
  if s.takeWhile st.isName ≠ [] ∧ st.op <+: rest then
    match st.value (st.skip (rest.drop st.op.length)) with
    | some (value, rest) =>
        if rest = st.tail then some (s.takeWhile st.isName, value) else none
    | none => none
  else none

def readLine (line : List Char) : Option (List Char × List Char) :=
  if st.head <+: line then st.readAssignment (line.drop st.head.length) else none

/-- A line with this character in front may be a statement. -/
def begins (c : Char) : Bool :=
  match st.head with
  | [] => st.isName c
  | d :: _ => c == d

def readText (text : List Char) : List (List Char × List Char) :=
  (text.splitOn '\n').filterMap st.readLine

end Statement

/-- An assignment with `pad` blanks behind its name, or a line that assigns nothing -/
inductive Line
  | text (s : List Char)
  | assign (name : List Char) (pad : Nat) (quoted : Bool) (value : List Char)

def Line.assignment : Line → Option (List Char × List Char)
  | .text _ => none
  | .assign name _ _ value => some (name, value)

def Line.render (st : Statement) : Line → List Char
  | .text s => s
  | .assign name pad quoted value =>
      st.head ++ (name ++ (List.replicate pad ' ' ++ (st.op ++ (st.gap ++
        (writeValue quoted value ++ st.tail)))))

/-- What separates the parts of a statement from each other -/
structure Lawful (st : Statement) : Prop where
  blank : st.isName ' ' = false
  op : ∀ c, (st.op ++ st.gap).head? = some c → st.isName c = false
  separated : st.op ++ st.gap ≠ []
  op_blank : st.op.head? ≠ some ' '
  newline : '\n' ∉ st.head ∧ '\n' ∉ st.op ∧ '\n' ∉ st.tail ∧ st.isName '\n' = false
  flush : Flush st.head
  tab : st.isName '\t' = false

/-- The value stands on its line as the language reads it. -/
structure Reads (st : Statement) (quoted : Bool) (value : List Char) : Prop where
  value_eq : st.value (writeValue quoted value ++ st.tail) = some (value, st.tail)
  newline : '\n' ∉ value
  start : (writeValue quoted value ++ st.tail).head? ≠ some ' '

def WellFormed (st : Statement) : Line → Prop
  | .text s => st.readLine s = none ∧ Flush s ∧ '\n' ∉ s
  | .assign name pad quoted value =>
      (name ≠ [] ∧ ∀ c ∈ name, st.isName c = true) ∧ (st.spaced = false → pad = 0) ∧
        Reads st quoted value

section Lines

variable {st : Statement} {name value s : List Char} {pad : Nat} {quoted : Bool} {line : Line}
  {lines : List Line}

theorem dropWhile_replicate_append (pad : Nat) (h : s.head? ≠ some ' ') :
    (List.replicate pad ' ' ++ s).dropWhile (· == ' ') = s := by
  refine (span_append (fun c hc => beq_iff_eq.mpr (List.eq_of_mem_replicate hc)) ?_).2
  intro c hc
  have hne : c ≠ ' ' := fun heq => h (heq ▸ hc)
  simpa using hne

/-- The blanks around the operator are skipped, on one side or on both. -/
theorem skip_drop_op (hst : Lawful st) (hpad : st.spaced = false → pad = 0)
    (hs : s.head? ≠ some ' ') :
    st.op <+: st.skip (List.replicate pad ' ' ++ (st.op ++ (st.gap ++ s))) ∧
      st.skip ((st.skip (List.replicate pad ' ' ++ (st.op ++ (st.gap ++ s)))).drop
        st.op.length) = s := by
  cases hspaced : st.spaced with
  | false =>
      simp [Statement.skip, Statement.gap, hspaced, hpad hspaced]
  | true =>
      have hskip : ∀ n, st.skip (List.replicate n ' ' ++ s) = s := by
        intro n
        rw [Statement.skip, if_pos hspaced, dropWhile_replicate_append n hs]
      have hgap : st.gap = List.replicate 1 ' ' := by
        rw [Statement.gap, if_pos hspaced]
        rfl
      cases hop : st.op with
      | nil =>
          have hblanks : List.replicate pad ' ' ++ ([] ++ (List.replicate 1 ' ' ++ s)) =
              List.replicate (pad + 1) ' ' ++ s := by
            rw [List.nil_append, ← List.append_assoc, List.replicate_append_replicate]
          rw [hgap, hblanks, hskip]
          exact ⟨List.nil_prefix, hskip 0⟩
      | cons c op =>
          have hstart : (c :: op ++ (st.gap ++ s)).head? ≠ some ' ' := by
            have hne := hst.op_blank
            rwa [hop] at hne
          have hop' : st.skip (List.replicate pad ' ' ++ (c :: op ++ (st.gap ++ s))) =
              c :: op ++ (st.gap ++ s) := by
            rw [Statement.skip, if_pos hspaced, dropWhile_replicate_append pad hstart]
          rw [hop', List.drop_left, hgap]
          exact ⟨List.prefix_append _ _, hskip 1⟩

theorem readAssignment_eq (hst : Lawful st)
    (hname : name ≠ [] ∧ ∀ c ∈ name, st.isName c = true) (hpad : st.spaced = false → pad = 0)
    (hvalue : Reads st quoted value) :
    st.readAssignment (name ++ (List.replicate pad ' ' ++ (st.op ++ (st.gap ++
      (writeValue quoted value ++ st.tail))))) = some (name, value) := by
  set rest := List.replicate pad ' ' ++ (st.op ++ (st.gap ++ (writeValue quoted value ++ st.tail)))
    with hrest
  have hends : ∀ c, rest.head? = some c → st.isName c = false := by
    intro c hc
    cases pad with
    | zero =>
        refine hst.op c ?_
        have hc' : (st.op ++ st.gap ++ (writeValue quoted value ++ st.tail)).head? = some c := by
          simpa [hrest] using hc
        rwa [List.head?_append_of_ne_nil _ hst.separated] at hc'
    | succ pad =>
        have hc' : ' ' = c := by simpa [hrest, List.replicate_succ] using hc
        exact hc' ▸ hst.blank
  obtain ⟨htake, hdrop⟩ := span_append hname.2 hends
  obtain ⟨hop, hskip⟩ := skip_drop_op hst hpad hvalue.start
  simp only [Statement.readAssignment]
  rw [htake, hdrop, hrest, hskip, hvalue.value_eq, if_pos ⟨hname.1, hop⟩]
  exact if_pos rfl

theorem readLine_render (hst : Lawful st) (h : WellFormed st line) :
    st.readLine (line.render st) = line.assignment := by
  cases line with
  | text s => exact h.1
  | assign name pad quoted value =>
      obtain ⟨hname, hpad, hvalue⟩ := h
      rw [Line.render, Statement.readLine, if_pos (List.prefix_append _ _), List.drop_left]
      exact readAssignment_eq hst hname hpad hvalue

theorem isIndent_of_isName (hst : Lawful st) {c : Char} (hc : st.isName c = true) :
    isIndent c = false := by
  have hblank : c ≠ ' ' := by
    rintro rfl
    exact absurd (hst.blank.symm.trans hc) (by decide)
  have htab : c ≠ '\t' := by
    rintro rfl
    exact absurd (hst.tab.symm.trans hc) (by decide)
  simp [isIndent, hblank, htab]

theorem flush_render (hst : Lawful st) (h : WellFormed st line) : Flush (line.render st) := by
  cases line with
  | text s => exact h.2.1
  | assign name pad quoted value =>
      obtain ⟨⟨hne, hname⟩, _⟩ := h
      obtain ⟨c, cs, rfl⟩ := List.exists_cons_of_ne_nil hne
      intro d hd
      cases hhead : st.head with
      | nil =>
          have hcd : c = d := by simpa [Line.render, hhead] using hd
          exact hcd ▸ isIndent_of_isName hst (hname c List.mem_cons_self)
      | cons e head =>
          have hed : e = d := by simpa [Line.render, hhead] using hd
          exact hst.flush d (by rw [hhead, ← hed]; rfl)

theorem newline_not_mem_render (hst : Lawful st) (h : WellFormed st line) :
    '\n' ∉ line.render st := by
  cases line with
  | text s => exact h.2.2
  | assign name pad quoted value =>
      obtain ⟨⟨_, hname⟩, _, hvalue⟩ := h
      obtain ⟨hhead, hop, htail, hisName⟩ := hst.newline
      have hname' : '\n' ∉ name := by
        intro hc
        exact absurd (hisName.symm.trans (hname _ hc)) (by decide)
      have hgap : '\n' ∉ st.gap := by
        rw [Statement.gap]
        split <;> decide
      have hwritten : '\n' ∉ writeValue quoted value := by
        cases quoted <;> simp [writeValue, hvalue.newline]
      simp [Line.render, hhead, hop, htail, hname', hgap, hwritten]

/-- The text of an indented block of lines assigns what its lines assign. -/
theorem readText_dedent_block {pad closing : List Char} (hst : Lawful st)
    (hempty : st.readLine [] = none)
    (hpad : isBlank pad = true) (hclosing : isBlank closing = true)
    (h : ∀ line ∈ lines, WellFormed st line) :
    st.readText (dedent (block pad closing (lines.map (Line.render st)))) =
      lines.filterMap Line.assignment := by
  have hflush : ∀ line ∈ lines.map (Line.render st), Flush line :=
    List.forall_mem_map.mpr fun line hline => flush_render hst (h line hline)
  have hnewline : ∀ line ∈ lines.map (Line.render st), '\n' ∉ line :=
    List.forall_mem_map.mpr fun line hline => newline_not_mem_render hst (h line hline)
  rw [Statement.readText, splitOn_dedent_block hpad hclosing hflush hnewline,
    List.filterMap_append, List.filterMap_cons, hempty, List.filterMap_nil, List.append_nil,
    List.filterMap_map]
  exact List.filterMap_congr fun line hline => readLine_render hst (h line hline)

theorem readAssignment_of_not_isName (h : ∀ c, s.head? = some c → st.isName c = false) :
    st.readAssignment s = none := by
  have htake : s.takeWhile st.isName = [] := (@span_append _ [] s (by simp) h).1
  simp only [Statement.readAssignment]
  exact if_neg fun hs => hs.1 htake

/-- A name with another operator behind it -/
theorem readAssignment_of_not_op {rest : List Char} (hname : ∀ c ∈ name, st.isName c = true)
    (hrest : ∀ c, rest.head? = some c → st.isName c = false) (hop : ¬ st.op <+: st.skip rest) :
    st.readAssignment (name ++ rest) = none := by
  obtain ⟨_, hdrop⟩ := span_append hname hrest
  simp only [Statement.readAssignment, hdrop]
  exact if_neg fun h => hop h.2

theorem readLine_of_begins {c : Char} (hs : s.head? = some c) (h : st.begins c = false) :
    st.readLine s = none := by
  unfold Statement.begins at h
  cases hhead : st.head with
  | nil =>
      rw [hhead] at h
      rw [Statement.readLine, hhead, if_pos List.nil_prefix]
      refine readAssignment_of_not_isName fun d hd => ?_
      rw [List.length_nil, List.drop_zero, hs] at hd
      exact (Option.some.inj hd) ▸ h
  | cons d head =>
      rw [hhead] at h
      refine if_neg ?_
      rintro ⟨rest, rfl⟩
      have hdc : d = c := by simpa [hhead] using hs
      simp [hdc] at h

end Lines

end Wali.AssignmentLines
