import Mathlib.Data.List.Forall2
import Mathlib.Data.List.Infix

/-!
Texts without the indentation that their lines have in common.
-/

namespace Wali.IndentedText

def isIndent (c : Char) : Bool := c == ' ' || c == '\t'

def isBlank (line : List Char) : Bool := line.all isIndent

def indentOf (line : List Char) : List Char := line.takeWhile isIndent

def commonPrefix : List Char → List Char → List Char
  | c :: cs, d :: ds => if c = d then c :: commonPrefix cs ds else []
  | _, _ => []

/-- The indentation of the lines that are not blank. -/
def indents (lines : List (List Char)) : List (List Char) :=
  (lines.filter fun line => !isBlank line).map indentOf

/-- What all indentations begin with. -/
def margin (lines : List (List Char)) : List Char :=
  match indents lines with
  | [] => []
  | first :: rest => rest.foldl commonPrefix first

/-- A blank line loses all its characters. -/
def dedentLine (margin line : List Char) : List Char :=
  if isBlank line then [] else line.drop margin.length

def dedentLines (lines : List (List Char)) : List (List Char) :=
  lines.map (dedentLine (margin lines))

/-- `textwrap.dedent` -/
def dedent (text : List Char) : List Char :=
  ['\n'].intercalate (dedentLines (text.splitOn '\n'))

/-- A line and the same line behind `pad`; what a blank line is made of does not matter. -/
def Indented (pad : List Char) (source line : List Char) : Prop :=
  source = pad ++ line ∨ (isBlank source = true ∧ isBlank line = true)

/-- No blanks in front of the first other character. -/
def Flush (line : List Char) : Prop := ∀ c, line.head? = some c → isIndent c = false

section Lines

variable {pad source line : List Char} {sources lines : List (List Char)}

theorem commonPrefix_append (pad x y : List Char) :
    commonPrefix (pad ++ x) (pad ++ y) = pad ++ commonPrefix x y := by
  induction pad with
  | nil => rfl
  | cons c pad ih =>
      rw [List.cons_append, List.cons_append, commonPrefix, if_pos rfl, ih]
      rfl

theorem foldl_commonPrefix_append (pad first : List Char) (rest : List (List Char)) :
    (rest.map (pad ++ ·)).foldl commonPrefix (pad ++ first) =
      pad ++ rest.foldl commonPrefix first := by
  induction rest generalizing first with
  | nil => rfl
  | cons next rest ih =>
      rw [List.map_cons, List.foldl_cons, List.foldl_cons, commonPrefix_append, ih]

theorem foldl_commonPrefix_nil (rest : List (List Char)) : rest.foldl commonPrefix [] = [] := by
  induction rest with
  | nil => rfl
  | cons next rest ih => exact ih

theorem isBlank_append (hpad : isBlank pad = true) : isBlank (pad ++ line) = isBlank line := by
  rw [isBlank, List.all_append, ← isBlank, hpad, Bool.true_and, isBlank]

theorem indentOf_append (hpad : isBlank pad = true) :
    indentOf (pad ++ line) = pad ++ indentOf line :=
  List.takeWhile_append_of_pos fun _ hc => List.all_eq_true.mp hpad _ hc

theorem Indented.isBlank_eq (hpad : isBlank pad = true) (h : Indented pad source line) :
    isBlank source = isBlank line := by
  rcases h with rfl | ⟨hsource, hline⟩
  · exact isBlank_append hpad
  · rw [hsource, hline]

theorem indents_indented (hpad : isBlank pad = true)
    (h : List.Forall₂ (Indented pad) sources lines) :
    indents sources = (indents lines).map (pad ++ ·) := by
  unfold indents
  induction h with
  | nil => rfl
  | @cons source line sources lines hline _ ih =>
      rw [List.filter_cons, List.filter_cons, hline.isBlank_eq hpad]
      cases hblank : isBlank line with
      | true => exact ih
      | false =>
          rcases hline with rfl | ⟨_, hline⟩
          · exact congrArg₂ List.cons (indentOf_append hpad) ih
          · rw [hblank] at hline
            cases hline

theorem dedentLine_append (hpad : isBlank pad = true) (margin : List Char) :
    dedentLine (pad ++ margin) (pad ++ line) = dedentLine margin line := by
  have hdrop : (pad ++ line).drop (pad ++ margin).length = line.drop margin.length := by
    rw [List.length_append, ← List.drop_drop, List.drop_left]
  rw [dedentLine, dedentLine, isBlank_append hpad, hdrop]

/-- Indenting a text further does not change what is left of it. -/
theorem dedentLines_indented (hpad : isBlank pad = true)
    (h : List.Forall₂ (Indented pad) sources lines) : dedentLines sources = dedentLines lines := by
  have hindents := indents_indented hpad h
  cases hlines : indents lines with
  | nil =>
      have hblank : ∀ {texts : List (List Char)}, indents texts = [] →
          dedentLines texts = texts.map fun _ => [] := by
        intro texts htexts
        refine List.map_congr_left fun text htext => if_pos ?_
        by_contra hne
        exact List.filter_eq_nil_iff.mp (List.map_eq_nil_iff.mp htexts) text htext (by simp [hne])
      rw [hlines] at hindents
      rw [hblank hlines, hblank hindents, List.map_const', List.map_const',
        List.Forall₂.length_eq h]
  | cons first rest =>
      have hmargin : margin sources = pad ++ margin lines := by
        rw [margin, margin, hindents, hlines]
        exact foldl_commonPrefix_append pad first rest
      rw [dedentLines, dedentLines, hmargin]
      generalize margin lines = inner
      clear hindents hlines hmargin
      induction h with
      | nil => rfl
      | @cons source line sources lines hline _ ih =>
          refine congrArg₂ List.cons ?_ ih
          rcases hline with rfl | ⟨hsource, hline⟩
          · exact dedentLine_append hpad inner
          · rw [dedentLine, dedentLine, if_pos hsource, if_pos hline]

theorem isBlank_of_flush (h : Flush line) : isBlank line = true ↔ line = [] := by
  cases line with
  | nil => exact iff_of_true rfl rfl
  | cons c line => simp [isBlank, h c rfl]

theorem indentOf_of_flush (h : Flush line) : indentOf line = [] := by
  cases line with
  | nil => rfl
  | cons c line => exact List.takeWhile_cons_of_neg (by simp [h c rfl])

theorem margin_of_flush (h : ∀ line ∈ lines, Flush line) : margin lines = [] := by
  have hindents : ∀ indent ∈ indents lines, indent = [] := by
    intro indent hindent
    obtain ⟨line, hline, rfl⟩ := List.mem_map.mp hindent
    exact indentOf_of_flush (h line (List.mem_of_mem_filter hline))
  rw [margin]
  cases hlines : indents lines with
  | nil => rfl
  | cons first rest =>
      rw [hlines] at hindents
      rw [hindents first List.mem_cons_self]
      exact foldl_commonPrefix_nil rest

theorem dedentLines_of_flush (h : ∀ line ∈ lines, Flush line) : dedentLines lines = lines := by
  have hline : ∀ line ∈ lines, dedentLine [] line = line := by
    intro line hline
    rw [dedentLine]
    split
    case isTrue hblank => exact ((isBlank_of_flush (h line hline)).mp hblank).symm
    case isFalse => rfl
  rw [dedentLines, margin_of_flush h, List.map_congr_left hline, List.map_id']

end Lines

section Blocks

variable {pad closing : List Char} {lines : List (List Char)}

/-- A line of an indented block; empty lines stay empty. -/
def indentLine (pad line : List Char) : List Char := if line = [] then [] else pad ++ line

/-- The block of a literal that ends with the blanks in front of its closing quotes. -/
def block (pad closing : List Char) (lines : List (List Char)) : List Char :=
  ['\n'].intercalate (lines.map (indentLine pad) ++ [closing])

theorem newline_not_mem_of_isBlank {line : List Char} (h : isBlank line = true) : '\n' ∉ line :=
  fun hc => absurd (List.all_eq_true.mp h '\n' hc) (by decide)

theorem newline_not_mem_indentLine (hpad : isBlank pad = true) {line : List Char}
    (h : '\n' ∉ line) : '\n' ∉ indentLine pad line := by
  rw [indentLine]
  split
  · exact List.not_mem_nil
  · rw [List.mem_append, not_or]
    exact ⟨newline_not_mem_of_isBlank hpad, h⟩

theorem indented_indentLine (pad line : List Char) : Indented pad (indentLine pad line) line := by
  rw [indentLine]
  split
  case isTrue h => exact .inr ⟨rfl, by rw [h]; rfl⟩
  case isFalse => exact .inl rfl

theorem splitOn_block (hpad : isBlank pad = true) (hclosing : isBlank closing = true)
    (hnewline : ∀ line ∈ lines, '\n' ∉ line) :
    (block pad closing lines).splitOn '\n' = lines.map (indentLine pad) ++ [closing] := by
  refine List.splitOn_intercalate '\n' (fun source hsource => ?_) (by simp)
  rcases List.mem_append.mp hsource with hsource | hsource
  · obtain ⟨line, hline, rfl⟩ := List.mem_map.mp hsource
    exact newline_not_mem_indentLine hpad (hnewline line hline)
  · rw [List.mem_singleton.mp hsource]
    exact newline_not_mem_of_isBlank hclosing

/-- The text of an indented block has the lines that the block was written with. -/
theorem splitOn_dedent_block (hpad : isBlank pad = true) (hclosing : isBlank closing = true)
    (hflush : ∀ line ∈ lines, Flush line) (hnewline : ∀ line ∈ lines, '\n' ∉ line) :
    (dedent (block pad closing lines)).splitOn '\n' = lines ++ [[]] := by
  have hsources : List.Forall₂ (Indented pad) (lines.map (indentLine pad) ++ [closing])
      (lines ++ [[]]) := by
    clear hflush hnewline
    induction lines with
    | nil => exact .cons (.inr ⟨hclosing, rfl⟩) .nil
    | cons line lines ih => exact .cons (indented_indentLine pad line) ih
  have hempty : ∀ line ∈ lines ++ [[]], Flush line ∧ '\n' ∉ line := by
    intro line hline
    rcases List.mem_append.mp hline with hline | hline
    · exact ⟨hflush line hline, hnewline line hline⟩
    · rw [List.mem_singleton.mp hline]
      exact ⟨fun _ hc => absurd hc (by simp), List.not_mem_nil⟩
  rw [dedent, splitOn_block hpad hclosing hnewline, dedentLines_indented hpad hsources,
    dedentLines_of_flush fun line hline => (hempty line hline).1]
  exact List.splitOn_intercalate '\n' (fun line hline => (hempty line hline).2) (by simp)

end Blocks

end Wali.IndentedText
