import Mathlib.Data.List.Infix

/-!
Lines of fixed parts with fields between them, and texts whose lines are read by such a
form: what was printed is what is read.
-/

namespace Wali.LineForms

/-- `head field sep field … tail`: each field but the last one is read up to the first
character of the part behind it. -/
structure LineForm where
  head : List Char
  seps : List (List Char)
  tail : List Char

def fieldsText : List (List Char) → List (List Char) → List Char
  | sep :: seps, field :: fields => field ++ (sep ++ fieldsText seps fields)
  | _, fields => fields.flatten

@[simp] theorem fieldsText_nil (fields : List (List Char)) : fieldsText [] fields = fields.flatten := by
  cases fields <;> rfl

def lineText (form : LineForm) (fields : List (List Char)) : List Char :=
  form.head ++ (fieldsText form.seps fields ++ form.tail)

def readFields : List (List Char) → List Char → Option (List (List Char))
  | [], s => some [s]
  | sep :: seps, s =>
      if sep <+: s.dropWhile (sep.head? ≠ some ·) then
        (readFields seps ((s.dropWhile (sep.head? ≠ some ·)).drop sep.length)).map
          (s.takeWhile (sep.head? ≠ some ·) :: ·)
      else none

def readLine (form : LineForm) (line : List Char) : Option (List (List Char)) :=
  if form.head <+: line ∧ form.tail <:+ line.drop form.head.length then
    readFields form.seps
      ((line.drop form.head.length).take (line.length - form.head.length - form.tail.length))
  else none

/-- As many fields as the form has, each without the character that ends it -/
def Fits : List (List Char) → List (List Char) → Prop
  | [], [_] => True
  | sep :: seps, field :: fields => sep ≠ [] ∧ (∀ c ∈ field, sep.head? ≠ some c) ∧ Fits seps fields
  | _, _ => False

section Lines

variable {form : LineForm} {seps fields : List (List Char)} {line : List Char}

theorem cut_append {field sep rest : List Char} (hsep : sep ≠ [])
    (h : ∀ c ∈ field, sep.head? ≠ some c) :
    (field ++ (sep ++ rest)).takeWhile (sep.head? ≠ some ·) = field ∧
      (field ++ (sep ++ rest)).dropWhile (sep.head? ≠ some ·) = sep ++ rest := by
  obtain ⟨c, cs, rfl⟩ := List.exists_cons_of_ne_nil hsep
  have hfield : ∀ d ∈ field, decide ((c :: cs).head? ≠ some d) = true :=
    fun d hd => decide_eq_true (h d hd)
  constructor
  · rw [List.takeWhile_append_of_pos hfield]
    simp
  · rw [List.dropWhile_append_of_pos hfield]
    simp

theorem readFields_fieldsText (h : Fits seps fields) :
    readFields seps (fieldsText seps fields) = some fields := by
  induction seps generalizing fields with
  | nil =>
      match fields, h with
      | [field], _ => simp [readFields, fieldsText]
  | cons sep seps ih =>
      match fields, h with
      | field :: fields, h =>
          obtain ⟨hsep, hfield, hrest⟩ := h
          obtain ⟨htake, hdrop⟩ := @cut_append field sep (fieldsText seps fields) hsep hfield
          rw [fieldsText, readFields, htake, hdrop, if_pos (List.prefix_append _ _),
            List.drop_left, ih hrest]
          rfl

theorem readLine_append (inner : List Char) :
    readLine form (form.head ++ (inner ++ form.tail)) = readFields form.seps inner := by
  have hends : form.head <+: form.head ++ (inner ++ form.tail) ∧
      form.tail <:+ (form.head ++ (inner ++ form.tail)).drop form.head.length := by
    rw [List.drop_left]
    exact ⟨List.prefix_append _ _, List.suffix_append _ _⟩
  have hinner : ((form.head ++ (inner ++ form.tail)).drop form.head.length).take
      ((form.head ++ (inner ++ form.tail)).length - form.head.length - form.tail.length) = inner := by
    rw [List.drop_left]
    refine (congrArg (fun n => List.take n _) ?_).trans List.take_left
    simp only [List.length_append]
    omega
  rw [readLine, if_pos hends, hinner]

theorem readLine_lineText (h : Fits form.seps fields) :
    readLine form (lineText form fields) = some fields := by
  rw [lineText, readLine_append, readFields_fieldsText h]

/-- Behind the field stands another text than the part of the form. -/
theorem readFields_of_ne {field rest sep : List Char} {i : Nat} {c d : Char}
    (hfield : ∀ c ∈ field, sep.head? ≠ some c) (hhead : rest.head? = sep.head?)
    (hsep : sep[i]? = some c) (hrest : rest[i]? = some d) (hne : c ≠ d) :
    readFields (sep :: seps) (field ++ rest) = none := by
  have hdrop : (field ++ rest).dropWhile (sep.head? ≠ some ·) = rest := by
    have hall : ∀ c ∈ field, decide (sep.head? ≠ some c) = true :=
      fun c hc => decide_eq_true (hfield c hc)
    rw [List.dropWhile_append_of_pos hall]
    cases rest with
    | nil => rfl
    | cons e es => simp [← hhead]
  rw [readFields, hdrop, if_neg]
  rintro ⟨after, rfl⟩
  obtain ⟨hi, _⟩ := List.getElem?_eq_some_iff.mp hsep
  rw [List.getElem?_append_left hi, hsep] at hrest
  exact hne (Option.some.inj hrest)

theorem readLine_of_not_head (h : ¬ form.head <+: line) : readLine form line = none :=
  if_neg fun hends => h hends.1

/-- A line that differs from the head at some place -/
theorem readLine_of_ne {i : Nat} {c d : Char} (hhead : form.head[i]? = some c)
    (hline : (line)[i]? = some d) (hne : c ≠ d) : readLine form line = none := by
  refine readLine_of_not_head fun ⟨rest, hrest⟩ => hne ?_
  obtain ⟨hi, _⟩ := List.getElem?_eq_some_iff.mp hhead
  rw [← hrest, List.getElem?_append_left hi, hhead] at hline
  exact Option.some.inj hline

end Lines

section Texts

variable {form : LineForm} {seps fields : List (List Char)}

/-- The lines of a text that have the form, by their fields -/
def readLines (form : LineForm) (text : List Char) : List (List (List Char)) :=
  (text.splitOn '\n').filterMap (readLine form)

theorem readLines_append (form : LineForm) (before after : List Char) :
    readLines form (before ++ '\n' :: after) = readLines form before ++ readLines form after := by
  rw [readLines, List.splitOn_append_cons_self, List.filterMap_append]
  rfl

theorem readLines_of_newline_not_mem {line : List Char} (h : '\n' ∉ line) :
    readLines form line = (readLine form line).toList := by
  rw [readLines, List.splitOn_eq_singleton h, List.filterMap_cons]
  cases readLine form line <;> rfl

/-- An empty line does not have the form. -/
theorem readLines_intercalate (hempty : readLine form [] = none) (texts : List (List Char)) :
    readLines form (['\n'].intercalate texts) = texts.flatMap (readLines form) := by
  induction texts with
  | nil => simp [readLines, hempty]
  | cons text texts ih =>
      cases texts with
      | nil => simp
      | cons next texts =>
          rw [List.intercalate_cons_cons, List.append_assoc, List.singleton_append,
            readLines_append, ih]
          rfl

theorem newline_not_mem_fieldsText (hseps : ∀ sep ∈ seps, '\n' ∉ sep)
    (hfields : ∀ field ∈ fields, '\n' ∉ field) : '\n' ∉ fieldsText seps fields := by
  induction seps generalizing fields with
  | nil => simpa [fieldsText] using hfields
  | cons sep seps ih =>
      cases fields with
      | nil => simp [fieldsText]
      | cons field fields =>
          obtain ⟨hsep, hseps⟩ := List.forall_mem_cons.mp hseps
          obtain ⟨hfield, hfields⟩ := List.forall_mem_cons.mp hfields
          simp [fieldsText, hfield, hsep, ih hseps hfields]

/-- The parts of the form stand on one line. -/
def OneLine (form : LineForm) : Prop :=
  '\n' ∉ form.head ∧ '\n' ∉ form.tail ∧ ∀ sep ∈ form.seps, '\n' ∉ sep

instance (form : LineForm) : Decidable (OneLine form) :=
  inferInstanceAs (Decidable ('\n' ∉ form.head ∧ '\n' ∉ form.tail ∧ ∀ sep ∈ form.seps, '\n' ∉ sep))

theorem newline_not_mem_lineText (hform : OneLine form)
    (hfields : ∀ field ∈ fields, '\n' ∉ field) : '\n' ∉ lineText form fields := by
  obtain ⟨hhead, htail, hseps⟩ := hform
  simp [lineText, hhead, htail, newline_not_mem_fieldsText hseps hfields]

theorem readLines_lineText (hform : OneLine form) (hfields : ∀ field ∈ fields, '\n' ∉ field)
    (hfits : Fits form.seps fields) : readLines form (lineText form fields) = [fields] := by
  rw [readLines_of_newline_not_mem (newline_not_mem_lineText hform hfields),
    readLine_lineText hfits]
  rfl

/-- A text of entries that each have one line of the form -/
theorem readLines_entries {α : Type} {entries : List α} {render : α → List Char}
    {fieldsOf : α → List (List Char)} (hempty : readLine form [] = none)
    (h : ∀ entry ∈ entries, readLines form (render entry) = [fieldsOf entry]) :
    readLines form (['\n'].intercalate (entries.map render)) = entries.map fieldsOf := by
  rw [readLines_intercalate hempty, List.flatMap_map, List.map_eq_flatMap]
  exact List.flatMap_congr h

/-- A line begins with a word where the word stands behind the end of a line. -/
theorem newline_infix_iff {word text : List Char} (hword : '\n' ∉ word) :
    '\n' :: word <:+: '\n' :: text ↔ ∃ line ∈ text.splitOn '\n', word <+: line := by
  constructor
  · rintro ⟨before, after, heq⟩
    have hfirst : ∃ line ∈ (word ++ after).splitOn '\n', word <+: line := by
      by_cases hafter : '\n' ∈ after
      · obtain ⟨line, rest, rfl, hline⟩ := List.eq_append_cons_of_mem hafter
        have hsplit : (word ++ line).splitOn '\n' = [word ++ line] :=
          List.splitOn_eq_singleton (by simp [hword, hline])
        rw [← List.append_assoc, List.splitOn_append_cons_self, hsplit]
        exact ⟨word ++ line, by simp, List.prefix_append _ _⟩
      · rw [List.splitOn_eq_singleton (by simp [hword, hafter])]
        exact ⟨word ++ after, by simp, List.prefix_append _ _⟩
    cases before with
    | nil =>
        obtain rfl : word ++ after = text := (List.cons.inj heq).2
        exact hfirst
    | cons c before =>
        have htext : text = before ++ '\n' :: (word ++ after) := by
          simpa using (List.cons.inj heq).2.symm
        obtain ⟨line, hline, hbegins⟩ := hfirst
        rw [htext, List.splitOn_append_cons_self]
        exact ⟨line, List.mem_append_right _ hline, hbegins⟩
  · rintro ⟨line, hline, hbegins⟩
    have hlines : ∀ lines : List (List Char), line ∈ lines →
        '\n' :: line <:+: '\n' :: ['\n'].intercalate lines := by
      intro lines hline
      induction lines with
      | nil => simp at hline
      | cons first lines ih =>
          cases lines with
          | nil =>
              obtain rfl := List.mem_singleton.mp hline
              simp
          | cons next lines =>
              rw [List.intercalate_cons_cons]
              rcases List.mem_cons.mp hline with rfl | hline
              · exact ⟨[], '\n' :: ['\n'].intercalate (next :: lines), by simp⟩
              · refine (ih hline).trans ⟨'\n' :: first, [], ?_⟩
                simp
    have htext := hlines _ hline
    rw [List.intercalate_splitOn] at htext
    have hword' : '\n' :: word <+: '\n' :: line := List.cons_prefix_cons.mpr ⟨rfl, hbegins⟩
    exact hword'.isInfix.trans htext

/-- No line begins as the form does. -/
theorem readLines_of_not_prefix {word text : List Char} (hform : word <+: form.head)
    (h : ∀ line ∈ text.splitOn '\n', ¬ word <+: line) : readLines form text = [] := by
  rw [readLines, List.filterMap_eq_nil_iff]
  exact fun line hline => readLine_of_not_head fun hhead => h line hline (hform.trans hhead)

end Texts

section Items

/-- The number of items in a list that is written with commas -/
def countItems (s : List Char) : Nat := if s = [] then 0 else s.count ',' + 1

theorem countItems_intercalate {pad : List Char} (hpad : ',' ∉ pad) {items : List (List Char)}
    (hitems : ∀ item ∈ items, item ≠ [] ∧ ',' ∉ item) :
    countItems ((',' :: pad).intercalate items) = items.length := by
  have hcount : ∀ item (items : List (List Char)), (∀ item' ∈ item :: items, ',' ∉ item') →
      ((',' :: pad).intercalate (item :: items)).count ',' = items.length := by
    intro item items h
    induction items generalizing item with
    | nil => simpa using List.count_eq_zero.mpr (h item List.mem_cons_self)
    | cons next items ih =>
        obtain ⟨hitem, hrest⟩ := List.forall_mem_cons.mp h
        rw [List.intercalate_cons_cons, List.count_append, List.count_append, ih next hrest,
          List.count_eq_zero.mpr hitem, List.count_cons_self, List.count_eq_zero.mpr hpad,
          List.length_cons]
        omega
  cases items with
  | nil => rfl
  | cons item items =>
      have hne : (',' :: pad).intercalate (item :: items) ≠ [] := by
        have hitem := (hitems item List.mem_cons_self).1
        cases items with
        | nil => simpa using hitem
        | cons next items => simp [List.intercalate_cons_cons]
      rw [countItems, if_neg hne, hcount item items fun item' h => (hitems item' h).2,
        List.length_cons]

/-- The items of a list that is written with commas, each without the blanks in front -/
def readItems (s : List Char) : List (List Char) :=
  if s = [] then [] else (s.splitOn ',').map (List.dropWhile (· == ' '))

theorem splitOn_items {items : List (List Char)} (h : ∀ item ∈ items, ',' ∉ item)
    (first : List Char) (hfirst : ',' ∉ first) :
    ([',', ' '].intercalate (first :: items)).splitOn ',' = first :: items.map (' ' :: ·) := by
  induction items generalizing first with
  | nil => simpa using List.splitOn_eq_singleton hfirst
  | cons next items ih =>
      obtain ⟨hnext, hrest⟩ := List.forall_mem_cons.mp h
      have htext : [',', ' '].intercalate (first :: next :: items) =
          first ++ ',' :: ([',', ' '].intercalate ((' ' :: next) :: items)) := by
        rw [List.intercalate_cons_cons]
        cases items <;> simp [List.intercalate_cons_cons]
      have hblank : ',' ∉ ' ' :: next := by simpa using hnext
      rw [htext, List.splitOn_append_cons_self, List.splitOn_eq_singleton hfirst,
        ih hrest (' ' :: next) hblank]
      rfl

theorem readItems_intercalate {items : List (List Char)}
    (hitems : ∀ item ∈ items, item ≠ [] ∧ ',' ∉ item ∧ item.head? ≠ some ' ') :
    readItems ([',', ' '].intercalate items) = items := by
  cases items with
  | nil => rfl
  | cons first items =>
      obtain ⟨⟨hne, hfirst, _⟩, hrest⟩ := List.forall_mem_cons.mp hitems
      have htext : [',', ' '].intercalate (first :: items) ≠ [] := by
        cases items with
        | nil => simpa using hne
        | cons next items => simp [List.intercalate_cons_cons]
      have hdrop : ∀ item ∈ first :: items, (' ' :: item).dropWhile (· == ' ') = item ∧
          item.dropWhile (· == ' ') = item := by
        intro item hitem
        obtain ⟨hne, _, hhead⟩ := hitems item hitem
        obtain ⟨c, item, rfl⟩ := List.exists_cons_of_ne_nil hne
        have hc : (c == ' ') = false := by simpa using hhead
        simp [hc]
      rw [readItems, if_neg htext, splitOn_items (fun item hitem => (hrest item hitem).2.1) _ hfirst,
        List.map_cons, List.map_map, (hdrop first List.mem_cons_self).2]
      refine congrArg (first :: ·) ?_
      calc items.map (List.dropWhile (· == ' ') ∘ (' ' :: ·)) = items.map id :=
            List.map_congr_left fun item hitem => (hdrop item (List.mem_cons_of_mem _ hitem)).1
        _ = items := List.map_id items

end Items

end Wali.LineForms
