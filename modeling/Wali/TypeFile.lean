import Mathlib.Data.List.Infix
import Wali.RegexMatching
import Wali.TypeTemplates

/-!
`parse_type_file`: the dictionary that a type template yields, and the layouts of
declarations, comments and white space for which it holds the declarations.
-/

namespace Wali.TypeFile

open Wali.InsertionDict
open Wali.PythonText
open Wali.RegexMatching
open Wali.TypeTemplates

section Program

/-- `[^\s=]` -/
def isKeyChar (c : Char) : Bool := !isSpace c && c != '='

/-- `.` -/
def isLineChar (c : Char) : Bool := c != '\n'

/-- The pattern behind its first five characters. -/
def progTail : Pattern :=
  [.run 1 isKeyChar true, .run 0 isSpace false, .char '=', .run 0 isSpace false,
    .run 0 isLineChar true, .char ';']

/-- `type ([^\s=]+)\s*=\s*(.*);` -/
def prog : Pattern := lit "type ".toList ++ progTail

def pair? : List Text → Option (Text × Text)
  | [k, v] => some (k, v)
  | _ => none

def parseTypeFile (content : Text) : Dict Text Text :=
  Dict.ofList ((findall prog content).filterMap pair?)

end Program

section Grammar

/-- A part of a template: `type key before = after value;`, a comment line, or white
space. -/
inductive Item
  | decl (key before after value : Text)
  | comment (body : Text)
  | space (c : Char)

def declText (key before after value : Text) : Text :=
  "type " ++ (key ++ (before ++ '=' :: (after ++ (value ++ [';']))))

def Item.text : Item → Text
  | .decl key before after value => declText key before after value
  | .comment body => "///" ++ (body ++ ['\n'])
  | .space c => [c]

/-- The last line can be a comment without line end. -/
def lastText : Option Text → Text
  | none => []
  | some body => "///" ++ body

def fileText (items : List Item) (last : Option Text) : Text :=
  items.flatMap Item.text ++ lastText last

def Item.WellFormed : Item → Prop
  | .decl key before after value =>
      (key ≠ [] ∧ ∀ c ∈ key, isKeyChar c = true) ∧
        ((∀ c ∈ before, isSpace c = true) ∧ ∀ c ∈ after, isSpace c = true) ∧
        (';' ∉ value ∧ '\n' ∉ value) ∧
        (∀ c ∈ value.head?, isSpace c = false) ∧ ∀ c ∈ value.getLast?, isSpace c = false
  | .comment body => '\n' ∉ body
  | .space c => isSpace c = true

def Item.pair? : Item → Option (Text × Text)
  | .decl key _ _ value => some (key, value)
  | _ => none

def declared (items : List Item) : List (Text × Text) := items.filterMap Item.pair?

/-- The last declaration of `key` gives it the value `value`. -/
def LastDeclared (items : List Item) (key value : Text) : Prop :=
  ∃ front back, declared items = front ++ (key, value) :: back ∧ key ∉ back.map Prod.fst

/-- A text of the form `type key = value;` with the value on one line stands at the
head of `s`. -/
def BeginsDecl (s : Text) : Prop :=
  ∃ key before after value rest,
    s = "type " ++ (key ++ (before ++ '=' :: (after ++ (value ++ ';' :: rest)))) ∧
      key ≠ [] ∧ (∀ c ∈ key, isKeyChar c = true) ∧ (∀ c ∈ before, isSpace c = true) ∧
      (∀ c ∈ after, isSpace c = true) ∧ '\n' ∉ value

/-- No semicolon follows a declaration on its line, and no declaration begins inside a
comment. -/
def Item.CleanBefore : Item → Text → Prop
  | .decl .., rest => ';' ∉ rest.takeWhile isLineChar
  | .comment body, rest => ∀ v, v <:+ body → ¬ BeginsDecl (v ++ '\n' :: rest)
  | .space _, _ => True

def Clean (last : Option Text) : List Item → Prop
  | [] => ∀ body ∈ last, ∀ v, v <:+ body → ¬ BeginsDecl v
  | item :: items => item.CleanBefore (fileText items last) ∧ Clean last items

end Grammar

section Parsing

variable {s rest key before after value body : Text} {items : List Item} {last : Option Text}

theorem isLineChar_iff {c : Char} : isLineChar c = true ↔ c ≠ '\n' := by
  simp [isLineChar]

theorem isLineChar_of_not_mem (h : '\n' ∉ value) : ∀ c ∈ value, isLineChar c = true := by
  intro c hc
  rw [isLineChar_iff]
  rintro rfl
  exact h hc

theorem matches_progTail_iff {groups : List Text} :
    Matches progTail s groups rest ↔ ∃ key before after value,
      s = key ++ (before ++ '=' :: (after ++ (value ++ ';' :: rest))) ∧ groups = [key, value] ∧
        1 ≤ key.length ∧ (∀ c ∈ key, isKeyChar c = true) ∧ (∀ c ∈ before, isSpace c = true) ∧
        (∀ c ∈ after, isSpace c = true) ∧ (∀ c ∈ value, isLineChar c = true) := by
  constructor
  · intro h
    obtain ⟨⟩ | ⟨⟩ | ⟨key, hkey, hkeyChars, h⟩ := h
    obtain ⟨⟩ | ⟨⟩ | ⟨before, _, hbefore, h⟩ := h
    obtain ⟨⟩ | h := h
    obtain ⟨⟩ | ⟨⟩ | ⟨after, _, hafter, h⟩ := h
    obtain ⟨⟩ | ⟨⟩ | ⟨value, _, hvalue, h⟩ := h
    obtain ⟨⟩ | h := h
    obtain ⟨⟩ := h
    exact ⟨key, before, after, value, rfl, rfl, hkey, hkeyChars, hbefore, hafter, hvalue⟩
  · rintro ⟨key, before, after, value, rfl, rfl, hkey, hkeyChars, hbefore, hafter, hvalue⟩
    exact .run key hkey hkeyChars (.run before (Nat.zero_le _) hbefore (.char
      (.run after (Nat.zero_le _) hafter (.run value (Nat.zero_le _) hvalue (.char (.nil rest))))))

theorem beginsDecl_iff : BeginsDecl s ↔ matchPrefix prog s ≠ none := by
  constructor
  · rintro ⟨key, before, after, value, rest, rfl, hne, hkey, hbefore, hafter, hvalue⟩
    rw [prog, matchPrefix_lit_append]
    have hlength : 1 ≤ key.length := List.length_pos_iff.mpr hne
    exact (matches_progTail_iff.mpr ⟨key, before, after, value, rfl, rfl, hlength, hkey, hbefore,
      hafter, isLineChar_of_not_mem hvalue⟩).matchPrefix_ne_none
  · intro h
    obtain ⟨t, rfl, ht⟩ := prefix_of_matchPrefix_lit h
    obtain ⟨⟨groups, rest⟩, hmatch⟩ := Option.ne_none_iff_exists'.mp ht
    obtain ⟨key, before, after, value, rfl, _, hlength, hkey, hbefore, hafter, hline⟩ :=
      matches_progTail_iff.mp (matches_of_matchPrefix hmatch)
    refine ⟨key, before, after, value, rest, rfl, List.length_pos_iff.mp hlength, hkey, hbefore,
      hafter, fun hmem => ?_⟩
    exact isLineChar_iff.mp (hline _ hmem) rfl

instance (s : Text) : Decidable (BeginsDecl s) := decidable_of_iff _ beginsDecl_iff.symm

theorem matchPrefix_of_not_beginsDecl (h : ¬ BeginsDecl s) : matchPrefix prog s = none := by
  rwa [beginsDecl_iff, not_not] at h

theorem matchPrefix_of_ne {c : Char} (hc : c ≠ 't') (s : Text) :
    matchPrefix prog (c :: s) = none := by
  apply matchPrefix_of_not_beginsDecl
  rintro ⟨_, _, _, _, _, heq, _⟩
  exact hc (List.cons.inj heq).1

/-- The greedy group of the value ends at the last semicolon of the line, which is the
one behind the value. -/
theorem matchPrefix_value (hline : '\n' ∉ value) (hclean : ';' ∉ rest.takeWhile isLineChar) :
    matchPrefix [.run 0 isLineChar true, .char ';'] (value ++ ';' :: rest) =
      some ([value], rest) := by
  have hsplit : value ++ ';' :: rest =
      value ++ (';' :: rest.takeWhile isLineChar) ++ rest.dropWhile isLineChar := by
    rw [List.append_assoc, List.cons_append, List.takeWhile_append_dropWhile]
  have hend : ∀ c, (rest.dropWhile isLineChar).head? = some c → isLineChar c = false := by
    intro c hc
    have hnot := List.head?_dropWhile_not isLineChar rest
    rw [hc] at hnot
    exact hnot
  rw [hsplit]
  refine matchPrefix_run_append ?_ hend (Nat.zero_le _) ?_ ?_
  · intro c hc
    rcases List.mem_append.mp hc with hvalue | hc
    · exact isLineChar_of_not_mem hline c hvalue
    · rcases List.mem_cons.mp hc with rfl | hc
      · rfl
      · exact List.mem_takeWhile_imp hc
  · rw [List.cons_append, matchPrefix_char, List.takeWhile_append_dropWhile]
    rfl
  · intro u v huv hu
    obtain ⟨d, u, rfl⟩ := List.exists_cons_of_ne_nil hu
    obtain ⟨_, htake⟩ := List.cons.inj huv
    apply matchPrefix_char_of_head
    cases v with
    | nil =>
        intro hhead
        exact absurd (hend ';' hhead) (by decide)
    | cons c v =>
        rintro ⟨⟩
        exact hclean (by simp [htake])

theorem head_isSpace_append_cons {c : Char} (hbefore : ∀ d ∈ before, isSpace d = true)
    (d : Char) (hd : (before ++ c :: rest).head? = some d) : isSpace d = true ∨ d = c := by
  cases before with
  | nil => exact .inr (Option.some.inj hd).symm
  | cons e before =>
      refine .inl (hbefore d ?_)
      cases hd
      simp

theorem matchPrefix_decl (hitem : (Item.decl key before after value).WellFormed)
    (hclean : ';' ∉ rest.takeWhile isLineChar) :
    matchPrefix prog (declText key before after value ++ rest) = some ([key, value], rest) := by
  obtain ⟨⟨hne, hkey⟩, ⟨hbefore, hafter⟩, ⟨_, hline⟩, hfirst, _⟩ := hitem
  have htext : declText key before after value ++ rest =
      "type " ++ (key ++ (before ++ '=' :: (after ++ (value ++ ';' :: rest)))) := by
    simp [declText]
  have hvalueHead : ∀ c, (value ++ ';' :: rest).head? = some c → isSpace c = false := by
    intro c hc
    cases value with
    | nil =>
        cases hc
        decide
    | cons d value => exact hfirst c hc
  have hequals : ∀ c, ('=' :: (after ++ (value ++ ';' :: rest))).head? = some c →
      isSpace c = false := by
    rintro c ⟨⟩
    decide
  have hkeyEnd : ∀ c, (before ++ '=' :: (after ++ (value ++ ';' :: rest))).head? = some c →
      isKeyChar c = false := by
    intro c hc
    rcases head_isSpace_append_cons hbefore c hc with hspace | rfl
    · simp [isKeyChar, hspace]
    · decide
  rw [htext, prog, matchPrefix_lit_append]
  refine matchPrefix_run hkey hkeyEnd (List.length_pos_iff.mpr hne) ?_
  refine matchPrefix_run hbefore hequals (Nat.zero_le _) ?_
  rw [matchPrefix_char]
  exact matchPrefix_run hafter hvalueHead (Nat.zero_le _) (matchPrefix_value hline hclean)

/-- A comment in which no declaration begins is passed over. -/
theorem findall_comment (h : ∀ v, v <:+ body → ¬ BeginsDecl (v ++ rest)) :
    findall prog (("///" ++ body) ++ rest) = findall prog rest := by
  apply findall_append_of_none
  intro v hv _
  rcases List.suffix_cons_iff.mp hv with rfl | hv
  · exact matchPrefix_of_ne (by decide) _
  · rcases List.suffix_cons_iff.mp hv with rfl | hv
    · exact matchPrefix_of_ne (by decide) _
    · rcases List.suffix_cons_iff.mp hv with rfl | hv
      · exact matchPrefix_of_ne (by decide) _
      · exact matchPrefix_of_not_beginsDecl (h v hv)

theorem findall_cons_of_ne {c : Char} (hc : c ≠ 't') (rest : Text) :
    findall prog (c :: rest) = findall prog rest := by
  apply @findall_append_of_none prog rest [c]
  intro v hv hne
  rcases List.suffix_cons_iff.mp hv with rfl | hv
  · exact matchPrefix_of_ne hc _
  · exact absurd (List.suffix_nil.mp hv) hne

theorem findall_item {item : Item} (hitem : item.WellFormed) (hclean : item.CleanBefore rest) :
    (findall prog (item.text ++ rest)).filterMap pair? =
      item.pair?.toList ++ (findall prog rest).filterMap pair? := by
  cases item with
  | decl key before after value =>
      have hne : declText key before after value ≠ [] := by simp [declText]
      rw [Item.text, findall_match hne (matchPrefix_decl hitem hclean)]
      rfl
  | comment body =>
      have htext : (Item.comment body).text ++ rest = ("///" ++ body) ++ '\n' :: rest := by
        simp [Item.text]
      rw [htext, findall_comment hclean, findall_cons_of_ne (by decide)]
      rfl
  | space c =>
      have hc : c ≠ 't' := by
        rintro rfl
        exact absurd (show isSpace 't' = true from hitem) (by decide)
      rw [Item.text, List.cons_append, List.nil_append, findall_cons_of_ne hc]
      rfl

theorem findall_lastText (hclean : Clean last []) : findall prog (lastText last) = [] := by
  cases last with
  | none => rfl
  | some body =>
      have hbody : ∀ v, v <:+ body → ¬ BeginsDecl (v ++ []) := by
        intro v hv
        rw [List.append_nil]
        exact hclean body rfl v hv
      have hcomment := findall_comment hbody
      rwa [List.append_nil] at hcomment

/-- The matches are the declarations, in order. -/
theorem findall_fileText (hitems : ∀ item ∈ items, item.WellFormed) (hclean : Clean last items) :
    (findall prog (fileText items last)).filterMap pair? = declared items := by
  induction items with
  | nil =>
      have hlast : fileText [] last = lastText last := rfl
      rw [hlast, findall_lastText hclean]
      rfl
  | cons item items ih =>
      have hcons : fileText (item :: items) last = item.text ++ fileText items last := by
        simp [fileText]
      rw [hcons, findall_item (hitems item (by simp)) hclean.1,
        ih (fun item' hitem' => hitems item' (by simp [hitem'])) hclean.2]
      cases hpair : item.pair? <;> simp [declared, hpair]

/-- The dictionary of a template holds the last declaration of each name, and nothing
else, where no semicolon follows a declaration on its line and no declaration begins
inside a comment. -/
theorem parseTypeFile_eq_some_iff (hitems : ∀ item ∈ items, item.WellFormed)
    (hclean : Clean last items) :
    (parseTypeFile (fileText items last)).get? key = some value ↔
      LastDeclared items key value := by
  rw [parseTypeFile, findall_fileText hitems hclean, Dict.get?_ofList_eq_some_iff]
  rfl

end Parsing

section Templates

instance decidableForallOption (c? : Option Char) (p : Char → Prop) [DecidablePred p] :
    Decidable (∀ c ∈ c?, p c) :=
  Option.decidableForallMem c?

instance : DecidablePred Item.WellFormed
  | .decl _ _ _ _ => inferInstanceAs (Decidable ((_ ∧ _) ∧ (_ ∧ _) ∧ (_ ∧ _) ∧ _ ∧ _))
  | .comment _ => inferInstanceAs (Decidable (¬ _))
  | .space _ => inferInstanceAs (Decidable (_ = _))

instance (body : Text) (p : Text → Prop) [DecidablePred p] :
    Decidable (∀ v, v <:+ body → p v) :=
  decidable_of_iff (∀ v ∈ body.tails, p v)
    ⟨fun h v hv => h v ((List.mem_tails v body).mpr hv),
      fun h v hv => h v ((List.mem_tails v body).mp hv)⟩

instance (rest : Text) : DecidablePred fun item : Item => item.CleanBefore rest
  | .decl _ _ _ _ => inferInstanceAs (Decidable (_ ∉ _))
  | .comment body =>
      inferInstanceAs (Decidable (∀ v, v <:+ body → ¬ BeginsDecl (v ++ '\n' :: rest)))
  | .space _ => inferInstanceAs (Decidable True)

instance decidableClean (last : Option Text) : DecidablePred (Clean last)
  | [] => inferInstanceAs (Decidable (∀ body ∈ last, ∀ v, v <:+ body → ¬ BeginsDecl v))
  | item :: items =>
      have := decidableClean last items
      inferInstanceAs (Decidable (item.CleanBefore (fileText items last) ∧ Clean last items))

/-- `type key = value;` and the end of its line -/
def declLine (key value : Text) : List Item := [.decl key " " " " value, .space '\n']

/-- `primitives.wit.template` -/
def primitivesTemplate : List Item :=
  [.comment " Primitive types (64-bit Linux)", .space '\n'] ++ declLine "int" "s32" ++
    declLine "long" "s64" ++ declLine "long-long" "s64" ++ declLine "short" "s16" ++
    declLine "reg" "s64" ++ declLine "unsigned" "u32" ++ declLine "unsigned-int" "u32" ++
    declLine "unsigned-long" "u64" ++ declLine "unsigned-long-long" "u64" ++
    declLine "unsigned-short" "u16" ++ declLine "unsigned-reg" "u64" ++
    declLine "syscall-result" "s64" ++
    [.space '\n', .comment " Primitive types (Wasm32 specific)"] ++ declLine "ptr" "s32" ++
    [.comment " Function pointer = table index"] ++ declLine "ptr-func" "u32"

/-- `complex.wit.template` -/
def complexTemplate : List Item :=
  [.comment " Complex types", .space '\n', .comment " Syscall arg types"] ++
    declLine "off-t" "long-long" ++ declLine "size-t" "unsigned-int" ++
    declLine "nfds-t" "unsigned-int" ++ declLine "socklen-t" "unsigned-int" ++
    declLine "clockid-t" "int" ++ declLine "mode-t" "int" ++ declLine "uid-t" "int" ++
    declLine "pid-t" "int" ++ declLine "gid-t" "int" ++
    [.space '\n', .comment " Syscall param reference types"] ++
    declLine "rlim-t" "unsigned-long-long" ++ declLine "time-t" "s64" ++
    declLine "suseconds-t" "s64" ++ declLine "sigset-t" "Array[128, u8]" ++
    declLine "sa-family-t" "unsigned-short" ++ declLine "ino-t" "u64" ++ declLine "dev-t" "u64" ++
    declLine "nlink-t" "unsigned-reg" ++ declLine "blksize-t" "long" ++
    declLine "blkcnt-t" "s64" ++ declLine "fsblkcnt-t" "u64" ++ declLine "fsfilcnt-t" "u64" ++
    declLine "fsid-t" "Array[2, s32]" ++ declLine "uts-str" "Array[65, u8]" ++
    [.comment " Epoll data is just an anonymous 64-bit value"] ++ declLine "epoll-data-t" "s64"

theorem primitivesTemplate_wellFormed : ∀ item ∈ primitivesTemplate, item.WellFormed := by
  decide

theorem primitivesTemplate_clean : Clean none primitivesTemplate := by
  decide

theorem complexTemplate_wellFormed : ∀ item ∈ complexTemplate, item.WellFormed := by
  decide

theorem complexTemplate_clean : Clean none complexTemplate := by
  decide

/-- The templates of the repository are read as written. -/
theorem shippedTemplates_parsed :
    shippedTemplates = ⟨parseTypeFile (fileText primitivesTemplate none),
      parseTypeFile (fileText complexTemplate none)⟩ := by
  rw [parseTypeFile, parseTypeFile,
    findall_fileText primitivesTemplate_wellFormed primitivesTemplate_clean,
    findall_fileText complexTemplate_wellFormed complexTemplate_clean]
  rfl

theorem ptr_func_parsed :
    (parseTypeFile (fileText primitivesTemplate none)).get? "ptr-func" =
      some "u32".toList :=
  (parseTypeFile_eq_some_iff primitivesTemplate_wellFormed primitivesTemplate_clean).mpr
    ⟨(declared primitivesTemplate).dropLast, [], by decide, by decide⟩

/-- `type a = u8; type b = u16;` -/
def oneLine : List Item := [.decl "a" " " " " "u8", .space ' ', .decl "b" " " " " "u16"]

/-- `/// type a = u8;` -/
def commentedOut : List Item := [.comment " type a = u8;"]

/-- The value of the first declaration of a line takes in the second one, and a
declaration in a comment counts. -/
theorem layouts_misread :
    ((∀ item ∈ oneLine, item.WellFormed) ∧ LastDeclared oneLine "b" "u16" ∧
      (parseTypeFile (fileText oneLine none)).get? "b" = none) ∧
    (∀ item ∈ commentedOut, item.WellFormed) ∧ ¬ LastDeclared commentedOut "a" "u8" ∧
      (parseTypeFile (fileText commentedOut none)).get? "a" = some "u8".toList := by
  refine ⟨⟨by decide, ⟨[("a", "u8")], [], by decide, by decide⟩, by decide⟩, by decide, ?_,
    by decide⟩
  rintro ⟨front, back, heq, _⟩
  have hempty : declared commentedOut = [] := rfl
  simp [hempty] at heq

end Templates

end Wali.TypeFile
