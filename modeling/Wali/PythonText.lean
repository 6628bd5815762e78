import Mathlib.Data.Char
import Mathlib.Data.List.Basic
import Mathlib.Data.List.Dedup
import Mathlib.Data.List.DropRight
import Mathlib.Data.List.Lex
import Mathlib.Data.List.Sort

/-!
Python strings as lists of code points, with the string operations, the
conversion `int(s)` and the exceptions that the scripts meet.
-/

namespace Wali.PythonText

abbrev Text := List Char

instance : Coe String Text := ⟨String.toList⟩

inductive PyErr
  | keyError (key : Text)
  | indexError
  | typeError
  | valueError
  | attributeError
  | overflowError
  | memoryError
  | fileNotFoundError
  | systemExit (code : Nat)
  deriving DecidableEq

/-- Code points `c` with `chr(c).isspace()`. -/
def spaceCodes : List Nat :=
  [0x9, 0xa, 0xb, 0xc, 0xd, 0x1c, 0x1d, 0x1e, 0x1f, 0x20, 0x85, 0xa0, 0x1680,
    0x2000, 0x2001, 0x2002, 0x2003, 0x2004, 0x2005, 0x2006, 0x2007, 0x2008,
    0x2009, 0x200a, 0x2028, 0x2029, 0x202f, 0x205f, 0x3000]

def isSpace (c : Char) : Bool := spaceCodes.contains c.toNat

/-- Code points of the digits zero of the decimal digit blocks (category Nd);
each is followed by the other nine digits of its block. -/
def decimalZeros : List Nat :=
  [0x30, 0x660, 0x6f0, 0x7c0, 0x966, 0x9e6, 0xa66, 0xae6, 0xb66, 0xbe6, 0xc66,
    0xce6, 0xd66, 0xde6, 0xe50, 0xed0, 0xf20, 0x1040, 0x1090, 0x17e0, 0x1810,
    0x1946, 0x19d0, 0x1a80, 0x1a90, 0x1b50, 0x1bb0, 0x1c40, 0x1c50, 0xa620,
    0xa8d0, 0xa900, 0xa9d0, 0xa9f0, 0xaa50, 0xabf0, 0xff10, 0x104a0, 0x10d30,
    0x11066, 0x110f0, 0x11136, 0x111d0, 0x112f0, 0x11450, 0x114d0, 0x11650,
    0x116c0, 0x11730, 0x118e0, 0x11950, 0x11c50, 0x11d50, 0x11da0, 0x16a60,
    0x16ac0, 0x16b50, 0x1d7ce, 0x1d7d8, 0x1d7e2, 0x1d7ec, 0x1d7f6, 0x1e140,
    0x1e2f0, 0x1e950, 0x1fbf0]

def decimalDigit? (c : Char) : Option Nat :=
  (decimalZeros.find? fun z => z ≤ c.toNat && c.toNat < z + 10).map
    fun z => c.toNat - z

def replaceChar (old new : Char) (s : Text) : Text :=
  s.map fun c => if c = old then new else c

def strip (s : Text) : Text := (s.dropWhile isSpace).rdropWhile isSpace

def startsWith (pre s : Text) : Prop := pre <+: s

instance (pre s : Text) : Decidable (startsWith pre s) :=
  inferInstanceAs (Decidable (pre <+: s))

def endsWith (suf s : Text) : Prop := suf <:+ s

instance (suf s : Text) : Decidable (endsWith suf s) :=
  inferInstanceAs (Decidable (suf <:+ s))

instance (x : Text) (names : List Text) : Decidable (x ∈ names) := inferInstance

/-- Goes through the text, not through all characters. -/
instance (s : Text) (p : Char → Prop) [DecidablePred p] : Decidable (∀ c ∈ s, p c) :=
  List.decidableBAll p s

/-- `s[-1] == c` on a string that is not empty. -/
def EndsIn (c : Char) (s : Text) : Prop := s.getLast? = some c

instance (c : Char) (s : Text) : Decidable (EndsIn c s) :=
  inferInstanceAs (Decidable (s.getLast? = some c))

def join (sep : Text) (parts : List Text) : Text := sep.intercalate parts

/-- `sorted(set(names))` -/
def sorted (names : List Text) : List Text := names.dedup.insertionSort (· ≤ ·)

def natText (n : Nat) : Text := toString n

def intText (z : Int) : Text := toString z

/-- `'{: >width}'.format(s)` -/
def padLeft (width : Nat) (s : Text) : Text :=
  List.replicate (width - s.length) ' ' ++ s

/-- White space that `int` skips on either side of a number: the four ASCII
separators of `isspace` are not among it. -/
def isIntSpace (c : Char) : Bool := isSpace c && !(0x1c ≤ c.toNat && c.toNat ≤ 0x1f)

/-- Digits of a number literal, single underscores allowed between digits. -/
def digitsFrom (acc : Nat) : Text → Option Nat
  | [] => some acc
  | '_' :: c :: cs => (decimalDigit? c).bind fun d => digitsFrom (10 * acc + d) cs
  | c :: cs => (decimalDigit? c).bind fun d => digitsFrom (10 * acc + d) cs

def unsignedInt : Text → Option Nat
  | [] => none
  | c :: cs => (decimalDigit? c).bind fun d => digitsFrom d cs

/-- `int(s)`; `none` is the `ValueError`. The limit on the number of digits is not part of it. -/
def parseInt (s : Text) : Option Int :=
  match (s.dropWhile isIntSpace).rdropWhile isIntSpace with
  | '-' :: digits => (unsignedInt digits).map fun n => -(n : Int)
  | '+' :: digits => (unsignedInt digits).map Int.ofNat
  | digits => (unsignedInt digits).map Int.ofNat

example : parseInt " 5_0\n" = some 50 := by decide
example : parseInt "-" = none := by decide

/-- `sys.maxsize`, the largest index and length of a list. -/
def maxsize : Nat := 9223372036854775807

def IsNumeral (s : Text) : Prop := s ≠ [] ∧ ∀ c ∈ s, c.isDigit = true

instance (s : Text) : Decidable (IsNumeral s) :=
  inferInstanceAs (Decidable (s ≠ [] ∧ ∀ c ∈ s, c.isDigit = true))

def numeralValueFrom (acc : Nat) (s : Text) : Nat :=
  s.foldl (fun value c => 10 * value + (c.toNat - 48)) acc

def numeralValue (s : Text) : Nat := numeralValueFrom 0 s

theorem join_cons {parts : List Text} (h : parts ≠ []) (sep first : Text) :
    join sep (first :: parts) = first ++ sep ++ join sep parts :=
  List.intercalate_cons_of_ne_nil h

theorem mem_of_mem_join {sep : Text} {parts : List Text} {c : Char} (h : c ∈ join sep parts) :
    c ∈ sep ∨ ∃ part ∈ parts, c ∈ part := by
  induction parts with
  | nil => simp [join] at h
  | cons part parts ih =>
      by_cases hparts : parts = []
      · subst hparts
        exact .inr ⟨part, by simp, by simpa [join] using h⟩
      · rw [join_cons hparts, List.mem_append, List.mem_append] at h
        rcases h with (hpart | hsep) | hrest
        · exact .inr ⟨part, by simp, hpart⟩
        · exact .inl hsep
        · refine (ih hrest).imp_right ?_
          rintro ⟨part', hpart', hc⟩
          exact ⟨part', by simp [hpart'], hc⟩

theorem strip_eq_self {s : Text} (hfirst : ∀ c, s.head? = some c → isSpace c = false)
    (hlast : ∀ c, s.getLast? = some c → isSpace c = false) : strip s = s := by
  have hdrop : s.dropWhile isSpace = s := by
    cases s with
    | nil => rfl
    | cons c cs => exact List.dropWhile_cons_of_neg (by simp [hfirst c rfl])
  rw [strip, hdrop, List.rdropWhile_eq_self_iff]
  intro hl
  rw [hlast _ (List.getLast?_eq_some_getLast hl)]
  exact Bool.false_ne_true

theorem mem_sorted {names : List Text} {x : Text} : x ∈ sorted names ↔ x ∈ names := by
  rw [sorted, List.mem_insertionSort, List.mem_dedup]

theorem nodup_sorted (names : List Text) : (sorted names).Nodup :=
  (List.perm_insertionSort _ _).nodup_iff.mpr (List.nodup_dedup names)

theorem isDigit_of_mem_natText {n : Nat} {c : Char} (h : c ∈ natText n) : c.isDigit = true := by
  have hdigits : natText n = Nat.toDigits 10 n := Nat.toList_repr
  rw [hdigits] at h
  exact Nat.isDigit_of_mem_toDigits (by decide) (by decide) h

theorem numeralValue_natText (n : Nat) : numeralValue (natText n) = n := by
  have hdigits : natText n = Nat.toDigits 10 n := Nat.toList_repr
  rw [hdigits]
  exact Nat.ofDigitChars_ten_toDigits

theorem natText_injective {m n : Nat} (h : natText m = natText n) : m = n := by
  have hdigits : ∀ k : Nat, natText k = Nat.toDigits 10 k := fun k => Nat.toList_repr
  rw [hdigits, hdigits] at h
  have hvalue := congrArg (fun s => Nat.ofDigitChars 10 s 0) h
  simpa using hvalue

theorem not_isSpace_star : isSpace '*' = false := by decide

theorem endsIn_iff_concat {c : Char} {s : Text} :
    EndsIn c s ↔ ∃ body, s = body ++ [c] := by
  rw [EndsIn, List.getLast?_eq_some_iff]

theorem not_endsIn_nil (c : Char) : ¬ EndsIn c [] := by
  simp [EndsIn]

theorem replaceChar_eq_nil_iff {old new : Char} {s : Text} :
    replaceChar old new s = [] ↔ s = [] := by
  simp [replaceChar]

theorem replaceChar_of_not_mem {old new : Char} {s : Text} (h : old ∉ s) :
    replaceChar old new s = s := by
  unfold replaceChar
  conv_rhs => rw [← List.map_id s]
  apply List.map_congr_left
  intro c hc
  have hne : c ≠ old := fun heq => h (heq ▸ hc)
  simp [hne]

theorem not_mem_replaceChar {old new : Char} (hne : old ≠ new) (s : Text) :
    old ∉ replaceChar old new s := by
  intro h
  obtain ⟨c, _, hc⟩ := List.mem_map.mp h
  by_cases heq : c = old
  · rw [if_pos heq] at hc
    exact hne hc.symm
  · rw [if_neg heq] at hc
    exact heq hc

theorem endsIn_replaceChar_iff {old new c : Char} (hold : c ≠ old) (hnew : c ≠ new)
    (s : Text) : EndsIn c (replaceChar old new s) ↔ EndsIn c s := by
  unfold EndsIn replaceChar
  rw [List.getLast?_map]
  cases s.getLast? with
  | none => simp
  | some d =>
      simp only [Option.map_some, Option.some.injEq]
      by_cases hd : d = old
      · subst hd
        simp [hnew.symm, hold.symm]
      · simp [hd]

theorem getLast?_dropWhile {p : Char → Bool} {s : Text} {c : Char}
    (hlast : s.getLast? = some c) (hc : p c = false) :
    (s.dropWhile p).getLast? = some c := by
  obtain ⟨body, rfl⟩ := List.getLast?_eq_some_iff.mp hlast
  rw [List.dropWhile_append]
  split
  · simp [List.dropWhile, hc]
  · simp

theorem endsIn_strip {c : Char} {s : Text} (hc : isSpace c = false)
    (h : EndsIn c s) : EndsIn c (strip s) := by
  have hdrop : (s.dropWhile isSpace).getLast? = some c := getLast?_dropWhile h hc
  obtain ⟨body, hbody⟩ := List.getLast?_eq_some_iff.mp hdrop
  unfold strip EndsIn
  rw [hbody, List.rdropWhile_concat_neg _ _ _ (by simp [hc])]
  simp

section Numerals

theorem isDigit_bounds {c : Char} (h : c.isDigit = true) :
    48 ≤ c.toNat ∧ c.toNat ≤ 57 := by
  simp only [Char.isDigit, Bool.and_eq_true, decide_eq_true_eq] at h
  exact ⟨h.1, h.2⟩

theorem decimalDigit?_of_isDigit {c : Char} (h : c.isDigit = true) :
    decimalDigit? c = some (c.toNat - 48) := by
  obtain ⟨hlo, hhi⟩ := isDigit_bounds h
  have hfound : (0x30 ≤ c.toNat && c.toNat < 0x30 + 10) = true := by
    simp only [Bool.and_eq_true, decide_eq_true_eq]
    omega
  have hzeros : decimalZeros = 0x30 :: decimalZeros.tail := rfl
  rw [decimalDigit?, hzeros, List.find?_cons, hfound]
  rfl

theorem digitsFrom_of_isDigit {s : Text} (h : ∀ c ∈ s, c.isDigit = true) (acc : Nat) :
    digitsFrom acc s = some (numeralValueFrom acc s) := by
  induction s generalizing acc with
  | nil => rfl
  | cons c cs ih =>
      have hc : c.isDigit = true := h c (by simp)
      have hcs : ∀ c' ∈ cs, c'.isDigit = true := fun c' hc' => h c' (by simp [hc'])
      have hne : c ≠ '_' := by
        rintro rfl
        exact absurd hc (by decide)
      rw [digitsFrom.eq_3 acc c cs (fun _ _ heq _ => hne heq),
        decimalDigit?_of_isDigit hc, Option.bind_some, ih hcs]
      rfl

theorem isSpace_of_isDigit {c : Char} (h : c.isDigit = true) : isSpace c = false := by
  obtain ⟨hlo, hhi⟩ := isDigit_bounds h
  simp only [isSpace, spaceCodes, List.contains_eq_mem, decide_eq_false_iff_not,
    List.mem_cons, List.not_mem_nil, or_false]
  omega

theorem isIntSpace_of_isDigit {c : Char} (h : c.isDigit = true) :
    isIntSpace c = false := by
  simp [isIntSpace, isSpace_of_isDigit h]

theorem parseInt_of_isNumeral {s : Text} (h : IsNumeral s) :
    parseInt s = some (numeralValue s : Int) := by
  obtain ⟨hne, hdigits⟩ := h
  obtain ⟨c, cs, rfl⟩ := List.exists_cons_of_ne_nil hne
  have hc : c.isDigit = true := hdigits c (by simp)
  have hstrip : ((c :: cs).dropWhile isIntSpace).rdropWhile isIntSpace = c :: cs := by
    rw [List.dropWhile_cons_of_neg (by simp [isIntSpace_of_isDigit hc]),
      List.rdropWhile_eq_self_iff]
    intro hl
    have hlast := hdigits _ (List.getLast_mem hl)
    simp [isIntSpace_of_isDigit hlast]
  have hminus : c ≠ '-' := by
    rintro rfl
    exact absurd hc (by decide)
  have hplus : c ≠ '+' := by
    rintro rfl
    exact absurd hc (by decide)
  have hunsigned : unsignedInt (c :: cs) = some (numeralValue (c :: cs)) := by
    rw [unsignedInt, decimalDigit?_of_isDigit hc, Option.bind_some,
      digitsFrom_of_isDigit fun c' hc' => hdigits c' (by simp [hc'])]
    simp [numeralValue, numeralValueFrom]
  unfold parseInt
  rw [hstrip]
  split
  · next digits heq => exact absurd (List.cons.inj heq).1 hminus
  · next digits heq => exact absurd (List.cons.inj heq).1 hplus
  · rw [hunsigned]
    rfl

end Numerals

end Wali.PythonText
