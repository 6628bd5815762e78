import Wali.InsertionDict
import Wali.PythonText
import Wali.RunOutcome

/-!
Python's `str.format` with keyword arguments. Fields that are a bare name are
formatted here; fields with an attribute, an index, a conversion or a format
specification are left to a parameter.
-/

namespace Wali.PythonFormat

open Wali.InsertionDict
open Wali.PythonText
open Wali.RunOutcome
open Wali.RunOutcome.Outcome

/-- Text of the field at the head of a template, and the number of characters of the
field. -/
abbrev SpecialFields := Dict Text Text → Text → Outcome PyErr (Text × Nat)

/-- What stands at the head of a template; `len` is the number of its characters. -/
inductive Piece
  | character (c : Char) (len : Nat)
  | keyword (name : Text) (len : Nat)
  | special
  | failure (error : PyErr)

/-- Characters that end the name of a field. -/
def fieldEnds : List Char := ['\x7b', '\x7d', '[', ':', '!']

/-- The number in front of a field name, read digit by digit. -/
def fieldNumber (name : Text) : Nat :=
  (name.map decimalDigit?).takeWhile (·.isSome) |>.foldl (fun n digit => 10 * n + digit.getD 0) 0

/-- The field whose opening brace stands before the text. A number is no index when it is too
large, and is told so before a character behind it is seen; any other number finds no
argument in its place. -/
def readField (s : Text) : Piece :=
  let name := s.takeWhile (· ∉ fieldEnds)
  match s.drop name.length with
  | '\x7d' :: _ =>
      if '.' ∈ name then .special
      else if maxsize < fieldNumber name then .failure .valueError
      else if name.all fun c => (decimalDigit? c).isSome then .failure .indexError
      else .keyword name (name.length + 2)
  | '\x7b' :: _ => .failure .valueError
  | [] => .failure .valueError
  | _ => .special

def readPiece : Text → Piece
  | '\x7b' :: '\x7b' :: _ => .character '\x7b' 2
  | '\x7d' :: '\x7d' :: _ => .character '\x7d' 2
  | '\x7d' :: _ => .failure .valueError
  | '\x7b' :: s => readField s
  | c :: _ => .character c 1
  | [] => .failure .valueError

variable (special : SpecialFields) (kwargs : Dict Text Text)

/-- The result from a position of the template on; `skip` characters of the current
piece are still to pass. -/
def formatFrom : (skip : Nat) → Text → Outcome PyErr Text
  | _, [] => returns []
  | skip + 1, _ :: cs => formatFrom skip cs
  | 0, c :: cs =>
      match readPiece (c :: cs) with
      | .character d len => do
          let rest ← formatFrom (len - 1) cs
          returns (d :: rest)
      | .keyword name len =>
          match kwargs.get? name with
          | some value => do
              let rest ← formatFrom (len - 1) cs
              returns (value ++ rest)
          | none => raises (.keyError name)
      | .special => do
          let field ← special kwargs (c :: cs)
          let rest ← formatFrom (field.2 - 1) cs
          returns (field.1 ++ rest)
      | .failure error => raises error

/-- `s.format(**kwargs)` -/
def format (s : Text) : Outcome PyErr Text := formatFrom special kwargs 0 s

def IsBrace (c : Char) : Prop := c = '\x7b' ∨ c = '\x7d'

instance (c : Char) : Decidable (IsBrace c) := inferInstanceAs (Decidable (c = _ ∨ c = _))

variable {special kwargs} {s rest name value : Text}

theorem formatFrom_drop (skip : Nat) (s : Text) :
    formatFrom special kwargs skip s = format special kwargs (s.drop skip) := by
  induction s generalizing skip with
  | nil => cases skip <;> rfl
  | cons c s ih =>
      cases skip with
      | zero => rfl
      | succ skip => exact ih skip

theorem readPiece_of_not_isBrace {c : Char} (hc : ¬ IsBrace c) (s : Text) :
    readPiece (c :: s) = .character c 1 := by
  obtain ⟨hopen, hclose⟩ := not_or.mp hc
  unfold readPiece
  split
  · next heq => exact absurd (List.cons.inj heq).1 hopen
  · next heq => exact absurd (List.cons.inj heq).1 hclose
  · next heq => exact absurd (List.cons.inj heq).1 hclose
  · next heq => exact absurd (List.cons.inj heq).1 hopen
  · next heq =>
      cases heq
      rfl
  · next heq => cases heq

theorem format_literal_append (h : ∀ c ∈ s, ¬ IsBrace c) (rest : Text) :
    format special kwargs (s ++ rest) =
      (format special kwargs rest >>= fun t => returns (s ++ t)) := by
  induction s with
  | nil =>
      rw [List.nil_append]
      cases format special kwargs rest <;> rfl
  | cons c s ih =>
      have hc : ¬ IsBrace c := h c (by simp)
      have hs : formatFrom special kwargs (1 - 1) (s ++ rest) =
          (format special kwargs rest >>= fun t => returns (s ++ t)) :=
        ih fun d hd => h d (by simp [hd])
      rw [List.cons_append, format, formatFrom, readPiece_of_not_isBrace hc]
      simp only [hs]
      cases format special kwargs rest <;> rfl

theorem format_literal (h : ∀ c ∈ s, ¬ IsBrace c) : format special kwargs s = returns s := by
  have hnil : format special kwargs [] = returns [] := rfl
  have happend := @format_literal_append special kwargs s h []
  rw [List.append_nil, hnil, returns_bind, List.append_nil] at happend
  exact happend

/-- A name that a bare field can have. -/
structure IsKeyword (name : Text) : Prop where
  not_mem_ends : ∀ c ∈ name, c ∉ fieldEnds
  not_mem_dot : '.' ∉ name
  number_le : fieldNumber name ≤ maxsize
  not_number : (name.all fun c => (decimalDigit? c).isSome) = false

instance (name : Text) : Decidable (IsKeyword name) :=
  decidable_of_iff ((∀ c ∈ name, c ∉ fieldEnds) ∧ '.' ∉ name ∧ fieldNumber name ≤ maxsize ∧
    (name.all fun c => (decimalDigit? c).isSome) = false)
    ⟨fun h => ⟨h.1, h.2.1, h.2.2.1, h.2.2.2⟩, fun h => ⟨h.1, h.2, h.3, h.4⟩⟩

theorem readField_keyword (h : IsKeyword name) (rest : Text) :
    readField (name ++ '\x7d' :: rest) = .keyword name (name.length + 2) := by
  have htake : (name ++ '\x7d' :: rest).takeWhile (· ∉ fieldEnds) = name := by
    rw [List.takeWhile_append_of_pos]
    · simp [fieldEnds]
    · intro c hc
      simpa using h.not_mem_ends c hc
  unfold readField
  simp only [htake, List.drop_left, h.not_mem_dot, not_lt.mpr h.number_le, h.not_number, if_false]
  simp

theorem format_keyword_append (h : IsKeyword name) (hvalue : kwargs.get? name = some value)
    (rest : Text) :
    format special kwargs ('\x7b' :: (name ++ '\x7d' :: rest)) =
      (format special kwargs rest >>= fun t => returns (value ++ t)) := by
  obtain ⟨c, cs, rfl⟩ : ∃ c cs, name = c :: cs := by
    refine List.exists_cons_of_ne_nil ?_
    rintro rfl
    exact absurd h.not_number (by decide)
  have hc : c ≠ '\x7b' := by
    rintro rfl
    exact absurd (h.not_mem_ends '\x7b' (by simp)) (by decide)
  have hread : readPiece ('\x7b' :: (c :: cs ++ '\x7d' :: rest)) =
      readField (c :: cs ++ '\x7d' :: rest) := by
    rw [List.cons_append, readPiece]
    intro t heq
    exact hc (List.cons.inj heq).1
  rw [format, formatFrom, hread, readField_keyword h]
  simp only [hvalue, formatFrom_drop]
  simp

section Pieces

/-- A field that names an attribute. -/
def ReadsAttribute (s : Text) : Prop :=
  ∃ pre name rest, s = pre ++ '\x7b' :: (name ++ '.' :: rest) ∧
    ∀ c ∈ name, c ∉ ":!\x7d".toList

/-- What is known of fields that are not a bare name: they end with their closing
brace, the text after it does not matter, and where neither the arguments hold braces
nor an attribute is read, the text holds none. -/
structure FieldRule (special : SpecialFields) : Prop where
  closed : ∀ {kwargs s t len}, special kwargs s = returns (t, len) →
    ∃ field rest, s = field ++ '\x7d' :: rest ∧ len = field.length + 1
  determined : ∀ {kwargs field rest t}, special kwargs (field ++ '\x7d' :: rest) =
      returns (t, field.length + 1) →
    ∀ rest', special kwargs (field ++ '\x7d' :: rest') = returns (t, field.length + 1)
  plain : ∀ {kwargs field rest t}, special kwargs (field ++ '\x7d' :: rest) =
      returns (t, field.length + 1) →
    (∀ name value, kwargs.get? name = some value → ∀ c ∈ value, ¬ IsBrace c) →
    ¬ ReadsAttribute field → ∀ c ∈ t, ¬ IsBrace c

variable (special kwargs)

/-- Text of the piece at the head of a template, and the number of its characters. -/
def headText (s : Text) : Outcome PyErr (Text × Nat) :=
  match readPiece s with
  | .character c len => returns ([c], len)
  | .keyword name len =>
      ofOption (.keyError name) ((kwargs.get? name).map fun value => (value, len))
  | .special => special kwargs s
  | .failure error => raises error

variable {special kwargs} {t tail : Text} {len : Nat}

theorem format_cons (c : Char) (s : Text) :
    format special kwargs (c :: s) =
      (headText special kwargs (c :: s) >>= fun piece =>
        format special kwargs (s.drop (piece.2 - 1)) >>= fun t => returns (piece.1 ++ t)) := by
  rw [format, formatFrom, headText]
  cases readPiece (c :: s) with
  | character d len => simp [formatFrom_drop]
  | keyword name len =>
      cases hvalue : kwargs.get? name <;> simp [formatFrom_drop, hvalue, ofOption]
  | special => simp only [formatFrom_drop]
  | failure error => rfl

theorem readPiece_open {s : Text} (h : s.head? ≠ some '\x7b') :
    readPiece ('\x7b' :: s) = readField s := by
  cases s with
  | nil => rfl
  | cons c s =>
      rw [readPiece]
      rintro t heq
      exact h (by rw [(List.cons.inj heq).1, List.head?_cons])

theorem readPiece_close {s : Text} (h : s.head? ≠ some '\x7d') :
    readPiece ('\x7d' :: s) = .failure .valueError := by
  cases s with
  | nil => rfl
  | cons c s =>
      rw [readPiece]
      rintro t heq
      exact h (by rw [(List.cons.inj heq).1, List.head?_cons])

theorem eq_of_readField (h : readField s = .keyword name len) :
    ∃ rest, s = name ++ '\x7d' :: rest ∧ len = name.length + 2 := by
  unfold readField at h
  simp only at h
  split at h
  · next rest hdrop =>
      split at h
      · cases h
      split at h
      · cases h
      split at h
      · cases h
      · cases h
        refine ⟨rest, ?_, rfl⟩
        rw [← hdrop]
        exact (List.prefix_iff_eq_append.mp (List.takeWhile_prefix _)).symm
  all_goals cases h

theorem takeWhile_append_of_mem {s : Text} {c : Char} (hc : c ∈ fieldEnds) (h : c ∈ s)
    (tail : Text) :
    (s ++ tail).takeWhile (· ∉ fieldEnds) = s.takeWhile (· ∉ fieldEnds) := by
  rw [List.takeWhile_append, if_neg]
  intro hlength
  have hall := List.takeWhile_eq_self_iff.mp
    ((List.takeWhile_prefix (· ∉ fieldEnds)).eq_of_length hlength)
  exact absurd hc (by simpa using hall c h)

theorem readField_append {s : Text} (h : '\x7d' ∈ s) (tail : Text) :
    readField (s ++ tail) = readField s := by
  have htake := takeWhile_append_of_mem (by decide) h tail
  have hlt : (s.takeWhile (· ∉ fieldEnds)).length < s.length := by
    refine lt_of_le_of_ne (List.takeWhile_prefix _).length_le fun hlength => ?_
    have hall := List.takeWhile_eq_self_iff.mp
      ((List.takeWhile_prefix (· ∉ fieldEnds)).eq_of_length hlength)
    exact absurd (hall _ h) (by decide)
  obtain ⟨c, cs, hdrop⟩ :=
    List.exists_cons_of_ne_nil (List.drop_eq_nil_iff.not.mpr (not_le.mpr hlt))
  unfold readField
  simp only [htake]
  rw [List.drop_append_of_le_length hlt.le, hdrop]
  rcases eq_or_ne c '\x7d' with rfl | hclose
  · rfl
  · rcases eq_or_ne c '\x7b' with rfl | hopen
    · rfl
    · simp [hclose, hopen]

theorem readField_ne_character (s : Text) (c : Char) : readField s ≠ .character c len := by
  intro h
  unfold readField at h
  simp only at h
  split at h
  · split_ifs at h
  all_goals cases h

/-- A piece that opens a field ends behind a closing brace. -/
theorem exists_close_of_headText (hrule : FieldRule special) {piece : Text × Nat}
    (hhead : s.head? ≠ some '\x7b')
    (h : headText special kwargs ('\x7b' :: s) = returns piece) :
    ∃ field rest, s = field ++ '\x7d' :: rest ∧ piece.2 = field.length + 2 := by
  rw [headText, readPiece_open hhead] at h
  cases hread : readField s with
  | character c len => exact absurd hread (readField_ne_character s c)
  | keyword name len =>
      obtain ⟨rest, hs, hlen⟩ := eq_of_readField hread
      simp only [hread, ofOption_eq_returns_iff] at h
      obtain ⟨value, _, rfl⟩ := Option.map_eq_some_iff.mp h
      exact ⟨name, rest, hs, hlen⟩
  | special =>
      simp only [hread] at h
      obtain ⟨field, rest, hs, hlen⟩ := hrule.closed h
      cases field with
      | nil => exact absurd (List.cons.inj hs).1 (by decide)
      | cons c field => exact ⟨field, rest, (List.cons.inj hs).2, hlen⟩
  | failure error =>
      simp only [hread] at h
      cases h

theorem exists_of_append_eq {c : Char} {field : Text} (hc : c ∉ tail)
    (h : s ++ tail = field ++ c :: rest) : ∃ rest', s = field ++ c :: rest' := by
  rcases List.append_eq_append_iff.mp h with ⟨u, _, htail⟩ | ⟨u, hs, hrest⟩
  · exact absurd (by simp [htail]) hc
  · cases u with
    | nil =>
        rw [List.nil_append] at hrest
        exact absurd (hrest ▸ List.mem_cons_self) hc
    | cons d u =>
        obtain ⟨rfl, _⟩ := List.cons.inj hrest
        exact ⟨u, hs⟩

/-- Literal text behind a piece does not change the piece. -/
theorem headText_append (hrule : FieldRule special) (hs : s ≠ [])
    (htail : ∀ c ∈ tail, ¬ IsBrace c) {piece : Text × Nat}
    (h : headText special kwargs (s ++ tail) = returns piece) :
    headText special kwargs s = returns piece ∧ 1 ≤ piece.2 ∧ piece.2 ≤ s.length := by
  obtain ⟨c, cs, rfl⟩ := List.exists_cons_of_ne_nil hs
  have hhead : ∀ b, IsBrace b → cs.head? ≠ some b → (cs ++ tail).head? ≠ some b := by
    intro b hb hcs hmem
    rw [List.head?_append] at hmem
    cases cs with
    | nil => exact htail b (List.mem_of_mem_head? hmem) hb
    | cons d ds => exact hcs hmem
  by_cases hbrace : IsBrace c
  · rcases hbrace with rfl | rfl
    · by_cases hdouble : cs.head? = some '\x7b'
      · obtain ⟨ds, rfl⟩ := List.head?_eq_some_iff.mp hdouble
        cases h
        simp [headText, readPiece]
      · have hopen := hhead _ (.inl rfl) hdouble
        obtain ⟨field, rest, hcs, hlen⟩ := exists_close_of_headText hrule hopen h
        obtain ⟨rest', rfl⟩ := exists_of_append_eq (fun hmem => htail _ hmem (.inr rfl)) hcs
        have hclose : '\x7d' ∈ field ++ '\x7d' :: rest' := by simp
        refine ⟨?_, by omega, by simp only [List.length_append, List.length_cons]; omega⟩
        rw [List.cons_append, headText, readPiece_open hopen, readField_append hclose] at h
        rw [headText, readPiece_open hdouble]
        cases hread : readField (field ++ '\x7d' :: rest') with
        | special =>
            simp only [hread] at h ⊢
            obtain ⟨text, len⟩ := piece
            change len = ('\x7b' :: field).length + 1 at hlen
            subst hlen
            have happend : '\x7b' :: (field ++ '\x7d' :: rest' ++ tail) =
                ('\x7b' :: field) ++ '\x7d' :: (rest' ++ tail) := by simp
            rw [happend] at h
            exact hrule.determined h rest'
        | _ => simpa only [hread] using h
    · by_cases hdouble : cs.head? = some '\x7d'
      · obtain ⟨ds, rfl⟩ := List.head?_eq_some_iff.mp hdouble
        cases h
        simp [headText, readPiece]
      · rw [List.cons_append, headText, readPiece_close (hhead _ (.inr rfl) hdouble)] at h
        cases h
  · rw [List.cons_append, headText, readPiece_of_not_isBrace hbrace] at h
    cases h
    rw [headText, readPiece_of_not_isBrace hbrace]
    simp

theorem format_append_literal (hrule : FieldRule special) (htail : ∀ c ∈ tail, ¬ IsBrace c)
    (h : format special kwargs (s ++ tail) = returns t) :
    ∃ r, format special kwargs s = returns r ∧ t = r ++ tail := by
  induction hlength : s.length using Nat.strong_induction_on generalizing s t with
  | _ n ih =>
      cases s with
      | nil =>
          rw [List.nil_append, format_literal htail] at h
          cases h
          exact ⟨[], rfl, rfl⟩
      | cons c s =>
          rw [List.cons_append, format_cons, bind_eq_returns_iff] at h
          obtain ⟨piece, hpiece, h⟩ := h
          obtain ⟨t', ht', hconcat⟩ := bind_eq_returns_iff.mp h
          cases hconcat
          rw [← List.cons_append] at hpiece
          obtain ⟨hpiece, hpos, hle⟩ := headText_append hrule (by simp) htail hpiece
          rw [List.length_cons] at hle hlength
          have hshort : (s.drop (piece.2 - 1)).length < n := by
            rw [List.length_drop]
            omega
          rw [List.drop_append_of_le_length (by omega)] at ht'
          obtain ⟨r, hr, rfl⟩ := ih _ hshort ht' rfl
          refine ⟨piece.1 ++ r, ?_, by simp⟩
          rw [format_cons, hpiece, returns_bind, hr, returns_bind]

end Pieces

section Braces

variable {t : Text}

def braces (s : Text) : Nat := s.countP fun c => decide (IsBrace c)

/-- Number of braces with the same brace behind them. -/
def doubled : Text → Nat
  | [] => 0
  | c :: s => (if IsBrace c ∧ s.head? = some c then 1 else 0) + doubled s

theorem braces_eq_zero_iff : braces s = 0 ↔ ∀ c ∈ s, ¬ IsBrace c := by
  simp [braces, List.countP_eq_zero]

theorem braces_append (s t : Text) : braces (s ++ t) = braces s + braces t :=
  List.countP_append

theorem doubled_drop (n : Nat) (s : Text) : doubled (s.drop n) ≤ doubled s := by
  induction s generalizing n with
  | nil => simp
  | cons c s ih =>
      cases n with
      | zero => exact le_rfl
      | succ n =>
          have hn := ih n
          rw [List.drop_succ_cons, doubled]
          omega

/-- The last brace of a text is not doubled in it. -/
theorem doubled_le (s : Text) : doubled s ≤ braces s - 1 := by
  induction s with
  | nil => exact le_rfl
  | cons c s ih =>
      have hcons : braces (c :: s) = braces s + if IsBrace c then 1 else 0 := by
        simp [braces, List.countP_cons]
      rw [doubled, hcons]
      by_cases hc : IsBrace c ∧ s.head? = some c
      · have hpos : 0 < braces s :=
          List.countP_pos_iff.mpr ⟨c, List.mem_of_mem_head? hc.2, by simpa using hc.1⟩
        rw [if_pos hc, if_pos hc.1]
        omega
      · rw [if_neg hc]
        omega

theorem doubled_append_cons {c : Char} (hc : ¬ IsBrace c) (s t : Text) :
    doubled (s ++ c :: t) = doubled s + doubled t := by
  induction s with
  | nil => simp [doubled, hc]
  | cons d s ih =>
      have hhead : (IsBrace d ∧ (s ++ c :: t).head? = some d) ↔
          (IsBrace d ∧ s.head? = some d) := by
        cases s with
        | nil =>
            simp only [List.nil_append, List.head?_cons, List.head?_nil, Option.some.injEq,
              reduceCtorEq, and_false, iff_false, not_and]
            rintro hd rfl
            exact hc hd
        | cons e s => rfl
      rw [List.cons_append, doubled, doubled, ih, if_congr hhead rfl rfl]
      omega

theorem ReadsAttribute.of_infix (h : ReadsAttribute s) (hs : s <:+: t) : ReadsAttribute t := by
  obtain ⟨pre, name, rest, rfl, hname⟩ := h
  obtain ⟨before, after, rfl⟩ := hs
  exact ⟨before ++ pre, name, rest ++ after, by simp, hname⟩

theorem headText_braces_le (hrule : FieldRule special)
    (hkwargs : ∀ name value, kwargs.get? name = some value → ∀ c ∈ value, ¬ IsBrace c)
    {c : Char} (hattribute : ¬ ReadsAttribute (c :: s)) {piece : Text × Nat}
    (h : headText special kwargs (c :: s) = returns piece) :
    braces piece.1 + doubled (s.drop (piece.2 - 1)) ≤ doubled (c :: s) := by
  have hdrop := doubled_drop (piece.2 - 1) s
  have hle : doubled s ≤ doubled (c :: s) := doubled_drop 1 (c :: s)
  have hplain : (∀ d ∈ piece.1, ¬ IsBrace d) →
      braces piece.1 + doubled (s.drop (piece.2 - 1)) ≤ doubled (c :: s) := by
    intro hpiece
    rw [braces_eq_zero_iff.mpr hpiece]
    omega
  have hdouble : IsBrace c → s.head? = some c → piece = ([c], 2) →
      braces piece.1 + doubled (s.drop (piece.2 - 1)) ≤ doubled (c :: s) := by
    rintro hc hs rfl
    have hone : braces [c] ≤ 1 := List.countP_le_length
    have hrest := doubled_drop 1 s
    rw [doubled, if_pos ⟨hc, hs⟩]
    change braces [c] + doubled (s.drop 1) ≤ 1 + doubled s
    omega
  by_cases hbrace : IsBrace c
  · by_cases hs : s.head? = some c
    · obtain ⟨ds, rfl⟩ := List.head?_eq_some_iff.mp hs
      refine hdouble hbrace hs ?_
      rcases hbrace with rfl | rfl
      · cases h
        rfl
      · cases h
        rfl
    · rcases hbrace with rfl | rfl
      · obtain ⟨field, rest, rfl, hlen⟩ := exists_close_of_headText hrule hs h
        apply hplain
        rw [headText, readPiece_open hs] at h
        cases hread : readField (field ++ '\x7d' :: rest) with
        | character c len => exact absurd hread (readField_ne_character _ c)
        | keyword name len =>
            simp only [hread, ofOption_eq_returns_iff] at h
            obtain ⟨value, hvalue, rfl⟩ := Option.map_eq_some_iff.mp h
            exact hkwargs name value hvalue
        | special =>
            simp only [hread] at h
            obtain ⟨text, len⟩ := piece
            change len = ('\x7b' :: field).length + 1 at hlen
            subst hlen
            rw [← List.cons_append] at h
            refine hrule.plain h hkwargs fun hfield => hattribute (hfield.of_infix ?_)
            exact ⟨[], '\x7d' :: rest, by simp⟩
        | failure error =>
            simp only [hread] at h
            cases h
      · rw [headText, readPiece_close hs] at h
        cases h
  · rw [headText, readPiece_of_not_isBrace hbrace] at h
    cases h
    exact hplain (by simpa using hbrace)

/-- Arguments without braces and fields without attributes add no braces: a formatted
text has at most one brace for each doubled one. -/
theorem braces_format_le (hrule : FieldRule special)
    (hkwargs : ∀ name value, kwargs.get? name = some value → ∀ c ∈ value, ¬ IsBrace c)
    (hattribute : ¬ ReadsAttribute s) (h : format special kwargs s = returns t) :
    braces t ≤ doubled s := by
  induction hlength : s.length using Nat.strong_induction_on generalizing s t with
  | _ n ih =>
      cases s with
      | nil =>
          cases h
          exact le_rfl
      | cons c s =>
          rw [format_cons, bind_eq_returns_iff] at h
          obtain ⟨piece, hpiece, h⟩ := h
          obtain ⟨t', ht', hconcat⟩ := bind_eq_returns_iff.mp h
          cases hconcat
          have hstep := headText_braces_le hrule hkwargs hattribute hpiece
          have hrest : ¬ ReadsAttribute (s.drop (piece.2 - 1)) := fun hread =>
            hattribute (hread.of_infix
              ((List.drop_suffix _ _).isInfix.trans (List.suffix_cons c s).isInfix))
          have hshort : (s.drop (piece.2 - 1)).length < n := by
            rw [← hlength, List.length_drop, List.length_cons]
            omega
          have hle := ih _ hshort hrest ht' rfl
          rw [braces_append]
          omega

end Braces

end Wali.PythonFormat
