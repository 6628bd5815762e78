import Wali.WitScoping

/-!
The names that `gen_wit_stubs` makes of C names: when they are legal WIT
identifiers and when two of them coincide.
-/

namespace Wali.WitNames

open Wali.ArgumentTypes
open Wali.InsertionDict
open Wali.PythonText
open Wali.RunOutcome
open Wali.RunOutcome.Outcome
open Wali.ScalarTypes
open Wali.SyscallTable
open Wali.TypeTemplates
open Wali.WitScoping
open Wali.WitStubs

section WitIdentifiers

/-- A letter, then letters of the same case and digits. -/
def isWord : Text → Bool
  | [] => false
  | c :: cs =>
      (c.isLower && cs.all fun d => d.isLower || d.isDigit) ||
        (c.isUpper && cs.all fun d => d.isUpper || d.isDigit)

/-- Words joined by single dashes. -/
def IsWitIdent (s : Text) : Prop :=
  ∃ words : List Text, words ≠ [] ∧ (∀ w ∈ words, isWord w = true) ∧ s = join "-" words

theorem not_mem_of_isWord {w : Text} {ch : Char} (h : isWord w = true)
    (hch : ch.isAlphanum = false) : ch ∉ w := by
  change ((ch.isUpper || ch.isLower) || ch.isDigit) = false at hch
  simp only [Bool.or_eq_false_iff] at hch
  obtain ⟨⟨hupper, hlower⟩, hdigit⟩ := hch
  cases w with
  | nil => simp
  | cons c cs =>
      simp only [isWord, Bool.or_eq_true, Bool.and_eq_true, List.all_eq_true] at h
      intro hmem
      rcases h with ⟨hc, hcs⟩ | ⟨hc, hcs⟩
      · rcases List.mem_cons.mp hmem with rfl | hmem
        · simp [hlower] at hc
        · simpa [hlower, hdigit] using hcs ch hmem
      · rcases List.mem_cons.mp hmem with rfl | hmem
        · simp [hupper] at hc
        · simpa [hupper, hdigit] using hcs ch hmem

theorem dash_not_mem_of_isWord {w : Text} (h : isWord w = true) : '-' ∉ w :=
  not_mem_of_isWord h (by decide)

theorem splitOn_join {words : List Text} (hne : words ≠ []) (h : ∀ w ∈ words, '-' ∉ w) :
    (join "-" words).splitOn '-' = words :=
  List.splitOn_intercalate '-' h hne

theorem join_splitOn (s : Text) : join "-" (s.splitOn '-') = s := List.intercalate_splitOn '-'

theorem isWitIdent_iff {s : Text} : IsWitIdent s ↔ ∀ w ∈ s.splitOn '-', isWord w = true := by
  constructor
  · rintro ⟨words, hne, hwords, rfl⟩
    rw [splitOn_join hne fun w hw => dash_not_mem_of_isWord (hwords w hw)]
    exact hwords
  · intro h
    exact ⟨s.splitOn '-', List.splitOn_ne_nil _ _, h, (join_splitOn s).symm⟩

instance (s : Text) : Decidable (IsWitIdent s) := decidable_of_iff _ isWitIdent_iff.symm

theorem isWitIdent_join_iff {words : List Text} (hne : words ≠ []) (h : ∀ w ∈ words, '-' ∉ w) :
    IsWitIdent (join "-" words) ↔ ∀ w ∈ words, isWord w = true := by
  rw [isWitIdent_iff, splitOn_join hne h]

theorem IsWitIdent.star_not_mem {s : Text} (h : IsWitIdent s) : '*' ∉ s := by
  intro hmem
  obtain ⟨words, _, hwords, rfl⟩ := h
  rcases mem_of_mem_join hmem with hdash | ⟨w, hw, hstar⟩
  · exact absurd hdash (by decide)
  · exact not_mem_of_isWord (hwords w hw) (by decide) hstar

end WitIdentifiers

section CNames

/-- An identifier of C. -/
def IsCIdent (s : Text) : Prop :=
  ∃ c cs, s = c :: cs ∧ (c.isAlpha = true ∨ c = '_') ∧ ∀ d ∈ cs, d.isAlphanum = true ∨ d = '_'

/-- Identifiers separated by single spaces, then stars. -/
def IsCType (s : Text) : Prop :=
  ∃ (idents : List Text) (n : Nat), idents ≠ [] ∧ (∀ w ∈ idents, IsCIdent w) ∧
    s = join " " idents ++ List.replicate n '*'

/-- The stars at the end of a C type, what stands before them, and its words. -/
def stars (c : Text) : Nat := (c.rtakeWhile (· = '*')).length

def pointeeName (c : Text) : Text := c.rdropWhile (· = '*')

def typeWords (c : Text) : List Text :=
  (pointeeName c).splitOnP fun d => d = ' ' || d = '_'

/-- The words of a C type, with `ptr` in front for a pointer. -/
def pointerWords (c : Text) : List Text :=
  if stars c = 0 then typeWords c else "ptr".toList :: typeWords c

def IsNameChar (d : Char) : Prop := d.isAlphanum = true ∨ d = '_'

theorem isAlphanum_bounds {d : Char} (h : d.isAlphanum = true) :
    48 ≤ d.toNat ∧ d.toNat ≤ 57 ∨ 65 ≤ d.toNat ∧ d.toNat ≤ 90 ∨
      97 ≤ d.toNat ∧ d.toNat ≤ 122 := by
  change ((decide (65 ≤ d.toNat ∧ d.toNat ≤ 90) ||
    (decide (97 ≤ d.toNat) && decide (d.toNat ≤ 122))) || d.isDigit) = true at h
  simp only [Bool.or_eq_true, Bool.and_eq_true, decide_eq_true_eq] at h
  rcases h with (h | h) | h
  · exact .inr (.inl h)
  · exact .inr (.inr h)
  · exact .inl (isDigit_bounds h)

theorem IsNameChar.isSpace {d : Char} (h : IsNameChar d) : isSpace d = false := by
  rcases h with h | rfl
  · have hbounds := isAlphanum_bounds h
    simp only [PythonText.isSpace, spaceCodes, List.contains_eq_mem, decide_eq_false_iff_not,
      List.mem_cons, List.not_mem_nil, or_false]
    omega
  · decide

theorem IsNameChar.ne {d ch : Char} (h : IsNameChar d) (hch : ¬ IsNameChar ch) : d ≠ ch := by
  rintro rfl
  exact hch h

theorem IsCIdent.nameChars {s : Text} (h : IsCIdent s) : ∀ d ∈ s, IsNameChar d := by
  obtain ⟨c, cs, rfl, hc, hcs⟩ := h
  intro d hd
  rcases List.mem_cons.mp hd with rfl | hd
  · exact hc.imp_left fun halpha => by simp [Char.isAlphanum, halpha]
  · exact hcs d hd

theorem IsCIdent.ne_nil {s : Text} (h : IsCIdent s) : s ≠ [] := by
  obtain ⟨c, cs, rfl, _⟩ := h
  exact List.cons_ne_nil c cs

/-- The part of a C type before its stars. -/
structure TypeBody (body : Text) : Prop where
  chars : ∀ d ∈ body, IsNameChar d ∨ d = ' '
  first : ∃ c cs, body = c :: cs ∧ IsNameChar c
  last : ∃ cs c, body = cs ++ [c] ∧ IsNameChar c

theorem typeBody_of_idents {idents : List Text} (hne : idents ≠ [])
    (h : ∀ w ∈ idents, IsCIdent w) : TypeBody (join " " idents) := by
  induction idents with
  | nil => exact absurd rfl hne
  | cons w idents ih =>
      have hw : IsCIdent w := h w (by simp)
      obtain ⟨c, cs, hfirst⟩ := List.exists_cons_of_ne_nil hw.ne_nil
      have hc : IsNameChar c := hw.nameChars c (by simp [hfirst])
      by_cases hidents : idents = []
      · subst hidents
        have hjoin : join " " [w] = w := List.intercalate_singleton
        rw [hjoin]
        refine ⟨fun d hd => .inl (hw.nameChars d hd), ⟨c, cs, hfirst, hc⟩, ?_⟩
        refine ⟨w.dropLast, w.getLast hw.ne_nil, (List.dropLast_append_getLast _).symm, ?_⟩
        exact hw.nameChars _ (List.getLast_mem _)
      · obtain ⟨hchars, _, hlast⟩ := ih hidents fun w' hw' => h w' (by simp [hw'])
        rw [join_cons hidents]
        refine ⟨fun d hd => ?_, ⟨c, cs ++ " ".toList ++ join " " idents, by simp [hfirst], hc⟩, ?_⟩
        · rw [List.mem_append, List.mem_append] at hd
          rcases hd with (hd | hd) | hd
          · exact .inl (hw.nameChars d hd)
          · exact .inr (List.mem_singleton.mp hd)
          · exact hchars d hd
        · obtain ⟨ds, d, hd, hlastChar⟩ := hlast
          exact ⟨w ++ " ".toList ++ ds, d, by rw [hd, ← List.append_assoc], hlastChar⟩

theorem TypeBody.not_mem {body : Text} (h : TypeBody body) {ch : Char} (hname : ¬ IsNameChar ch)
    (hspace : ch ≠ ' ') : ch ∉ body := by
  intro hmem
  rcases h.chars ch hmem with hch | hch
  · exact hname hch
  · exact hspace hch

theorem not_isNameChar_star : ¬ IsNameChar '*' := by
  unfold IsNameChar
  decide

theorem not_isNameChar_dash : ¬ IsNameChar '-' := by
  unfold IsNameChar
  decide

theorem stars_eq {body : Text} (h : TypeBody body) (n : Nat) :
    stars (body ++ List.replicate n '*') = n ∧
      pointeeName (body ++ List.replicate n '*') = body := by
  induction n with
  | zero =>
      obtain ⟨cs, c, hbody, hc⟩ := h.last
      have hne : ¬ (fun x => decide (x = '*')) c = true := by
        simpa using hc.ne not_isNameChar_star
      rw [List.replicate_zero, List.append_nil, hbody]
      unfold stars pointeeName
      rw [List.rtakeWhile_concat_neg (fun x => decide (x = '*')) cs c hne,
        List.rdropWhile_concat_neg (fun x => decide (x = '*')) cs c hne]
      exact ⟨rfl, rfl⟩
  | succ n ih =>
      rw [List.replicate_succ', ← List.append_assoc]
      unfold stars pointeeName at ih ⊢
      rw [List.rtakeWhile_concat_pos _ _ _ (by simp), List.rdropWhile_concat_pos _ _ _ (by simp)]
      exact ⟨by simp [ih.1], ih.2⟩

theorem strip_spelled {body : Text} (h : TypeBody body) (n : Nat) :
    strip (body ++ List.replicate n '*') = body ++ List.replicate n '*' := by
  refine strip_eq_self (fun c hc => ?_) (fun c hc => ?_)
  · obtain ⟨d, ds, hbody, hd⟩ := h.first
    rw [hbody] at hc
    cases hc
    exact hd.isSpace
  · cases n with
    | zero =>
        obtain ⟨ds, d, hbody, hd⟩ := h.last
        rw [hbody, List.replicate_zero, List.append_nil, List.getLast?_concat] at hc
        cases hc
        exact hd.isSpace
    | succ n =>
        rw [List.replicate_succ', ← List.append_assoc, List.getLast?_concat] at hc
        cases hc
        exact not_isSpace_star

theorem IsCType.spelled {c : Text} (h : IsCType c) :
    TypeBody (pointeeName c) ∧ c = pointeeName c ++ List.replicate (stars c) '*' := by
  obtain ⟨idents, n, hne, hidents, rfl⟩ := h
  have hbody := typeBody_of_idents hne hidents
  obtain ⟨hstars, hname⟩ := stars_eq hbody n
  rw [hstars, hname]
  exact ⟨hbody, rfl⟩

theorem IsCType.strip_eq {c : Text} (h : IsCType c) : strip c = c := by
  obtain ⟨hbody, hc⟩ := h.spelled
  rw [hc]
  exact strip_spelled hbody _

theorem IsCType.ne_nil {c : Text} (h : IsCType c) : c ≠ [] := by
  obtain ⟨hbody, hc⟩ := h.spelled
  obtain ⟨d, ds, hname, _⟩ := hbody.first
  rw [hc, hname]
  exact List.cons_ne_nil _ _

end CNames

section Mangling

/-- Dashes in place of separators: the words are the ones between the separators. -/
theorem splitOn_dashed {f : Char → Char} {isSep : Char → Bool} {s : Text}
    (hsep : ∀ c ∈ s, isSep c = true → f c = '-')
    (hother : ∀ c ∈ s, isSep c = false → f c = c ∧ c ≠ '-') :
    (s.map f).splitOn '-' = s.splitOnP isSep := by
  rw [List.splitOn_eq_splitOnP]
  induction s with
  | nil => rfl
  | cons c s ih =>
      have hrest := ih (fun d hd => hsep d (by simp [hd])) (fun d hd => hother d (by simp [hd]))
      rw [List.map_cons, List.splitOnP_cons_eq_if_modifyHead,
        List.splitOnP_cons_eq_if_modifyHead, hrest]
      cases hc : isSep c with
      | true => simp [hsep c (by simp) hc]
      | false =>
          obtain ⟨hf, hne⟩ := hother c (by simp) hc
          simp [hf, hne]

theorem kebab_eq_map (s : Text) :
    kebab s = s.map fun c => if c = ' ' ∨ c = '_' then '-' else c := by
  unfold kebab replaceChar
  rw [List.map_map]
  refine List.map_congr_left fun c _ => ?_
  by_cases hspace : c = ' '
  · simp [hspace]
  · simp [hspace]

theorem splitOn_kebab {body : Text} (h : TypeBody body) :
    (kebab body).splitOn '-' = body.splitOnP fun d => d = ' ' || d = '_' := by
  rw [kebab_eq_map]
  refine splitOn_dashed (fun c _ hc => ?_) (fun c hc hsep => ⟨?_, ?_⟩)
  · rw [if_pos (by simpa using hc)]
  · rw [if_neg (by simpa using hsep)]
  · rintro rfl
    exact h.not_mem not_isNameChar_dash (by decide) hc

theorem subset_of_mem_splitOnP {p : Char → Bool} {s w : Text} (h : w ∈ s.splitOnP p) :
    ∀ c ∈ w, c ∈ s := by
  induction s generalizing w with
  | nil =>
      rw [List.splitOnP_nil, List.mem_singleton] at h
      simp [h]
  | cons d s ih =>
      intro c hc
      rw [List.splitOnP_cons_eq_if_modifyHead] at h
      split at h
      · rcases List.mem_cons.mp h with rfl | hrest
        · cases hc
        · exact List.mem_cons_of_mem _ (ih hrest c hc)
      · obtain ⟨first, rest, hsplit⟩ := List.exists_cons_of_ne_nil (List.splitOnP_ne_nil p s)
        rw [hsplit, List.modifyHead_cons] at h
        rcases List.mem_cons.mp h with rfl | hrest
        · rcases List.mem_cons.mp hc with rfl | hc
          · simp
          · exact List.mem_cons_of_mem _ (ih (by simp [hsplit]) c hc)
        · exact List.mem_cons_of_mem _ (ih (by simp [hsplit, hrest]) c hc)

theorem dash_not_mem_typeWords {c w : Text} (h : IsCType c) (hw : w ∈ typeWords c) : '-' ∉ w :=
  fun hmem => h.spelled.1.not_mem not_isNameChar_dash (by decide)
    (subset_of_mem_splitOnP hw '-' hmem)

theorem dash_not_mem_pointerWords {c w : Text} (h : IsCType c) (hw : w ∈ pointerWords c) :
    '-' ∉ w := by
  unfold pointerWords at hw
  split at hw
  · exact dash_not_mem_typeWords h hw
  · rcases List.mem_cons.mp hw with rfl | hw
    · decide
    · exact dash_not_mem_typeWords h hw

theorem typeWords_ne_nil (c : Text) : typeWords c ≠ [] := List.splitOnP_ne_nil _ _

theorem pointerWords_ne_nil (c : Text) : pointerWords c ≠ [] := by
  unfold pointerWords
  split
  · exact typeWords_ne_nil c
  · exact List.cons_ne_nil _ _

/-- The WIT name of a C type: its words joined by dashes, and all stars but one. -/
theorem witType_eq {c : Text} (h : IsCType c) :
    witType c = join "-" (pointerWords c) ++ List.replicate (stars c - 1) '*' := by
  obtain ⟨hbody, hc⟩ := h.spelled
  have hwords : join "-" (typeWords c) = kebab (pointeeName c) := by
    rw [typeWords, ← splitOn_kebab hbody, join_splitOn]
  have hkebab : kebab c = kebab (pointeeName c) ++ List.replicate (stars c) '*' := by
    conv_lhs => rw [hc]
    simp [kebab, replaceChar]
  rw [witType, h.strip_eq, pointerWords]
  unfold witArg
  rcases Nat.eq_zero_or_eq_succ_pred (stars c) with hzero | hsucc
  · have hend : ¬ EndsIn '*' c := by
      rw [hc, hzero, List.replicate_zero, List.append_nil]
      exact fun hstar => hbody.not_mem not_isNameChar_star (by decide)
        (List.mem_of_getLast? hstar)
    rw [if_neg (fun hstar => hend ((endsIn_kebab_iff c).mp hstar)), if_pos hzero, hwords, hkebab,
      hzero]
  · have hend : EndsIn '*' c := by
      rw [hc, hsucc, List.replicate_succ', ← List.append_assoc]
      exact List.getLast?_concat
    rw [if_pos ((endsIn_kebab_iff c).mpr hend), if_neg (by omega),
      join_cons (typeWords_ne_nil c), hwords, hkebab, hsucc, List.replicate_succ',
      ← List.append_assoc, List.dropLast_concat, ← List.append_assoc]
    rfl

theorem isWitIdent_witType_iff {c : Text} (h : IsCType c) :
    IsWitIdent (witType c) ↔ stars c ≤ 1 ∧ ∀ w ∈ typeWords c, isWord w = true := by
  have hptr : (∀ w ∈ pointerWords c, isWord w = true) ↔ ∀ w ∈ typeWords c, isWord w = true := by
    have hword : isWord "ptr".toList = true := by decide
    unfold pointerWords
    split
    · exact Iff.rfl
    · rw [List.forall_mem_cons, and_iff_right hword]
  rw [witType_eq h]
  constructor
  · intro hident
    have hstars : stars c ≤ 1 := by
      by_contra hmany
      obtain ⟨n, hn⟩ := Nat.exists_eq_succ_of_ne_zero (show stars c - 1 ≠ 0 by omega)
      refine hident.star_not_mem ?_
      rw [hn]
      simp
    rw [show stars c - 1 = 0 by omega, List.replicate_zero, List.append_nil,
      isWitIdent_join_iff (pointerWords_ne_nil c) fun w hw => dash_not_mem_pointerWords h hw,
      hptr] at hident
    exact ⟨hstars, hident⟩
  · rintro ⟨hstars, hwords⟩
    rw [show stars c - 1 = 0 by omega, List.replicate_zero, List.append_nil,
      isWitIdent_join_iff (pointerWords_ne_nil c) fun w hw => dash_not_mem_pointerWords h hw,
      hptr]
    exact hwords

theorem witType_eq_iff {c c' : Text} (h : IsCType c) (h' : IsCType c') (hstars : stars c ≤ 1)
    (hstars' : stars c' ≤ 1) : witType c = witType c' ↔ pointerWords c = pointerWords c' := by
  rw [witType_eq h, witType_eq h', show stars c - 1 = 0 by omega,
    show stars c' - 1 = 0 by omega, List.replicate_zero, List.append_nil, List.append_nil]
  refine ⟨fun heq => ?_, fun heq => by rw [heq]⟩
  rw [← splitOn_join (pointerWords_ne_nil c) fun w hw => dash_not_mem_pointerWords h hw, heq,
    splitOn_join (pointerWords_ne_nil c') fun w hw => dash_not_mem_pointerWords h' hw]

/-- The name of the method of a C function, `SYS` in front. -/
def sysName (f : WitFunc) : Text := "SYS-" ++ f.name

theorem dash_not_mem_cIdent {fn : Text} (h : IsCIdent fn) : '-' ∉ fn :=
  fun hmem => not_isNameChar_dash (h.nameChars '-' hmem)

theorem splitOn_name {f : WitFunc} (h : IsCIdent f.fnName) :
    f.name.splitOn '-' = f.fnName.splitOn '_' := by
  show (replaceChar '_' '-' f.fnName).splitOn '-' = f.fnName.splitOnP (· == '_')
  refine splitOn_dashed (fun c _ hc => ?_) (fun c hc hsep => ⟨?_, ?_⟩)
  · rw [if_pos (by simpa using hc)]
  · rw [if_neg (by simpa using hsep)]
  · rintro rfl
    exact dash_not_mem_cIdent h hc

theorem isWitIdent_sysName_iff {f : WitFunc} (h : IsCIdent f.fnName) :
    IsWitIdent (sysName f) ↔ ∀ w ∈ f.fnName.splitOn '_', isWord w = true := by
  have hword : isWord "SYS".toList = true := by decide
  have hsys : sysName f = join "-" ("SYS".toList :: f.name.splitOn '-') := by
    rw [join_cons (List.splitOn_ne_nil _ _), join_splitOn]
    rfl
  have hdash : ∀ w ∈ "SYS".toList :: f.name.splitOn '-', '-' ∉ w := by
    intro w hw hmem
    rcases List.mem_cons.mp hw with rfl | hw
    · exact absurd hmem (by decide)
    · rw [splitOn_name h, List.splitOn_eq_splitOnP] at hw
      exact dash_not_mem_cIdent h (subset_of_mem_splitOnP hw '-' hmem)
  rw [hsys, isWitIdent_join_iff (List.cons_ne_nil _ _) hdash, List.forall_mem_cons,
    and_iff_right hword, splitOn_name h]

theorem name_injective {f f' : WitFunc} (h : IsCIdent f.fnName) (h' : IsCIdent f'.fnName)
    (heq : f.name = f'.name) : f.fnName = f'.fnName := by
  have hwords : f.fnName.splitOn '_' = f'.fnName.splitOn '_' := by
    rw [← splitOn_name h, ← splitOn_name h', heq]
  calc f.fnName = ['_'].intercalate (f.fnName.splitOn '_') := (List.intercalate_splitOn '_').symm
    _ = ['_'].intercalate (f'.fnName.splitOn '_') := by rw [hwords]
    _ = f'.fnName := List.intercalate_splitOn '_'

end Mangling

section Tables

variable {rows : List (SyscallRow Cell)} {recordContent : Text} {wit : WitInterface}

/-- A table of C functions with C types as arguments. -/
structure CTable (rows : List (SyscallRow Cell)) : Prop where
  functions : ∀ sc ∈ rows, ∃ fn, sc.fnName = .str fn ∧ IsCIdent fn
  arguments : ∀ sc ∈ rows, ∃ cells : List Text, argCells sc = returns (cells.map Cell.str) ∧
    ∀ c ∈ cells, IsCType c

/-- The names in the file are legal, those of distinct functions and of distinct
argument types distinct. -/
structure LegalNames (rows : List (SyscallRow Cell)) (wit : WitInterface) : Prop where
  functions : ∀ f ∈ wit.methods, IsWitIdent (sysName f)
  signatures : ∀ f ∈ wit.methods, ∀ t ∈ f.argTypes, IsWitIdent t
  pointers : ∀ p ∈ wit.uniqPtrTypes, IsWitIdent p
  types : ∀ k ∈ wit.compTypes.keys, IsWitIdent k
  functionsApart : ∀ f ∈ wit.methods, ∀ f' ∈ wit.methods, f.fnName ≠ f'.fnName →
    sysName f ≠ sysName f'
  typesApart : ∀ c c', ArgumentCell rows c → ArgumentCell rows c' → c ≠ c' →
    witType c ≠ witType c'

/-- What the C names of a table must look like. -/
structure Kebabable (rows : List (SyscallRow Cell)) : Prop where
  functionWords : ∀ sc ∈ rows, sc.nargs.truthy = true → ∀ fn, sc.fnName = .str fn →
    ∀ w ∈ fn.splitOn '_', isWord w = true
  oneStar : ∀ c, ArgumentCell rows c → stars c ≤ 1
  words : ∀ c, ArgumentCell rows c → ∀ w ∈ typeWords c, isWord w = true
  apart : ∀ c c', ArgumentCell rows c → ArgumentCell rows c' → c ≠ c' →
    pointerWords c ≠ pointerWords c'

theorem CTable.cType (h : CTable rows) {c : Text} (hc : ArgumentCell rows c) : IsCType c := by
  obtain ⟨sc, hsc, cells, hcells, hmem⟩ := hc
  obtain ⟨cells', hcells', htypes⟩ := h.arguments sc hsc
  exact htypes c (argCells_inj hcells hcells' ▸ hmem)

theorem CTable.finishes (h : CTable rows) (T : Templates) (recordContent : Text) :
    (genWitStubs T recordContent rows).Finishes := by
  refine finishes_genWitStubs_iff.mpr fun sc hsc => ?_
  obtain ⟨fn, hfn, _⟩ := h.functions sc hsc
  obtain ⟨cells, hcells, htypes⟩ := h.arguments sc hsc
  refine ⟨by simp [hfn, Cell.IsStr], cells, hcells, fun c hc => ?_⟩
  rw [(htypes c hc).strip_eq]
  exact (htypes c hc).ne_nil

theorem CTable.cIdent (h : CTable rows) {T : Templates} {f : WitFunc}
    (hwit : genWitStubs T recordContent rows = returns wit) (hf : f ∈ wit.methods) :
    IsCIdent f.fnName := by
  obtain ⟨sc, hsc, _, hfn, _⟩ := (mem_methods_iff hwit).mp hf
  obtain ⟨fn, hfn', hident⟩ := h.functions sc hsc
  rw [hfn, Cell.str.injEq] at hfn'
  exact hfn' ▸ hident

/-- The single-word basic types of the shipped template and their values are legal. -/
theorem isWitIdent_writtenType_iff {t : Text} (h : ' ' ∉ t) :
    IsWitIdent (writtenType shippedTemplates t) ↔ IsWitIdent t := by
  by_cases hbasic : t ∈ basicTypes shippedTemplates
  · have hkeys : ∀ k ∈ (basicTypes shippedTemplates).keys, ' ' ∉ k → IsWitIdent k := by decide
    have hvalues : ∀ v ∈ (basicTypes shippedTemplates).values, IsWitIdent v := by decide
    obtain ⟨v, hv⟩ := Dict.mem_iff_get?.mp hbasic
    rw [writtenType, Dict.getD_of_get? _ hv]
    exact iff_of_true (hvalues v (Dict.mem_values_of_get? hv)) (hkeys t hbasic h)
  · rw [writtenType, Dict.getD_of_not_mem _ hbasic]

theorem space_not_mem_witType (c : Text) : ' ' ∉ witType c :=
  not_mem_witType (by decide) (space_not_mem_kebab _)

theorem isWitIdent_compTypes :
    ∀ k ∈ (compTypes shippedTemplates).keys, IsWitIdent k := by
  decide +kernel

/-- The names are legal and distinct if and only if the C names can be written in
kebab case. -/
theorem wit_names_legal_iff (recordContent : Text) (rows : List (SyscallRow Cell))
    (h : CTable rows) :
    (∃ wit, genWitStubs shippedTemplates recordContent rows = returns wit ∧
        LegalNames rows wit) ↔ Kebabable rows := by
  constructor
  · rintro ⟨wit, hwit, hlegal⟩
    have htypes : ∀ c, ArgumentCell rows c → stars c ≤ 1 ∧ ∀ w ∈ typeWords c, isWord w = true := by
      intro c hc
      obtain ⟨f, hf, hlisted⟩ := hc.listed hwit
      have hsignature := hlegal.signatures f hf _ hlisted
      rw [isWitIdent_writtenType_iff (space_not_mem_witType c)] at hsignature
      exact (isWitIdent_witType_iff (h.cType hc)).mp hsignature
    refine ⟨fun sc hsc hsupported fn hfn => ?_, fun c hc => (htypes c hc).1,
      fun c hc => (htypes c hc).2, fun c c' hc hc' hne heq => ?_⟩
    · obtain ⟨cells, hcells, _⟩ := h.arguments sc hsc
      have hf : ⟨sc.nr.text, fn, cells.map fun c => writtenType shippedTemplates (witType c),
          cells⟩ ∈ wit.methods :=
        (mem_methods_iff hwit).mpr ⟨sc, hsc, hsupported, hfn, rfl, hcells, rfl⟩
      exact (isWitIdent_sysName_iff (h.cIdent hwit hf)).mp (hlegal.functions _ hf)
    · refine hlegal.typesApart c c' hc hc' hne ?_
      exact (witType_eq_iff (h.cType hc) (h.cType hc') (htypes c hc).1 (htypes c' hc').1).mpr heq
  · intro hnames
    obtain ⟨wit, hwit⟩ := h.finishes shippedTemplates recordContent
    have hlegal : ∀ c, ArgumentCell rows c → IsWitIdent (witType c) := fun c hc =>
      (isWitIdent_witType_iff (h.cType hc)).mpr ⟨hnames.oneStar c hc, hnames.words c hc⟩
    refine ⟨wit, hwit, ?_⟩
    exact
      { functions := fun f hf => by
          obtain ⟨sc, hsc, hsupported, hfn, _⟩ := (mem_methods_iff hwit).mp hf
          exact (isWitIdent_sysName_iff (h.cIdent hwit hf)).mpr
            (hnames.functionWords sc hsc hsupported _ hfn)
        signatures := fun f hf t ht => by
          obtain ⟨hargs, hcells⟩ := origin_of_mem_methods hwit hf
          rw [hargs] at ht
          obtain ⟨c, hc, rfl⟩ := List.mem_map.mp ht
          rw [isWitIdent_writtenType_iff (space_not_mem_witType c)]
          exact hlegal c (hcells c hc)
        pointers := fun p hp => by
          obtain ⟨_, c, hc, rfl⟩ := (mem_uniqPtrTypes hwit).mp hp
          exact hlegal c hc
        types := by
          obtain ⟨_, _, hcomp, _⟩ := genWitStubs_eq_returns_iff.mp hwit
          rw [hcomp]
          exact isWitIdent_compTypes
        functionsApart := fun f hf f' hf' hne heq =>
          hne (name_injective (h.cIdent hwit hf) (h.cIdent hwit hf')
            (List.append_cancel_left heq))
        typesApart := fun c c' hc hc' hne heq =>
          hnames.apart c c' hc hc' hne
            ((witType_eq_iff (h.cType hc) (h.cType hc') (hnames.oneStar c hc)
              (hnames.oneStar c' hc')).mp heq) }

theorem cTable_oneArgRow {c : Text} (h : IsCType c) : CTable [oneArgRow c] := by
  have hcells : argCells (oneArgRow c) = returns ([c].map Cell.str) := rfl
  refine ⟨fun sc hsc => ?_, fun sc hsc => ?_⟩
  · rw [List.mem_singleton.mp hsc]
    exact ⟨"probe", rfl, 'p', "robe".toList, rfl, by decide, by decide⟩
  · rw [List.mem_singleton.mp hsc]
    exact ⟨[c], hcells, by simpa using h⟩

theorem isCType_char (n : Nat) : IsCType ("char" ++ List.replicate n '*') := by
  refine ⟨["char"], n, by simp, ?_, rfl⟩
  simp only [List.mem_singleton, forall_eq]
  exact ⟨'c', "har".toList, rfl, by decide, by decide⟩

/-- Two functions, with a pointer and with a type of two words. -/
def pairTable : List (SyscallRow Cell) :=
  [oneArgRow "char*", { oneArgRow "unsigned int" with syscall := .str "set_tid_address" }]

theorem isCType_unsignedInt : IsCType "unsigned int" := by
  refine ⟨["unsigned", "int"], 0, by simp, ?_, rfl⟩
  simp only [List.mem_pair, forall_eq_or_imp, forall_eq]
  exact ⟨⟨'u', "nsigned".toList, rfl, by decide, by decide⟩,
    ⟨'i', "nt".toList, rfl, by decide, by decide⟩⟩

theorem cTable_pairTable : CTable pairTable := by
  refine ⟨fun sc hsc => ?_, fun sc hsc => ?_⟩
  · rcases List.mem_pair.mp hsc with rfl | rfl
    · exact ⟨"probe", rfl, 'p', "robe".toList, rfl, by decide, by decide⟩
    · exact ⟨"set_tid_address", rfl, 's', "et_tid_address".toList, rfl, by decide, by decide⟩
  · rcases List.mem_pair.mp hsc with rfl | rfl
    · exact ⟨["char*"], rfl, by simpa using isCType_char 1⟩
    · exact ⟨["unsigned int"], rfl, by simpa using isCType_unsignedInt⟩

theorem eq_of_argumentCell_pairTable {c : Text} (h : ArgumentCell pairTable c) :
    c = "char*" ∨ c = "unsigned int" := by
  obtain ⟨sc, hsc, cells, hcells, hc⟩ := h
  rcases List.mem_pair.mp hsc with rfl | rfl
  · have hargs : argCells (oneArgRow "char*") = returns (["char*".toList].map Cell.str) := rfl
    rw [argCells_inj hcells hargs] at hc
    exact .inl (List.mem_singleton.mp hc)
  · rw [argCells_inj hcells (rfl : _ = returns (["unsigned int".toList].map Cell.str))] at hc
    exact .inr (List.mem_singleton.mp hc)

/-- Different functions and types of one table with legal names of their own. -/
theorem pairTable_names_legal :
    ∃ wit, genWitStubs shippedTemplates [] pairTable = returns wit ∧ LegalNames pairTable wit := by
  refine (wit_names_legal_iff [] pairTable cTable_pairTable).mpr ⟨?_, ?_, ?_, ?_⟩
  · intro sc hsc _ fn hfn
    rcases List.mem_pair.mp hsc with rfl | rfl
    · cases hfn
      decide
    · cases hfn
      decide
  · intro c hc
    rcases eq_of_argumentCell_pairTable hc with rfl | rfl <;> decide
  · intro c hc
    rcases eq_of_argumentCell_pairTable hc with rfl | rfl <;> decide
  · intro c c' hc hc' hne
    rcases eq_of_argumentCell_pairTable hc with rfl | rfl <;>
      rcases eq_of_argumentCell_pairTable hc' with rfl | rfl
    · exact absurd rfl hne
    · decide
    · decide
    · exact absurd rfl hne

/-- One star of a pointer to pointers stays in the name. -/
theorem char_pointer_pointer_illegal :
    CTable [oneArgRow "char**"] ∧
      ∃ wit, genWitStubs shippedTemplates [] [oneArgRow "char**"] = returns wit ∧
        wit.uniqPtrTypes = ["ptr-char*".toList] ∧ ¬ LegalNames [oneArgRow "char**"] wit := by
  refine ⟨cTable_oneArgRow (isCType_char 2), _, rfl, by decide, fun h => ?_⟩
  have hident : IsWitIdent "ptr-char*" := h.pointers _ (by decide)
  exact absurd hident.star_not_mem (by decide)

end Tables

end Wali.WitNames
