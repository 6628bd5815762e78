import Mathlib.Data.List.Basic
import Mathlib.Data.List.TakeWhile

/-!
Regular expressions that are a sequence of given characters and of greedy runs of a
character class, with the search order of a backtracking matcher: every run is tried
at its greatest length first.
-/

namespace Wali.RegexMatching

variable {α : Type*}

/-- `run least p captured` is `p{least,}`, a group if `captured`. -/
inductive Piece
  | char (c : Char)
  | run (least : Nat) (p : Char → Bool) (captured : Bool)

abbrev Pattern := List Piece

def lit (s : List Char) : Pattern := s.map .char

/-- The first value of `f` from `n` down to `0`. -/
def firstDown (f : Nat → Option α) : Nat → Option α
  | 0 => f 0
  | n + 1 => (f (n + 1)).or (firstDown f n)

/-- Groups of the match at the head of a text, and the text behind the match. -/
def matchPrefix : Pattern → List Char → Option (List (List Char) × List Char)
  | [], s => some ([], s)
  | .char _ :: _, [] => none
  | .char c :: ps, d :: s => if d = c then matchPrefix ps s else none
  | .run least p captured :: ps, s =>
      firstDown
        (fun k =>
          if k < least then none
          else (matchPrefix ps (s.drop k)).map fun m =>
            (if captured then s.take k :: m.1 else m.1, m.2))
        (s.takeWhile p).length

/-- The text `s` has a match of the pattern at its head, whatever the search order. -/
inductive Matches : Pattern → List Char → List (List Char) → List Char → Prop
  | nil (s) : Matches [] s [] s
  | char {c ps s groups rest} : Matches ps s groups rest →
      Matches (.char c :: ps) (c :: s) groups rest
  | run {least p captured ps s groups rest} (a : List Char) (hleast : least ≤ a.length)
      (ha : ∀ c ∈ a, p c = true) : Matches ps s groups rest →
      Matches (.run least p captured :: ps) (a ++ s)
        (if captured then a :: groups else groups) rest

/-- A character outside all matches, or the groups of a match. -/
inductive Found
  | char (c : Char)
  | groups (gs : List (List Char))

/-- The matches from a position on, for a pattern without matches of the empty text;
`skip` characters of the current match are still to pass. -/
def scanFrom (ps : Pattern) : (skip : Nat) → List Char → List Found
  | _, [] => []
  | skip + 1, _ :: s => scanFrom ps skip s
  | 0, c :: s =>
      match matchPrefix ps (c :: s) with
      | some (groups, rest) => .groups groups :: scanFrom ps (s.length - rest.length) s
      | none => .char c :: scanFrom ps 0 s

def scan (ps : Pattern) (s : List Char) : List Found := scanFrom ps 0 s

def Found.groups? : Found → Option (List (List Char))
  | .char _ => none
  | .groups gs => some gs

/-- `re.findall(ps, s)`, all groups of each match -/
def findall (ps : Pattern) (s : List Char) : List (List (List Char)) :=
  (scan ps s).filterMap Found.groups?

def Found.replace (repl : List (List Char) → List Char) : Found → List Char
  | .char c => [c]
  | .groups gs => repl gs

/-- `re.sub(ps, repl, s)` -/
def subst (ps : Pattern) (repl : List (List Char) → List Char) (s : List Char) : List Char :=
  (scan ps s).flatMap (Found.replace repl)

section FirstDown

variable {f : Nat → Option α} {k n : Nat} {x : α}

theorem firstDown_eq_some (h : firstDown f n = some x) : ∃ k ≤ n, f k = some x := by
  induction n with
  | zero => exact ⟨0, le_rfl, h⟩
  | succ n ih =>
      rw [firstDown, Option.or_eq_some_iff] at h
      rcases h with h | ⟨_, h⟩
      · exact ⟨n + 1, le_rfl, h⟩
      · obtain ⟨k, hk, hfk⟩ := ih h
        exact ⟨k, by omega, hfk⟩

theorem firstDown_of_last (hk : k ≤ n) (hfk : f k = some x)
    (hnone : ∀ j, k < j → j ≤ n → f j = none) : firstDown f n = some x := by
  induction n with
  | zero =>
      obtain rfl : k = 0 := by omega
      exact hfk
  | succ n ih =>
      rw [firstDown]
      rcases Nat.lt_or_eq_of_le hk with hlt | rfl
      · rw [hnone (n + 1) hlt le_rfl, Option.none_or]
        exact ih (by omega) fun j hj hjn => hnone j hj (by omega)
      · rw [hfk, Option.some_or]

theorem exists_firstDown (hk : k ≤ n) (hfk : f k ≠ none) :
    ∃ j y, k ≤ j ∧ j ≤ n ∧ f j = some y ∧ firstDown f n = some y := by
  induction n with
  | zero =>
      obtain rfl : k = 0 := by omega
      obtain ⟨y, hy⟩ := Option.ne_none_iff_exists'.mp hfk
      exact ⟨0, y, le_rfl, le_rfl, hy, hy⟩
  | succ n ih =>
      rw [firstDown]
      cases hlast : f (n + 1) with
      | some y => exact ⟨n + 1, y, hk, le_rfl, hlast, rfl⟩
      | none =>
          have hle : k ≤ n := by
            rcases Nat.lt_or_eq_of_le hk with hlt | rfl
            · omega
            · exact absurd hlast hfk
          obtain ⟨j, y, hkj, hjn, hy, hfirst⟩ := ih hle
          exact ⟨j, y, hkj, by omega, hy, by rw [Option.none_or, hfirst]⟩

theorem firstDown_ne_none (hk : k ≤ n) (hfk : f k ≠ none) : firstDown f n ≠ none := by
  obtain ⟨_, y, _, _, _, hfirst⟩ := exists_firstDown hk hfk
  simp [hfirst]

theorem firstDown_eq_none (h : ∀ k ≤ n, f k = none) : firstDown f n = none := by
  rw [Option.eq_none_iff_forall_ne_some]
  intro x hx
  obtain ⟨k, hk, hfk⟩ := firstDown_eq_some hx
  rw [h k hk] at hfk
  cases hfk

end FirstDown

section Matcher

variable {ps : Pattern} {s a b rest : List Char} {groups : List (List Char)} {least : Nat}
  {p : Char → Bool} {captured : Bool}

@[simp] theorem matchPrefix_nil (s : List Char) : matchPrefix [] s = some ([], s) := by
  unfold matchPrefix
  rfl

@[simp] theorem matchPrefix_char (c : Char) (ps : Pattern) (s : List Char) :
    matchPrefix (.char c :: ps) (c :: s) = matchPrefix ps s := by
  rw [matchPrefix, if_pos rfl]

theorem matchPrefix_char_of_head {c : Char} (h : s.head? ≠ some c) :
    matchPrefix (.char c :: ps) s = none := by
  cases s with
  | nil => rfl
  | cons d s =>
      rw [matchPrefix, if_neg]
      rintro rfl
      exact h rfl

theorem matchPrefix_lit_append (a : List Char) (ps : Pattern) (s : List Char) :
    matchPrefix (lit a ++ ps) (a ++ s) = matchPrefix ps s := by
  induction a with
  | nil => rfl
  | cons c a ih =>
      change matchPrefix (.char c :: (lit a ++ ps)) (c :: (a ++ s)) = _
      rw [matchPrefix_char, ih]

theorem prefix_of_matchPrefix_lit (h : matchPrefix (lit a ++ ps) s ≠ none) :
    ∃ t, s = a ++ t ∧ matchPrefix ps t ≠ none := by
  induction a generalizing s with
  | nil => exact ⟨s, rfl, h⟩
  | cons c a ih =>
      change matchPrefix (.char c :: (lit a ++ ps)) s ≠ none at h
      cases s with
      | nil => simp [matchPrefix] at h
      | cons d s =>
          rw [matchPrefix] at h
          split at h
          · next heq =>
              obtain ⟨t, rfl, ht⟩ := ih h
              exact ⟨t, by rw [heq]; rfl, ht⟩
          · exact absurd rfl h

theorem takeWhile_append_stop (ha : ∀ c ∈ a, p c = true)
    (hs : ∀ c, s.head? = some c → p c = false) : (a ++ s).takeWhile p = a := by
  rw [List.takeWhile_append_of_pos ha]
  cases s with
  | nil => simp
  | cons c s => rw [List.takeWhile_cons_of_neg (by simp [hs c rfl]), List.append_nil]

/-- The match with a first run of `k` characters. -/
def runAt (ps : Pattern) (least : Nat) (captured : Bool) (s : List Char) (k : Nat) :
    Option (List (List Char) × List Char) :=
  if k < least then none
  else (matchPrefix ps (s.drop k)).map fun m => (if captured then s.take k :: m.1 else m.1, m.2)

theorem runAt_append (hleast : least ≤ a.length) :
    runAt ps least captured (a ++ s) a.length =
      (matchPrefix ps s).map fun m => (if captured then a :: m.1 else m.1, m.2) := by
  rw [runAt, if_neg (by omega), List.drop_left, List.take_left]

theorem matchPrefix_run_eq (ha : ∀ c ∈ a, p c = true)
    (hs : ∀ c, s.head? = some c → p c = false) :
    matchPrefix (.run least p captured :: ps) (a ++ s) =
      firstDown (runAt ps least captured (a ++ s)) a.length := by
  rw [matchPrefix, takeWhile_append_stop ha hs]
  rfl

theorem exists_split {k : Nat} (hk : k ≤ a.length) : ∃ u v, a = u ++ v ∧ u.length = k :=
  ⟨a.take k, a.drop k, (List.take_append_drop k a).symm, List.length_take_of_le hk⟩

/-- A run keeps all of `a` if the pieces behind it match there, and match nowhere
further on in the run. -/
theorem matchPrefix_run_append (ha : ∀ c ∈ a ++ b, p c = true)
    (hs : ∀ c, s.head? = some c → p c = false) (hleast : least ≤ a.length)
    (hmatch : matchPrefix ps (b ++ s) = some (groups, rest))
    (hnone : ∀ u v, b = u ++ v → u ≠ [] → matchPrefix ps (v ++ s) = none) :
    matchPrefix (.run least p captured :: ps) (a ++ b ++ s) =
      some (if captured then a :: groups else groups, rest) := by
  rw [matchPrefix_run_eq ha hs]
  refine firstDown_of_last (show a.length ≤ (a ++ b).length by simp) ?_ ?_
  · rw [List.append_assoc, runAt_append hleast, hmatch]
    rfl
  · intro j hj hjlength
    obtain ⟨u, v, rfl, hu⟩ := @exists_split b (j - a.length) (by simp at hjlength; omega)
    have hlength : (a ++ u).length = j := by
      rw [List.length_append]
      omega
    have hne : u ≠ [] := by
      rintro rfl
      simp at hu
      omega
    rw [← hlength, ← List.append_assoc, List.append_assoc, runAt_append (by omega),
      hnone u v rfl hne]
    rfl

/-- Where the pieces behind a run match behind `a`, the run ends there or further on. -/
theorem matchPrefix_run_longest (ha : ∀ c ∈ a ++ b, p c = true)
    (hs : ∀ c, s.head? = some c → p c = false) (hleast : least ≤ a.length)
    (hmatch : matchPrefix ps (b ++ s) ≠ none) :
    ∃ u v groups rest, b = u ++ v ∧ matchPrefix ps (v ++ s) = some (groups, rest) ∧
      matchPrefix (.run least p captured :: ps) (a ++ b ++ s) =
        some (if captured then (a ++ u) :: groups else groups, rest) := by
  have hstart : runAt ps least captured (a ++ b ++ s) a.length ≠ none := by
    rw [List.append_assoc, runAt_append hleast]
    simpa using hmatch
  obtain ⟨j, y, hj, hjlength, hy, hfirst⟩ :=
    exists_firstDown (show a.length ≤ (a ++ b).length by simp) hstart
  obtain ⟨u, v, rfl, hu⟩ := @exists_split b (j - a.length) (by simp at hjlength; omega)
  have hlength : (a ++ u).length = j := by
    rw [List.length_append]
    omega
  rw [← hlength, ← List.append_assoc, List.append_assoc, runAt_append (by omega)] at hy
  obtain ⟨⟨groups, rest⟩, hrest, rfl⟩ := Option.map_eq_some_iff.mp hy
  exact ⟨u, v, groups, rest, rfl, hrest, by rw [matchPrefix_run_eq ha hs, hfirst]⟩

/-- A run fails if the pieces behind it fail wherever it may end. -/
theorem matchPrefix_run_eq_none (ha : ∀ c ∈ a, p c = true)
    (hs : ∀ c, s.head? = some c → p c = false)
    (hnone : ∀ u v, a = u ++ v → least ≤ u.length → matchPrefix ps (v ++ s) = none) :
    matchPrefix (.run least p captured :: ps) (a ++ s) = none := by
  rw [matchPrefix_run_eq ha hs]
  apply firstDown_eq_none
  intro k hk
  obtain ⟨u, v, rfl, rfl⟩ := exists_split hk
  by_cases hleast : least ≤ u.length
  · rw [List.append_assoc, runAt_append hleast, hnone u v rfl hleast]
    rfl
  · rw [runAt, if_pos (by omega)]

/-- A run that is followed by a match takes all characters of its class. -/
theorem matchPrefix_run (ha : ∀ c ∈ a, p c = true) (hs : ∀ c, s.head? = some c → p c = false)
    (hleast : least ≤ a.length) (hmatch : matchPrefix ps s = some (groups, rest)) :
    matchPrefix (.run least p captured :: ps) (a ++ s) =
      some (if captured then a :: groups else groups, rest) := by
  rw [matchPrefix_run_eq ha hs]
  refine firstDown_of_last le_rfl ?_ fun j hj hjlength => by omega
  rw [runAt_append hleast, hmatch]
  rfl

theorem matches_of_matchPrefix (h : matchPrefix ps s = some (groups, rest)) :
    Matches ps s groups rest := by
  induction ps generalizing s groups rest with
  | nil =>
      rw [matchPrefix_nil] at h
      cases h
      exact .nil s
  | cons piece ps ih =>
      cases piece with
      | char c =>
          cases s with
          | nil => simp [matchPrefix] at h
          | cons d s =>
              rw [matchPrefix] at h
              split at h
              · next heq =>
                  subst heq
                  exact .char (ih h)
              · cases h
      | run least p captured =>
          rw [matchPrefix] at h
          obtain ⟨k, hk, hmatch⟩ := firstDown_eq_some h
          split at hmatch
          · cases hmatch
          · next hleast =>
              obtain ⟨⟨groups', rest'⟩, hrest, heq⟩ := Option.map_eq_some_iff.mp hmatch
              cases heq
              have hlength : (s.take k).length = k := by
                have hle := (@List.takeWhile_prefix _ s p).length_le
                rw [List.length_take]
                omega
              have hclass : ∀ c ∈ s.take k, p c = true := by
                intro c hc
                obtain ⟨t, ht⟩ := @List.takeWhile_prefix _ s p
                rw [← ht, List.take_append_of_le_length hk] at hc
                exact List.mem_takeWhile_imp (List.mem_of_mem_take hc)
              have hle : least ≤ (s.take k).length := by omega
              have hrun : Matches (.run least p captured :: ps) (s.take k ++ s.drop k)
                  (if captured then s.take k :: groups' else groups') rest' :=
                .run (s.take k) hle hclass (ih hrest)
              rwa [List.take_append_drop] at hrun

theorem exists_of_matchPrefix_char {c : Char}
    (h : matchPrefix (.char c :: ps) s = some (groups, rest)) :
    ∃ t, s = c :: t ∧ matchPrefix ps t = some (groups, rest) := by
  cases s with
  | nil => cases h
  | cons d s =>
      rw [matchPrefix] at h
      split at h
      · next hd => exact ⟨s, by rw [hd], h⟩
      · cases h

/-- The run takes some of its characters, and the pieces behind it match what follows. -/
theorem exists_of_matchPrefix_run
    (h : matchPrefix (.run least p captured :: ps) s = some (groups, rest)) :
    ∃ a t groups', s = a ++ t ∧ least ≤ a.length ∧ (∀ c ∈ a, p c = true) ∧
      matchPrefix ps t = some (groups', rest) ∧
      groups = if captured then a :: groups' else groups' := by
  have hclass : ∀ c ∈ s.takeWhile p, p c = true := fun c hc => List.mem_takeWhile_imp hc
  rw [← @List.takeWhile_append_dropWhile _ p s,
    matchPrefix_run_eq hclass fun c hc => by simpa [hc] using List.head?_dropWhile_not p s] at h
  obtain ⟨k, hk, hrun⟩ := firstDown_eq_some h
  obtain ⟨u, v, huv, rfl⟩ := exists_split hk
  rw [huv, List.append_assoc] at hrun
  by_cases hleast : least ≤ u.length
  · rw [runAt_append hleast] at hrun
    obtain ⟨⟨groups', rest'⟩, hmatch, heq⟩ := Option.map_eq_some_iff.mp hrun
    cases heq
    refine ⟨u, v ++ s.dropWhile p, groups', ?_, hleast, ?_, hmatch, rfl⟩
    · rw [← List.append_assoc, ← huv, List.takeWhile_append_dropWhile]
    · exact fun c hc => hclass c (by simp [huv, hc])
  · rw [runAt, if_pos (by omega)] at hrun
    cases hrun

theorem Matches.matchPrefix_ne_none (h : Matches ps s groups rest) : matchPrefix ps s ≠ none := by
  induction h with
  | nil s => simp
  | char _ ih =>
      rw [matchPrefix_char]
      exact ih
  | @run least p captured ps s groups rest a hleast ha _ ih =>
      rw [matchPrefix]
      refine firstDown_ne_none (show a.length ≤ ((a ++ s).takeWhile p).length from ?_) ?_
      · rw [List.takeWhile_append_of_pos ha, List.length_append]
        omega
      · rw [if_neg (by omega), List.drop_left]
        simpa using ih

end Matcher

section Scan

variable {ps : Pattern} {s a : List Char} {groups : List (List Char)} {c : Char}
  {repl : List (List Char) → List Char}

theorem scanFrom_drop (skip : Nat) (s : List Char) :
    scanFrom ps skip s = scan ps (s.drop skip) := by
  induction s generalizing skip with
  | nil => cases skip <;> rfl
  | cons c s ih =>
      cases skip with
      | zero => rfl
      | succ skip => exact ih skip

theorem scan_cons_of_none (h : matchPrefix ps (c :: s) = none) :
    scan ps (c :: s) = .char c :: scan ps s := by
  rw [scan, scanFrom, h]
  rfl

theorem scan_append_of_none (h : ∀ v, v <:+ a → v ≠ [] → matchPrefix ps (v ++ s) = none) :
    scan ps (a ++ s) = a.map .char ++ scan ps s := by
  induction a with
  | nil => rfl
  | cons c a ih =>
      have hc : matchPrefix ps (c :: (a ++ s)) = none := h (c :: a) (List.suffix_refl _) (by simp)
      rw [List.cons_append, scan_cons_of_none hc,
        ih fun v hv hne => h v (hv.trans (List.suffix_cons c a)) hne]
      rfl

theorem scan_match (ha : a ≠ []) (h : matchPrefix ps (a ++ s) = some (groups, s)) :
    scan ps (a ++ s) = .groups groups :: scan ps s := by
  obtain ⟨c, a, rfl⟩ := List.exists_cons_of_ne_nil ha
  rw [List.cons_append] at h ⊢
  rw [scan, scanFrom, h]
  have hlength : (a ++ s).length - s.length = a.length := by simp
  simp only [hlength, scanFrom_drop, List.drop_left]

@[simp] theorem findall_nil (ps : Pattern) : findall ps [] = [] := rfl

@[simp] theorem subst_nil (ps : Pattern) (repl : List (List Char) → List Char) :
    subst ps repl [] = [] := rfl

theorem exists_of_mem_findall (h : groups ∈ findall ps s) :
    ∃ v rest, matchPrefix ps v = some (groups, rest) := by
  obtain ⟨found, hfound, hgroups⟩ := List.mem_filterMap.mp h
  have hscan : ∀ skip, found ∈ scanFrom ps skip s →
      ∃ v rest, matchPrefix ps v = some (groups, rest) := by
    clear hfound h
    induction s with
    | nil =>
        intro skip hmem
        cases skip <;> cases hmem
    | cons c s ih =>
        intro skip hmem
        cases skip with
        | succ skip => exact ih skip hmem
        | zero =>
            rw [scanFrom] at hmem
            split at hmem
            · next groups' rest hmatch =>
                rcases List.mem_cons.mp hmem with rfl | hmem
                · cases hgroups
                  exact ⟨_, _, hmatch⟩
                · exact ih _ hmem
            · rcases List.mem_cons.mp hmem with rfl | hmem
              · cases hgroups
              · exact ih 0 hmem
  exact hscan 0 hfound

theorem findall_append_of_none (h : ∀ v, v <:+ a → v ≠ [] → matchPrefix ps (v ++ s) = none) :
    findall ps (a ++ s) = findall ps s := by
  have hchars : (a.map Found.char).filterMap Found.groups? = [] := by
    rw [List.filterMap_map]
    exact List.filterMap_eq_nil_iff.mpr fun _ _ => rfl
  rw [findall, scan_append_of_none h, List.filterMap_append, hchars, List.nil_append, findall]

theorem findall_match (ha : a ≠ []) (h : matchPrefix ps (a ++ s) = some (groups, s)) :
    findall ps (a ++ s) = groups :: findall ps s := by
  rw [findall, scan_match ha h]
  rfl

theorem subst_append_of_none (h : ∀ v, v <:+ a → v ≠ [] → matchPrefix ps (v ++ s) = none) :
    subst ps repl (a ++ s) = a ++ subst ps repl s := by
  have hchars : (a.map Found.char).flatMap (Found.replace repl) = a := by
    rw [List.flatMap_map]
    exact List.flatMap_singleton' a
  rw [subst, scan_append_of_none h, List.flatMap_append, hchars, subst]

theorem subst_match (ha : a ≠ []) (h : matchPrefix ps (a ++ s) = some (groups, s)) :
    subst ps repl (a ++ s) = repl groups ++ subst ps repl s := by
  rw [subst, scan_match ha h]
  rfl

end Scan

end Wali.RegexMatching
