import Mathlib.Data.List.Infix
import Wali.RegexMatching

/-!
Places in a text that no match passes, and what is left of the words of a text when its
matches are replaced.
-/

namespace Wali.MatchBoundaries

open Wali.RegexMatching

/-- Wherever in the pattern the text `s` is reached, what is left of the pattern takes no
character of it. -/
def Stops : Pattern → List Char → Prop
  | [], _ => True
  | .char c :: ps, s => s.head? ≠ some c ∧ Stops ps s
  | .run _ p _ :: ps, s =>
      (∀ k, 0 < k → k ≤ (s.takeWhile p).length → matchPrefix ps (s.drop k) = none) ∧ Stops ps s

section FirstDown

variable {α β : Type*} {f : Nat → Option α} {g : Nat → Option β} {m n : Nat}

theorem firstDown_map {e : α → β} (h : ∀ k ≤ n, g k = (f k).map e) :
    firstDown g n = (firstDown f n).map e := by
  induction n with
  | zero => exact h 0 le_rfl
  | succ n ih =>
      rw [firstDown, firstDown, h (n + 1) le_rfl, ih fun k hk => h k (by omega)]
      cases f (n + 1) <;> rfl

theorem firstDown_of_none_above (hmn : m ≤ n) (h : ∀ k, m < k → k ≤ n → f k = none) :
    firstDown f n = firstDown f m := by
  induction n with
  | zero =>
      obtain rfl : m = 0 := by omega
      rfl
  | succ n ih =>
      rcases Nat.lt_or_eq_of_le hmn with hlt | rfl
      · rw [firstDown, h (n + 1) hlt le_rfl, Option.none_or]
        exact ih (by omega) fun k hk hkn => h k hk (by omega)
      · rfl

end FirstDown

section Boundaries

variable {ps : Pattern} {s : List Char} {repl : List (List Char) → List Char}

theorem stops_char {c : Char} (hs : s.head? ≠ some c) (h : Stops ps s) : Stops (.char c :: ps) s :=
  ⟨hs, h⟩

theorem stops_run {least : Nat} {p : Char → Bool} {captured : Bool}
    (hinside : ∀ u v, s = u ++ v → (∀ c ∈ u, p c = true) → matchPrefix ps v = none)
    (h : Stops ps s) : Stops (.run least p captured :: ps) s := by
  refine ⟨fun k _ hk => hinside (s.take k) _ (List.take_append_drop k s).symm fun c hc => ?_, h⟩
  obtain ⟨t, ht⟩ := @List.takeWhile_prefix _ s p
  rw [← ht, List.take_append_of_le_length hk] at hc
  exact List.mem_takeWhile_imp (List.mem_of_mem_take hc)

theorem stops_run_of_head {least : Nat} {p : Char → Bool} {captured : Bool}
    (hs : ∀ c, s.head? = some c → p c = false) (h : Stops ps s) :
    Stops (.run least p captured :: ps) s := by
  have hnone : s.takeWhile p = [] := by
    simpa using @takeWhile_append_stop s [] p (by simp) hs
  refine ⟨fun k hpos hk => ?_, h⟩
  rw [hnone] at hk
  exact absurd hpos (Nat.not_lt.mpr hk)

theorem matchPrefix_run_of_head {p : Char → Bool} {captured : Bool}
    (hs : ∀ c, s.head? = some c → p c = false) :
    matchPrefix (.run 1 p captured :: ps) s = none := by
  refine @matchPrefix_run_eq_none ps s [] 1 p captured (by simp) hs fun u v huv hleast => ?_
  obtain ⟨rfl, rfl⟩ := List.append_eq_nil_iff.mp huv.symm
  exact absurd hleast (by decide)

/-- The matches in front of the boundary are those of the text without what follows. -/
theorem matchPrefix_append_of_stops (h : Stops ps s) (a : List Char) :
    matchPrefix ps (a ++ s) = (matchPrefix ps a).map fun m => (m.1, m.2 ++ s) := by
  induction ps generalizing a with
  | nil => simp
  | cons piece ps ih =>
      cases piece with
      | char c =>
          obtain ⟨hhead, hrest⟩ := h
          cases a with
          | nil => rw [List.nil_append, matchPrefix_char_of_head hhead]; rfl
          | cons d a =>
              rw [List.cons_append, matchPrefix, matchPrefix]
              split
              · exact ih hrest a
              · rfl
      | run least p captured =>
          obtain ⟨hinside, hrest⟩ := h
          have hlength : ((a ++ s).takeWhile p).length =
              if (a.takeWhile p).length = a.length then a.length + (s.takeWhile p).length
              else (a.takeWhile p).length := by
            rw [List.takeWhile_append]
            split <;> simp
          have hle : (a.takeWhile p).length ≤ a.length := List.takeWhile_prefix p |>.length_le
          -- A run that ends in `a` goes on there as it does without `s`.
          have hshort : ∀ k ≤ (a.takeWhile p).length, runAt ps least captured (a ++ s) k =
              (runAt ps least captured a k).map fun m => (m.1, m.2 ++ s) := by
            intro k hk
            have hka : k ≤ a.length := hk.trans hle
            rw [runAt, runAt, List.drop_append_of_le_length hka,
              List.take_append_of_le_length hka, ih hrest]
            split
            · rfl
            · cases matchPrefix ps (a.drop k) <;> cases captured <;> rfl
          -- A run that ends inside `s` has no match behind it.
          have hlong : ∀ k, (a.takeWhile p).length < k → k ≤ ((a ++ s).takeWhile p).length →
              runAt ps least captured (a ++ s) k = none := by
            intro k hk hks
            rw [hlength] at hks
            split at hks
            · next heq =>
                have hdrop : (a ++ s).drop k = s.drop (k - a.length) := by
                  rw [List.drop_append, List.drop_of_length_le (by omega), List.nil_append]
                rw [runAt, hdrop, hinside (k - a.length) (by omega) (by omega)]
                split <;> rfl
            · omega
          have hmore : (a.takeWhile p).length ≤ ((a ++ s).takeWhile p).length := by
            rw [hlength]
            split <;> omega
          calc matchPrefix (.run least p captured :: ps) (a ++ s)
              = firstDown (runAt ps least captured (a ++ s)) ((a ++ s).takeWhile p).length := by
                rw [matchPrefix]; rfl
            _ = firstDown (runAt ps least captured (a ++ s)) (a.takeWhile p).length :=
                firstDown_of_none_above hmore hlong
            _ = (firstDown (runAt ps least captured a) (a.takeWhile p).length).map
                fun m => (m.1, m.2 ++ s) := firstDown_map hshort
            _ = _ := by rw [matchPrefix]; rfl

theorem scanFrom_append_of_stops (h : Stops ps s) {skip : Nat} {a : List Char}
    (hskip : skip ≤ a.length) :
    scanFrom ps skip (a ++ s) = scanFrom ps skip a ++ scan ps s := by
  induction a generalizing skip with
  | nil =>
      obtain rfl : skip = 0 := Nat.le_zero.mp hskip
      rfl
  | cons c a ih =>
      cases skip with
      | succ skip => exact ih (Nat.le_of_succ_le_succ hskip)
      | zero =>
          have hmatch := matchPrefix_append_of_stops h (c :: a)
          rw [List.cons_append] at hmatch
          rw [List.cons_append, scanFrom, scanFrom, hmatch]
          cases matchPrefix ps (c :: a) with
          | none => exact congrArg (Found.char c :: ·) (ih (Nat.zero_le _))
          | some m =>
              have hlength : (a ++ s).length - (m.2 ++ s).length = a.length - m.2.length := by
                simp only [List.length_append]
                omega
              simp only [Option.map_some, hlength, List.cons_append]
              rw [ih (Nat.sub_le _ _)]

theorem subst_append_of_stops (h : Stops ps s) (a : List Char) :
    subst ps repl (a ++ s) = subst ps repl a ++ subst ps repl s := by
  have hscan : scan ps (a ++ s) = scan ps a ++ scan ps s :=
    scanFrom_append_of_stops h (Nat.zero_le _)
  rw [subst, hscan, List.flatMap_append]
  rfl

end Boundaries

section Words

variable {ps : Pattern} {repl : List (List Char) → List Char} {s u v w : List Char}

/-- What stands in place of a match begins with a character that `w` lacks, and lacks the first
character of `w`. -/
def Foreign (ps : Pattern) (repl : List (List Char) → List Char) (w : List Char) : Prop :=
  ∀ s groups rest, matchPrefix ps s = some (groups, rest) →
    (∃ c t, repl groups = c :: t ∧ c ∉ w) ∧ ∀ c ∈ repl groups, w.head? ≠ some c

theorem infix_of_append (hu : ∀ c ∈ u, w.head? ≠ some c) (h : w <:+: u ++ v) : w <:+: v := by
  induction u with
  | nil => exact h
  | cons c u ih =>
      obtain ⟨hc, hu⟩ := List.forall_mem_cons.mp hu
      rcases List.infix_cons_iff.mp h with h | h
      · cases w with
        | nil => exact List.nil_infix
        | cons d w =>
            obtain ⟨rfl, _⟩ := List.cons_prefix_cons.mp h
            exact absurd rfl hc
      · exact ih hu h

theorem flatMap_scanFrom_of_none {c : Char} (h : matchPrefix ps (c :: s) = none) :
    (scanFrom ps 0 (c :: s)).flatMap (Found.replace repl) =
      c :: (scanFrom ps 0 s).flatMap (Found.replace repl) := by
  simp only [scanFrom, h, List.flatMap_cons, Found.replace, List.singleton_append]

theorem flatMap_scanFrom_of_some {c : Char} {m : List (List Char) × List Char}
    (h : matchPrefix ps (c :: s) = some m) :
    (scanFrom ps 0 (c :: s)).flatMap (Found.replace repl) =
      repl m.1 ++ (scanFrom ps (s.length - m.2.length) s).flatMap (Found.replace repl) := by
  simp only [scanFrom, h, List.flatMap_cons, Found.replace]

theorem prefix_of_prefix_subst
    (hfirst : ∀ s groups rest, matchPrefix ps s = some (groups, rest) →
      ∃ c t, repl groups = c :: t ∧ c ∉ w)
    (h : w <+: (scanFrom ps 0 s).flatMap (Found.replace repl)) : w <+: s := by
  induction s generalizing w with
  | nil => exact h
  | cons c s ih =>
      cases w with
      | nil => exact List.nil_prefix
      | cons d w =>
          cases hmatch : matchPrefix ps (c :: s) with
          | none =>
              rw [flatMap_scanFrom_of_none hmatch] at h
              obtain ⟨rfl, hrest⟩ := List.cons_prefix_cons.mp h
              refine List.cons_prefix_cons.mpr ⟨rfl, ih (fun s groups rest hm => ?_) hrest⟩
              obtain ⟨c, t, hrepl, hc⟩ := hfirst s groups rest hm
              exact ⟨c, t, hrepl, fun hmem => hc (List.mem_cons_of_mem _ hmem)⟩
          | some m =>
              obtain ⟨c, t, hrepl, hc⟩ := hfirst _ m.1 m.2 hmatch
              rw [flatMap_scanFrom_of_some hmatch, hrepl, List.cons_append] at h
              obtain ⟨rfl, _⟩ := List.cons_prefix_cons.mp h
              exact absurd List.mem_cons_self hc

theorem infix_of_infix_scanFrom (hforeign : Foreign ps repl w) {skip : Nat}
    (h : w <:+: (scanFrom ps skip s).flatMap (Found.replace repl)) : w <:+: s := by
  induction s generalizing skip with
  | nil => cases skip <;> exact h
  | cons c s ih =>
      have hbehind : s <:+: c :: s := (List.suffix_cons c s).isInfix
      cases skip with
      | succ skip => exact (ih h).trans hbehind
      | zero =>
          cases hmatch : matchPrefix ps (c :: s) with
          | none =>
              have htext := @flatMap_scanFrom_of_none ps repl s c hmatch
              rw [htext] at h
              rcases List.infix_cons_iff.mp h with hbegins | hinside
              · rw [← htext] at hbegins
                have hfirst := fun s groups rest hm => (hforeign s groups rest hm).1
                exact (prefix_of_prefix_subst hfirst hbegins).isInfix
              · exact (ih hinside).trans hbehind
          | some m =>
              rw [flatMap_scanFrom_of_some hmatch] at h
              have hrest := infix_of_append (hforeign _ m.1 m.2 hmatch).2 h
              exact (ih hrest).trans hbehind

/-- A word of the new text that no replacement can be part of was a word of the old text. -/
theorem infix_of_infix_subst (hforeign : Foreign ps repl w) (h : w <:+: subst ps repl s) :
    w <:+: s := infix_of_infix_scanFrom hforeign h

end Words

end Wali.MatchBoundaries
