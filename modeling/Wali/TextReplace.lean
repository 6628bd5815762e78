import Mathlib.Data.List.Infix
import Mathlib.Logic.Function.Basic
import Wali.RegexMatching

/-!
`s.replace(old, new)`, and texts with marked slots that are filled by one such
replacement after another.
-/

namespace Wali.TextReplace

open Wali.RegexMatching

/-- `s.replace(old, new)` for a text `old` that is not empty -/
def replaceText (old new s : List Char) : List Char := subst (lit old) (fun _ => new) s

section Replace

variable {old new a s : List Char}

theorem matchPrefix_lit_self (old s : List Char) :
    matchPrefix (lit old) (old ++ s) = some ([], s) := by
  have h := matchPrefix_lit_append old [] s
  rwa [List.append_nil] at h

theorem prefix_of_matchPrefix (h : matchPrefix (lit old) s ≠ none) : old <+: s := by
  rw [← List.append_nil (lit old)] at h
  obtain ⟨t, rfl, _⟩ := prefix_of_matchPrefix_lit h
  exact List.prefix_append old t

@[simp] theorem replaceText_nil (old new : List Char) : replaceText old new [] = [] := rfl

theorem replaceText_append (h : ∀ v, v <:+ a → v ≠ [] → ¬ old <+: v ++ s) :
    replaceText old new (a ++ s) = a ++ replaceText old new s := by
  refine subst_append_of_none fun v hv hne => ?_
  by_contra hmatch
  exact h v hv hne (prefix_of_matchPrefix hmatch)

theorem replaceText_mark (hold : old ≠ []) (s : List Char) :
    replaceText old new (old ++ s) = new ++ replaceText old new s :=
  subst_match hold (matchPrefix_lit_self old s)

theorem replaceText_of_not_infix (h : ¬ old <:+: s) : replaceText old new s = s := by
  have hs := @replaceText_append old new s [] fun v hv _ hold =>
    h ((List.append_nil v ▸ hold).isInfix.trans hv.isInfix)
  simpa using hs

theorem prefix_of_prefix_append_cons {c : Char} (hc : c ∉ old) (h : old <+: a ++ c :: s) :
    old <+: a := by
  obtain ⟨t, ht⟩ := h
  rcases List.append_eq_append_iff.mp ht with ⟨u, rfl, _⟩ | ⟨u, rfl, hu⟩
  · exact List.prefix_append old u
  · cases u with
    | nil => simp
    | cons d u =>
        obtain rfl : c = d := (List.cons.inj hu).1
        simp at hc

theorem replaceText_cons_of_not_prefix {d : Char} (h : ¬ old <+: d :: s) :
    replaceText old new (d :: s) = d :: replaceText old new s := by
  refine @replaceText_append old new [d] s fun v hv hne => ?_
  obtain rfl : v = [d] := by
    rcases List.suffix_cons_iff.mp hv with hv | hv
    · exact hv
    · exact absurd (List.suffix_nil.mp hv) hne
  exact h

/-- A character that the replaced text lacks cuts the text in two. -/
theorem replaceText_append_cons (hold : old ≠ []) {c : Char} (hc : c ∉ old) (a s : List Char) :
    replaceText old new (a ++ c :: s) =
      replaceText old new a ++ c :: replaceText old new s := by
  induction hlength : a.length using Nat.strong_induction_on generalizing a with
  | _ n ih =>
      by_cases hstarts : old <+: a
      · obtain ⟨t, rfl⟩ := hstarts
        have hshorter : t.length < n := by
          have hpos := List.length_pos_iff.mpr hold
          simp at hlength
          omega
        rw [List.append_assoc, replaceText_mark hold, replaceText_mark hold,
          ih t.length hshorter t rfl, List.append_assoc]
      · cases a with
        | nil =>
            refine replaceText_cons_of_not_prefix fun h => hold ?_
            exact List.prefix_nil.mp (@prefix_of_prefix_append_cons old [] s c hc h)
        | cons d t =>
            have hlonger : ¬ old <+: d :: (t ++ c :: s) :=
              fun h => hstarts (@prefix_of_prefix_append_cons old (d :: t) s c hc h)
            rw [List.cons_append, replaceText_cons_of_not_prefix hlonger,
              replaceText_cons_of_not_prefix hstarts, ih t.length (by simp at hlength; omega) t rfl]
            rfl

/-- The replacement of a single character -/
theorem replaceText_singleton (c : Char) (new s : List Char) :
    replaceText [c] new s = s.flatMap fun d => if d = c then new else [d] := by
  induction s with
  | nil => rfl
  | cons d s ih =>
      rw [List.flatMap_cons, ← ih]
      by_cases hd : d = c
      · subst hd
        rw [if_pos rfl]
        exact replaceText_mark (by simp) s
      · have hnot : ¬ [c] <+: d :: s := by
          rw [List.cons_prefix_cons]
          exact fun h => hd h.1.symm
        rw [if_neg hd, replaceText_cons_of_not_prefix hnot]
        rfl

end Replace

section Layouts

variable {φ : Type}

inductive Segment (φ : Type)
  | text (s : List Char)
  | slot (f : φ)

/-- Texts and slots, with a character between each two. -/
structure Layout (φ : Type) where
  head : Segment φ
  tail : List (Char × Segment φ)

def Segment.fill (value : φ → List Char) : Segment φ → List Char
  | .text s => s
  | .slot f => value f

namespace Layout

variable (layout : Layout φ)

def fill (value : φ → List Char) : List Char :=
  layout.head.fill value ++ layout.tail.flatMap fun part => part.1 :: part.2.fill value

def segments : List (Segment φ) := layout.head :: layout.tail.map Prod.snd

/-- The marks stand for slots only, and in none of them a character between two
segments. -/
structure Marked (mark : φ → List Char) : Prop where
  mark_ne_nil : ∀ f, mark f ≠ []
  fences : ∀ part ∈ layout.tail, ∀ f, part.1 ∉ mark f
  texts : ∀ s, .text s ∈ layout.segments → ∀ f, ¬ mark f <:+: s
  apart : ∀ f g, mark f <:+: mark g → f = g

end Layout

variable {layout : Layout φ} {mark value current : φ → List Char} {f : φ} {new : List Char}

theorem replaceText_fill {old : List Char} (hold : old ≠ [])
    (hfences : ∀ part ∈ layout.tail, part.1 ∉ old) :
    replaceText old new (layout.fill value) =
      replaceText old new (layout.head.fill value) ++
        layout.tail.flatMap fun part => part.1 :: replaceText old new (part.2.fill value) := by
  rcases layout with ⟨head, tail⟩
  unfold Layout.fill
  generalize head.fill value = a
  induction tail generalizing a with
  | nil => simp
  | cons part tail ih =>
      obtain ⟨hpart, htail⟩ := List.forall_mem_cons.mp hfences
      rw [List.flatMap_cons, List.cons_append, replaceText_append_cons hold hpart,
        ih htail (part.2.fill value), List.flatMap_cons, List.cons_append]

variable [DecidableEq φ]

/-- One slot is filled, if its mark occurs in no other one. -/
theorem replaceText_slot (hmarked : layout.Marked mark) (hf : current f = mark f)
    (hothers : ∀ g, g ≠ f → ¬ mark f <:+: current g) :
    replaceText (mark f) new (layout.fill current) =
      layout.fill (Function.update current f new) := by
  have hsegment : ∀ segment ∈ layout.segments,
      replaceText (mark f) new (segment.fill current) =
        segment.fill (Function.update current f new) := by
    intro segment hsegment
    cases segment with
    | text s => exact replaceText_of_not_infix (hmarked.texts s hsegment f)
    | slot g =>
        change replaceText (mark f) new (current g) = Function.update current f new g
        by_cases hg : g = f
        · subst hg
          have hmark := @replaceText_mark (mark g) new (hmarked.mark_ne_nil g) []
          rw [Function.update_self, hf]
          simpa using hmark
        · rw [Function.update_of_ne hg, replaceText_of_not_infix (hothers g hg)]
  rw [replaceText_fill (hmarked.mark_ne_nil f) fun part hpart => hmarked.fences part hpart f,
    Layout.fill, hsegment _ List.mem_cons_self]
  refine congrArg _ (List.flatMap_congr fun part hpart => ?_)
  rw [hsegment _ (List.mem_cons_of_mem _ (List.mem_map_of_mem hpart))]

/-- Replacements one after another fill the slots as one replacement of all marks
would, if no value holds a mark that is replaced later. -/
theorem foldl_replaceText (hmarked : layout.Marked mark) {fs : List φ} (hnodup : fs.Nodup)
    (hlater : fs.Pairwise fun f g => ¬ mark g <:+: value f) (hcurrent : ∀ f ∈ fs, current f = mark f)
    (hothers : ∀ f ∈ fs, ∀ g, g ∉ fs → ¬ mark f <:+: current g) :
    fs.foldl (fun s f => replaceText (mark f) (value f) s) (layout.fill current) =
      layout.fill fun g => if g ∈ fs then value g else current g := by
  induction fs generalizing current with
  | nil => simp
  | cons f fs ih =>
      obtain ⟨hf, hnodup⟩ := List.nodup_cons.mp hnodup
      obtain ⟨hlaterf, hlater⟩ := List.pairwise_cons.mp hlater
      have hfirst : ∀ g, g ≠ f → ¬ mark f <:+: current g := by
        intro g hg
        by_cases hmem : g ∈ fs
        · rw [hcurrent g (List.mem_cons_of_mem f hmem)]
          exact fun h => hg (hmarked.apart f g h).symm
        · exact hothers f List.mem_cons_self g (by simp [hg, hmem])
      rw [List.foldl_cons, replaceText_slot hmarked (hcurrent f List.mem_cons_self) hfirst,
        ih hnodup hlater]
      · congr 1
        funext g
        by_cases hg : g = f
        · subst hg
          simp [hf]
        · simp [hg]
      · intro g hg
        have hne : g ≠ f := fun h => hf (h ▸ hg)
        rw [Function.update_of_ne hne, hcurrent g (List.mem_cons_of_mem f hg)]
      · intro g hg g' hg'
        by_cases hne : g' = f
        · subst hne
          rw [Function.update_self]
          exact hlaterf g hg
        · rw [Function.update_of_ne hne]
          exact hothers g (List.mem_cons_of_mem f hg) g' (by simp [hne, hg'])

end Layouts

end Wali.TextReplace
