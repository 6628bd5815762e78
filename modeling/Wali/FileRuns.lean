import Mathlib.Logic.Function.Basic
import Wali.InsertionDict
import Wali.RunOutcome

/-!
Runs that write files one after another: what a run that ends early leaves behind,
and lists of jobs that lead to the same files in every order.
-/

namespace Wali.FileRuns

open Wali.InsertionDict
open Wali.RunOutcome
open Wali.RunOutcome.Outcome

/-- Files by their paths; `none` is a file that does not exist. -/
abbrev Files (π τ : Type) := π → Option τ

/-- The writing of a file, which begins when its contents are complete. -/
structure Put (ε π τ : Type) where
  path : π
  contents : Outcome ε τ

structure FileRun (ε π τ : Type) where
  outcome : Outcome ε Unit
  files : Files π τ

variable {ε π τ κ : Type}

def putAll [DecidableEq π] : List (Put ε π τ) → Files π τ → FileRun ε π τ
  | [], files => ⟨returns (), files⟩
  | put :: puts, files =>
      match put.contents with
      | returns text => putAll puts (Function.update files put.path (some text))
      | raises error => ⟨raises error, files⟩
      | diverges => ⟨diverges, files⟩

def verdict : List (Put ε π τ) → Outcome ε Unit
  | [] => returns ()
  | put :: puts => put.contents >>= fun _ => verdict puts

/-- The files that are written before a job fails. -/
def written : List (Put ε π τ) → List (π × τ)
  | [] => []
  | put :: puts =>
      match put.contents with
      | returns text => (put.path, text) :: written puts
      | _ => []

/-- A later write of a path replaces an earlier one. -/
def lastText [DecidableEq π] (path : π) (writes : List (π × τ)) : Option τ :=
  find path writes.reverse

variable {puts : List (Put ε π τ)}

theorem mem_written {write : π × τ} (h : write ∈ written puts) :
    ⟨write.1, returns write.2⟩ ∈ puts := by
  induction puts with
  | nil => cases h
  | cons put puts ih =>
      rcases put with ⟨path, contents⟩
      cases contents with
      | returns text =>
          rcases List.mem_cons.mp h with rfl | h
          · exact List.mem_cons_self
          · exact List.mem_cons_of_mem _ (ih h)
      | raises error => cases h
      | diverges => cases h

section Finished

/-- All jobs of the list succeed. -/
def Finished (puts : List (Put ε π τ)) : Prop := ∀ put ∈ puts, put.contents.Finishes

theorem verdict_eq_returns_iff : verdict puts = returns () ↔ Finished puts := by
  induction puts with
  | nil => simp [verdict, Finished]
  | cons put puts ih =>
      rw [verdict, bind_eq_returns_iff]
      simp only [ih, Finished, List.forall_mem_cons]
      constructor
      · rintro ⟨text, htext, hrest⟩
        exact ⟨⟨text, htext⟩, hrest⟩
      · rintro ⟨⟨text, htext⟩, hrest⟩
        exact ⟨text, htext, hrest⟩

/-- Jobs that are complete from the start -/
def settled (outs : List (π × τ)) : List (Put ε π τ) := outs.map fun out => ⟨out.1, returns out.2⟩

theorem finished_settled (outs : List (π × τ)) :
    Finished (settled outs : List (Put ε π τ)) := by
  intro put hput
  obtain ⟨out, _, rfl⟩ := List.mem_map.mp hput
  exact finishes_returns out.2

@[simp] theorem written_settled (outs : List (π × τ)) :
    written (settled outs : List (Put ε π τ)) = outs := by
  induction outs with
  | nil => rfl
  | cons out outs ih => exact congrArg (out :: ·) ih

theorem written_append {before after : List (Put ε π τ)} (h : Finished before) :
    written (before ++ after) = written before ++ written after := by
  induction before with
  | nil => rfl
  | cons put puts ih =>
      obtain ⟨⟨text, htext⟩, hrest⟩ := List.forall_mem_cons.mp h
      rw [List.cons_append, written, written, htext, ih hrest]
      rfl

theorem verdict_append {before : List (Put ε π τ)} (h : Finished before)
    (after : List (Put ε π τ)) : verdict (before ++ after) = verdict after := by
  induction before with
  | nil => rfl
  | cons put puts ih =>
      obtain ⟨⟨text, htext⟩, hrest⟩ := List.forall_mem_cons.mp h
      rw [List.cons_append, verdict, htext, returns_bind, ih hrest]

theorem append_of_not_finished {before : List (Put ε π τ)} (h : ¬ Finished before)
    (after : List (Put ε π τ)) :
    written (before ++ after) = written before ∧ verdict (before ++ after) = verdict before := by
  induction before with
  | nil => exact absurd (fun _ hput => absurd hput List.not_mem_nil) h
  | cons put puts ih =>
      rw [List.cons_append, written, written, verdict, verdict]
      cases hput : put.contents with
      | returns text =>
          have hrest : ¬ Finished puts := by
            intro hfinished
            exact h (List.forall_mem_cons.mpr ⟨⟨text, hput⟩, hfinished⟩)
          obtain ⟨hwritten, hverdict⟩ := ih hrest
          exact ⟨congrArg _ hwritten, hverdict⟩
      | raises error => exact ⟨rfl, rfl⟩
      | diverges => exact ⟨rfl, rfl⟩

theorem finished_flatMap_iff {ks : List κ} {jobs : κ → List (Put ε π τ)} :
    Finished (ks.flatMap jobs) ↔ ∀ k ∈ ks, Finished (jobs k) := by
  constructor
  · exact fun h k hk put hput => h put (List.mem_flatMap.mpr ⟨k, hk, hput⟩)
  · intro h put hput
    obtain ⟨k, hk, hput⟩ := List.mem_flatMap.mp hput
    exact h k hk put hput

theorem written_flatMap {ks : List κ} {jobs : κ → List (Put ε π τ)}
    (h : Finished (ks.flatMap jobs)) :
    written (ks.flatMap jobs) = ks.flatMap fun k => written (jobs k) := by
  induction ks with
  | nil => rfl
  | cons k ks ih =>
      rw [List.flatMap_cons] at h ⊢
      have hk : Finished (jobs k) := fun put hput => h put (List.mem_append_left _ hput)
      have hks : Finished (ks.flatMap jobs) := fun put hput => h put (List.mem_append_right _ hput)
      rw [written_append hk, ih hks, List.flatMap_cons]

end Finished

section Runs

variable [DecidableEq π] {files : Files π τ} {path : π}

theorem lastText_cons (write : π × τ) (writes : List (π × τ)) :
    lastText path (write :: writes) =
      (lastText path writes).or (if write.1 = path then some write.2 else none) := by
  rw [lastText, List.reverse_cons, find_append]
  rfl

theorem lastText_append (writes later : List (π × τ)) :
    lastText path (writes ++ later) = (lastText path later).or (lastText path writes) := by
  rw [lastText, List.reverse_append, find_append]
  rfl

theorem lastText_of_nodup {writes : List (π × τ)} (h : (writes.map Prod.fst).Nodup) :
    lastText path writes = find path writes := find_reverse h path

/-- Files that are emptied before they get their text -/
theorem lastText_emptied {empty : τ} {outs : List (π × τ)} (h : (outs.map Prod.fst).Nodup) :
    lastText path (outs.flatMap fun out => [(out.1, empty), out]) = find path outs := by
  induction outs with
  | nil => rfl
  | cons out outs ih =>
      rw [List.map_cons, List.nodup_cons] at h
      rw [List.flatMap_cons, lastText_append, ih h.2, lastText_cons, lastText_cons, find]
      by_cases hpath : out.1 = path
      · have hnone : find path outs = none := by
          rw [← Option.not_isSome_iff_eq_none, find_isSome_iff]
          exact hpath ▸ h.1
        simp [hpath, hnone, lastText, find]
      · simp [hpath, lastText, find]

theorem mem_of_lastText {writes : List (π × τ)} {text : τ}
    (h : lastText path writes = some text) : (path, text) ∈ writes :=
  List.mem_reverse.mp (mem_of_find h)

theorem putAll_outcome (puts : List (Put ε π τ)) (files : Files π τ) :
    (putAll puts files).outcome = verdict puts := by
  induction puts generalizing files with
  | nil => rfl
  | cons put puts ih =>
      rw [putAll, verdict]
      cases put.contents with
      | returns text => exact ih _
      | raises error => rfl
      | diverges => rfl

theorem putAll_files (puts : List (Put ε π τ)) (files : Files π τ) (path : π) :
    (putAll puts files).files path = (lastText path (written puts)).or (files path) := by
  induction puts generalizing files with
  | nil => rfl
  | cons put puts ih =>
      rw [putAll, written]
      cases put.contents with
      | returns text =>
          rw [ih, lastText_cons, Option.or_assoc]
          by_cases hpath : put.path = path
          · subst hpath
            simp
          · rw [Function.update_of_ne (Ne.symm hpath), if_neg hpath, Option.none_or]
      | raises error => rfl
      | diverges => rfl

/-- The same run once more ends alike and changes nothing. -/
theorem putAll_putAll (puts : List (Put ε π τ)) (files : Files π τ) :
    putAll puts (putAll puts files).files = putAll puts files := by
  have houtcome :
      (putAll puts (putAll puts files).files).outcome = (putAll puts files).outcome := by
    rw [putAll_outcome, putAll_outcome]
  have hfiles : (putAll puts (putAll puts files).files).files = (putAll puts files).files := by
    funext path
    rw [putAll_files, putAll_files, ← Option.or_assoc, Option.or_self]
  exact congrArg₂ FileRun.mk houtcome hfiles

theorem outcome_putAll_eq_returns_iff :
    (putAll puts files).outcome = returns () ↔ Finished puts := by
  rw [putAll_outcome, verdict_eq_returns_iff]

/-- Each text that a run leaves is a good one, or the run was broken off at it. -/
def Leaves (good : π → τ → Prop) (broken : π → τ → ε → Prop) (puts : List (Put ε π τ)) : Prop :=
  ∀ path text, lastText path (written puts) = some text →
    good path text ∨ ∃ error, verdict puts = raises error ∧ broken path text error

variable {good : π → τ → Prop} {broken : π → τ → ε → Prop} {before after : List (Put ε π τ)}

theorem leaves_nil : Leaves good broken ([] : List (Put ε π τ)) := by
  rintro path text ⟨⟩

theorem leaves_append (hbefore : Leaves good broken before) (hafter : Leaves good broken after) :
    Leaves good broken (before ++ after) := by
  intro path text htext
  by_cases hfinished : Finished before
  · rw [verdict_append hfinished]
    rw [written_append hfinished, lastText_append, Option.or_eq_some_iff] at htext
    rcases htext with htext | ⟨_, htext⟩
    · exact hafter path text htext
    · refine .inl ((hbefore path text htext).resolve_right ?_)
      rintro ⟨error, hverdict, _⟩
      rw [verdict_eq_returns_iff.mpr hfinished] at hverdict
      cases hverdict
  · obtain ⟨hwritten, hverdict⟩ := append_of_not_finished hfinished after
    rw [hverdict]
    rw [hwritten] at htext
    exact hbefore path text htext

theorem leaves_flatMap {ks : List κ} {jobs : κ → List (Put ε π τ)}
    (h : ∀ k ∈ ks, Leaves good broken (jobs k)) : Leaves good broken (ks.flatMap jobs) := by
  induction ks with
  | nil => exact leaves_nil
  | cons k ks ih =>
      obtain ⟨hk, hks⟩ := List.forall_mem_cons.mp h
      rw [List.flatMap_cons]
      exact leaves_append hk (ih hks)

/-- Jobs whose texts are all good -/
theorem leaves_of_forall (h : ∀ put ∈ puts, ∀ text, put.contents = returns text →
    good put.path text) : Leaves good broken puts := by
  intro path text htext
  exact .inl (h _ (mem_written (mem_of_lastText htext)) text rfl)

/-- A file that is written twice is left with its second text, or the run was broken off
between the two. -/
theorem leaves_pair {first second : Outcome ε τ}
    (hgood : ∀ text, second = returns text → good path text)
    (hbroken : ∀ text error, first = returns text → second = raises error →
      broken path text error)
    (hends : ∀ text, first = returns text → second ≠ diverges) :
    Leaves good broken [⟨path, first⟩, ⟨path, second⟩] := by
  intro path' text htext
  have hpath : (path', text) ∈ written [⟨path, first⟩, ⟨path, second⟩] := mem_of_lastText htext
  cases first with
  | raises error => cases htext
  | diverges => cases htext
  | returns emptied =>
      cases second with
      | diverges => exact absurd rfl (hends emptied rfl)
      | raises error =>
          obtain ⟨rfl, rfl⟩ := Prod.mk.inj (List.mem_singleton.mp hpath)
          exact .inr ⟨error, rfl, hbroken _ error rfl rfl⟩
      | returns contents =>
          have hlast : lastText path' [(path, emptied), (path, contents)] = some text := htext
          have hsame : path' = path := by
            rcases List.mem_pair.mp hpath with h | h <;> exact (Prod.mk.inj h).1
          subst hsame
          rw [lastText, List.reverse_cons, List.reverse_singleton, List.singleton_append, find,
            if_pos rfl] at hlast
          cases hlast
          exact .inl (hgood _ rfl)

end Runs

section Blocks

/-- Different blocks of jobs write different files. -/
def Apart (jobs : κ → List (Put ε π τ)) : Prop :=
  ∀ k k', ∀ put ∈ jobs k, ∀ put' ∈ jobs k', put.path = put'.path → k = k'

variable [DecidableEq π] {files : Files π τ} {path : π} {jobs : κ → List (Put ε π τ)}
  {ks ks' : List κ} {text : τ}

theorem lastText_flatMap_iff (hapart : Apart jobs) :
    lastText path (ks.flatMap fun k => written (jobs k)) = some text ↔
      ∃ k ∈ ks, lastText path (written (jobs k)) = some text := by
  induction ks with
  | nil => simp [lastText, find]
  | cons k ks ih =>
      rw [List.flatMap_cons, lastText_append, Option.or_eq_some_iff, ih]
      constructor
      · rintro (⟨k', hk', h⟩ | ⟨_, h⟩)
        · exact ⟨k', List.mem_cons_of_mem k hk', h⟩
        · exact ⟨k, List.mem_cons_self, h⟩
      · rintro ⟨k', hk', h⟩
        by_cases hlater : ∃ k'' ∈ ks, lastText path (written (jobs k'')) = some text
        · exact .inl hlater
        refine .inr ⟨?_, ?_⟩
        · rw [Option.eq_none_iff_forall_ne_some]
          intro text' htext'
          obtain ⟨k'', hk'', hmem⟩ := List.mem_flatMap.mp (mem_of_lastText htext')
          obtain rfl : k'' = k' :=
            hapart k'' k' _ (mem_written hmem) _ (mem_written (mem_of_lastText h)) rfl
          exact hlater ⟨k'', hk'', h⟩
        · rcases List.mem_cons.mp hk' with rfl | hk'
          · exact h
          · exact absurd ⟨k', hk', h⟩ hlater

/-- What a finished run leaves under a path comes from the one block that writes it. -/
theorem putAll_blocks_files (hapart : Apart jobs) (h : Finished (ks.flatMap jobs)) :
    (putAll (ks.flatMap jobs) files).files path = some text ↔
      (∃ k ∈ ks, lastText path (written (jobs k)) = some text) ∨
        ((∀ k ∈ ks, lastText path (written (jobs k)) = none) ∧ files path = some text) := by
  rw [putAll_files, written_flatMap h, Option.or_eq_some_iff, lastText_flatMap_iff hapart]
  refine or_congr_right (and_congr_left fun _ => ?_)
  rw [Option.eq_none_iff_forall_ne_some]
  simp only [ne_eq, lastText_flatMap_iff hapart, Option.eq_none_iff_forall_ne_some]
  constructor
  · exact fun hnone k hk text htext => hnone text ⟨k, hk, htext⟩
  · rintro hnone text ⟨k, hk, htext⟩
    exact hnone k hk text htext

/-- The order of the blocks and repetitions among them do not matter. -/
theorem putAll_blocks_congr (hapart : Apart jobs) (hmem : ∀ k, k ∈ ks ↔ k ∈ ks')
    (h : Finished (ks.flatMap jobs)) :
    putAll (ks.flatMap jobs) files = putAll (ks'.flatMap jobs) files := by
  have h' : Finished (ks'.flatMap jobs) :=
    finished_flatMap_iff.mpr fun k hk => finished_flatMap_iff.mp h k ((hmem k).mpr hk)
  have houtcome : (putAll (ks.flatMap jobs) files).outcome =
      (putAll (ks'.flatMap jobs) files).outcome := by
    rw [outcome_putAll_eq_returns_iff.mpr h, outcome_putAll_eq_returns_iff.mpr h']
  have hfiles : (putAll (ks.flatMap jobs) files).files =
      (putAll (ks'.flatMap jobs) files).files := by
    funext path
    refine Option.ext fun text => ?_
    rw [putAll_blocks_files hapart h, putAll_blocks_files hapart h']
    simp only [hmem]
  exact congrArg₂ FileRun.mk houtcome hfiles

end Blocks

end Wali.FileRuns
