import Wali.RunOutcome

/-!
Steps on a state, ended by the first one that fails: what a later run makes of the
state that an earlier one left.
-/

namespace Wali.ResumedRuns

open Wali.RunOutcome
open Wali.RunOutcome.Outcome

/-- The outcome of a step and the state that it leaves. -/
abbrev Step (ε σ : Type) := σ → Outcome ε Unit × σ

variable {ε σ : Type}

def runSteps : List (Step ε σ) → Step ε σ
  | [], s => (returns (), s)
  | step :: steps, s =>
      match step s with
      | (returns (), s') => runSteps steps s'
      | (raises error, s') => (raises error, s')
      | (diverges, s') => (diverges, s')

/-- The step has nothing to do. -/
def SettledAt (step : Step ε σ) (s : σ) : Prop := step s = (returns (), s)

/-- A step that succeeds is settled, also after the other steps, and one that fails leaves
the state alone. -/
structure Resumable (steps : List (Step ε σ)) : Prop where
  settles : ∀ step ∈ steps, ∀ s s', step s = (returns (), s') → SettledAt step s'
  keeps : ∀ step ∈ steps, ∀ other ∈ steps, ∀ s s', SettledAt step s →
    other s = (returns (), s') → SettledAt step s'
  stops : ∀ step ∈ steps, ∀ s, (step s).1 ≠ returns () → (step s).2 = s

section Steps

variable {step : Step ε σ} {steps before todo rest : List (Step ε σ)} {s s' : σ}

theorem runSteps_cons_of_returns (h : step s = (returns (), s')) :
    runSteps (step :: steps) s = runSteps steps s' := by
  rw [runSteps, h]

theorem runSteps_cons_of_ne (h : (step s).1 ≠ returns ()) :
    runSteps (step :: steps) s = step s := by
  rw [runSteps]
  rcases hstep : step s with ⟨_ | _ | _, s'⟩
  · rw [hstep] at h
    exact absurd rfl h
  · rfl
  · rfl

/-- A step succeeds or fails. -/
theorem step_cases (step : Step ε σ) (s : σ) :
    (∃ s', step s = (returns (), s')) ∨ (step s).1 ≠ returns () := by
  rcases step s with ⟨_ | _ | _, s'⟩
  · exact .inl ⟨s', rfl⟩
  · exact .inr (by simp)
  · exact .inr (by simp)

theorem runSteps_append_of_settled (h : ∀ step ∈ before, SettledAt step s) :
    runSteps (before ++ rest) s = runSteps rest s := by
  induction before with
  | nil => rfl
  | cons step before ih =>
      obtain ⟨hstep, hbefore⟩ := List.forall_mem_cons.mp h
      rw [List.cons_append, runSteps_cons_of_returns hstep, ih hbefore]

/-- The steps in front are settled: the run of `todo` was their continuation. -/
theorem runSteps_resume_of_settled (h : Resumable (before ++ todo ++ rest))
    (hbefore : ∀ step ∈ before, SettledAt step s) :
    runSteps (before ++ todo ++ rest) (runSteps todo s).2 =
      runSteps (before ++ todo ++ rest) s := by
  induction todo generalizing before s with
  | nil => rfl
  | cons step todo ih =>
      have hmem : step ∈ before ++ step :: todo ++ rest := by simp
      rcases step_cases step s with ⟨s', hs'⟩ | hfails
      · have hshift : before ++ step :: todo ++ rest = before ++ [step] ++ todo ++ rest := by simp
        have hsettled : ∀ earlier ∈ before ++ [step], SettledAt earlier s' := by
          intro earlier hearlier
          rcases List.mem_append.mp hearlier with hearlier | hearlier
          · exact h.keeps earlier (by simp [hearlier]) step hmem s s' (hbefore earlier hearlier) hs'
          · rw [List.mem_singleton.mp hearlier]
            exact h.settles step hmem s s' hs'
        have hrun : runSteps (before ++ step :: todo ++ rest) s = runSteps (todo ++ rest) s' := by
          rw [List.append_assoc, runSteps_append_of_settled hbefore, List.cons_append,
            runSteps_cons_of_returns hs']
        rw [hrun, runSteps_cons_of_returns hs', hshift, ih (hshift ▸ h) hsettled,
          List.append_assoc, runSteps_append_of_settled hsettled]
      · rw [runSteps_cons_of_ne hfails, h.stops step hmem s hfails]

/-- A run that was broken off at any place, by a failing step or between two steps, is
completed by a run of all steps. -/
theorem runSteps_resume (h : Resumable (todo ++ rest)) (s : σ) :
    runSteps (todo ++ rest) (runSteps todo s).2 = runSteps (todo ++ rest) s :=
  @runSteps_resume_of_settled _ _ [] _ _ s h (fun _ hstep => absurd hstep List.not_mem_nil)

/-- An edit that the first steps do not see may be made before or after these. -/
theorem runSteps_edit {edit : σ → σ}
    (hedit : ∀ step ∈ todo, ∀ s, step (edit s) = ((step s).1, edit (step s).2)) (s : σ) :
    runSteps todo (edit s) = ((runSteps todo s).1, edit (runSteps todo s).2) := by
  induction todo generalizing s with
  | nil => rfl
  | cons step todo ih =>
      obtain ⟨hstep, hrest⟩ := List.forall_mem_cons.mp hedit
      rcases step_cases step s with ⟨s', hs'⟩ | hfails
      · have hedited : step (edit s) = (returns (), edit s') := by rw [hstep, hs']
        rw [runSteps_cons_of_returns hs', runSteps_cons_of_returns hedited, ih hrest]
      · have hedited : (step (edit s)).1 ≠ returns () := by rwa [hstep]
        rw [runSteps_cons_of_ne hfails, runSteps_cons_of_ne hedited, hstep]

theorem runSteps_repaired (h : Resumable (todo ++ rest)) {edit : σ → σ}
    (hedit : ∀ step ∈ todo, ∀ s, step (edit s) = ((step s).1, edit (step s).2)) (s : σ) :
    runSteps (todo ++ rest) (edit (runSteps todo s).2) = runSteps (todo ++ rest) (edit s) := by
  rw [← runSteps_resume h (edit s), runSteps_edit hedit]

end Steps

section Rewrites

/-- A part of the state that is replaced by a function of it, which has no further effect on
what it returned. -/
structure Rewrite (ε σ : Type) where
  {Part : Type}
  get : σ → Part
  set : Part → σ → σ
  rewritten : Part → Outcome ε Part
  get_set : ∀ part s, get (set part s) = part
  set_get : ∀ s, set (get s) s = s
  rewritten_returned : ∀ part part', rewritten part = returns part' → rewritten part' = returns part'

def Rewrite.step (r : Rewrite ε σ) : Step ε σ := fun s =>
  match r.rewritten (r.get s) with
  | returns part => (returns (), r.set part s)
  | raises error => (raises error, s)
  | diverges => (diverges, s)

/-- The second part is another one than the first. -/
def Apart (r r' : Rewrite ε σ) : Prop := ∀ part s, r.get (r'.set part s) = r.get s

variable {r : Rewrite ε σ} {s s' : σ}

theorem step_eq_returns_iff :
    r.step s = (returns (), s') ↔
      ∃ part, r.rewritten (r.get s) = returns part ∧ r.set part s = s' := by
  unfold Rewrite.step
  cases r.rewritten (r.get s) <;> simp

theorem settledAt_step_iff :
    SettledAt r.step s ↔ r.rewritten (r.get s) = returns (r.get s) := by
  rw [SettledAt, step_eq_returns_iff]
  constructor
  · rintro ⟨part, hpart, hset⟩
    have hget : r.get s = part := by rw [← r.get_set part s, hset]
    rw [hget] at hpart ⊢
    exact hpart
  · intro h
    exact ⟨r.get s, h, r.set_get s⟩

/-- An edit beside the part does not matter to the step. -/
theorem step_edit {edit : σ → σ} (hget : ∀ s, r.get (edit s) = r.get s)
    (hset : ∀ part s, r.set part (edit s) = edit (r.set part s)) (s : σ) :
    r.step (edit s) = ((r.step s).1, edit (r.step s).2) := by
  unfold Rewrite.step
  rw [hget]
  cases r.rewritten (r.get s) with
  | returns part => exact congrArg (Prod.mk _) (hset part s)
  | raises error => rfl
  | diverges => rfl

/-- Rewrites of different parts -/
theorem resumable_rewrites {rs : List (Rewrite ε σ)}
    (h : ∀ r ∈ rs, ∀ r' ∈ rs, r = r' ∨ Apart r r') : Resumable (rs.map Rewrite.step) := by
  have hsettles : ∀ r : Rewrite ε σ, ∀ s s', r.step s = (returns (), s') → SettledAt r.step s' := by
    intro r s s' hs'
    obtain ⟨part, hpart, rfl⟩ := step_eq_returns_iff.mp hs'
    rw [settledAt_step_iff, r.get_set]
    exact r.rewritten_returned _ _ hpart
  constructor
  · intro step hstep s s' hs'
    obtain ⟨r, _, rfl⟩ := List.mem_map.mp hstep
    exact hsettles r s s' hs'
  · intro step hstep other hother s s' hsettled hs'
    obtain ⟨r, hr, rfl⟩ := List.mem_map.mp hstep
    obtain ⟨r', hr', rfl⟩ := List.mem_map.mp hother
    rcases h r hr r' hr' with rfl | hapart
    · exact hsettles r s s' hs'
    · obtain ⟨part, _, rfl⟩ := step_eq_returns_iff.mp hs'
      rw [settledAt_step_iff, hapart]
      exact settledAt_step_iff.mp hsettled
  · intro step hstep s hfails
    obtain ⟨r, _, rfl⟩ := List.mem_map.mp hstep
    unfold Rewrite.step at hfails ⊢
    cases hpart : r.rewritten (r.get s) with
    | returns part => simp [hpart] at hfails
    | raises error => rfl
    | diverges => rfl

end Rewrites

end Wali.ResumedRuns
