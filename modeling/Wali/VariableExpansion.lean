import Mathlib.Data.List.Basic
import Mathlib.Logic.Function.Basic

/-!
Variable references in a text and the files that assign variables one after
another. A reference form reads the name of a reference at the head of a text; the
languages differ in their forms only.
-/

namespace Wali.VariableExpansion

/-- `read` returns the name of the reference at the head of a text, and the number of
characters of the reference; references begin with the character `marker`. -/
structure RefForm where
  read : List Char → Option (List Char × Nat)
  marker : Char
  read_eq_none : ∀ c cs, c ≠ marker → read (c :: cs) = none

abbrev Env := List Char → List Char

variable (form : RefForm)

/-- The text with its references replaced; `skip` characters of the current reference
are still to pass. -/
def expandFrom (env : Env) : (skip : Nat) → List Char → List Char
  | _, [] => []
  | skip + 1, _ :: cs => expandFrom env skip cs
  | 0, c :: cs =>
      match form.read (c :: cs) with
      | some (name, len) => env name ++ expandFrom env (len - 1) cs
      | none => c :: expandFrom env 0 cs

def expand (env : Env) (s : List Char) : List Char := expandFrom form env 0 s

/-- The names that a text refers to. -/
def refsFrom : (skip : Nat) → List Char → List (List Char)
  | _, [] => []
  | skip + 1, _ :: cs => refsFrom skip cs
  | 0, c :: cs =>
      match form.read (c :: cs) with
      | some (name, len) => name :: refsFrom (len - 1) cs
      | none => refsFrom 0 cs

def refs (s : List Char) : List (List Char) := refsFrom form 0 s

/-- The environment after assignments that expand their values at once. -/
def assignAll : Env → List (List Char × List Char) → Env
  | env, [] => env
  | env, (name, value) :: rest =>
      assignAll (Function.update env name (expand form env value)) rest

/-- Names with the names that their values refer to: every name is assigned once, and
only after the names that it refers to. -/
def Ordered : List (List Char × List (List Char)) → Prop
  | [] => True
  | (name, deps) :: rest =>
      (∀ n ∈ name :: deps, n ∉ rest.map Prod.fst) ∧ name ∉ deps ∧ Ordered rest

def dependencies (assignments : List (List Char × List Char)) :
    List (List Char × List (List Char)) :=
  assignments.map fun assignment => (assignment.1, refs form assignment.2)

/-- `marker opening name closing` -/
def delimited (marker opening closing : Char) : RefForm where
  read
    | m :: o :: cs =>
        if m = marker ∧ o = opening ∧ closing ∈ cs then
          some (cs.takeWhile (· != closing), (cs.takeWhile (· != closing)).length + 3)
        else none
    | _ => none
  marker
  read_eq_none := by
    intro c cs hc
    cases cs <;> simp [hc]

variable {form} {env env' : Env} {name value s rest ref : List Char}

@[simp] theorem expand_nil : expand form env [] = [] := rfl

@[simp] theorem refs_nil : refs form [] = [] := rfl

theorem expandFrom_drop (skip : Nat) (s : List Char) :
    expandFrom form env skip s = expand form env (s.drop skip) := by
  induction s generalizing skip with
  | nil => cases skip <;> rfl
  | cons c s ih =>
      cases skip with
      | zero => rfl
      | succ skip => exact ih skip

theorem refsFrom_drop (skip : Nat) (s : List Char) :
    refsFrom form skip s = refs form (s.drop skip) := by
  induction s generalizing skip with
  | nil => cases skip <;> rfl
  | cons c s ih =>
      cases skip with
      | zero => rfl
      | succ skip => exact ih skip

theorem expand_literal_append (h : form.marker ∉ s) (rest : List Char) :
    expand form env (s ++ rest) = s ++ expand form env rest := by
  induction s with
  | nil => rfl
  | cons c s ih =>
      simp only [List.mem_cons, not_or] at h
      have hread : form.read (c :: (s ++ rest)) = none :=
        form.read_eq_none _ _ fun heq => h.1 heq.symm
      rw [List.cons_append, expand, expandFrom, hread]
      exact congrArg (c :: ·) (ih h.2)

theorem refs_literal_append (h : form.marker ∉ s) (rest : List Char) :
    refs form (s ++ rest) = refs form rest := by
  induction s with
  | nil => rfl
  | cons c s ih =>
      simp only [List.mem_cons, not_or] at h
      have hread : form.read (c :: (s ++ rest)) = none :=
        form.read_eq_none _ _ fun heq => h.1 heq.symm
      rw [List.cons_append, refs, refsFrom, hread]
      exact ih h.2

theorem expand_literal (h : form.marker ∉ s) : expand form env s = s := by
  simpa using @expand_literal_append form env s h []

theorem refs_literal (h : form.marker ∉ s) : refs form s = [] := by
  simpa using refs_literal_append h []

theorem expand_ref_append (hne : ref ≠ []) (h : form.read (ref ++ rest) = some (name, ref.length)) :
    expand form env (ref ++ rest) = env name ++ expand form env rest := by
  obtain ⟨c, cs, rfl⟩ := List.exists_cons_of_ne_nil hne
  rw [List.cons_append] at h ⊢
  rw [expand, expandFrom, h]
  simp [expandFrom_drop]

theorem refs_ref_append (hne : ref ≠ []) (h : form.read (ref ++ rest) = some (name, ref.length)) :
    refs form (ref ++ rest) = name :: refs form rest := by
  obtain ⟨c, cs, rfl⟩ := List.exists_cons_of_ne_nil hne
  rw [List.cons_append] at h ⊢
  rw [refs, refsFrom, h]
  simp [refsFrom_drop]

theorem read_delimited {marker opening closing : Char} (h : closing ∉ name) (rest : List Char) :
    (delimited marker opening closing).read
        (marker :: opening :: (name ++ closing :: rest)) =
      some (name, name.length + 3) := by
  have htake : (name ++ closing :: rest).takeWhile (· != closing) = name := by
    rw [List.takeWhile_append_of_pos]
    · simp
    · intro c hc
      have hne : c ≠ closing := fun heq => h (heq ▸ hc)
      simpa using hne
  simp [delimited, htake]

theorem expand_congr (h : ∀ n ∈ refs form s, env n = env' n) :
    expand form env s = expand form env' s := by
  have hfrom : ∀ skip, (∀ n ∈ refsFrom form skip s, env n = env' n) →
      expandFrom form env skip s = expandFrom form env' skip s := by
    clear h
    induction s with
    | nil =>
        intro skip _
        cases skip <;> rfl
    | cons c s ih =>
        intro skip h
        cases skip with
        | succ skip => exact ih skip h
        | zero =>
            rw [refsFrom] at h
            rw [expandFrom, expandFrom]
            rcases hread : form.read (c :: s) with _ | ⟨name, len⟩
            · rw [hread] at h
              exact congrArg (c :: ·) (ih 0 h)
            · rw [hread] at h
              have hname : env name = env' name := h name (by simp)
              have hrest := ih (len - 1) fun n hn => h n (by simp [hn])
              simp only [hname, hrest]
  exact hfrom 0 h

theorem assignAll_of_not_mem {assignments : List (List Char × List Char)}
    (h : name ∉ assignments.map Prod.fst) : assignAll form env assignments name = env name := by
  induction assignments generalizing env with
  | nil => rfl
  | cons assignment rest ih =>
      obtain ⟨x, value⟩ := assignment
      simp only [List.map_cons, List.mem_cons, not_or] at h
      rw [assignAll, ih h.2, Function.update_of_ne h.1]

theorem assignAll_append (env : Env) (first second : List (List Char × List Char)) :
    assignAll form env (first ++ second) = assignAll form (assignAll form env first) second := by
  induction first generalizing env with
  | nil => rfl
  | cons assignment first ih => exact ih _

/-- In a well-ordered file each assignment is an equation of the environment that
the file leaves behind. -/
theorem assignAll_eq {assignments : List (List Char × List Char)}
    (horder : Ordered (dependencies form assignments))
    (h : (name, value) ∈ assignments) :
    assignAll form env assignments name =
      expand form (assignAll form env assignments) value := by
  induction assignments generalizing env with
  | nil => cases h
  | cons assignment rest ih =>
      obtain ⟨x, v⟩ := assignment
      simp only [dependencies, List.map_cons, Ordered, List.map_map, Function.comp_def] at horder
      obtain ⟨hlater, hself, hrest⟩ := horder
      rcases List.mem_cons.mp h with heq | hmem
      · cases heq
        have hkeep : ∀ n ∈ refs form value,
            assignAll form env ((name, value) :: rest) n = env n := by
          intro n hn
          have hne : n ≠ name := fun heq => hself (heq ▸ hn)
          rw [assignAll, assignAll_of_not_mem (hlater n (List.mem_cons_of_mem _ hn)),
            Function.update_of_ne hne]
        rw [expand_congr hkeep, assignAll, assignAll_of_not_mem (hlater name (by simp)),
          Function.update_self]
      · rw [assignAll]
        exact ih hrest hmem

end Wali.VariableExpansion
