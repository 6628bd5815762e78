import Mathlib.Data.List.Basic
import Mathlib.Data.List.Induction

/-!
Normalisation of absolute paths: the list of names that is left when `.`, `..` and
repeated slashes are resolved.
-/

namespace Wali.PathNormalisation

abbrev Path := List Char

/-- The directory entered from `dir` by one part of a path. -/
def enter (dir : List Path) (part : Path) : List Path :=
  if part = [] ∨ part = ['.'] then dir
  else if part = ['.', '.'] then dir.dropLast
  else dir ++ [part]

def walk (dir : List Path) (path : Path) : List Path := (path.splitOn '/').foldl enter dir

def normalise (path : Path) : List Path := walk [] path

def SameDir (p q : Path) : Prop := normalise p = normalise q

instance (p q : Path) : Decidable (SameDir p q) :=
  inferInstanceAs (Decidable (normalise p = normalise q))

/-- A name that a directory can have. -/
structure IsName (n : Path) : Prop where
  ne_nil : n ≠ []
  ne_dot : n ≠ ['.']
  ne_dotdot : n ≠ ['.', '.']
  not_mem_slash : '/' ∉ n

/-- The names of a path, each with a slash before it. -/
def slashed (names : List Path) : Path := names.flatMap fun n => '/' :: n

def absPath (names : List Path) : Path := if names = [] then ['/'] else slashed names

variable {p q rel : Path} {dir names : List Path}

@[simp] theorem walk_nil (dir : List Path) : walk dir [] = dir := by
  simp [walk, enter]

@[simp] theorem normalise_nil : normalise [] = [] := walk_nil []

theorem walk_append_slash (dir : List Path) (p rel : Path) :
    walk dir (p ++ '/' :: rel) = walk (walk dir p) rel := by
  simp [walk, List.splitOn_append_cons_self]

theorem normalise_append_slash (p rel : Path) :
    normalise (p ++ '/' :: rel) = walk (normalise p) rel :=
  walk_append_slash [] p rel

theorem SameDir.append (h : SameDir p q) (rel : Path) :
    SameDir (p ++ '/' :: rel) (q ++ '/' :: rel) := by
  rw [SameDir, normalise_append_slash, normalise_append_slash, h]

theorem walk_name (dir : List Path) {n : Path} (h : IsName n) : walk dir n = dir ++ [n] := by
  rw [walk, List.splitOn_eq_singleton h.not_mem_slash]
  simp [enter, h.ne_nil, h.ne_dot, h.ne_dotdot]

theorem normalise_parent (p : Path) : normalise (p ++ ['/', '.', '.']) = (normalise p).dropLast := by
  rw [normalise_append_slash]
  rfl

theorem slashed_concat (names : List Path) (n : Path) :
    slashed (names ++ [n]) = slashed names ++ '/' :: n := by
  simp [slashed]

theorem normalise_slashed (h : ∀ n ∈ names, IsName n) : normalise (slashed names) = names := by
  induction names using List.reverseRecOn with
  | nil => exact normalise_nil
  | append_singleton names n ih =>
      rw [slashed_concat, normalise_append_slash, ih fun m hm => h m (by simp [hm]),
        walk_name _ (h n (by simp))]

theorem normalise_absPath (h : ∀ n ∈ names, IsName n) : normalise (absPath names) = names := by
  unfold absPath
  split
  · next hnil =>
      subst hnil
      rfl
  · exact normalise_slashed h

end Wali.PathNormalisation
