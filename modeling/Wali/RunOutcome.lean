import Mathlib.Data.List.Forall2

/-!
Outcomes of a program run: a value, a raised exception or a run without end.
-/

namespace Wali.RunOutcome

inductive Outcome (ε α : Type) : Type
  | returns (value : α)
  | raises (error : ε)
  | diverges
  deriving DecidableEq

namespace Outcome

variable {ε α β γ : Type}

def bind (x : Outcome ε α) (f : α → Outcome ε β) : Outcome ε β :=
  match x with
  | returns value => f value
  | raises error => raises error
  | diverges => diverges

instance : Monad (Outcome ε) where
  pure := returns
  bind := bind

@[simp] theorem pure_eq (a : α) : (pure a : Outcome ε α) = returns a := rfl

@[simp] theorem returns_bind (a : α) (f : α → Outcome ε β) :
    (returns a >>= f) = f a := rfl

@[simp] theorem raises_bind (e : ε) (f : α → Outcome ε β) :
    (raises e >>= f) = raises e := rfl

@[simp] theorem diverges_bind (f : α → Outcome ε β) :
    ((diverges : Outcome ε α) >>= f) = diverges := rfl

theorem bind_eq_returns_iff {x : Outcome ε α} {f : α → Outcome ε β} {b : β} :
    (x >>= f) = returns b ↔ ∃ a, x = returns a ∧ f a = returns b := by
  cases x <;> simp

/-- The run ends with a value. -/
def Finishes (x : Outcome ε α) : Prop := ∃ value, x = returns value

@[simp] theorem finishes_returns (a : α) : (returns a : Outcome ε α).Finishes :=
  ⟨a, rfl⟩

@[simp] theorem not_finishes_raises (e : ε) : ¬ (raises e : Outcome ε α).Finishes := by
  rintro ⟨_, h⟩
  cases h

@[simp] theorem not_finishes_diverges : ¬ (diverges : Outcome ε α).Finishes := by
  rintro ⟨_, h⟩
  cases h

theorem finishes_bind_iff {x : Outcome ε α} {f : α → Outcome ε β} :
    (x >>= f).Finishes ↔ ∃ a, x = returns a ∧ (f a).Finishes := by
  constructor
  · rintro ⟨b, h⟩
    obtain ⟨a, ha, hb⟩ := bind_eq_returns_iff.mp h
    exact ⟨a, ha, b, hb⟩
  · rintro ⟨a, ha, b, hb⟩
    exact ⟨b, bind_eq_returns_iff.mpr ⟨a, ha, hb⟩⟩

theorem bind_ne_diverges {x : Outcome ε α} {f : α → Outcome ε β} (hx : x ≠ diverges)
    (hf : ∀ a, f a ≠ diverges) : (x >>= f) ≠ diverges := by
  cases x with
  | returns a => exact hf a
  | raises e => simp
  | diverges => exact absurd rfl hx

/-- A lookup that raises where there is no value. -/
def ofOption (error : ε) : Option α → Outcome ε α
  | some value => returns value
  | none => raises error

@[simp] theorem ofOption_eq_returns_iff {error : ε} {x : Option α} {a : α} :
    ofOption error x = returns a ↔ x = some a := by
  cases x <;> simp [ofOption]

theorem ofOption_ne_diverges (error : ε) (x : Option α) : ofOption error x ≠ diverges := by
  cases x <;> simp [ofOption]

/-- `[f(x) for x in xs]` -/
def forEach (f : α → Outcome ε β) : List α → Outcome ε (List β)
  | [] => returns []
  | x :: xs => do
      let y ← f x
      let ys ← forEach f xs
      returns (y :: ys)

@[simp] theorem forEach_nil (f : α → Outcome ε β) : forEach f [] = returns [] := rfl

theorem forEach_ne_diverges {f : α → Outcome ε β} (hf : ∀ x, f x ≠ diverges) (xs : List α) :
    forEach f xs ≠ diverges := by
  induction xs with
  | nil => simp
  | cons x xs ih =>
      rw [forEach]
      exact bind_ne_diverges (hf x) fun y => bind_ne_diverges ih fun ys => by simp

theorem forEach_eq_returns_iff {f : α → Outcome ε β} {xs : List α} {ys : List β} :
    forEach f xs = returns ys ↔ List.Forall₂ (fun x y => f x = returns y) xs ys := by
  induction xs generalizing ys with
  | nil =>
      cases ys <;> simp
  | cons x xs ih =>
      simp only [forEach, bind_eq_returns_iff, returns.injEq]
      constructor
      · rintro ⟨y, hy, ys', hys, rfl⟩
        exact .cons hy (ih.mp hys)
      · rintro (_ | ⟨hy, hys⟩)
        exact ⟨_, hy, _, ih.mpr hys, rfl⟩

theorem length_of_forEach {f : α → Outcome ε β} {xs : List α} {ys : List β}
    (h : forEach f xs = returns ys) : ys.length = xs.length :=
  (forEach_eq_returns_iff.mp h).length_eq.symm

theorem getElem?_of_forEach {f : α → Outcome ε β} {xs : List α} {ys : List β}
    (h : forEach f xs = returns ys) {i : Nat} {x : α} {y : β}
    (hx : xs[i]? = some x) (hy : ys[i]? = some y) : f x = returns y := by
  have hpoint := (List.forall₂_iff_get.mp (forEach_eq_returns_iff.mp h)).2
  obtain ⟨hix, rfl⟩ := List.getElem?_eq_some_iff.mp hx
  obtain ⟨hiy, rfl⟩ := List.getElem?_eq_some_iff.mp hy
  exact hpoint i hix hiy

theorem exists_of_mem_forEach {f : α → Outcome ε β} {xs : List α} {ys : List β}
    (h : forEach f xs = returns ys) {y : β} (hy : y ∈ ys) :
    ∃ x ∈ xs, f x = returns y := by
  have hpoint := forEach_eq_returns_iff.mp h
  clear h
  induction hpoint with
  | nil => simp at hy
  | cons hx _ ih =>
      rcases List.mem_cons.mp hy with rfl | hrest
      · exact ⟨_, by simp, hx⟩
      · obtain ⟨x, hmem, hfx⟩ := ih hrest
        exact ⟨x, by simp [hmem], hfx⟩

theorem exists_mem_of_forEach {f : α → Outcome ε β} {xs : List α} {ys : List β}
    (h : forEach f xs = returns ys) {x : α} (hx : x ∈ xs) :
    ∃ y ∈ ys, f x = returns y := by
  obtain ⟨i, hi⟩ := List.getElem?_of_mem hx
  have hlt : i < ys.length := by
    rw [length_of_forEach h]
    exact (List.getElem?_eq_some_iff.mp hi).1
  have hy : ys[i]? = some ys[i] := List.getElem?_eq_getElem hlt
  exact ⟨ys[i], List.getElem_mem hlt, getElem?_of_forEach h hi hy⟩

theorem finishes_forEach_iff {f : α → Outcome ε β} {xs : List α} :
    (forEach f xs).Finishes ↔ ∀ x ∈ xs, (f x).Finishes := by
  induction xs with
  | nil => simp
  | cons x xs ih =>
      rw [forEach, finishes_bind_iff]
      constructor
      · rintro ⟨y, hy, hrest⟩ x' hx'
        obtain ⟨ys, hys, _⟩ := finishes_bind_iff.mp hrest
        rcases List.mem_cons.mp hx' with rfl | hx'
        · exact ⟨y, hy⟩
        · exact ih.mp ⟨ys, hys⟩ x' hx'
      · intro h
        obtain ⟨y, hy⟩ := h x (by simp)
        obtain ⟨ys, hys⟩ := ih.mpr fun x' hx' => h x' (by simp [hx'])
        exact ⟨y, hy, by simp [hys]⟩

theorem forEach_map {f : α → Outcome ε β} (g : β → γ) {xs : List α} {ys : List β}
    (h : forEach f xs = returns ys) :
    forEach (fun x => f x >>= fun y => returns (g y)) xs = returns (ys.map g) := by
  have hpoint := forEach_eq_returns_iff.mp h
  clear h
  rw [forEach_eq_returns_iff]
  induction hpoint with
  | nil => exact .nil
  | cons hx _ ih => exact .cons (by simp [hx]) ih

theorem forEach_eq_map {f : α → Outcome ε β} {g : α → β} {xs : List α}
    (h : ∀ x ∈ xs, f x = returns (g x)) : forEach f xs = returns (xs.map g) := by
  induction xs with
  | nil => rfl
  | cons x xs ih =>
      rw [forEach, h x (by simp), returns_bind, ih fun x' hx' => h x' (by simp [hx'])]
      rfl

theorem forEach_comp (f : β → Outcome ε γ) (g : α → β) (xs : List α) :
    forEach f (xs.map g) = forEach (fun x => f (g x)) xs := by
  induction xs with
  | nil => rfl
  | cons x xs ih => rw [List.map_cons, forEach, forEach, ih]

/-- A comprehension whose items return under a condition each. -/
theorem forEach_eq_returns_iff_map {f : α → Outcome ε β} {g : α → β} {P : α → Prop}
    {xs : List α} {ys : List β}
    (h : ∀ x ∈ xs, ∀ y, f x = returns y ↔ P x ∧ y = g x) :
    forEach f xs = returns ys ↔ (∀ x ∈ xs, P x) ∧ ys = xs.map g := by
  induction xs generalizing ys with
  | nil => simp [eq_comm]
  | cons x xs ih =>
      have hrest : ∀ ys', forEach f xs = returns ys' ↔ (∀ x' ∈ xs, P x') ∧ ys' = xs.map g :=
        fun ys' => ih fun x' hx' => h x' (List.mem_cons_of_mem x hx')
      simp only [forEach, bind_eq_returns_iff, returns.injEq, h x List.mem_cons_self, hrest,
        List.forall_mem_cons, List.map_cons]
      constructor
      · rintro ⟨_, ⟨hx, rfl⟩, _, ⟨hxs, rfl⟩, rfl⟩
        exact ⟨⟨hx, hxs⟩, rfl⟩
      · rintro ⟨⟨hx, hxs⟩, rfl⟩
        exact ⟨_, ⟨hx, rfl⟩, _, ⟨hxs, rfl⟩, rfl⟩

end Outcome

end Wali.RunOutcome
