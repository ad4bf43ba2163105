/-
# Objects by number

Objects that are shared by reference are kept in a list, each known by its place.
Creating one appends it, and a loop over some of them updates each at its place.
-/

import Mathlib.Data.List.Basic

namespace Objects

universe u

variable {α : Type u}

/-- A loop over some of the objects. -/
def updateEach (numbers : List Nat) (f : α → α) (objects : List α) : List α :=
  numbers.foldl (fun objects n => objects.modify n f) objects

/-- A loop that meets no object twice updates those that it meets. -/
theorem getElem?_updateEach {numbers : List Nat} (distinct : numbers.Nodup) (f : α → α)
    (objects : List α) (n : Nat) : (updateEach numbers f objects)[n]? =
      if n ∈ numbers then (objects[n]?).map f else objects[n]? := by
  simp only [updateEach]
  induction numbers generalizing objects with
  | nil => simp
  | cons m rest ih =>
      obtain ⟨apart, distinct⟩ := List.nodup_cons.mp distinct
      rw [List.foldl_cons, ih distinct, List.getElem?_modify]
      by_cases same : m = n
      · subst same
        simp [apart]
      · simp [same, Ne.symm same]

@[simp] theorem length_updateEach (numbers : List Nat) (f : α → α) (objects : List α) :
    (updateEach numbers f objects).length = objects.length := by
  simp only [updateEach]
  induction numbers generalizing objects with
  | nil => rfl
  | cons m rest ih => rw [List.foldl_cons, ih, List.length_modify]

/-- After an object is created, what is there was there or is the new one. -/
theorem getElem?_append_singleton {objects : List α} {a b : α} {n : Nat}
    (there : (objects ++ [a])[n]? = some b) : objects[n]? = some b ∨ n = objects.length ∧ b = a := by
  rw [List.getElem?_append] at there
  split at there
  · exact .inl there
  · next beyond =>
      obtain ⟨short, rfl⟩ := List.getElem?_eq_some_iff.mp there
      rw [List.length_singleton] at short
      exact .inr ⟨by omega, List.getElem_singleton _⟩

/-- What was there is there after an object is created. -/
theorem getElem?_append_of_some {objects : List α} {a b : α} {n : Nat}
    (there : objects[n]? = some b) : (objects ++ [a])[n]? = some b :=
  (List.getElem?_append_left (List.getElem?_eq_some_iff.mp there).1).trans there

theorem lt_length {objects : List α} {a : α} {n : Nat} (there : objects[n]? = some a) :
    n < objects.length :=
  (List.getElem?_eq_some_iff.mp there).1

end Objects
