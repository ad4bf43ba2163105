/-
# Finite tables

A key is bound at most once; Mathlib's association lists carry that as a
field. This is their non-dependent case, with the few rewriting rules a state
machine needs: what a lookup finds after a binding was set or erased, and that a
property of all bindings can be decided.
-/

import Mathlib.Data.List.AList

universe u v

/-- A finite map from keys to values. -/
def Table (κ : Type u) (β : Type v) : Type (max u v) := AList fun _ : κ => β

namespace Table

variable {κ : Type u} {β : Type v}

/-- The table that binds nothing. -/
def empty : Table κ β := (∅ : AList fun _ : κ => β)

/-- Every binding, most recently set first. -/
def rows (t : Table κ β) : List (Σ _ : κ, β) := AList.entries t

/-- How many keys are bound. -/
def size (t : Table κ β) : Nat := t.rows.length

/-- Every bound key. -/
def keys (t : Table κ β) : List κ := AList.keys t

/-- How many keys are bound to such a value. -/
def count (t : Table κ β) (p : β → Bool) : Nat := t.rows.countP fun row => p row.2

theorem count_true (t : Table κ β) : (t.count fun _ => true) = t.size :=
  congrFun List.countP_true t.rows

variable [DecidableEq κ]

/-- The value bound to a key, if any. -/
def get (t : Table κ β) (k : κ) : Option β := AList.lookup k t

/-- Bind a key, replacing an earlier binding. -/
def set (t : Table κ β) (k : κ) (v : β) : Table κ β := AList.insert k v t

/-- Forget a key. -/
def erase (t : Table κ β) (k : κ) : Table κ β := AList.erase k t

/-- Forget all keys of a kind. -/
def without (t : Table κ β) (gone : κ → Bool) : Table κ β :=
  ⟨t.rows.filter fun row => !gone row.1, AList.nodupKeys t |>.sublist List.filter_sublist⟩

@[simp]
theorem get_empty (k : κ) : (empty : Table κ β).get k = none := rfl

theorem get_set (t : Table κ β) (k k' : κ) (v : β) :
    (t.set k v).get k' = if k' = k then some v else t.get k' := by
  split
  · next same => subst same; exact AList.lookup_insert t
  · next differs => exact AList.lookup_insert_ne differs

@[simp]
theorem get_set_self (t : Table κ β) (k : κ) (v : β) : (t.set k v).get k = some v :=
  AList.lookup_insert t

theorem get_set_of_ne {k k' : κ} (differs : k' ≠ k) (t : Table κ β) (v : β) :
    (t.set k v).get k' = t.get k' :=
  AList.lookup_insert_ne differs

theorem get_erase (t : Table κ β) (k k' : κ) :
    (t.erase k).get k' = if k' = k then none else t.get k' := by
  split
  · next same => subst same; exact AList.lookup_erase k' t
  · next differs => exact AList.lookup_erase_ne differs

@[simp]
theorem get_erase_self (t : Table κ β) (k : κ) : (t.erase k).get k = none :=
  AList.lookup_erase k t

theorem mem_rows_iff {t : Table κ β} {k : κ} {v : β} :
    (⟨k, v⟩ : Σ _ : κ, β) ∈ t.rows ↔ t.get k = some v :=
  AList.mem_lookup_iff.symm

theorem mem_keys_iff {t : Table κ β} {k : κ} : k ∈ t.keys ↔ ∃ v, t.get k = some v := by
  have found : (AList.lookup k t).isSome ↔ k ∈ AList.keys t := AList.lookup_isSome
  rw [keys, ← found, Option.isSome_iff_exists]
  exact Iff.rfl

/-- A property of all bindings is a property of the finitely many rows. -/
theorem forall_get_iff {t : Table κ β} {p : κ → β → Prop} :
    (∀ k v, t.get k = some v → p k v) ↔ ∀ row ∈ t.rows, p row.1 row.2 := by
  constructor
  · rintro all ⟨k, v⟩ listed
    exact all k v (mem_rows_iff.mp listed)
  · intro all k v bound
    exact all ⟨k, v⟩ (mem_rows_iff.mpr bound)

theorem get_without (t : Table κ β) (gone : κ → Bool) (k : κ) :
    (t.without gone).get k = if gone k then none else t.get k := by
  have bound : ∀ v, (t.without gone).get k = some v ↔ t.get k = some v ∧ gone k = false := by
    intro v
    rw [← mem_rows_iff, ← mem_rows_iff]
    change _ ∈ t.rows.filter _ ↔ _
    simp
  apply Option.ext
  intro v
  rw [bound]
  cases gone k <;> simp

/-! ## Counting -/

/-- Without a key's row, what is bound to it is not counted. -/
theorem count_erase (t : Table κ β) (k : κ) (p : β → Bool) :
    (t.erase k).count p + ((t.get k).map p).elim 0 Bool.toNat = t.count p := by
  have rows : (t.erase k).rows = t.rows.kerase k := rfl
  rw [count, count, rows]
  by_cases bound : k ∈ t.keys
  · obtain ⟨v, before, after, -, whole, rest⟩ := List.exists_of_kerase bound
    change t.rows = _ at whole
    change t.rows.kerase k = _ at rest
    have found : t.get k = some v := by
      rw [← mem_rows_iff, whole]
      simp
    rw [rest, whole, found, List.countP_append, List.countP_append, List.countP_cons]
    cases counted : p v <;> simp [counted, Nat.add_assoc]
  · have absent : t.get k = none := by
      cases found : t.get k with
      | none => rfl
      | some v => exact absurd (mem_keys_iff.mpr ⟨v, found⟩) bound
    have same : t.rows.kerase k = t.rows := List.kerase_of_notMem_keys bound
    simp [same, absent]

/-- What is bound to a key is counted in the place of what was bound to it. -/
theorem count_set (t : Table κ β) (k : κ) (v : β) (p : β → Bool) :
    (t.set k v).count p + ((t.get k).map p).elim 0 Bool.toNat = t.count p + (p v).toNat := by
  have rows : (t.set k v).count p = (t.erase k).count p + (p v).toNat := by
    change (⟨k, v⟩ :: t.rows.kerase k).countP _ = (t.rows.kerase k).countP _ + _
    rw [List.countP_cons]
    cases p v <;> rfl
  rw [rows, ← count_erase t k p]
  omega

theorem size_set_vacant {t : Table κ β} {k : κ} (vacant : t.get k = none) (v : β) :
    (t.set k v).size = t.size + 1 := by
  have counted := count_set t k v fun _ => true
  rw [vacant, count_true, count_true] at counted
  exact counted

theorem size_set_bound {t : Table κ β} {k : κ} {w : β} (bound : t.get k = some w) (v : β) :
    (t.set k v).size = t.size := by
  have counted := count_set t k v fun _ => true
  rw [bound, count_true, count_true] at counted
  exact Nat.add_right_cancel counted

theorem size_erase_bound {t : Table κ β} {k : κ} {w : β} (bound : t.get k = some w) :
    (t.erase k).size + 1 = t.size := by
  have counted := count_erase t k fun _ => true
  rw [bound, count_true, count_true] at counted
  exact counted

instance {t : Table κ β} {p : κ → β → Prop} [∀ k v, Decidable (p k v)] :
    Decidable (∀ k v, t.get k = some v → p k v) :=
  decidable_of_iff (∀ row ∈ t.rows, p row.1 row.2) forall_get_iff.symm

end Table
