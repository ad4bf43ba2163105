/-
# A line that loses items and says how many

Items are offered in order to a reader that has no room for some of them. With each
item it takes it is told how many it has lost since the one it took before, so from
what it took it can say where the gaps are and how long.
-/

import Mathlib.Data.List.Basic

namespace Lossy

open scoped List

universe u

variable {α : Type u}

/-- What became of the items offered: those taken, each with the number lost since the one
taken before, and the number lost since the last one taken. -/
inductive Account : List α → List (α × Nat) → Nat → Prop
  | nil : Account [] [] 0
  | take {offered : List α} {taken : List (α × Nat)} {lost : Nat} (a : α) :
      Account offered taken lost → Account (offered ++ [a]) (taken ++ [(a, lost)]) 0
  | lose {offered : List α} {taken : List (α × Nat)} {lost : Nat} (a : α) :
      Account offered taken lost → Account (offered ++ [a]) taken (lost + 1)

variable {offered : List α} {taken : List (α × Nat)} {lost : Nat}

/-- What is taken was offered, in this order. -/
theorem Account.sublist (account : Account offered taken lost) :
    taken.map Prod.fst <+ offered := by
  induction account with
  | nil => exact List.Sublist.slnil
  | take a _ ih =>
      rw [List.map_append]
      exact ih.append (List.Sublist.refl _)
  | lose a _ ih => exact ih.trans (List.sublist_append_left _ _)

/-- The items lost last come after the one taken last. -/
theorem Account.tail (account : Account offered taken lost) :
    ∃ before between, offered = before ++ between ∧ between.length = lost ∧
      taken.map Prod.fst <+ before ∧ before.getLast? = taken.getLast?.map Prod.fst := by
  induction account with
  | nil => exact ⟨[], [], rfl, rfl, List.Sublist.slnil, rfl⟩
  | @take offered taken lost a account =>
      refine ⟨offered ++ [a], [], (List.append_nil _).symm, rfl, ?_, by simp⟩
      rw [List.map_append]
      exact account.sublist.append (List.Sublist.refl _)
  | @lose offered taken lost a _ ih =>
      obtain ⟨before, between, rfl, length, under, last⟩ := ih
      exact ⟨before, between ++ [a], List.append_assoc .., by simp [length], under, last⟩

/-- Between an item that was taken and the one taken before it lie as many as it tells. -/
theorem Account.gap (account : Account offered taken lost) {pre post : List (α × Nat)} {a : α}
    {n : Nat} (at_ : taken = pre ++ (a, n) :: post) :
    ∃ before between after, offered = before ++ between ++ a :: after ∧ between.length = n ∧
      pre.map Prod.fst <+ before ∧ before.getLast? = pre.getLast?.map Prod.fst ∧
        post.map Prod.fst <+ after := by
  induction account generalizing pre post with
  | nil => simp at at_
  | @take offered taken lost b account ih =>
      rcases List.eq_nil_or_concat post with rfl | ⟨post, c, rfl⟩
      · obtain ⟨rfl, same⟩ := List.append_inj' at_ rfl
        cases same
        obtain ⟨before, between, rfl, length, under, last⟩ := account.tail
        exact ⟨before, between, [], rfl, length, under, last, List.Sublist.slnil⟩
      · rw [List.concat_eq_append, ← List.cons_append, ← List.append_assoc] at at_
        obtain ⟨rfl, same⟩ := List.append_inj' at_ rfl
        cases same
        obtain ⟨before, between, after, rfl, length, under, last, later⟩ := ih rfl
        refine ⟨before, between, after ++ [b], by simp, length, under, last, ?_⟩
        rw [List.concat_eq_append, List.map_append]
        exact later.append (List.Sublist.refl _)
  | lose b _ ih =>
      obtain ⟨before, between, after, rfl, length, under, last, later⟩ := ih at_
      exact ⟨before, between, after ++ [b], by simp, length, under, last,
        later.trans (List.sublist_append_left _ _)⟩

/-- An item between the one taken before `a` and `a` itself that was not taken. -/
def Missing (key : α → Nat) (taken pre : List (α × Nat)) (a b : α) : Prop :=
  (∀ p ∈ pre.getLast?, key p.1 < key b) ∧ key b < key a ∧ key b ∉ taken.map fun t => key t.1

instance (key : α → Nat) (taken pre : List (α × Nat)) (a b : α) :
    Decidable (Missing key taken pre a b) :=
  inferInstanceAs (Decidable (_ ∧ _ ∧ _))

/-- Where the items carry increasing numbers, a reader is told of as many as it is missing. -/
theorem Account.missing (account : Account offered taken lost) (key : α → Nat)
    (ordered : offered.Pairwise fun a b => key a < key b) {pre post : List (α × Nat)} {a : α}
    {n : Nat} (at_ : taken = pre ++ (a, n) :: post) :
    (offered.filter fun b => decide (Missing key taken pre a b)).length = n := by
  obtain ⟨before, between, after, rfl, length, under, last, later⟩ := account.gap at_
  rw [List.append_assoc, List.pairwise_append, List.pairwise_append] at ordered
  obtain ⟨early, ⟨-, late, apart⟩, ahead⟩ := ordered
  rw [List.pairwise_cons] at late
  have none_before : before.filter (fun b => decide (Missing key taken pre a b)) = [] := by
    rw [List.filter_eq_nil_iff]
    intro b there
    rw [decide_eq_true_eq]
    rintro ⟨beyond, -⟩
    obtain rfl | ⟨start, c, rfl⟩ := List.eq_nil_or_concat before
    · cases there
    · rw [List.concat_eq_append, List.getLast?_append, List.getLast?_singleton] at last
      obtain ⟨p, final, rfl⟩ := Option.map_eq_some_iff.mp last.symm
      have above := beyond p final
      rw [List.concat_eq_append, List.mem_append, List.mem_singleton] at there
      rw [List.concat_eq_append, List.pairwise_append] at early
      rcases there with there | rfl
      · have below := early.2.2 b there _ (List.mem_singleton_self _)
        omega
      · exact absurd above (Nat.lt_irrefl _)
  have none_after : (a :: after).filter (fun b => decide (Missing key taken pre a b)) = [] := by
    rw [List.filter_eq_nil_iff]
    intro b there
    rw [decide_eq_true_eq]
    rintro ⟨-, below, -⟩
    rcases List.mem_cons.mp there with rfl | there
    · exact absurd below (Nat.lt_irrefl _)
    · have above := late.1 b there
      omega
  have all_between : between.filter (fun b => decide (Missing key taken pre a b)) = between := by
    rw [List.filter_eq_self]
    intro b there
    rw [decide_eq_true_eq]
    refine ⟨fun p final => ?_, apart b there a List.mem_cons_self, fun listed => ?_⟩
    · have listed : p.1 ∈ before := under.subset (List.mem_map_of_mem (List.mem_of_getLast? final))
      exact ahead _ listed b (List.mem_append_left _ there)
    · obtain ⟨t, listed, same⟩ := List.mem_map.mp listed
      rw [at_, List.mem_append, List.mem_cons] at listed
      rcases listed with listed | rfl | listed
      · have below := ahead _ (under.subset (List.mem_map_of_mem listed)) b
          (List.mem_append_left _ there)
        omega
      · exact absurd (same ▸ apart b there _ List.mem_cons_self) (Nat.lt_irrefl _)
      · have above := apart b there _
          (List.mem_cons_of_mem _ (later.subset (List.mem_map_of_mem listed)))
        omega
  rw [List.filter_append, List.filter_append, none_before, all_between, none_after]
  simpa using length

end Lossy
