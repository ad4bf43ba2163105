/-
# Pages by key

A client reads a collection page by page while it changes. Each page is taken from what is
there at that moment: the greatest keys below the last key that the client has, in descending
order. Whatever changes between two pages, nothing comes twice, and what stays is not left out.
-/

import Mathlib.Data.List.Sort

namespace Keyset

universe u v

variable {κ : Type u} [LinearOrder κ]

/-- What comes after a cursor. -/
def Below (cursor : Option κ) (k : κ) : Prop := ∀ c ∈ cursor, k < c

/-- The first keys below the cursor. -/
structure IsPage (limit : Nat) (present : κ → Prop) (cursor : Option κ) (keys : List κ) : Prop where
  descending : keys.Pairwise (· > ·)
  sound : ∀ k ∈ keys, present k ∧ Below cursor k
  short : keys.length ≤ limit
  /-- A key that is left for later comes after all of a full page. -/
  rest : ∀ k, present k → Below cursor k → k ∉ keys → keys.length = limit ∧ ∀ first ∈ keys, k < first

/-- Full pages up to a cursor, one from each collection, and all keys on them. -/
inductive Walk (limit : Nat) (present : Nat → κ → Prop) : Nat → Option κ → List κ → Prop
  | start : Walk limit present 0 none []
  | page {n : Nat} {cursor : Option κ} {visited keys : List κ} {last : κ} :
      Walk limit present n cursor visited → IsPage limit (present n) cursor keys →
      keys.length = limit → keys.getLast? = some last →
      Walk limit present (n + 1) (some last) (visited ++ keys)

variable {limit n : Nat} {present : Nat → κ → Prop} {cursor : Option κ} {visited keys : List κ}

/-! ## One page -/

/-- A page of a list of keys. -/
theorem isPage_take {visible : κ → Prop} (nodup : keys.Nodup)
    (listed : ∀ k, k ∈ keys ↔ visible k ∧ Below cursor k) :
    IsPage limit visible cursor ((keys.insertionSort (· ≥ ·)).take limit) := by
  have sorted : (keys.insertionSort (· ≥ ·)).Pairwise (· > ·) := by
    have ordered := List.pairwise_insertionSort (· ≥ · : κ → κ → Prop) keys
    have apart : (keys.insertionSort (· ≥ ·)).Nodup :=
      (List.perm_insertionSort (· ≥ ·) keys).nodup_iff.mpr nodup
    exact (ordered.and apart).imp fun both => lt_of_le_of_ne both.1 (Ne.symm both.2)
  have split := List.take_append_drop limit (keys.insertionSort (· ≥ ·))
  refine ⟨sorted.sublist (List.take_sublist ..), fun k there => ?_, List.length_take_le ..,
    fun k shown below absent => ?_⟩
  · exact (listed k).mp ((List.mem_insertionSort _).mp (List.mem_of_mem_take there))
  · have there : k ∈ (keys.insertionSort (· ≥ ·)).take limit ++
        (keys.insertionSort (· ≥ ·)).drop limit := by
      rw [split, List.mem_insertionSort]
      exact (listed k).mpr ⟨shown, below⟩
    have later := (List.mem_append.mp there).resolve_left absent
    rw [← split] at sorted
    refine ⟨?_, fun first onPage => (List.pairwise_append.mp sorted).2.2 first onPage k later⟩
    have some : 0 < ((keys.insertionSort (· ≥ ·)).drop limit).length :=
      List.length_pos_of_mem later
    rw [List.length_drop] at some
    rw [List.length_take]
    omega

theorem lt_last_iff {last : κ} (descending : keys.Pairwise (· > ·))
    (ends : keys.getLast? = some last) (k : κ) : k < last ↔ ∀ k' ∈ keys, k < k' := by
  obtain ⟨before, rfl⟩ := List.getLast?_eq_some_iff.mp ends
  constructor
  · intro less k' there
    rcases List.mem_append.mp there with there | there
    · exact less.trans ((List.pairwise_append.mp descending).2.2 k' there last
        (List.mem_singleton_self last))
    · exact List.mem_singleton.mp there ▸ less
  · exact fun all => all last (List.mem_append_right _ (List.mem_singleton_self last))

/-! ## All pages -/

/-- What the cursor leaves is what comes after all that was visited. -/
theorem Walk.below_iff (walk : Walk limit present n cursor visited) (k : κ) :
    Below cursor k ↔ ∀ k' ∈ visited, k < k' := by
  induction walk generalizing k with
  | start => exact ⟨fun _ => nofun, fun _ => nofun⟩
  | @page n cursor visited keys last _ page _ ends ih =>
      have below : Below (some last) k ↔ k < last := by simp [Below]
      rw [below, lt_last_iff page.descending ends]
      refine ⟨fun all k' there => ?_, fun all k' there => all k' (List.mem_append_right _ there)⟩
      rcases List.mem_append.mp there with there | there
      · have onPage : last ∈ keys := List.mem_of_getLast? ends
        exact (all last onPage).trans ((ih last).mp (page.sound last onPage).2 k' there)
      · exact all k' there

/-- A page continues the order. -/
theorem Walk.descending_append (walk : Walk limit present n cursor visited)
    (descending : visited.Pairwise (· > ·)) (page : IsPage limit (present n) cursor keys) :
    (visited ++ keys).Pairwise (· > ·) :=
  List.pairwise_append.mpr ⟨descending, page.descending, fun k there k' onPage =>
    (walk.below_iff k').mp (page.sound k' onPage).2 k there⟩

/-- No page comes twice and none is out of order. -/
theorem Walk.descending (walk : Walk limit present n cursor visited) :
    visited.Pairwise (· > ·) := by
  induction walk with
  | start => exact .nil
  | page walk page _ _ ih => exact walk.descending_append ih page

theorem Walk.length (walk : Walk limit present n cursor visited) : visited.length = n * limit := by
  induction walk with
  | start => rw [Nat.zero_mul, List.length_nil]
  | page _ _ full _ ih => rw [List.length_append, ih, full, Nat.succ_mul]

/-- What stays is visited, or comes later. -/
theorem Walk.mem_or_below (walk : Walk limit present n cursor visited) {k : κ}
    (stays : ∀ i < n, present i k) : k ∈ visited ∨ Below cursor k := by
  induction walk with
  | start => exact .inr nofun
  | @page n cursor visited keys last _ page _ ends ih =>
      rcases ih fun i before => stays i (before.trans n.lt_succ_self) with there | below
      · exact .inl (List.mem_append_left _ there)
      · by_cases onPage : k ∈ keys
        · exact .inl (List.mem_append_right _ onPage)
        · have later := (page.rest k (stays n n.lt_succ_self) below onPage).2
          refine .inr fun c same => ?_
          obtain rfl := Option.some.inj same
          exact later last (List.mem_of_getLast? ends)

/-- After a page that is not full, all that stayed has been visited. -/
theorem Walk.mem_of_stays (walk : Walk limit present n cursor visited)
    (page : IsPage limit (present n) cursor keys) (last : keys.length ≠ limit) {k : κ}
    (stays : ∀ i ≤ n, present i k) : k ∈ visited ++ keys := by
  rcases walk.mem_or_below fun i before => stays i before.le with there | below
  · exact List.mem_append_left _ there
  · by_contra missed
    exact last (page.rest k (stays n le_rfl) below fun onPage =>
      missed (List.mem_append_right _ onPage)).1

end Keyset
