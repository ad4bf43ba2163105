/-
# Dictionaries in the order of insertion

Python's `OrderedDict`: a key that is bound again keeps its place, one that is moved
goes to the end, and the first can be popped.
-/

import Mathlib.Data.List.Nodup

universe u v

/-- The bindings, the first inserted first. -/
@[ext]
structure OrderedDict (κ : Type u) (β : Type v) where
  items : List (κ × β)
  /-- A key is bound at most once. -/
  nodup : (items.map Prod.fst).Nodup

namespace OrderedDict

variable {κ : Type u} {β : Type v}

def empty : OrderedDict κ β := ⟨[], List.nodup_nil⟩

def keys (d : OrderedDict κ β) : List κ := d.items.map Prod.fst

def size (d : OrderedDict κ β) : Nat := d.items.length

/-- `popitem(last=False)`. -/
def popFirst (d : OrderedDict κ β) : OrderedDict κ β :=
  ⟨d.items.tail, d.nodup.sublist ((List.tail_sublist _).map _)⟩

variable [DecidableEq κ]

/-- `get`. -/
def get (d : OrderedDict κ β) (k : κ) : Option β :=
  (d.items.find? fun item => item.1 = k).map Prod.snd

theorem keys_replace (items : List (κ × β)) (k : κ) (v : β) :
    (items.map fun item => if item.1 = k then (k, v) else item).map Prod.fst =
      items.map Prod.fst := by
  rw [List.map_map, List.map_inj_left]
  intro item _
  rw [Function.comp_apply]
  split
  · next same => exact same.symm
  · rfl

/-- `d[k] = v`. -/
def set (d : OrderedDict κ β) (k : κ) (v : β) : OrderedDict κ β :=
  if bound : k ∈ d.keys then
    ⟨d.items.map fun item => if item.1 = k then (k, v) else item,
      (keys_replace d.items k v).symm ▸ d.nodup⟩
  else
    ⟨d.items ++ [(k, v)], by
      rw [List.map_append, List.map_singleton]
      refine List.nodup_append.mpr ⟨d.nodup, List.nodup_singleton k, fun a there b last same => ?_⟩
      rw [same, List.mem_singleton.mp last] at there
      exact bound there⟩

/-- The bindings of other keys. -/
def without (items : List (κ × β)) (k : κ) : List (κ × β) := items.filter fun item => item.1 ≠ k

/-- `move_to_end`, which raises when the key is not bound. -/
def moveToEnd (d : OrderedDict κ β) (k : κ) : Option (OrderedDict κ β) :=
  (d.get k).map fun v =>
    ⟨without d.items k ++ [(k, v)], by
      rw [List.map_append, List.map_singleton]
      refine List.nodup_append.mpr ⟨d.nodup.sublist (List.filter_sublist.map _),
        List.nodup_singleton k, fun a there b last same => ?_⟩
      obtain ⟨item, listed, rfl⟩ := List.mem_map.mp there
      exact of_decide_eq_true (List.mem_filter.mp listed).2 (same.trans (List.mem_singleton.mp last))⟩

variable {d : OrderedDict κ β} {k : κ} {v : β}

theorem get_eq_some_iff : d.get k = some v ↔ (k, v) ∈ d.items := by
  obtain ⟨items, nodup⟩ := d
  simp only [get]
  induction items with
  | nil => simp
  | cons item rest ih =>
      obtain ⟨apart, nodup⟩ := List.nodup_cons.mp nodup
      rw [List.find?_cons]
      by_cases same : item.1 = k
      · subst same
        have alone : (item.1, v) ∉ rest := fun there =>
          apart (List.mem_map.mpr ⟨_, there, rfl⟩)
        simp only [decide_true, Option.map_some, Option.some.injEq, List.mem_cons, alone, or_false]
        exact ⟨fun same => same ▸ rfl, fun same => (congrArg Prod.snd same).symm⟩
      · have other : (k, v) ≠ item := fun one => same (one ▸ rfl)
        simp only [same, decide_false, ih nodup, List.mem_cons, other, false_or]

theorem get_eq_none_iff : d.get k = none ↔ k ∉ d.keys := by
  rw [Option.eq_none_iff_forall_ne_some]
  constructor
  · intro unbound there
    obtain ⟨item, listed, rfl⟩ := List.mem_map.mp there
    exact unbound item.2 (get_eq_some_iff.mpr listed)
  · intro absent v bound
    exact absent (List.mem_map_of_mem (get_eq_some_iff.mp bound))

theorem without_of_not_mem {items : List (κ × β)} (absent : k ∉ items.map Prod.fst) :
    without items k = items := by
  rw [without, List.filter_eq_self]
  intro item there
  exact decide_eq_true fun same => absent (same ▸ List.mem_map_of_mem there)

theorem keys_without (items : List (κ × β)) (k : κ) :
    (without items k).map Prod.fst = (items.map Prod.fst).filter (· ≠ k) := by
  rw [without, List.filter_map]
  rfl

theorem mem_without {items : List (κ × β)} {item : κ × β} :
    item ∈ without items k ↔ item ∈ items ∧ item.1 ≠ k := by
  rw [without, List.mem_filter, decide_eq_true_eq]

theorem length_without_lt (bound : (k, v) ∈ d.items) : (without d.items k).length < d.size :=
  List.length_filter_lt_length_iff_exists.mpr ⟨_, bound, by simp⟩

theorem items_set_new (absent : k ∉ d.keys) (v : β) : (d.set k v).items = d.items ++ [(k, v)] := by
  rw [set, dif_neg absent]

/-- Binding the last key again. -/
theorem items_set_last {before : List (κ × β)} (last : d.items = before ++ [(k, v)]) (w : β) :
    (d.set k w).items = before ++ [(k, w)] := by
  have apart : k ∉ before.map Prod.fst := by
    have nodup := d.nodup
    rw [last, List.map_append, List.map_singleton] at nodup
    exact fun there => List.disjoint_of_nodup_append nodup there (List.mem_singleton_self k)
  have bound : k ∈ d.keys := by
    rw [keys, last, List.map_append]
    exact List.mem_append_right _ (List.mem_singleton_self k)
  rw [set, dif_pos bound]
  change d.items.map _ = _
  rw [last, List.map_append, List.map_singleton, if_pos rfl]
  congr 1
  refine (List.map_congr_left fun item there => ?_).trans (List.map_id before)
  exact if_neg fun same => apart (List.mem_map.mpr ⟨item, there, same⟩)

/-- A bound key is moved. -/
theorem moveToEnd_of_get (bound : d.get k = some v) :
    ∃ d', d.moveToEnd k = some d' ∧ d'.items = without d.items k ++ [(k, v)] := by
  rw [moveToEnd, bound]
  exact ⟨_, rfl, rfl⟩

end OrderedDict
