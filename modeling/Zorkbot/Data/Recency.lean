/-
# The most recent keys and their windows

Events touch keys, each with something said. What a cache of the keys that were touched most
recently is to hold is a function of the events alone: the last keys in the order in which
each was touched last, and for each of these the last that was said since it last came to be
among them.
-/

import Mathlib.Data.List.Dedup
import Mathlib.Data.List.Induction
import Zorkbot.Data.Deque
import Zorkbot.Data.OrderedDict

namespace Recency

open OrderedDict (without)

universe u v w

variable {ε : Type u} {κ : Type v} {α : Type w} [DecidableEq κ] (heard : ε → Option (κ × α))

/-- The keys that were touched, in order. -/
def touched (events : List ε) : List κ := (events.filterMap heard).map Prod.fst

/-- What was said with a key. -/
def said (k : κ) (events : List ε) : List α :=
  ((events.filterMap heard).filter fun entry => entry.1 = k).map Prod.snd

/-- The keys touched last, the most recent last. -/
def mostRecent (max : Nat) (events : List ε) : List κ := Deque.keep max (touched heard events).dedup

/-- The second part of the events is what happened since the key last came to be one of the
most recent. -/
structure Since (max : Nat) (k : κ) (pre post : List ε) : Prop where
  absent : k ∉ mostRecent heard max pre
  present : ∀ part ≠ [], part <+: post → k ∈ mostRecent heard max (pre ++ part)

/-- The window of a key. -/
def ringOf (k : κ) (items : List (κ × List α)) : List α :=
  ((items.find? fun item => item.1 = k).map Prod.snd).getD []

/-- A key is touched: of the others `m` may stay, and what is said goes to its window. -/
def touch (m window : Nat) (items : List (κ × List α)) (entry : κ × α) : List (κ × List α) :=
  Deque.keep m (without items entry.1) ++
    [(entry.1, Deque.append window (ringOf entry.1 items) entry.2)]

/-- A pool of `m + 1` windows after these touches. -/
def pool (m window : Nat) (entries : List (κ × α)) : List (κ × List α) :=
  entries.foldl (touch m window) []

/-- The entries are those of the most recent keys, each with its window. -/
structure Windows (max window : Nat) (events : List ε) (items : List (κ × List α)) : Prop where
  keys : items.map Prod.fst = mostRecent heard max events
  ring : ∀ {k ring}, (k, ring) ∈ items → ∃ pre post, events = pre ++ post ∧
    Since heard max k pre post ∧ ring = Deque.keep window (said heard k post)

/-! ## The last keys -/

theorem dedup_append_singleton (l : List κ) (k : κ) :
    (l ++ [k]).dedup = l.dedup.filter (· ≠ k) ++ [k] := by
  induction l with
  | nil => rfl
  | cons a l ih =>
      rw [List.cons_append]
      by_cases again : a ∈ l
      · rw [List.dedup_cons_of_mem (List.mem_append_left _ again), List.dedup_cons_of_mem again, ih]
      · rw [List.dedup_cons_of_notMem again]
        by_cases same : a = k
        · subst same
          rw [List.dedup_cons_of_mem (List.mem_append_right _ (List.mem_singleton_self a)), ih]
          simp
        · have absent : a ∉ l ++ [k] := by simp [again, same]
          rw [List.dedup_cons_of_notMem absent, ih]
          simp [same]

/-- A key less leaves of the last keys all but one. -/
theorem keep_filter_ne {l : List κ} (nodup : l.Nodup) (m : Nat) (k : κ) :
    Deque.keep m ((Deque.keep (m + 1) l).filter (· ≠ k)) = Deque.keep m (l.filter (· ≠ k)) := by
  rcases Nat.le_total l.length (m + 1) with short | long
  · rw [Deque.keep_of_length_le short]
  · obtain ⟨before, split⟩ := Deque.keep_suffix (m + 1) l
    have length : (Deque.keep (m + 1) l).length = m + 1 := by
      rw [Deque.length_keep]
      omega
    generalize Deque.keep (m + 1) l = last at split length
    have lastNodup : last.Nodup := by
      rw [← split] at nodup
      exact (List.nodup_append.mp nodup).2.1
    have enough : m ≤ (last.filter (· ≠ k)).length := by
      have erased := lastNodup.erase_eq_filter k
      have fewer : (last.erase k).length + 1 ≥ last.length := by
        rw [List.length_erase]
        split <;> omega
      have same : last.filter (· ≠ k) = last.erase k := by
        rw [erased]
        congr 1
        funext a
        exact decide_not
      rw [same]
      omega
    rw [← split, List.filter_append, Deque.keep_append enough]

variable {heard} {max window m : Nat} {events : List ε} {items : List (κ × List α)} {e : ε} {k : κ}
  {a : α}

theorem mostRecent_quiet (quiet : heard e = none) (max : Nat) (events : List ε) :
    mostRecent heard max (events ++ [e]) = mostRecent heard max events := by
  simp [mostRecent, touched, quiet]

theorem mostRecent_touch (touch : heard e = some (k, a)) (m : Nat) (events : List ε) :
    mostRecent heard (m + 1) (events ++ [e]) =
      Deque.keep m ((mostRecent heard (m + 1) events).filter (· ≠ k)) ++ [k] := by
  have snoc : touched heard (events ++ [e]) = touched heard events ++ [k] := by
    simp [touched, touch]
  rw [mostRecent, mostRecent, snoc, dedup_append_singleton, Deque.keep_append_singleton,
    keep_filter_ne (List.nodup_dedup _)]

theorem said_append (k : κ) (events : List ε) (e : ε) :
    said heard k (events ++ [e]) = said heard k events ++ said heard k [e] := by
  simp [said]

theorem said_quiet (quiet : heard e = none) (k : κ) : said heard k [e] = [] := by
  simp [said, quiet]

theorem said_touch (touch : heard e = some (k, a)) : said heard k [e] = [a] := by
  simp [said, touch]

theorem said_other (touch : heard e = some (k, a)) {k' : κ} (other : k' ≠ k) :
    said heard k' [e] = [] := by
  simp [said, touch, Ne.symm other]

/-! ## The windows -/

theorem windows_nil : Windows heard max window ([] : List ε) [] :=
  ⟨Deque.keep_nil _ |>.symm, nofun⟩

/-- A key that stays has been there since. -/
theorem Since.snoc {pre post : List ε} (since : Since heard max k pre post)
    (still : k ∈ mostRecent heard max (pre ++ post ++ [e])) : Since heard max k pre (post ++ [e]) := by
  refine ⟨since.absent, fun part nonempty before => ?_⟩
  rcases List.prefix_concat_iff.mp before with rfl | earlier
  · rw [← List.append_assoc]
    exact still
  · exact since.present part nonempty earlier

/-- An event that touches no key. -/
theorem Windows.quiet (windows : Windows heard max window events items) (quiet : heard e = none) :
    Windows heard max window (events ++ [e]) items := by
  refine ⟨windows.keys.trans (mostRecent_quiet quiet max events).symm, fun {k ring} there => ?_⟩
  obtain ⟨pre, post, rfl, since, rfl⟩ := windows.ring there
  refine ⟨pre, post ++ [e], List.append_assoc .., since.snoc ?_, ?_⟩
  · rw [mostRecent_quiet quiet, ← windows.keys]
    exact List.mem_map_of_mem there
  · rw [said_append, said_quiet quiet, List.append_nil]

theorem ringOf_cases (k : κ) (items : List (κ × List α)) :
    (k, ringOf k items) ∈ items ∨ k ∉ items.map Prod.fst ∧ ringOf k items = [] := by
  rw [ringOf]
  cases found : items.find? fun item => item.1 = k with
  | some item =>
      have same : item.1 = k := of_decide_eq_true (List.find?_some found :)
      subst same
      exact .inl (List.mem_of_find?_eq_some found)
  | none =>
      refine .inr ⟨fun there => ?_, rfl⟩
      obtain ⟨item, listed, same⟩ := List.mem_map.mp there
      exact List.find?_eq_none.mp found item listed (decide_eq_true same)

/-- An event that touches a key. -/
theorem Windows.touch (windows : Windows heard (m + 1) window events items)
    (touched : heard e = some (k, a)) :
    Windows heard (m + 1) window (events ++ [e]) (touch m window items (k, a)) := by
  have keys : (Recency.touch m window items (k, a)).map Prod.fst =
      mostRecent heard (m + 1) (events ++ [e]) := by
    rw [mostRecent_touch touched, ← windows.keys, Recency.touch, List.map_append, List.map_singleton,
      Deque.map_keep, OrderedDict.keys_without]
  refine ⟨keys, fun {k' ring'} there => ?_⟩
  have still : k' ∈ mostRecent heard (m + 1) (events ++ [e]) := keys ▸ List.mem_map_of_mem there
  rcases List.mem_append.mp there with there | last
  · -- Another key that stays: nothing is said with it.
    obtain ⟨there, other⟩ := OrderedDict.mem_without.mp ((Deque.keep_suffix _ _).subset there)
    obtain ⟨pre, post, rfl, since, rfl⟩ := windows.ring there
    refine ⟨pre, post ++ [e], List.append_assoc .., since.snoc still, ?_⟩
    rw [said_append, said_other touched other, List.append_nil]
  · obtain ⟨rfl, rfl⟩ := Prod.mk.inj (List.mem_singleton.mp last)
    rcases ringOf_cases k' items with there | ⟨absent, empty⟩
    · obtain ⟨pre, post, rfl, since, ring⟩ := windows.ring there
      refine ⟨pre, post ++ [e], List.append_assoc .., since.snoc still, ?_⟩
      rw [ring, Deque.append_keep, said_append, said_touch touched]
    · -- The key comes back, with nothing of what was said before.
      rw [windows.keys] at absent
      refine ⟨events, [e], rfl, ⟨absent, fun part nonempty before => ?_⟩, ?_⟩
      · obtain rfl | ⟨rest, rfl, nothing⟩ := List.prefix_cons_iff.mp before
        · exact absurd rfl nonempty
        · rw [List.prefix_nil.mp nothing]
          exact still
      · rw [empty, said_touch touched]
        rfl

/-- A pool holds the keys touched last, each with its window. -/
theorem windows_pool (heard : ε → Option (κ × α)) (m window : Nat) (events : List ε) :
    Windows heard (m + 1) window events (pool m window (events.filterMap heard)) := by
  induction events using List.reverseRecOn with
  | nil => exact windows_nil
  | append_singleton events e ih =>
      cases touches : heard e with
      | none =>
          rw [List.filterMap_append, List.filterMap_cons_none touches, List.filterMap_nil,
            List.append_nil]
          exact ih.quiet touches
      | some entry =>
          rw [List.filterMap_append, List.filterMap_cons_some touches, List.filterMap_nil, pool,
            List.foldl_append]
          exact ih.touch touches

theorem length_pool_le (heard : ε → Option (κ × α)) (m window : Nat) (events : List ε) :
    (pool m window (events.filterMap heard)).length ≤ m + 1 := by
  have keys := congrArg List.length (windows_pool heard m window events).keys
  rw [List.length_map, mostRecent, Deque.length_keep] at keys
  exact keys ▸ Nat.min_le_left ..

end Recency
