/-
# The listings

`!list` and `!watchers` reply with one text however many sessions and watchers there are. How
long it is follows from the names, the numbers and the ages, and so does whether it fits.
-/

import Mathlib.Algebra.BigOperators.Group.List.Basic
import Zorkbot.Bot.PacketBudget
import Zorkbot.Bot.Tasks

namespace Zorkbot.Bot

open Transition

/-- The texts that a handler replies with before it returns. -/
def Turn.replies (turn : Turn) : List Str :=
  match turn.point with
  | .replying packets => packets
  | _ => []

/-- Every reply is within the limit. -/
def Turn.Brief (maxChars : Int) (turn : Turn) : Prop :=
  ∀ text ∈ turn.replies, (text.length : Int) ≤ maxChars

/-- How long the answer to `!list` is. -/
def listLength (around : Surroundings) (s : SessionState) : Nat :=
  if s.allSessions = [] then 29
  else
    15 + (s.allSessions.map fun r => 7 + (str (s.record r).num).length +
      (s.record r).playerName.length + (shownAge (around.age r)).length).sum

/-- The name that `!watchers` gives a watcher. -/
def watcherName (around : Surroundings) (w : Str) : Str := (around.contact w).getD (w.take 8)

/-- How long the answer to `!watchers` is. -/
def watchersLength (around : Surroundings) (s : SessionState) : Nat :=
  if s.allWatchers = [] then 29
  else
    8 + (s.allWatchers.map fun pair => 6 + (watcherName around pair.1).length +
      (str pair.2).length).sum

theorem brief_say (maxChars : Int) (text : Str) (s : SessionState) :
    (say text s).Brief maxChars ↔ (text.length : Int) ≤ maxChars :=
  List.forall_mem_singleton

/-- A list of parts that two spaces separate. -/
theorem length_intercalate_spaces {parts : List Str} (some : parts ≠ []) :
    ("  ".toList.intercalate parts).length + 2 = (parts.map fun part => part.length + 2).sum := by
  induction parts with
  | nil => exact absurd rfl some
  | cons part parts ih =>
      cases parts with
      | nil => simp
      | cons next parts =>
          have spaces : "  ".toList.length = 2 := rfl
          rw [List.intercalate_cons_cons, List.length_append, List.length_append, spaces,
            List.map_cons, List.sum_cons, ← ih (List.cons_ne_nil next parts)]
          omega

/-- How long a sorted listing is does not depend on the order. -/
theorem length_listing {α : Type*} {items : List α} (some : items ≠ []) (le : α → α → Bool)
    (head : Str) (part : α → Str) :
    (head ++ "  ".toList.intercalate ((items.mergeSort le).map part)).length + 2 =
      head.length + (items.map fun item => (part item).length + 2).sum := by
  have sorted := List.mergeSort_perm items le
  have filled : (items.mergeSort le).map part ≠ [] := fun none => by
    have same := sorted.length_eq
    rw [List.map_eq_nil_iff.mp none, List.length_nil] at same
    exact some (List.length_eq_zero_iff.mp same.symm)
  have parts := length_intercalate_spaces filled
  rw [List.map_map] at parts
  rw [List.length_append, Nat.add_assoc, parts]
  exact congrArg (head.length + ·) (sorted.map _).sum_eq

theorem brief_handleList (maxChars : Int) (around : Surroundings) (s : SessionState) :
    (handleList around s).Brief maxChars ↔ (listLength around s : Int) ≤ maxChars := by
  rw [handleList, listLength]
  split
  · exact brief_say ..
  · next busy =>
      have length := length_listing busy
        (fun r r' => (s.record r).num ≤ (s.record r').num) "Active sessions: ".toList fun r =>
          "#".toList ++ str (s.record r).num ++ " ".toList ++ (s.record r).playerName ++
            " (".toList ++ shownAge (around.age r) ++ ")".toList
      have head : "Active sessions: ".toList.length = 17 := rfl
      have parts : (s.allSessions.map fun r => ("#".toList ++ str (s.record r).num ++ " ".toList ++
          (s.record r).playerName ++ " (".toList ++ shownAge (around.age r) ++
            ")".toList).length + 2) =
          s.allSessions.map fun r => 7 + (str (s.record r).num).length +
            (s.record r).playerName.length + (shownAge (around.age r)).length := by
        refine List.map_congr_left fun r _ => ?_
        simp only [List.length_append, String.length_toList]
        have hash : "#".length = 1 := rfl
        have space : " ".length = 1 := rfl
        have open_ : " (".length = 2 := rfl
        have close : ")".length = 1 := rfl
        omega
      rw [parts, head] at length
      rw [brief_say]
      omega

theorem brief_handleWatchers (maxChars : Int) (around : Surroundings) (s : SessionState) :
    (handleWatchers around s).Brief maxChars ↔ (watchersLength around s : Int) ≤ maxChars := by
  rw [handleWatchers, watchersLength]
  split
  · exact brief_say ..
  · next busy =>
      have length := length_listing busy
        (fun a b => a.2 < b.2 ∨ a.2 = b.2 ∧ a.1 ≤ b.1) "Watchers: ".toList fun pair =>
          watcherName around pair.1 ++ " → #".toList ++ str pair.2
      have head : "Watchers: ".toList.length = 10 := rfl
      have parts : (s.allWatchers.map fun pair => (watcherName around pair.1 ++ " → #".toList ++
          str pair.2).length + 2) =
          s.allWatchers.map fun pair => 6 + (watcherName around pair.1).length +
            (str pair.2).length := by
        refine List.map_congr_left fun pair _ => ?_
        simp only [List.length_append, String.length_toList]
        have arrow : " → #".length = 4 := rfl
        omega
      rw [parts, head] at length
      rw [brief_say]
      change ((("Watchers: ".toList ++ "  ".toList.intercalate _).length : Nat) : Int) ≤ maxChars ↔ _
      simp only [watcherName] at length ⊢
      omega

/-- In every state of the bot a listing fits exactly when its names, numbers and ages do. -/
theorem listings_fit_iff (maxChars : Int) (around : Surroundings) (s : SessionState) :
    ((handleList around s).Brief maxChars ↔ (listLength around s : Int) ≤ maxChars) ∧
    ((handleWatchers around s).Brief maxChars ↔ (watchersLength around s : Int) ≤ maxChars) :=
  ⟨brief_handleList maxChars around s, brief_handleWatchers maxChars around s⟩

/-- A player with a name of 31 letters starts a session. -/
def starts (p : Str) (t : Nat) : List ZorkBot.Act :=
  [.dispatch ⟨⟨"start".toList, some (List.replicate 31 'a'), some p, true, 0⟩, "start".toList⟩
    "start".toList [], .begin t, .run t (.called ZorkBot.nowhere), .run t .advertised,
    .serviceStarts p, .run t ZorkBot.granted]

/-- Three sessions are too many for one text of 120 characters. -/
theorem listing_exceeds_limit : ∃ b, (zorkbot (ZorkBot.small 2)).Reachable (fun _ _ => True) b ∧
    b.state.allSessions.length = 3 ∧ (∀ record ∈ b.state.records, record.playerName.length ≤ 31) ∧
    ¬(handleList ZorkBot.nowhere b.state).Brief 120 := by
  obtain ⟨b, reached, three, names, long⟩ := System.reaches (zorkbot (ZorkBot.small 2))
    (fun _ _ => True)
    (fun b => b.state.allSessions.length = 3 ∧
      (∀ record ∈ b.state.records, record.playerName.length ≤ 31) ∧
      listLength ZorkBot.nowhere b.state = 138)
    (starts ZorkBot.alice 0 ++ starts ZorkBot.bob 1 ++ starts ZorkBot.admin 2)
    (fun _ _ _ => trivial) (by decide +kernel)
  refine ⟨b, reached.mono fun _ _ _ => trivial, three, names, fun brief => ?_⟩
  have fits := (brief_handleList 120 ZorkBot.nowhere b.state).mp brief
  rw [long] at fits
  exact absurd fits (by decide)

end Zorkbot.Bot
