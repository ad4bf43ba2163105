/-
# Playing or watching

A player plays a session or watches one, never both. `!start` and `!watch` check it;
`!reset` does not, and gives a session to somebody who is still watching another.
Without such a reset the rule holds in every state.
-/

import Zorkbot.Bot.Consistency

namespace Zorkbot.Bot

open Transition

namespace SessionState

variable {s : SessionState} {w v : Str}

/-- Nobody plays and watches. -/
def Exclusive (s : SessionState) : Prop :=
  ∀ p, s.sessions.get p = none ∨ s.watching.get p = none

theorem unoccupied_removeSession {p : Str} {reason : EndReason}
    (unoccupied : s.watching.get w = none) :
    (s.removeSession p reason).2.watching.get w = none := by
  unfold removeSession
  split
  · exact unoccupied
  · change (s.watching.without _).get w = none
    rw [Table.get_without]
    split
    · rfl
    · exact unoccupied

theorem unoccupied_removeWatcher (unoccupied : s.watching.get w = none) :
    (s.removeWatcher v).2.watching.get w = none := by
  have erased : (s.watching.erase v).get w = none := by
    rw [Table.get_erase]
    split
    · rfl
    · exact unoccupied
  unfold removeWatcher
  split
  · exact unoccupied
  · split
    · exact erased
    · exact erased

theorem unoccupied_addWatcher {maxWatchers n : Int} (other : w ≠ v)
    (unoccupied : s.watching.get w = none) :
    (s.addWatcher maxWatchers v n).2.watching.get w = none := by
  unfold addWatcher
  split
  · exact unoccupied
  · split
    · exact unoccupied
    · change (s.watching.set v n).get w = none
      rw [Table.get_set_of_ne other]
      exact unoccupied

theorem Exclusive.removeSession (exclusive : s.Exclusive) (p : Str) (reason : EndReason) :
    (s.removeSession p reason).2.Exclusive := by
  intro q
  rcases exclusive q with vacant | unoccupied
  · exact .inl (vacant_removeSession vacant)
  · exact .inr (unoccupied_removeSession unoccupied)

end SessionState

section

variable {setup : Setup} {i : Item} {s : SessionState} {a : Point} {resume : Resume} {turn : Turn}

/-- A block makes nobody a watcher but the handler's own player. -/
theorem Blocks.unoccupied_other (blocks : Blocks setup i s a resume turn) {q : Str}
    (other : q ≠ i.player) (unoccupied : s.watching.get q = none) :
    turn.state.watching.get q = none := by
  cases blocks with
  | watches own =>
      rw [Context.player_eq own] at other
      exact SessionState.unoccupied_addWatcher other unoccupied
  | unwatches => exact SessionState.unoccupied_removeWatcher unoccupied
  | ends | forces | resets | vanishes => exact SessionState.unoccupied_removeSession unoccupied
  | _ => exact unoccupied

/-- Only a session that is added for a watcher breaks the rule. -/
theorem Blocks.exclusive (blocks : Blocks setup i s a resume turn) (exclusive : s.Exclusive)
    (granted : ∀ result, resume = .answered (.returned result) → a = .starting ∨ a = .resetting →
      s.watching.get i.player = none) : turn.state.Exclusive := by
  cases blocks with
  | watches own free =>
      intro q
      by_cases same : q = i.player
      · rw [same, Context.player_eq own]
        exact .inl (by simpa using (SessionState.activeState_eq_none free).1)
      · rcases exclusive q with vacant | unoccupied
        · exact .inl (by simpa using vacant)
        · rw [Context.player_eq own] at same
          exact .inr (SessionState.unoccupied_addWatcher same unoccupied)
  | unwatches =>
      intro q
      rcases exclusive q with vacant | unoccupied
      · exact .inl (by simpa using vacant)
      · exact .inr (SessionState.unoccupied_removeWatcher unoccupied)
  | adds asked =>
      intro q
      by_cases same : q = i.player
      · exact .inr (same ▸ granted _ rfl asked)
      · rcases exclusive q with vacant | unoccupied
        · left
          change (s.sessions.set i.player _).get q = none
          rw [Table.get_set_of_ne same]
          exact vacant
        · exact .inr unoccupied
  | ends | forces | resets | vanishes => exact exclusive.removeSession _ _
  | _ => exact exclusive

end

namespace ZorkBot

variable {setup : Setup} {b c : ZorkBot}

/-- The handler of `!start` has seen that its player watches nothing. -/
def Unoccupied (i : Item) (point : Point) (s : SessionState) : Prop :=
  point = .advertising ∨ point = .starting → s.watching.get i.player = none

/-- The game service has reset the game of a player who is watching a session. -/
def watcherReset (b : ZorkBot) : Act → Bool
  | .run t (.answered (.returned _)) =>
      decide (b.point t = .resetting) &&
        (b.handling t).any fun i => (b.state.watching.get i.player).isSome
  | _ => false

theorem Unoccupied.own {i : Item} {s : SessionState} {a : Point} {resume : Resume} {turn : Turn}
    (unoccupied : Unoccupied i a s) (blocks : Blocks setup i s a resume turn) :
    Unoccupied i turn.point turn.state := by
  intro starts
  cases blocks with
  | advertises own free =>
      rw [Context.player_eq own]
      exact (SessionState.activeState_eq_none free).2
  | starts => exact unoccupied (.inl rfl)
  | quiet _ idle | watches _ _ idle | unwatches idle | adds _ idle | vanishes idle
  | records idle => rcases starts with rfl | rfl <;> cases idle
  | _ => rcases starts with h | h <;> cases h

theorem unoccupied_step (sound : b.Sound setup) (unoccupied : b.Holds Unoccupied) {a : Act}
    (taken : b.step setup a = some c) : c.Holds Unoccupied := by
  apply holds_step sound.gate unoccupied _ _ _ _ taken
  · intro i s starts
    rcases starts with h | h <;> cases h
  · rintro t i resume turn - there blocks
    exact (unoccupied t i there).own blocks
  · intro i a resume turn blocks j point different unoccupied starts
    exact blocks.unoccupied_other different (unoccupied starts)
  · intro i a s p unoccupied starts
    exact SessionState.unoccupied_removeSession (unoccupied starts)

theorem exclusive_step (unoccupied : b.Holds Unoccupied) (exclusive : b.state.Exclusive) {a : Act}
    (spared : b.watcherReset a = false) (taken : b.step setup a = some c) : c.state.Exclusive := by
  apply registry_step exclusive _ _ taken
  · rintro t i resume turn rfl there blocks
    apply blocks.exclusive exclusive
    rintro result rfl (starting | resetting)
    · exact unoccupied t i there (.inr starting)
    · simpa [watcherReset, resetting, there] using spared
  · intro s p exclusive
    exact exclusive.removeSession p _

theorem exclusive (reached : (zorkbot setup).Reachable (fun b a => b.watcherReset a = false) b) :
    b.state.Exclusive := by
  have both : b.Holds Unoccupied ∧ b.state.Exclusive := by
    apply reached.invariant (motive := fun b => b.Holds Unoccupied ∧ b.state.Exclusive)
    · exact ⟨holds_init, fun _ => .inl rfl⟩
    · rintro b a c prior ⟨unoccupied, exclusive⟩ spared taken
      exact ⟨unoccupied_step (sound prior) unoccupied taken,
        exclusive_step unoccupied exclusive spared taken⟩
  exact both.2

/-- In a run without such a reset no player of a session watches one. -/
theorem roles_exclusive
    (reached : (zorkbot setup).Reachable (fun b a => b.watcherReset a = false) b) {p : Str}
    {r : Nat} (plays : b.state.Plays p r) :
    b.state.watching.get p = none ∧
      ∀ q r', b.state.Plays q r' → p ∉ (b.state.record r').watchers := by
  have unoccupied : b.state.watching.get p = none := by
    rcases exclusive reached p with vacant | unoccupied
    · rw [SessionState.Plays, vacant] at plays
      cases plays
    · exact unoccupied
  constructor
  · exact unoccupied
  · intro q r' plays' member
    rw [(sound reached).registry.watch plays' p, unoccupied] at member
    cases member

/-- Bob watches Alice's session and starts one of his own once he has left. -/
def bobChanges : List Act :=
  bobWatches ++ sends bob "end" "" 2 ++ [Act.run 2 (.sent .delivered), .finish 2] ++
    sends bob "start" "" 3 ++ [Act.run 3 .advertised, .serviceStarts bob, .run 3 granted]

theorem roles_exclusive_changed :
    ∃ b : ZorkBot, b.state.Plays bob 1 ∧ b.state.watching.get bob = none := by
  obtain ⟨b, reached, plays⟩ := System.reaches (zorkbot (small 2))
    (fun b a => b.watcherReset a = false) (fun b => b.state.sessions.get bob = some 1) bobChanges
    (fun _ _ _ => trivial) (by decide)
  exact ⟨b, plays, (roles_exclusive (reached.mono fun _ _ both => both.1) plays).1⟩

/-- Bob watches Alice's session and resets his game. -/
def bobResets : List Act :=
  bobWatches ++ sends bob "reset" "" 2 ++ [Act.serviceStarts bob, .run 2 granted]

theorem reset_while_watching :
    ∃ b, (zorkbot (small 2)).Reachable (fun _ _ => True) b ∧ b.state.Plays bob 1 ∧
      b.state.watching.get bob = some 1 ∧ bob ∈ (b.state.record 0).watchers ∧
      b.state.Plays alice 0 := by
  obtain ⟨b, reached, goal⟩ := System.reaches (zorkbot (small 2)) (fun _ _ => True)
    (fun b => b.state.sessions.get bob = some 1 ∧ b.state.watching.get bob = some 1 ∧
      bob ∈ (b.state.record 0).watchers ∧ b.state.sessions.get alice = some 0) bobResets
    (fun _ _ _ => trivial) (by decide)
  exact ⟨b, reached.mono fun _ _ _ => trivial, goal⟩

end ZorkBot

end Zorkbot.Bot
