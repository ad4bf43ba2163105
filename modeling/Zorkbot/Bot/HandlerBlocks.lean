/-
# What a block of a handler can do

The blocks of all handlers, summed up as far as the registry, the points and the
fan-out are concerned. Whatever is proved about the running bot splits on these
cases and never on the texts.
-/

import Zorkbot.Bot.Handlers

namespace Zorkbot.Bot

/-- Nothing is left of the handler but replies and the look. -/
def Point.idle : Point → Bool
  | .acknowledging .. | .introducing _ | .looking | .replying _ | .past _ => true
  | _ => false

/-- The ended session whose watchers the handler has still to tell. -/
def Point.rest : Point → Option Ending
  | .ending rest | .confirming rest => some rest
  | _ => none

/-- The record, the command and the output of an answer whose last packet this send
was, or the last that is attempted. -/
def Point.answered (setup : Setup) (d : Delivery) : Point → Option (Nat × Str × Str)
  | .answering r command output (_ :: rest) =>
      if d ≠ .raised ∧ (rest = [] ∨ d = .undelivered ∧ setup.abandon = true) then
        some (r, command, output)
      else none
  | _ => none

/-- An exception comes out of what the handler was waiting for. -/
def Resume.raises : Resume → Bool
  | .answered .raised | .sent .raised => true
  | _ => false

theorem idle_send (packets : List Str) : (send packets).idle = true := by
  cases packets <;> rfl

/-- The fan-out that ends an `!end`. -/
def Ending.notices (rest : Ending) : List (Int × Fan) :=
  (rest.record.map fun r => (rest.session, .notice r)).toList

inductive Blocks (setup : Setup) (i : Item) (s : SessionState) : Point → Resume → Turn → Prop
  | quiet {a b : Point} {resume : Resume} (none : a.rest = .none) (idle : b.idle = true) :
      Blocks setup i s a resume ⟨s, b, []⟩
  | watches {p : Str} {n : Int} {b : Point} {resume : Resume} (own : i.ctx.player = some p)
      (free : s.activeState p = .none) (idle : b.idle = true) :
      Blocks setup i s .entered resume ⟨(s.addWatcher setup.maxWatchers p n).2, b, []⟩
  | unwatches {p : Str} {b : Point} {resume : Resume} (idle : b.idle = true) :
      Blocks setup i s .entered resume ⟨(s.removeWatcher p).2, b, []⟩
  | advertises {p : Str} {resume : Resume} (own : i.ctx.player = some p)
      (free : s.activeState p = .none) : Blocks setup i s .entered resume ⟨s, .advertising, []⟩
  | starts {resume : Resume} : Blocks setup i s .advertising resume ⟨s, .starting, []⟩
  | adds {a b : Point} {result : CommandResult} {name : Str}
      (asked : a = .starting ∨ a = .resetting) (idle : b.idle = true) :
      Blocks setup i s a (.answered (.returned result))
        ⟨(s.addSession i.player name).2, b, []⟩
  /-- The player ends the session. -/
  | ends {p : Str} {r : Nat} {rest : Ending} {resume : Resume} (own : i.ctx.player = some p)
      (plays : s.Plays p r) (record : rest.record = some r)
      (number : rest.session = (s.record r).num) :
      Blocks setup i s .entered resume ⟨(s.removeSession p .playerEnd).2, .ending rest, []⟩
  /-- An administrator ends it. -/
  | forces {r : Nat} {rest : Ending} {around : Surroundings} (named : i.is "end" = true)
      (admin : i.ctx.isAdmin setup.lower setup.adminPubkeys = true)
      (number : setup.int (strip i.restArgs) = some rest.session)
      (found : s.getSessionByNum rest.session = some r) (record : rest.record = some r) :
      Blocks setup i s .entered (.called around)
        ⟨(s.removeSession (s.record r).playerId .adminEnd).2, .ending rest, []⟩
  | resets {p : Str} {around : Surroundings} (named : i.is "reset" = true)
      (direct : i.ctx.isDm = true) (own : i.ctx.player = some p) :
      Blocks setup i s .entered (.called around) ⟨(s.removeSession p .reset).2, .resetting, []⟩
  | plays {p : Str} {r : Nat} {command : Str} {resume : Resume} (own : i.ctx.player = some p)
      (plays : s.Plays p r) : Blocks setup i s .entered resume ⟨s, .playing r command, []⟩
  /-- The game service has no such session. -/
  | vanishes {r : Nat} {command message : Str} {b : Point} (idle : b.idle = true) :
      Blocks setup i s (.playing r command) (.answered (.failed .notFound message))
        ⟨(s.removeSession i.player .serverSide).2, b, []⟩
  | records {r : Nat} {k : Int} {command name output : Str} {b : Point} {resume : Resume}
      (idle : b.idle = true) : Blocks setup i s (.playing r command) resume
        ⟨s.emit (.transcript k name command output), b, []⟩
  | answers {r : Nat} {k : Int} {command name output : Str} {packets : List Str} {resume : Resume} :
      Blocks setup i s (.playing r command) resume
        ⟨s.emit (.transcript k name command output), .answering r command output packets, []⟩
  | continues {r : Nat} {command output : Str} {packets rest : List Str} {resume : Resume} :
      Blocks setup i s (.answering r command output packets) resume
        ⟨s, .answering r command output rest, []⟩
  | handsOver {a : Point} {r : Nat} {command output : Str} {fan : List Str} {d : Delivery}
      (last : a.answered setup d = some (r, command, output))
      (watched : (s.record r).watchers ≠ ∅)
      (copied : watcherPackets setup s r command output = some fan) :
      Blocks setup i s a (.sent d) ⟨s, .past .returned, [((s.record r).num, .output r fan)]⟩
  | closes {rest : Ending} {resume : Resume} :
      Blocks setup i s (.ending rest) resume ⟨s, .confirming rest, []⟩
  | notifies {rest : Ending} {resume : Resume} :
      Blocks setup i s (.confirming rest) resume ⟨s, .past .returned, rest.notices⟩
  | escapes {a : Point} {rest : Ending} {resume : Resume} (held : a.rest = some rest)
      (raises : resume.raises = true) : Blocks setup i s a resume ⟨s, .past .raised, []⟩

variable {setup : Setup} {around : Surroundings} {i : Item} {s : SessionState} {turn : Turn}
  {resume : Resume}

theorem Blocks.say {a : Point} (text : Str) (none : a.rest = .none) :
    Blocks setup i s a resume (say text s) := .quiet none rfl

theorem Blocks.fail {a : Point} (none : a.rest = .none) : Blocks setup i s a resume (fail s) :=
  .quiet none rfl

/-! ## The first blocks -/

theorem blocks_adminEnd (named : i.is "end" = true) :
    Blocks setup i s .entered (.called around) (handleAdminEnd setup i s (strip i.restArgs)) := by
  unfold handleAdminEnd
  split
  · exact .say _ rfl
  · next admin =>
      split
      · exact .say _ rfl
      · next n number =>
          split
          · exact .say _ rfl
          · next r found => exact .forces named (by simpa using admin) number found rfl

theorem blocks_end (named : i.is "end" = true) :
    Blocks setup i s .entered (.called around) (handleEnd setup i s i.restArgs) := by
  unfold handleEnd
  split
  · exact .say _ rfl
  · next p own =>
      split
      · exact blocks_adminEnd named
      · split
        · exact .unwatches rfl
        · next playing =>
            obtain ⟨r, plays⟩ := SessionState.activeState_eq_playing playing
            have removed : (s.removeSession p .playerEnd).1 = some r := by
              simp [SessionState.removeSession, show s.sessions.get p = some r from plays]
            have kept := SessionState.record_removeSession p .playerEnd s r
            have known : ∀ rest : Ending, rest.record = some r →
                rest.session = (s.record r).num → Blocks setup i s .entered (.called around)
                  ⟨(s.removeSession p .playerEnd).2, .ending rest, []⟩ :=
              fun rest record number => .ends own plays record number
            generalize s.removeSession p .playerEnd = after at removed kept known
            obtain ⟨_, t⟩ := after
            subst removed
            exact known _ rfl (congrArg SessionRecord.num kept)
        · exact .say _ rfl

theorem blocks_reset (named : i.is "reset" = true) :
    Blocks setup i s .entered (.called around) (handleReset i s) := by
  unfold handleReset
  split
  · exact .say _ rfl
  · next direct =>
      split
      · exact .say _ rfl
      · next p own => exact .resets named (by simpa using direct) own

theorem blocks_rules : Blocks setup i s .entered resume (handleRules i s) := by
  unfold handleRules
  split
  · exact .say _ rfl
  · split
    · exact .say _ rfl
    · split <;> exact .say _ rfl

theorem blocks_start : Blocks setup i s .entered resume (handleStart around i s) := by
  unfold handleStart
  split
  · exact .say _ rfl
  · next p own =>
      split
      · exact .say _ rfl
      · exact .say _ rfl
      · next free =>
          split
          · exact .say _ rfl
          · exact .advertises own free

theorem blocks_watch (args : Str) :
    Blocks setup i s .entered resume (handleWatch setup i s args) := by
  unfold handleWatch
  split
  · exact .say _ rfl
  · next p own =>
      split
      · exact .say _ rfl
      · split
        · exact .say _ rfl
        · next n _ =>
            split
            · exact .say _ rfl
            · exact .say _ rfl
            · next free =>
                split
                · exact .say _ rfl
                · have known : ∀ b : Point, b.idle = true → Blocks setup i s .entered resume
                      ⟨(s.addWatcher setup.maxWatchers p n).2, b, []⟩ :=
                    fun b idle => .watches own free idle
                  generalize s.addWatcher setup.maxWatchers p n = after at known
                  obtain ⟨error, t⟩ := after
                  cases error with
                  | some error => exact known _ rfl
                  | none => exact known _ rfl

theorem blocks_gameCommand (command : Str) :
    Blocks setup i s .entered resume (handleGameCommand setup i s command) := by
  unfold handleGameCommand
  split
  · exact .say _ rfl
  · next p own =>
      split
      · exact .say _ rfl
      · next r plays =>
          split
          · exact .say _ rfl
          · exact .plays own plays

theorem blocks_list : Blocks setup i s .entered resume (handleList around s) := by
  unfold handleList
  split <;> exact .say _ rfl

theorem blocks_watchers : Blocks setup i s .entered resume (handleWatchers around s) := by
  unfold handleWatchers
  split <;> exact .say _ rfl

theorem Blocks.choose {a : Point} {c : Prop} [Decidable c] {first second : Turn}
    (yes : c → Blocks setup i s a resume first) (no : Blocks setup i s a resume second) :
    Blocks setup i s a resume (if c then first else second) := by
  split
  · next named => exact yes named
  · exact no

theorem blocks_handle : Blocks setup i s .entered (.called around) (handle setup around i s) :=
  .choose (fun _ => .quiet rfl (idle_send _)) <|
  .choose (fun _ => .say _ rfl) <|
  .choose (fun _ => .say _ rfl) <|
  .choose (fun _ => blocks_rules) <|
  .choose (fun _ => blocks_start) <|
  .choose (fun named => blocks_end named) <|
  .choose (fun _ => blocks_list) <|
  .choose (fun _ => blocks_watch _) <|
  .choose (fun _ => blocks_watchers) <|
  .choose (fun named => blocks_reset named) <|
  .choose (fun _ => blocks_gameCommand _) <|
  .choose (fun _ => .say _ rfl) (.quiet rfl rfl)

/-! ## The blocks after a wait -/

theorem blocks_startAnswered (a : Answer) :
    Blocks setup i s .starting (.answered a) (startAnswered i s a) := by
  unfold startAnswered
  split
  · dsimp only
    split
    · exact .adds (.inl rfl) rfl
    · exact .adds (.inl rfl) rfl
  · exact .say _ rfl
  · exact .say _ rfl
  · exact .fail rfl

theorem blocks_resetAnswered (a : Answer) :
    Blocks setup i s .resetting (.answered a) (resetAnswered i s a) := by
  unfold resetAnswered
  split
  · exact .adds (.inr rfl) rfl
  · exact .say _ rfl
  · exact .say _ rfl
  · exact .fail rfl

theorem blocks_lookAnswered (a : Answer) :
    Blocks setup i s .looking resume (lookAnswered setup s a) := by
  unfold lookAnswered
  split
  · split
    · exact .quiet rfl rfl
    · split
      · exact .fail rfl
      · exact .quiet rfl (idle_send _)
  · exact .quiet rfl rfl
  · exact .fail rfl

theorem blocks_gameAnswered (r : Nat) (command : Str) (a : Answer) :
    Blocks setup i s (.playing r command) (.answered a) (gameAnswered setup i s r command a) := by
  unfold gameAnswered
  split
  · exact .vanishes rfl
  · exact .say _ rfl
  · exact .fail rfl
  · split
    · exact .say _ rfl
    · dsimp only
      split
      · exact .records rfl
      · exact .records rfl
      · exact .answers

theorem blocks_endAnswered (rest : Ending) (a : Answer) :
    Blocks setup i s (.ending rest) (.answered a) (endAnswered s rest a) := by
  unfold endAnswered
  split
  · exact .escapes rfl rfl
  · exact .closes

theorem blocks_endConfirmed (rest : Ending) (d : Delivery) :
    Blocks setup i s (.confirming rest) (.sent d) (endConfirmed s rest d) := by
  unfold endConfirmed
  split
  · exact .escapes rfl rfl
  · exact .notifies

theorem blocks_handOver {a : Point} {r : Nat} {command output : Str} {d : Delivery}
    (none : a.rest = .none) (last : a.answered setup d = some (r, command, output)) :
    Blocks setup i s a (.sent d) (handOver setup s r command output) := by
  unfold handOver
  split
  · exact .quiet none rfl
  · next watched =>
      split
      · exact .fail none
      · next copied => exact .handsOver last watched copied

theorem blocks_answerSent (r : Nat) (command output packet : Str) (rest : List Str)
    (d : Delivery) : Blocks setup i s (.answering r command output (packet :: rest)) (.sent d)
      (answerSent setup s r command output rest d) := by
  unfold answerSent
  split
  · exact .fail rfl
  · next unbroken =>
      split
      · next last =>
          have sound : d ≠ .raised := unbroken
          exact blocks_handOver rfl (by simp [Point.answered, sound, last])
      · exact .continues

theorem blocks_introduced (text : Str) (d : Delivery) :
    Blocks setup i s (.introducing text) resume (introduced setup s d) := by
  unfold introduced
  split
  · exact .fail rfl
  · split <;> exact .quiet rfl rfl
  · exact .quiet rfl rfl

theorem blocks_acknowledged (text intro : Str) (d : Delivery) :
    Blocks setup i s (.acknowledging text intro) resume (acknowledged s intro d) := by
  unfold acknowledged
  split
  · exact .fail rfl
  · exact .quiet rfl rfl

theorem blocks_replySent (packets rest : List Str) (d : Delivery) :
    Blocks setup i s (.replying packets) resume (replySent setup s rest d) := by
  unfold replySent
  split
  · exact .fail rfl
  · split
    · exact .quiet rfl rfl
    · exact .quiet rfl (idle_send _)

/-- Every block is one of these. -/
theorem blocks_of_block {a : Point} (taken : block setup i s a resume = some turn) :
    Blocks setup i s a resume turn := by
  cases resume with
  | called around =>
      simp only [block] at taken
      split at taken
      · next entered =>
          simp only [Option.some.injEq] at taken
          exact entered ▸ taken ▸ blocks_handle
      · cases taken
  | advertised =>
      simp only [block] at taken
      split at taken
      · next advertising =>
          simp only [Option.some.injEq] at taken
          exact advertising ▸ taken ▸ .starts
      · cases taken
  | answered answer =>
      simp only [block, answered] at taken
      split at taken <;> simp only [Option.some.injEq, reduceCtorEq] at taken <;> subst taken
      · exact blocks_startAnswered answer
      · exact blocks_resetAnswered answer
      · exact blocks_lookAnswered answer
      · exact blocks_gameAnswered _ _ answer
      · exact blocks_endAnswered _ answer
  | sent delivery =>
      simp only [block, sent] at taken
      split at taken <;> simp only [Option.some.injEq, reduceCtorEq] at taken <;> subst taken
      · exact blocks_acknowledged _ _ delivery
      · exact blocks_introduced _ delivery
      · exact blocks_endConfirmed _ delivery
      · exact blocks_answerSent _ _ _ _ _ delivery
      · exact blocks_replySent _ _ delivery

end Zorkbot.Bot
