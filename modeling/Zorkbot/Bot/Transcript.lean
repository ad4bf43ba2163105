/-
# Watchers follow the transcript

The sink is told what was said in a session as soon as the game service has answered, and the
watchers' copies are queued when the player's reply has been sent. In between other handlers go on,
sessions end and watchers come and go. Still what is queued for a session, and what each watcher is
sent of it, are copies of the transcript in its order: none is made up and none comes twice.
-/

import Mathlib.Data.List.Flatten
import Zorkbot.Bot.Journal
import Zorkbot.Bot.LastWord
import Zorkbot.Bot.WatcherCopy

namespace Zorkbot.Bot

open Transition

/-! ## Copies -/

/-- The packets of a watchers' copy, for what was said in the session of this number. -/
def SinkEvent.copy (setup : Setup) (n : Int) : SinkEvent → Option (List Str)
  | .transcript num playerName command output =>
      if num = n then setup.packetize output (some (echoLine playerName command)) else none
  | _ => none

/-- The copies of all that was said in a session. -/
def copies (setup : Setup) (n : Int) (events : List SinkEvent) : List (List Str) :=
  events.filterMap (SinkEvent.copy setup n)

/-- The packets that a coroutine has for each watcher. -/
def Fan.packets : Fan → Option (List Str)
  | .output _ packets => some packets
  | .notice _ => none

/-- What is queued for a session as a copy. -/
def Job.copy (n : Int) (j : Job Fan) : Option (List Str) :=
  if j.session = n then j.coro.packets else none

def fanned (n : Int) (line : List (Job Fan)) : List (List Str) := line.filterMap (Job.copy n)

/-- The text of a letter, if it is a packet of a copy for a watcher. -/
def Job.letter (w : Str) (n : Int) (j : Job Fan) (letter : Str × Str) : Option Str :=
  if letter.1 = w ∧ (j.copy n).isSome then some letter.2 else none

/-- What a watcher was sent of a session, other than that it has ended. -/
def heardOf (w : Str) (n : Int) (sent : List Sent) : List Str :=
  sent.filterMap fun x => x.job.letter w n (x.watcher, x.text)

section

variable {setup : Setup} {n : Int} {s t : SessionState}

theorem copies_append (events more : List SinkEvent) :
    copies setup n (events ++ more) = copies setup n events ++ copies setup n more :=
  List.filterMap_append

theorem fanned_append (line more : List (Job Fan)) :
    fanned n (line ++ more) = fanned n line ++ fanned n more :=
  List.filterMap_append

theorem fanned_singleton (j : Job Fan) : fanned n [j] = (j.copy n).toList := by
  rw [fanned, List.filterMap_cons]
  cases j.copy n <;> rfl

/-- An end notice is no copy. -/
theorem fanned_notice (line : List (Job Fan)) (k : Int) (r : Nat) :
    fanned n (ZorkBot.queued line (k, .notice r)) = fanned n line := by
  have none : (⟨k, .notice r, line.length⟩ : Job Fan).copy n = none := ite_self none
  rw [ZorkBot.queued, fanned_append, fanned_singleton, none]
  exact List.append_nil _

theorem copy_spoken (setup : Setup) (s : SessionState) (r : Nat) (command output : Str) :
    (SinkEvent.transcript (s.record r).num (s.record r).playerName command output).copy setup
      (s.record r).num = watcherPackets setup s r command output := if_pos rfl

theorem fanned_own (line : List (Job Fan)) :
    fanned n (line.filter (·.session = n)) = fanned n line := by
  rw [fanned, List.filterMap_filter]
  apply List.filterMap_congr
  intro j _
  rw [Job.copy]
  split <;> simp_all

/-! ## Records in hand -/

namespace SessionState

/-- A move tells the sink what it has to tell, and of the records that there are it changes none
but in its watchers. -/
structure Follows (s t : SessionState) : Prop where
  length : s.records.length ≤ t.records.length
  record : ∀ r, r < s.records.length →
    t.record r = { s.record r with watchers := (t.record r).watchers }
  sink : ∃ events, t.sink = s.sink ++ events

theorem Follows.refl (s : SessionState) : s.Follows s :=
  ⟨Nat.le_refl _, fun _ _ => rfl, [], (List.append_nil _).symm⟩

theorem follows_emit (e : SinkEvent) (s : SessionState) : s.Follows (s.emit e) :=
  ⟨Nat.le_refl _, fun _ _ => rfl, [e], rfl⟩

theorem follows_addSession (p name : Str) (s : SessionState) :
    s.Follows (s.addSession p name).2 := by
  refine ⟨(extends_addSession p name s).length, fun r early => ?_, _, rfl⟩
  rw [record_addSession, if_neg (Nat.ne_of_lt early)]

theorem Moves.follows (moves : s.Moves t) : s.Follows t := by
  cases moves with
  | stays => exact .refl s
  | forgets => exact ⟨Nat.le_refl _, fun _ _ => rfl, (Follows.refl s).sink⟩
  | adds => exact follows_addSession _ _ s
  | removes => exact ⟨Nat.le_refl _, fun _ _ => rfl, _, rfl⟩
  | speaks => exact follows_emit _ s
  | @rewatches _ r watching watchers =>
      refine ⟨?_, fun r' _ => ?_, _, rfl⟩
      · exact (extends_setWatchers r watchers { s with watching := watching }).length
      · rw [record_setWatchers]
        split
        · next same => rw [same.1]; rfl
        · rfl

theorem Follows.copies (follows : s.Follows t) (setup : Setup) (n : Int) :
    (Bot.copies setup n s.sink).Sublist (Bot.copies setup n t.sink) := by
  obtain ⟨events, sink⟩ := follows.sink
  rw [sink, copies_append]
  exact List.sublist_append_left _ _

end SessionState

theorem Blocks.follows {i : Item} {a : Point} {resume : Resume} {turn : Turn}
    (blocks : Blocks setup i s a resume turn) : s.Follows turn.state := by
  cases blocks with
  | watches => exact (SessionState.moves_addWatcher _ _ _ s).follows
  | unwatches => exact (SessionState.moves_removeWatcher _ s).follows
  | adds => exact SessionState.follows_addSession _ _ s
  | ends | forces | resets | vanishes => exact (SessionState.moves_removeSession _ _ s).follows
  | records | answers => exact SessionState.follows_emit _ s
  | _ => exact .refl s

/-- What the handler of an item relies on: the record that it holds is that of its player, and the
copy that it has still to queue was told to the sink, behind all that is queued. -/
def Due (setup : Setup) (line : List (Job Fan)) (i : Item) (a : Point) (s : SessionState) : Prop :=
  match a with
  | .playing r _ => r < s.records.length ∧ (s.record r).playerId = i.player
  | .answering r command output _ =>
      (r < s.records.length ∧ (s.record r).playerId = i.player) ∧
        ∀ copy, watcherPackets setup s r command output = some copy →
          (fanned (s.record r).num line ++ [copy]).Sublist (copies setup (s.record r).num s.sink)
  | _ => True

variable {line : List (Job Fan)} {i : Item} {a : Point}

theorem due_idle (idle : a.idle = true) : Due setup line i a s := by
  cases a <;> trivial

theorem Due.follow (due : Due setup line i a s) (follows : s.Follows t) : Due setup line i a t := by
  cases a with
  | playing r command =>
      obtain ⟨there, own⟩ := due
      refine ⟨Nat.lt_of_lt_of_le there follows.length, ?_⟩
      rw [follows.record r there]
      exact own
  | answering r command output packets =>
      obtain ⟨⟨there, own⟩, due⟩ := due
      have kept := follows.record r there
      refine ⟨⟨Nat.lt_of_lt_of_le there follows.length, ?_⟩, fun copy copied => ?_⟩
      · rw [kept]
        exact own
      · have before : watcherPackets setup s r command output = some copy := by
          rw [watcherPackets, kept] at copied
          exact copied
        rw [kept]
        exact (due copy before).trans (follows.copies setup _)
  | _ => trivial

/-- Only what is queued for the session of the player's record matters. -/
theorem Due.congr {other : List (Job Fan)} (due : Due setup line i a s)
    (same : ∀ r, r < s.records.length → (s.record r).playerId = i.player →
      fanned (s.record r).num other = fanned (s.record r).num line) : Due setup other i a s := by
  cases a with
  | answering r command output packets =>
      refine ⟨due.1, fun copy copied => ?_⟩
      rw [same r due.1.1 due.1.2]
      exact due.2 copy copied
  | playing => exact due
  | _ => trivial

theorem answering_of_answered {d : Delivery} {r : Nat} {command output : Str}
    (last : a.answered setup d = some (r, command, output)) :
    ∃ packets, a = .answering r command output packets := by
  unfold Point.answered at last
  split at last
  · next packet rest =>
      split at last
      · cases last
        exact ⟨packet :: rest, rfl⟩
      · cases last
  · cases last

/-- The sink is told of an answer before the player is. -/
theorem due_gameAnswered
    (behind : ∀ n, (fanned n line).Sublist (copies setup n s.sink)) {r : Nat} {command : Str}
    (due : Due setup line i (.playing r command) s) (answer : Answer) :
    Due setup line i (gameAnswered setup i s r command answer).point
      (gameAnswered setup i s r command answer).state := by
  unfold gameAnswered
  split
  · trivial
  · trivial
  · trivial
  · next result =>
      split
      · trivial
      · dsimp only
        split
        · trivial
        · trivial
        · refine ⟨due, fun copy copied => ?_⟩
          have told := copy_spoken setup s r command result.output
          change watcherPackets setup s r command result.output = some copy at copied
          change (_ ++ [copy]).Sublist (copies setup (s.record r).num (s.sink ++ [_]))
          rw [copies_append, copies, copies, List.filterMap_cons, told, copied]
          exact (behind (s.record r).num).append (.refl [copy])

end

namespace ZorkBot

variable {setup : Setup} {b c : ZorkBot}

/-! ## What is queued -/

/-- What is queued for a session follows what was said in it, and so does what the handlers have
still to queue. -/
structure Echoes (setup : Setup) (b : ZorkBot) : Prop where
  behind : ∀ n, (fanned n b.fanout.accepted).Sublist (copies setup n b.state.sink)
  due : b.Holds (Due setup b.fanout.accepted)

/-- A block that queues no copy. -/
theorem Echoes.leave (sound : b.Sound setup) (echoes : b.Echoes setup) {t : Nat} {i : Item}
    {turn : Turn} (there : b.handling t = some i) (follows : b.state.Follows turn.state)
    (quiet : ∀ n, fanned n (turn.fanout.foldl queued b.fanout.accepted) =
      fanned n b.fanout.accepted)
    (own : Due setup b.fanout.accepted i turn.point turn.state) :
    (b.leave t i.player turn).Echoes setup := by
  have due : (b.leave t i.player turn).Holds (Due setup b.fanout.accepted) :=
    holds_leave sound.gate echoes.due there own fun _ _ _ due => due.follow follows
  constructor
  · intro n
    rw [accepted_leave, quiet]
    exact (echoes.behind n).trans (follows.copies setup n)
  · intro t' j there'
    rw [accepted_leave]
    exact (due t' j there').congr fun r _ _ => quiet _

/-- A copy is queued. The other handlers hold records of other players, and so of other numbers. -/
theorem Echoes.handOver (sound : b.Sound setup) (echoes : b.Echoes setup) {t : Nat} {i : Item}
    (there : b.handling t = some i) {r : Nat} {command output : Str} {packets copy : List Str}
    (here : Due setup b.fanout.accepted i (.answering r command output packets) b.state)
    (copied : watcherPackets setup b.state r command output = some copy) :
    (b.leave t i.player
      ⟨b.state, .past .returned, [((b.state.record r).num, .output r copy)]⟩).Echoes setup := by
  obtain ⟨⟨bound, own⟩, due⟩ := here
  generalize after :
    [((b.state.record r).num, Fan.output r copy)].foldl queued b.fanout.accepted = line
  have grown : ∀ n, fanned n line =
      if (b.state.record r).num = n then fanned n b.fanout.accepted ++ [copy]
      else fanned n b.fanout.accepted := by
    intro n
    rw [← after, List.foldl_cons, List.foldl_nil, queued, fanned_append, fanned_singleton,
      Job.copy]
    split
    · rfl
    · exact List.append_nil _
  constructor
  · intro n
    rw [accepted_leave, after, grown]
    split
    · next same =>
        subst same
        exact due copy copied
    · exact echoes.behind n
  · intro t' j there'
    rw [accepted_leave, after, point_leave]
    split
    · trivial
    · next elsewhere =>
        apply (echoes.due t' j there').congr
        intro r' bound' own'
        rw [grown, if_neg]
        intro same
        have one := sound.registry.is_unique ⟨bound, rfl⟩ ⟨bound', same.symm⟩
        subst one
        exact elsewhere (handling_unique sound.gate there' there (own'.symm.trans own))

theorem Echoes.run (sound : b.Sound setup) (echoes : b.Echoes setup) {t : Nat} {i : Item}
    {resume : Resume} {turn : Turn} (there : b.handling t = some i)
    (blocked : block setup i b.state (b.point t) resume = some turn) :
    (b.leave t i.player turn).Echoes setup := by
  have follows := (blocks_of_block blocked).follows
  have due := echoes.due t i there
  generalize b.point t = a at blocked due
  by_cases playing : ∃ r command, a = .playing r command
  · obtain ⟨r, command, rfl⟩ := playing
    obtain ⟨answer, rfl, rfl⟩ := block_playing blocked
    apply echoes.leave sound there follows _ (due_gameAnswered echoes.behind due answer)
    intro n
    have none : (gameAnswered setup i b.state r command answer).fanout = [] := by
      unfold gameAnswered
      split
      · rfl
      · rfl
      · rfl
      · split
        · rfl
        · dsimp only
          split <;> rfl
    rw [none, List.foldl_nil]
  · cases blocks_of_block blocked with
    | handsOver last _ copied =>
        obtain ⟨packets, rfl⟩ := answering_of_answered last
        exact echoes.handOver sound there due copied
    | plays own plays =>
        apply echoes.leave sound there follows (fun _ => rfl)
        have owner := sound.registry.owner plays
        exact ⟨sound.registry.there plays, owner.trans (Context.player_eq own).symm⟩
    | continues => exact echoes.leave sound there follows (fun _ => rfl) due
    | @notifies rest =>
        apply echoes.leave sound there follows _ trivial
        intro n
        rw [Ending.notices]
        cases rest.record with
        | none => rfl
        | some r => exact fanned_notice _ _ r
    | records | answers => exact absurd ⟨_, _, rfl⟩ playing
    | quiet _ idle | watches _ _ idle | unwatches idle | adds _ idle | vanishes idle =>
        exact echoes.leave sound there follows (fun _ => rfl) (due_idle idle)
    | _ => exact echoes.leave sound there follows (fun _ => rfl) trivial

theorem Echoes.step (sound : b.Sound setup) (echoes : b.Echoes setup) {a : Act}
    (taken : b.step setup a = some c) : c.Echoes setup := by
  by_cases runs : ∃ t resume, a = .run t resume
  · obtain ⟨t, resume, rfl⟩ := runs
    simp only [ZorkBot.step] at taken
    split at taken
    · next i there =>
        obtain ⟨turn, blocked, rfl⟩ := Option.map_eq_some_iff.mp taken
        exact echoes.run sound there blocked
    · cases taken
  · have removed : ∀ (s : SessionState) p, s.Follows (s.removeSession p .serverSide).2 :=
      fun s p => (SessionState.moves_removeSession p .serverSide s).follows
    have line : ∀ n, (fanned n c.fanout.accepted).Sublist (copies setup n c.state.sink) ∧
        fanned n c.fanout.accepted = fanned n b.fanout.accepted := by
      intro n
      apply queue_step (motive := fun s line => (fanned n line).Sublist (copies setup n s.sink) ∧
        fanned n line = fanned n b.fanout.accepted) sound ⟨echoes.behind n, rfl⟩ _ _ taken
      · exact fun t i resume turn same => absurd ⟨t, resume, same⟩ runs
      · rintro s line r - ⟨behind, same⟩ -
        rw [fanned_notice]
        exact ⟨behind.trans ((removed s _).copies setup n), same⟩
    have due : c.Holds (Due setup b.fanout.accepted) := by
      apply holds_step sound.gate echoes.due (fun _ _ => trivial) _ _ _ taken
      · exact fun t i resume turn same => absurd ⟨t, resume, same⟩ runs
      · exact fun i x resume turn blocks j a _ due => due.follow blocks.follows
      · exact fun i a s p due => due.follow (removed s p)
    exact ⟨fun n => (line n).1, fun t i there => (due t i there).congr fun r _ _ => (line _).2⟩

theorem echoes {guard : ZorkBot → Act → Prop} (reached : (zorkbot setup).Reachable guard b) :
    b.Echoes setup := by
  apply reached.invariant (motive := Echoes setup)
  · exact ⟨fun _ => List.nil_sublist _, holds_init⟩
  · intro b a c prior echoes _ taken
    exact echoes.step (sound prior) taken

/-! ## What is sent -/

/-- What a coroutine has still to send to a watcher as a copy. -/
def owed (w : Str) (n : Int) (j : Job Fan) (letters : List (Str × Str)) : List Str :=
  letters.filterMap (j.letter w n)

theorem letter_foreign {w : Str} {n : Int} {j : Job Fan} (foreign : j.copy n = none)
    (letter : Str × Str) : j.letter w n letter = none := by
  rw [Job.letter, foreign]
  exact if_neg fun both => Bool.false_ne_true both.2

theorem flatMap_once {w : Str} {order : List Str} (distinct : order.Nodup) (packets : List Str) :
    (order.flatMap fun v => if v = w then packets else []).Sublist packets := by
  induction order with
  | nil => exact List.nil_sublist _
  | cons v rest ih =>
      obtain ⟨fresh, distinct⟩ := List.nodup_cons.mp distinct
      rw [List.flatMap_cons]
      split
      · next here =>
          subst here
          have none : (rest.flatMap fun u => if u = v then packets else []) = [] := by
            apply List.flatMap_eq_nil_iff.mpr
            intro u among
            have other : u ≠ v := fun same => fresh (same ▸ among)
            exact if_neg other
          rw [none, List.append_nil]
      · exact ih distinct

/-- A coroutine sends to each watcher once. -/
theorem owed_letters (w : Str) (n : Int) {j : Job Fan} {order : List Str} (distinct : order.Nodup)
    (s : SessionState) :
    (owed w n j (j.coro.letters s order)).Sublist (fanned n [j]).flatten := by
  cases copied : j.copy n with
  | none =>
      rw [owed, List.filterMap_eq_nil_iff.mpr fun letter _ => letter_foreign copied letter]
      exact List.nil_sublist _
  | some packets =>
      have one : (fanned n [j]).flatten = packets := by
        rw [fanned_singleton, copied]
        exact List.append_nil _
      have output : ∃ r, j.coro = .output r packets := by
        rw [Job.copy] at copied
        split at copied
        · cases coro : j.coro with
          | output r packets' =>
              rw [coro, Fan.packets, Option.some.injEq] at copied
              exact ⟨r, copied ▸ rfl⟩
          | notice => rw [coro] at copied; cases copied
        · cases copied
      obtain ⟨r, output⟩ := output
      rw [one, output, Fan.letters, owed, List.filterMap_flatMap]
      have each : ∀ v, (packets.map fun packet => (v, packet)).filterMap (j.letter w n) =
          if v = w then packets else [] := by
        intro v
        rw [List.filterMap_map]
        split
        · next here =>
            have all : j.letter w n ∘ (fun packet => (v, packet)) = some := by
              funext packet
              exact if_pos ⟨here, copied ▸ rfl⟩
            rw [all, List.filterMap_some]
        · next other =>
            apply List.filterMap_eq_nil_iff.mpr
            intro packet _
            exact if_neg fun both => other both.1
      simp only [each]
      exact flatMap_once distinct packets

end ZorkBot

/-! ### Coroutines that are awaited -/

namespace Fanout

universe u

variable {γ : Type u} {s t : Fanout γ}

/-- The same coroutines are awaited, and the same have ended. -/
structure Awaits (s t : Fanout γ) : Prop where
  finished : t.finished = s.finished
  running : ∀ m k q j, t.workers.task m = some (k, .running q j) ↔
    s.workers.task m = some (k, .running q j)

theorem awaits_fanout (k : Int) (coro : γ) (s : Fanout γ) : s.Awaits (s.fanout k coro) := by
  have put : ∀ (s : Fanout γ) q j, s.Awaits (if (s.put q j).busy k then s.put q j
      else (s.put q j).employ k) := by
    intro s q j
    split
    · exact ⟨rfl, fun _ _ _ _ => Iff.rfl⟩
    · refine ⟨rfl, fun m k' q' j' => ?_⟩
      change (s.workers.hire k Consumer.created).task m = _ ↔ _
      rw [Roster.task_hire]
      split
      · next newest =>
          have missing : s.workers.task m = none := by
            rw [Roster.task, newest]
            exact List.getElem?_eq_none (Nat.le_refl _)
          simp [missing]
      · exact Iff.rfl
  unfold Fanout.fanout
  cases s.queues.get k with
  | some q => exact put s q _
  | none =>
      have opened := put (s.open_ k) s.objects.length ⟨k, coro, s.accepted.length⟩
      exact ⟨opened.finished, opened.running⟩

theorem awaits_callback {n : Nat} (taken : s.step (.callback n) = some t) : s.Awaits t := by
  simp only [step] at taken
  split at taken
  · next k there =>
      have same : t.finished = s.finished ∧
          t.workers.tasks = (s.workers.move n .settled).tasks := by
        rw [← Option.some.inj taken]
        unfold onFanoutDone
        split
        · exact ⟨rfl, rfl⟩
        · split <;> exact ⟨rfl, rfl⟩
      refine ⟨same.1, fun m k' q j => ?_⟩
      rw [Roster.task, same.2]
      change (s.workers.move n .settled).task m = _ ↔ _
      rw [Roster.task_move]
      split
      · next here =>
          subst here
          rw [there]
          simp
      · exact Iff.rfl
  · cases taken

theorem Awaits.trans {r : Fanout γ} (first : r.Awaits s) (second : s.Awaits t) : r.Awaits t :=
  ⟨second.finished.trans first.finished,
    fun m k q j => (second.running m k q j).trans (first.running m k q j)⟩

end Fanout

namespace ZorkBot

variable {setup : Setup} {b c : ZorkBot} {w : Str} {n : Int}

theorem awaits_leave (t : Nat) (p : Str) (turn : Turn) (b : ZorkBot) :
    b.fanout.Awaits (b.leave t p turn).fanout := by
  change b.fanout.Awaits (turn.fanout.foldl _ b.fanout)
  generalize b.fanout = f
  induction turn.fanout generalizing f with
  | nil => exact ⟨rfl, fun _ _ _ _ => Iff.rfl⟩
  | cons call rest ih => exact (Fanout.awaits_fanout call.1 call.2 f).trans (ih _)

/-- A worker that goes on to a coroutine reads whom it has to send to, each watcher once. -/
theorem fanTo_spec {t : Nat} {order : List Str} {f : Fanout Fan}
    (onto : b.fanTo t order f = some c) :
    c.fanout = f ∧ c.sent = b.sent ∧ (∀ m ≠ t, c.unsent m = b.unsent m) ∧
      ∀ k q j, f.workers.task t = some (k, .running q j) →
        order.Nodup ∧ c.unsent t = j.coro.letters b.state order := by
  simp only [fanTo, unpack] at onto
  split at onto
  · next k q j there =>
      split at onto
      · next reads =>
          rw [← Option.some.inj onto]
          refine ⟨rfl, rfl, fun m other => ?_, fun k' q' j' there' => ⟨reads.1, ?_⟩⟩
          · simp only [unsent, Table.get_set_of_ne other]
          · rw [there] at there'
            cases there'
            simp only [unsent, Table.get_set_self, Option.getD_some]
      · cases onto
  · next idle =>
      rw [← Option.some.inj onto]
      exact ⟨rfl, rfl, fun _ _ => rfl, fun k q j there => absurd there (idle k q j)⟩

/-- What a watcher was sent of a session, and what is on its way, was awaited. -/
structure Relays (w : Str) (n : Int) (b : ZorkBot) : Prop where
  running : ∀ t q j, b.fanout.workers.task t = some (n, .running q j) →
    (heardOf w n b.sent ++ owed w n j (b.unsent t)).Sublist
      (fanned n (b.fanout.finished ++ [j])).flatten
  idle : (∀ t q j, b.fanout.workers.task t ≠ some (n, .running q j)) →
    (heardOf w n b.sent).Sublist (fanned n b.fanout.finished).flatten

/-- Whatever is awaited for a session goes on to be awaited. -/
theorem Relays.frame (relays : b.Relays w n) (sent : heardOf w n c.sent = heardOf w n b.sent)
    (finished : fanned n c.fanout.finished = fanned n b.fanout.finished)
    (tasks : ∀ t q j, c.fanout.workers.task t = some (n, .running q j) ↔
      b.fanout.workers.task t = some (n, .running q j))
    (letters : ∀ t q j, b.fanout.workers.task t = some (n, .running q j) →
      c.unsent t = b.unsent t) : c.Relays w n := by
  constructor
  · intro t q j there
    have before := (tasks t q j).mp there
    have relayed := relays.running t q j before
    rw [fanned_append] at relayed ⊢
    rw [sent, finished, letters t q j before]
    exact relayed
  · intro none
    rw [sent, finished]
    exact relays.idle fun t q j there => none t q j ((tasks t q j).mpr there)

/-- A worker goes on, and what it has awaited has ended. -/
theorem Relays.goes (sound : b.fanout.Sound) (relays : b.Relays w n) {t : Nat} {k : Int}
    {v next : Consumer Fan} {f : Fanout Fan} {order : List Str} {ended : List (Job Fan)}
    (there : b.fanout.workers.task t = some (k, v)) (live : v.live = true)
    (workers : f.workers = b.fanout.workers.move t next) (onto : b.fanTo t order f = some c)
    (finished : f.finished = b.fanout.finished ++ ended) (own : ∀ j ∈ ended, j.session = k)
    (heard : k = n →
      (heardOf w n b.sent).Sublist (fanned n (b.fanout.finished ++ ended)).flatten) :
    c.Relays w n := by
  obtain ⟨rfl, sent, letters, reads⟩ := fanTo_spec onto
  have moved : ∀ m, c.fanout.workers.task m =
      if t = m then some (k, next) else b.fanout.workers.task m := by
    intro m
    rw [workers, Roster.task_move]
    split
    · next here =>
        subst here
        rw [there, Option.map_some]
    · rfl
  by_cases same : k = n
  · subst same
    constructor
    · intro m q j there'
      have running := there'
      rw [moved] at there'
      split at there'
      · next here =>
          subst here
          obtain ⟨distinct, unsent⟩ := reads k q j running
          rw [fanned_append, List.flatten_append, unsent, sent, finished]
          exact (heard rfl).append (owed_letters w k distinct b.state)
      · next other => exact absurd (sound.staffed.unique there live there' rfl) other
    · intro _
      rw [sent, finished]
      exact heard rfl
  · apply relays.frame (congrArg _ sent)
    · have foreign : fanned n ended = [] := by
        apply List.filterMap_eq_nil_iff.mpr
        intro j among
        exact if_neg fun one => same ((own j among).symm.trans one)
      rw [finished, fanned_append, foreign, List.append_nil]
    · intro m q j
      rw [moved]
      split
      · next here =>
          subst here
          rw [there]
          simp [same]
      · exact Iff.rfl
    · intro m q j there'
      apply letters
      rintro rfl
      rw [there] at there'
      cases there'
      exact same rfl

/-- What is sent is no longer owed. -/
theorem Relays.deliver (sound : b.fanout.Sound) (relays : b.Relays w n) {t q : Nat} {k : Int}
    {j : Job Fan} {letter : Str × Str} {rest left : List (Str × Str)}
    (there : b.fanout.workers.task t = some (k, .running q j))
    (unsent : b.unsent t = letter :: rest) (less : left.Sublist rest) :
    Relays w n
      { b with
        letters := b.letters.set t left
        sent := b.sent ++ [⟨letter.1, letter.2, j⟩] } := by
  have heard : heardOf w n (b.sent ++ [⟨letter.1, letter.2, j⟩]) =
      heardOf w n b.sent ++ (j.letter w n letter).toList := by
    rw [heardOf, List.filterMap_append, List.filterMap_cons]
    dsimp only
    cases j.letter w n letter <;> rfl
  by_cases same : k = n
  · subst same
    constructor
    · intro m q' j' there'
      have one : m = t := sound.staffed.unique there' rfl there rfl
      subst one
      have relayed := relays.running m q j there
      have equal := there'.symm.trans there
      cases equal
      have now : ({ b with
          letters := b.letters.set m left
          sent := b.sent ++ [⟨letter.1, letter.2, j⟩] } : ZorkBot).unsent m = left := by
        simp only [ZorkBot.unsent, Table.get_set_self, Option.getD_some]
      rw [now, heard, List.append_assoc]
      apply List.Sublist.trans _ relayed
      apply (List.Sublist.refl _).append
      rw [unsent, owed, owed, List.filterMap_cons]
      have fewer := less.filterMap (j.letter w k)
      cases j.letter w k letter with
      | none => exact fewer
      | some text => exact fewer.cons_cons text
    · exact fun none => absurd there (none t q j)
  · have mine : j.session = k := sound.own k j (.inr (sound.inHand there rfl))
    have foreign : j.copy n = none := if_neg fun one => same (mine.symm.trans one)
    apply relays.frame
    · rw [heard, letter_foreign foreign]
      exact List.append_nil _
    · rfl
    · exact fun _ _ _ => Iff.rfl
    · intro m q' j' there'
      have other : m ≠ t := by
        rintro rfl
        rw [there] at there'
        cases there'
        exact same rfl
      simp only [ZorkBot.unsent, Table.get_set_of_ne other]

theorem Relays.step (sound : b.fanout.Sound) (relays : b.Relays w n) {a : Act}
    (taken : b.step setup a = some c) : c.Relays w n := by
  have still (awaits : b.fanout.Awaits c.fanout) (sent : c.sent = b.sent)
      (letters : c.letters = b.letters) : c.Relays w n := by
    apply relays.frame (congrArg _ sent) (congrArg _ awaits.finished)
    · exact fun t q j => awaits.running t n q j
    · intro t q j _
      rw [unsent, letters]
      rfl
  have same : b.fanout.Awaits b.fanout := ⟨rfl, fun _ _ _ _ => Iff.rfl⟩
  cases zorkbot_steps taken with
  | runs => exact still (awaits_leave _ _ _ b) rfl rfl
  | @reconciles players =>
      have kept : b.fanout.Awaits (b.reconcile players).fanout ∧
          (b.reconcile players).sent = b.sent ∧ (b.reconcile players).letters = b.letters := by
        apply reconcile_induction
          (motive := fun d => b.fanout.Awaits d.fanout ∧ d.sent = b.sent ∧ d.letters = b.letters)
        · exact ⟨same, rfl, rfl⟩
        · rintro d r ⟨awaits, sent, letters⟩
          unfold reconcileOne
          split
          · exact ⟨awaits, sent, letters⟩
          · exact ⟨awaits.trans (Fanout.awaits_fanout _ _ _), sent, letters⟩
      exact still kept.1 kept.2.1 kept.2.2
  | settles stepped => exact still (Fanout.awaits_callback stepped) rfl rfl
  | @delivers t q raises k j letter rest there unsent =>
      apply relays.deliver sound there unsent
      split
      · exact List.nil_sublist _
      · exact .refl _
  | opens stepped onto =>
      cases Fanout.fanout_steps sound stepped with
      | begins there known line =>
          apply relays.goes sound there rfl rfl onto (List.append_nil _).symm (fun _ => nofun)
          rintro rfl
          rw [List.append_nil]
          apply relays.idle
          intro t q j there'
          have one := sound.staffed.unique there rfl there' rfl
          subst one
          rw [there] at there'
          cases there'
  | closes empty stepped onto =>
      have past : ∀ {t q k j}, b.fanout.workers.task t = some (k, .running q j) →
          (∀ i ∈ [j], i.session = k) ∧ (k = n →
            (heardOf w n b.sent).Sublist (fanned n (b.fanout.finished ++ [j])).flatten) := by
        intro t q k j there
        refine ⟨fun i one => ?_, ?_⟩
        · rw [List.mem_singleton.mp one]
          exact sound.own k j (.inr (sound.inHand there rfl))
        · rintro rfl
          exact (List.sublist_append_left _ _).trans (relays.running t q j there)
      cases Fanout.fanout_steps sound stepped with
      | rests there | continues there =>
          exact relays.goes sound there rfl rfl onto rfl (past there).1 (past there).2
  | _ => exact still same rfl rfl

theorem relays {guard : ZorkBot → Act → Prop} (reached : (zorkbot setup).Reachable guard b) :
    b.Relays w n := by
  apply reached.invariant (motive := Relays w n)
  · constructor
    · intro t q j there
      cases there
    · exact fun _ => .refl _
  · intro b a c prior relays _ taken
    exact relays.step (Fanout.sound (fanReached prior)) taken

/-! ## Watchers follow the transcript -/

/-- What was sent was queued, and what is sent first was queued first. -/
theorem heard_queued {guard : ZorkBot → Act → Prop} (reached : (zorkbot setup).Reachable guard b) :
    (heardOf w n b.sent).Sublist (fanned n b.fanout.accepted).flatten := by
  have relays : b.Relays w n := relays reached
  have fan := fanReached reached
  have awaited : (heardOf w n b.sent).Sublist
      (fanned n (b.fanout.finishedOf n ++ (b.fanout.inHand n).toList)).flatten := by
    rw [fanned_append, Fanout.finishedOf, fanned_own, ← fanned_append]
    by_cases running : ∃ t q j, b.fanout.workers.task t = some (n, .running q j)
    · obtain ⟨t, q, j, there⟩ := running
      rw [(Fanout.sound fan).inHand there rfl]
      exact (List.sublist_append_left _ _).trans (relays.running t q j there)
    · have idle := relays.idle fun t q j there => running ⟨t, q, j, there⟩
      rw [fanned_append, List.flatten_append]
      exact idle.trans (List.sublist_append_left _ _)
  apply awaited.trans
  rw [← fanned_own b.fanout.accepted]
  change (_ : List Str).Sublist (fanned n (b.fanout.acceptedOf n)).flatten
  rw [Fanout.acceptedOf_eq fan n, fanned_append _ (b.fanout.waiting n), List.flatten_append]
  exact List.sublist_append_left _ _

/-- In every state of every run, what was queued for the watchers of a session are copies of what
was said in it, in this order and each once at most, and what any watcher was sent of it is part of
these, in order and nothing twice. -/
theorem watchers_follow_transcript (reached : (zorkbot setup).Reachable (fun _ _ => True) b)
    (n : Int) :
    (fanned n b.fanout.accepted).Sublist (copies setup n b.state.sink) ∧
      ∀ w, (heardOf w n b.sent).Sublist (fanned n b.fanout.accepted).flatten :=
  ⟨(echoes reached).behind n, fun _ => heard_queued reached⟩

theorem watchers_follow_transcript_look :
    ∃ b : ZorkBot, heardOf bob 1 b.sent = ["[a11ce000] > look\nYou are here.".toList] ∧
      (fanned 1 b.fanout.accepted).Sublist (copies (small 2) 1 b.state.sink) ∧
        ∀ w, (heardOf w 1 b.sent).Sublist (fanned 1 b.fanout.accepted).flatten := by
  obtain ⟨b, reached, heard⟩ := System.reaches (zorkbot (small 2)) (fun _ _ => True)
    (fun b => heardOf bob 1 b.sent = ["[a11ce000] > look\nYou are here.".toList])
    (aliceLooksAround ++ [Act.run 2 (.sent .delivered), .open_ 0 [bob], .deliver 0 false])
    (fun _ _ _ => trivial) (by decide)
  exact ⟨b, heard, watchers_follow_transcript (reached.mono fun _ _ _ => trivial) 1⟩

end ZorkBot

end Zorkbot.Bot
