/-
# The player who waits

A player who has received the last packet of an answer may still be refused: the
gate follows what the bot knows, and the bot learns of the delivery only when the
send returns. Exactly then, and not before, the next command is accepted.
-/

import Zorkbot.Bot.Conversation

namespace Zorkbot.Bot

open Transition

/-- What happens on the air neither begins nor ends a response. -/
theorem Response.over_step {r r' : Response} {e : Response.Event} (taken : r.step e = some r') :
    r'.phase = .past ↔ r.phase = .past := by
  cases e with
  | submit limit =>
      simp only [Response.step, Option.ite_none_right_eq_some, Option.some.injEq] at taken
      obtain ⟨⟨composing, -⟩, rfl⟩ := taken
      simp [composing]
  | deliver k =>
      simp only [Response.step, Option.ite_none_right_eq_some, Option.some.injEq] at taken
      obtain ⟨-, rfl⟩ := taken
      exact Iff.rfl
  | overflow abandon | transmit | ack | done abandon =>
      cases phase : r.phase with
      | composing | past => simp [Response.step, phase] at taken
      | sending a =>
          have active : r'.phase ≠ .past := by
            simp only [Response.step, phase] at taken
            grind [Response.sent]
          simp [active]

namespace Conversation

variable {s t : Conversation}

/-! ## The gate inside the conversation -/

/-- The gate of a conversation takes the steps of a gate. -/
theorem gate_step {a : Act} (taken : s.step a = some t) :
    t.gate = s.gate ∨ ∃ b, s.gate.step b = some t.gate := by
  have entered : ∀ (u : Conversation) n packets g, (u.enter n packets g).gate = g := by
    intro u n packets g
    unfold enter
    split <;> rfl
  cases a with
  | dispatch ctx command restArgs =>
      simp only [step] at taken
      obtain ⟨g, moved, rfl⟩ := Option.map_eq_some_iff.mp taken
      exact .inr ⟨_, moved⟩
  | begin n packets =>
      obtain ⟨g, moved, rfl⟩ := Option.map_eq_some_iff.mp taken
      exact .inr ⟨_, (entered s n packets g).symm ▸ moved⟩
  | finish n outcome packets =>
      simp only [step] at taken
      split at taken
      · split at taken
        · split at taken
          · obtain ⟨g, moved, rfl⟩ := Option.map_eq_some_iff.mp taken
            rw [entered]
            exact .inr ⟨_, moved⟩
          · simp at taken
        · simp at taken
      · simp at taken
  | air call e =>
      simp only [step] at taken
      split at taken
      · obtain ⟨r, -, rfl⟩ := Option.map_eq_some_iff.mp taken
        exact .inl rfl
      · simp at taken

theorem gate_reachable (reached : conversation.Reachable (fun _ _ => True) s) :
    Bot.gate.Reachable (fun _ _ => True) s.gate := by
  apply reached.invariant (motive := fun s => Bot.gate.Reachable (fun _ _ => True) s.gate)
  · exact System.reachable_init
  · intro s a t _ before _ taken
    rcases gate_step taken with same | ⟨b, moved⟩
    · exact same ▸ before
    · exact before.step trivial moved

/-! ## Responses and commands -/

/-- A command's handler is at work. -/
def InHand (g : Gate) (n : Nat) : Prop :=
  ∃ m p i, g.workers.task m = some (p, .handling i) ∧ i.call = n

/-- A command's handler has ended. -/
def Handled (g : Gate) (n : Nat) : Prop := ∃ i ∈ g.handled, i.call = n

/-- A response is over when the handler of its command has ended. -/
def Linked (s : Conversation) : Prop :=
  ∀ n r, s.responses.get n = some r →
    (r.phase = .past ∧ Handled s.gate n) ∨ (r.phase ≠ .past ∧ InHand s.gate n)

theorem handled_ended {g : Gate} {i : Item} {n : Nat} (handled : Handled g n) :
    Handled (g.ended i) n := by
  obtain ⟨j, present, call⟩ := handled
  exact ⟨j, List.mem_append_left _ present, call⟩

/-- A worker goes on to its next command; the others stay where they are. -/
theorem inHand_take {g : Gate} {m n : Nat} {p : Str} {w : Worker} {i : Item} {rest : List Item}
    (there : g.workers.task m = some (p, w)) (inHand : InHand g n)
    (other : ∀ j, w = .handling j → j.call ≠ n) : InHand (g.take m p i rest) n := by
  obtain ⟨k, q, j, at_, call⟩ := inHand
  have apart : m ≠ k := by
    rintro rfl
    rw [there] at at_
    simp only [Option.some.injEq, Prod.mk.injEq] at at_
    exact other j at_.2 call
  refine ⟨k, q, j, ?_, call⟩
  change (g.workers.move m _).task k = _
  rw [Roster.task_move, if_neg apart, at_]

theorem task_take {g : Gate} {m : Nat} {p : Str} {w : Worker} {i : Item} {rest : List Item}
    (there : g.workers.task m = some (p, w)) :
    (g.take m p i rest).workers.task m = some (p, .handling i) := by
  change (g.workers.move m _).task m = _
  rw [Roster.task_move, if_pos rfl, there]
  rfl

theorem linked_dispatch (linked : s.Linked) {g : Gate} {i : Item} {answer : Bool}
    (outcome : Gate.Enqueues s.gate i g answer) : Linked { s with gate := g } := by
  have handled : g.handled = s.gate.handled := by cases outcome <;> rfl
  have tasks : ∀ {m p w}, s.gate.workers.task m = some (p, w) → g.workers.task m = some (p, w) := by
    intro m p w there
    cases outcome with
    | refused | crowded | behind => exact there
    | first =>
        have early : m < s.gate.workers.tasks.length := (List.getElem?_eq_some_iff.mp there).1
        change (s.gate.workers.hire _ _).task m = _
        rw [Roster.task_hire, if_neg (Nat.ne_of_lt early), there]
  intro n r found
  rcases linked n r found with ⟨past, j, present, call⟩ | ⟨active, m, p, j, there, call⟩
  · exact .inl ⟨past, j, handled ▸ present, call⟩
  · exact .inr ⟨active, m, p, j, tasks there, call⟩

theorem linked_begin (linked : s.Linked) {m : Nat} {p : Str} {i : Item} (packets : Nat)
    (there : s.gate.workers.task m = some (p, .created)) :
    (s.enter m packets (s.gate.take m p i [])).Linked := by
  have now : (s.gate.take m p i []).workers.task m = some (p, .handling i) := task_take there
  intro n r found
  simp only [enter, now, Table.get_set] at found ⊢
  split at found
  · next same =>
      simp only [Option.some.injEq] at found
      subst found same
      exact .inr ⟨by simp [Response.begun], m, p, i, now, rfl⟩
  · rcases linked n r found with ⟨past, handled⟩ | ⟨active, inHand⟩
    · exact .inl ⟨past, handled⟩
    · exact .inr ⟨active, inHand_take there inHand (by simp)⟩

theorem linked_rest (linked : s.Linked) {m : Nat} {p : Str} {i : Item} (packets : Nat)
    (there : s.gate.workers.task m = some (p, .handling i)) {r : Response} :
    (enter m packets
      { s with responses := s.responses.set i.call { r with phase := .past } }
      ((s.gate.ended i).setTask m .done)).Linked := by
  have now : ((s.gate.ended i).setTask m .done).workers.task m = some (p, .done) := by
    change (s.gate.workers.move m _).task m = _
    rw [Roster.task_move, if_pos rfl, there]
    rfl
  intro n r' found
  simp only [enter, now, Table.get_set] at found ⊢
  split at found
  · next same =>
      simp only [Option.some.injEq] at found
      subst found same
      exact .inl ⟨rfl, i, List.mem_append_right _ List.mem_cons_self, rfl⟩
  · next other =>
      rcases linked n r' found with ⟨past, handled⟩ | ⟨active, k, q, j, at_, call⟩
      · exact .inl ⟨past, handled_ended handled⟩
      · have apart : m ≠ k := by
          rintro rfl
          rw [there] at at_
          simp only [Option.some.injEq, Prod.mk.injEq, Worker.handling.injEq] at at_
          exact other (by rw [at_.2, call])
        refine .inr ⟨active, k, q, j, ?_, call⟩
        change (s.gate.workers.move m _).task k = _
        rw [Roster.task_move, if_neg apart, at_]

theorem linked_continue (linked : s.Linked) {m : Nat} {p : Str} {i j : Item} (packets : Nat)
    (there : s.gate.workers.task m = some (p, .handling i)) {r : Response} :
    (enter m packets
      { s with responses := s.responses.set i.call { r with phase := .past } }
      ((s.gate.ended i).take m p j [])).Linked := by
  have ended : (s.gate.ended i).workers.task m = some (p, .handling i) := there
  have now : ((s.gate.ended i).take m p j []).workers.task m = some (p, .handling j) :=
    task_take ended
  intro n r' found
  simp only [enter, now, Table.get_set] at found ⊢
  split at found
  · next same =>
      simp only [Option.some.injEq] at found
      subst found same
      exact .inr ⟨by simp [Response.begun], m, p, j, now, rfl⟩
  · split at found
    · next same =>
        simp only [Option.some.injEq] at found
        subst found same
        exact .inl ⟨rfl, i, List.mem_append_right _ List.mem_cons_self, rfl⟩
    · next other =>
        rcases linked n r' found with ⟨past, handled⟩ | ⟨active, inHand⟩
        · exact .inl ⟨past, handled_ended handled⟩
        · refine .inr ⟨active, inHand_take ended inHand ?_⟩
          intro k same
          cases same
          exact Ne.symm other

theorem linked_step (sound : s.gate.Sound) (linked : s.Linked) {a : Act}
    (taken : s.step a = some t) : t.Linked := by
  cases a with
  | dispatch ctx command restArgs =>
      simp only [step] at taken
      obtain ⟨g, moved, rfl⟩ := Option.map_eq_some_iff.mp taken
      cases Gate.gate_steps sound moved with
      | dispatches outcome => exact linked_dispatch linked outcome
  | begin m packets =>
      obtain ⟨g, moved, rfl⟩ := Option.map_eq_some_iff.mp taken
      cases Gate.gate_steps sound moved with
      | begins there line => exact linked_begin linked packets there
  | finish m outcome packets =>
      simp only [step] at taken
      split at taken
      · next p i there =>
          split at taken
          · split at taken
            · obtain ⟨g, moved, rfl⟩ := Option.map_eq_some_iff.mp taken
              cases Gate.gate_steps sound moved with
              | rests at_ line =>
                  rw [there] at at_
                  cases at_
                  exact linked_rest linked packets there
              | continues at_ line interrupts =>
                  rw [there] at at_
                  cases at_
                  exact linked_continue linked packets there
            · simp at taken
          · simp at taken
      · simp at taken
  | air call e =>
      simp only [step] at taken
      split at taken
      · next r known =>
          obtain ⟨r', moved, rfl⟩ := Option.map_eq_some_iff.mp taken
          have past := Response.over_step moved
          intro n r'' found
          rw [Table.get_set] at found
          split at found
          · next same =>
              subst same
              simp only [Option.some.injEq] at found
              subst found
              rw [ne_eq, past]
              exact linked n r known
          · exact linked n r'' found
      · simp at taken

theorem linked (reached : conversation.Reachable (fun _ _ => True) s) : s.Linked := by
  apply reached.invariant (motive := Linked)
  · intro n r found
    cases found
  · intro s a t reached linked _ taken
    exact linked_step (Gate.sound (gate_reachable reached)) linked taken

/-! ## The next command -/

/-- The player's previous command, by its number. -/
structure Previous (s : Conversation) (p : Str) (n : Nat) : Prop where
  accepted : ∃ i ∈ s.gate.accepted, i.call = n ∧ i.player = p
  last : ∀ i ∈ s.gate.accepted ++ s.gate.dropped.map (·.1), i.player = p → i.call ≤ n

/-- The player has received the last packet of the response to a command. -/
def Answered (s : Conversation) (n : Nat) : Prop :=
  ∃ r, s.responses.get n = some r ∧ r.LastDelivered

/-- The bot has learned what became of the response to a command: the send of its
last packet has returned and the handler with it. -/
def Learned (s : Conversation) (n : Nat) : Prop :=
  ∃ r, s.responses.get n = some r ∧ r.phase = .past

/-- Commands are told apart by their numbers. -/
theorem eq_of_call {g : Gate} (reached : Bot.gate.Reachable (fun _ _ => True) g) {i j : Item}
    (first : i ∈ g.accepted) (second : j ∈ g.accepted) (same : i.call = j.call) : i = j := by
  have numbered : (g.accepted.map Item.call).Nodup :=
    List.pairwise_map.mpr ((Gate.accepted_increasing reached).imp fun less => Nat.ne_of_lt less)
  exact List.inj_on_of_nodup_map numbered first second same

/-- What comes after a player's latest command in the player's line: nothing. -/
theorem nothing_after {g : Gate} (reached : Bot.gate.Reachable (fun _ _ => True) g) {p : Str}
    {n : Nat} {before after : List Item} (line : g.acceptedOf p = before ++ after)
    (placed : ∃ i ∈ before, i.call = n)
    (last : ∀ i ∈ g.accepted, i.player = p → i.call ≤ n) : after = [] := by
  obtain ⟨i, present, call⟩ := placed
  have increasing : (g.acceptedOf p).Pairwise (·.call < ·.call) :=
    (Gate.accepted_increasing reached).filter _
  rw [line] at increasing
  cases after with
  | nil => rfl
  | cons j rest =>
      have later : i.call < j.call :=
        (List.pairwise_append.mp increasing).2.2 i present j List.mem_cons_self
      have mine : j ∈ g.acceptedOf p := by
        rw [line]
        exact List.mem_append_right _ List.mem_cons_self
      obtain ⟨accepted, own⟩ := List.mem_filter.mp mine
      have bound := last j accepted (by simpa using own)
      omega

/-- While the response to a player's latest command is on its way, the player is
busy and nothing waits behind it; once it is over, the player is free. -/
theorem busy_iff (reached : conversation.Reachable (fun _ _ => True) s) {p : Str} {n : Nat}
    {r : Response} (previous : s.Previous p n) (known : s.responses.get n = some r) :
    s.gate.queue p = [] ∧ (s.gate.busy p = true ↔ r.phase ≠ .past) := by
  have run := gate_reachable reached
  have sound := Gate.sound run
  have line := Gate.acceptedOf_eq run
  have last : ∀ i ∈ s.gate.accepted, i.player = p → i.call ≤ n :=
    fun i present => previous.last i (List.mem_append_left _ present)
  obtain ⟨i, accepted, call, own⟩ := previous.accepted
  have one : ∀ j, j ∈ s.gate.acceptedOf j.player → j.call = n → j.player = p := by
    intro j mine same
    have equal := eq_of_call run (List.mem_filter.mp mine).1 accepted (same.trans call.symm)
    exact equal ▸ own
  rcases linked reached n r known with ⟨past, j, present, same⟩ | ⟨active, m, q, j, there, same⟩
  · have handled : j ∈ s.gate.handledOf j.player := List.mem_filter.mpr ⟨present, by simp⟩
    have player := one j (by rw [line]; simp [handled]) same
    have rest := nothing_after run ((line p).trans (List.append_assoc ..))
      ⟨j, player ▸ handled, same⟩ last
    obtain ⟨idle, empty⟩ := List.append_eq_nil_iff.mp rest
    refine ⟨empty, ?_⟩
    have lane := sound.lane p
    rw [empty] at lane
    have held : (s.gate.worker p).bind Worker.item = none := by simpa [Gate.inHand] using idle
    unfold Gate.busy
    generalize s.gate.worker p = w at lane held
    cases lane with
    | unknown | past => simp [past]
    | answering => simp [Worker.item] at held
  · have player : j.player = q := sound.own there
    have held : s.gate.inHand q = some j := sound.inHand there (by simp)
    have mine := one j (by rw [line, player, held]; simp) same
    have here : q = p := player.symm.trans mine
    subst here
    have rest := nothing_after run (line q) ⟨j, by simp [held], same⟩ last
    refine ⟨rest, ?_⟩
    have worker : s.gate.worker q = some (.handling j) := sound.staffed.current there (by simp)
    simp [Gate.busy, worker, active]

/-- A player who has been answered has the next command accepted exactly when it is
an interrupt or the bot has learned that the answer arrived. -/
theorem waiting_player_accepted_iff (reached : conversation.Reachable (fun _ _ => True) s)
    (ctx : Context) (command restArgs : Str) {n : Nat}
    (previous : s.Previous (Item.playerId ctx) n) (answered : s.Answered n) :
    (s.gate.enqueue ctx command restArgs).2 = true ↔
      command ∈ interruptCommands ∨ s.Learned n := by
  have sound := Gate.sound (gate_reachable reached)
  obtain ⟨r, known, -⟩ := answered
  obtain ⟨empty, busy⟩ := busy_iff reached previous known
  have learned : s.Learned n ↔ r.phase = .past := by simp [Learned, known]
  rw [learned]
  have outcome : Gate.Enqueues s.gate (s.gate.arriving ctx command restArgs)
      (s.gate.enqueue ctx command restArgs).1 (s.gate.enqueue ctx command restArgs).2 :=
    Gate.enqueue_cases sound rfl
  have interrupts : (s.gate.arriving ctx command restArgs).interrupts = true ↔
      command ∈ interruptCommands := decide_eq_true_iff
  have player : (s.gate.arriving ctx command restArgs).player = Item.playerId ctx := rfl
  generalize (s.gate.enqueue ctx command restArgs).1 = g at outcome
  generalize (s.gate.enqueue ctx command restArgs).2 = answer at outcome
  rw [← interrupts]
  cases outcome with
  | refused occupied plain => simp [plain, busy.mp occupied]
  | crowded occupied interrupt full => exact absurd empty full
  | behind occupied interrupt free => simp [interrupt]
  | first free line =>
      rw [player, ← Bool.not_eq_true, busy, ne_eq, not_not] at free
      simp [free]

/-! ## Two schedules -/

def alice : Str := "a1b2c3d4e5f6".toList

def aliceGoes : Context := Gate.directMessage "a1b2c3d4e5f6" "north"

/-- A command is answered in one packet, which reaches the player. -/
def answering : List Act :=
  [.dispatch (Gate.directMessage "a1b2c3d4e5f6" "look") "_game".toList "look".toList, .begin 0 1,
    .air 0 (.submit 3), .air 0 .transmit, .air 0 (.deliver 0)]

/-- The acknowledgement of the packet reaches the bot. -/
def acknowledged : List Act :=
  answering ++ [Act.air 0 .ack, .air 0 (.done true), .finish 0 .returned 0]

/-- What a player knows who has read the answer to a first command. -/
def FirstAnswered (s : Conversation) : Prop :=
  ((∃ i ∈ s.gate.accepted, i.call = 0 ∧ i.player = alice) ∧
    ∀ i ∈ s.gate.accepted ++ s.gate.dropped.map (·.1), i.player = alice → i.call ≤ 0) ∧
    (s.responses.get 0).any (fun r => decide r.LastDelivered) = true

instance (s : Conversation) : Decidable s.FirstAnswered := by
  unfold FirstAnswered
  infer_instance

theorem FirstAnswered.answered {s : Conversation} (first : s.FirstAnswered) :
    s.Previous alice 0 ∧ s.Answered 0 := by
  obtain ⟨r, known, delivered⟩ := (Option.any_eq_true _ _).mp first.2
  exact ⟨⟨first.1.1, first.1.2⟩, r, known, by simpa using delivered⟩

theorem waiting_player_accepted_iff_acknowledged :
    ∃ s : Conversation, s.Learned 0 ∧
      (s.gate.enqueue aliceGoes "_game".toList "north".toList).2 = true := by
  obtain ⟨s, reached, first, past⟩ := System.reaches conversation (fun _ _ => True)
    (fun s => s.FirstAnswered ∧
      (s.responses.get 0).any (fun r => decide (r.phase = .past)) = true)
    acknowledged (fun _ _ _ => trivial) (by decide)
  obtain ⟨r, known, phase⟩ := (Option.any_eq_true _ _).mp past
  have learned : s.Learned 0 := ⟨r, known, by simpa using phase⟩
  obtain ⟨previous, answered⟩ := first.answered
  exact ⟨s, learned, (waiting_player_accepted_iff (reached.mono fun _ _ _ => trivial) aliceGoes
    "_game".toList "north".toList previous answered).mpr (.inr learned)⟩

/-- The player reads the answer and types on before the acknowledgement is back. -/
theorem answered_player_dropped :
    ∃ s, conversation.Reachable (fun _ _ => True) s ∧ s.Previous alice 0 ∧ s.Answered 0 ∧
      (s.gate.enqueue aliceGoes "_game".toList "north".toList).2 = false := by
  obtain ⟨s, reached, first, dropped⟩ := System.reaches conversation (fun _ _ => True)
    (fun s => s.FirstAnswered ∧
      (s.gate.enqueue aliceGoes "_game".toList "north".toList).2 = false)
    answering (fun _ _ _ => trivial) (by decide)
  obtain ⟨previous, answered⟩ := first.answered
  exact ⟨s, reached.mono fun _ _ _ => trivial, previous, answered, dropped⟩

end Conversation

end Zorkbot.Bot
