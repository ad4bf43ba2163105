/-
# Both transports

The charts of messages and of commands can be asked for direct messages, for the channel or for
both. A message comes or goes by one of the two, and an advert, which does not, is not recorded.
A roll call is recorded as a command that came by a third way, and the chart for both counts it.
-/

import Zorkbot.Admin.Charts
import Zorkbot.Bot.RollCall
import Zorkbot.Bot.SendGate

namespace Zorkbot.Admin

open Buckets (Width Within floor steps tally)
open Transition
open Zorkbot.Bot (BotsConfig CommandRecord Cooldown IncomingMessage Packet RollCall Str Transport
  TxRecord)

/-! ## Who writes a transport -/

/-- The value of the column. -/
def columnText : Transport → Str
  | .dm => "dm".toList
  | .channel => "channel".toList

/-- The transport of a roll call. -/
def botsTransport : Str := "bots_channel".toList

/-- `_count_rx`. -/
def countRx (now : Int) (message : IncomingMessage) : MessageRow where
  at_ := now
  direction := "rx".toList
  transport := columnText (if message.isDm then .dm else .channel)
  chars := message.text.length
  acked := none

/-- `message_tx`. -/
def messageTx (now : Int) (record : TxRecord) : MessageRow where
  at_ := now
  direction := "tx".toList
  transport := columnText record.transport
  chars := record.chars
  acked := record.acked.map fun acked => if acked then 1 else 0

/-- `_send_with_spacing` tells the sink that a packet was dropped, or that it went out and whether
it was delivered. -/
def sendWithSpacing (now : Int) (packet : Packet) (delivered : Option Bool) : List MessageRow :=
  if packet.record then
    [messageTx now (match delivered with
      | none => packet.dropped
      | some delivered => packet.sent delivered)]
  else []

/-- `command`. -/
def commandRow (now : Int) (command transport : Str) (accepted : Bool) : CommandRow :=
  ⟨now, command, transport, if accepted then 1 else 0⟩

/-- `_drop` and `_handle`. -/
def recordCommand (now : Int) (record : CommandRecord) : CommandRow :=
  commandRow now record.command (columnText record.transport) record.accepted

/-- `dispatch_channel`, for a command that is not in the lobby. -/
def refuseCommand (now : Int) (command : Str) : CommandRow :=
  commandRow now command (columnText .channel) false

/-- `dispatch_bots_channel`. -/
def recordRollCall (now : Int) : RollCall → List CommandRow
  | .ignored => []
  | .dropped => [commandRow now Bot.botsCommand botsTransport false]
  | .answered _ => [commandRow now Bot.botsCommand botsTransport true]

/-! ## The log -/

/-- What the bot is called and Python's `str.lower`. -/
structure Speaker where
  lower : Str → Str
  name : Str

inductive LogCall
  | received (message : IncomingMessage)
  | transmitted (packet : Packet) (delivered : Option Bool)
  | command (record : CommandRecord)
  | refused (command : Str)
  | rollCall (config : BotsConfig) (cooldown : Cooldown) (clock : ℚ) (message : IncomingMessage)

/-- A call of the sink whose row is written, or a retention run. -/
inductive TrafficAct
  | write (now : Int) (call : LogCall)
  | prune (cutoff : Int)

namespace StatsTables

def add (messages : List MessageRow) (commands : List CommandRow) (tables : StatsTables) :
    StatsTables :=
  { tables with
    messages := tables.messages ++ messages
    commands := tables.commands ++ commands }

def write (speaker : Speaker) (now : Int) (tables : StatsTables) : LogCall → StatsTables
  | .received message => tables.add [countRx now message] []
  | .transmitted packet delivered => tables.add (sendWithSpacing now packet delivered) []
  | .command record => tables.add [] [recordCommand now record]
  | .refused command => tables.add [] [refuseCommand now command]
  | .rollCall config cooldown clock message =>
      tables.add [] (recordRollCall now
        (Bot.dispatchBotsChannel speaker.lower speaker.name config cooldown clock message).1)

/-- What `prune_retention` does to these tables. -/
def prune (cutoff : Int) (tables : StatsTables) : StatsTables where
  sessions := tables.sessions.filter fun row => !row.endedAt.any fun endedAt =>
    decide (endedAt < cutoff)
  messages := tables.messages.filter fun row => !decide (row.at_ < cutoff)
  commands := tables.commands.filter fun row => !decide (row.at_ < cutoff)

def step (speaker : Speaker) (tables : StatsTables) : TrafficAct → Option StatsTables
  | .write now call => some (tables.write speaker now call)
  | .prune cutoff => some (tables.prune cutoff)

end StatsTables

/-- The tables that the bot can write. A call whose row is lost is none. -/
def traffic (speaker : Speaker) : System StatsTables TrafficAct :=
  ⟨⟨[], [], []⟩, StatsTables.step speaker⟩

/-- Each row came by one of the ways that there are. -/
structure Carried (tables : StatsTables) : Prop where
  messages : ∀ row ∈ tables.messages, ∃ transport, row.transport = columnText transport
  commands : ∀ row ∈ tables.commands,
    (∃ transport, row.transport = columnText transport) ∨ row.transport = botsTransport

section

variable {speaker : Speaker} {tables : StatsTables}

theorem Carried.add {messages : List MessageRow} {commands : List CommandRow}
    (carried : Carried tables)
    (sent : ∀ row ∈ messages, ∃ transport, row.transport = columnText transport)
    (given : ∀ row ∈ commands,
      (∃ transport, row.transport = columnText transport) ∨ row.transport = botsTransport) :
    Carried (tables.add messages commands) where
  messages row there := by
    rcases List.mem_append.mp there with before | new
    · exact carried.messages row before
    · exact sent row new
  commands row there := by
    rcases List.mem_append.mp there with before | new
    · exact carried.commands row before
    · exact given row new

theorem Carried.write (carried : Carried tables) (now : Int) (call : LogCall) :
    Carried (tables.write speaker now call) := by
  cases call with
  | received message =>
      refine carried.add ?_ nofun
      rw [List.forall_mem_singleton]
      exact ⟨_, rfl⟩
  | transmitted packet delivered =>
      refine carried.add (fun row there => ?_) nofun
      unfold sendWithSpacing at there
      split at there
      · exact ⟨_, congrArg MessageRow.transport (List.mem_singleton.mp there)⟩
      · cases there
  | command record =>
      refine carried.add nofun ?_
      rw [List.forall_mem_singleton]
      exact .inl ⟨_, rfl⟩
  | refused command =>
      refine carried.add nofun ?_
      rw [List.forall_mem_singleton]
      exact .inl ⟨.channel, rfl⟩
  | rollCall config cooldown clock message =>
      refine carried.add nofun fun row there => .inr ?_
      generalize (Bot.dispatchBotsChannel speaker.lower speaker.name config cooldown clock
        message).1 = outcome at there
      cases outcome with
      | ignored => cases there
      | dropped | answered => exact congrArg CommandRow.transport (List.mem_singleton.mp there)

theorem carried (reached : (traffic speaker).Reachable (fun _ _ => True) tables) :
    Carried tables := by
  apply reached.invariant (motive := Carried)
  · exact ⟨nofun, nofun⟩
  · intro tables a after _ carried _ taken
    cases a with
    | write now call =>
        cases taken
        exact carried.write now call
    | prune cutoff =>
        cases taken
        exact ⟨fun row there => carried.messages row (List.mem_filter.mp there).1,
          fun row there => carried.commands row (List.mem_filter.mp there).1⟩

end

/-! ## The sum of two charts -/

section

variable {β ρ : Type}

/-- The first chart shows what the other two show together. -/
structure PointwiseSum (add : β → β → β) (both dm channel : List (Int × β)) : Prop where
  times : both.map Prod.fst = dm.map Prod.fst
  sameTimes : dm.map Prod.fst = channel.map Prod.fst
  values : both.map Prod.snd = List.zipWith add (dm.map Prod.snd) (channel.map Prod.snd)

/-- Whenever the chart for both is answered, so are the others, and it is their sum. -/
def BothIsSum (add : β → β → β) (answer : Str → Except StatsError (List (Int × β))) : Prop :=
  ∀ both, answer "both".toList = .ok both →
    ∃ dm channel, answer "dm".toList = .ok dm ∧ answer "channel".toList = .ok channel ∧
      PointwiseSum add both dm channel

theorem pointwiseSum_iff {add : β → β → β} (times : List Int) (both dm channel : Int → β) :
    PointwiseSum add (times.map fun s => (s, both s)) (times.map fun s => (s, dm s))
      (times.map fun s => (s, channel s)) ↔
    ∀ s ∈ times, both s = add (dm s) (channel s) := by
  have fsts (value : Int → β) : (times.map fun s => (s, value s)).map Prod.fst = times := by
    rw [List.map_map]
    exact List.map_id _
  have snds (value : Int → β) :
      (times.map fun s => (s, value s)).map Prod.snd = times.map value := by
    rw [List.map_map]
    rfl
  have sum : List.zipWith add (times.map dm) (times.map channel) =
      times.map fun s => add (dm s) (channel s) := by
    rw [List.zipWith_map, List.zipWith_self]
  constructor
  · intro summed
    have values := summed.values
    rw [snds, snds, snds, sum] at values
    exact List.map_inj_left.mp values
  · intro each
    refine ⟨by rw [fsts, fsts], by rw [fsts, fsts], ?_⟩
    rw [snds, snds, snds, sum]
    exact List.map_inj_left.mpr each

/-- The rows that a request for a transport selects. -/
def selects (kind : ρ → Bool) (transport : ρ → Str) (asked : Str) (row : ρ) : Bool :=
  kind row && (asked = "both".toList || transport row = asked)

theorem selects_both (kind : ρ → Bool) (transport : ρ → Str) (row : ρ) :
    selects kind transport "both".toList row = kind row := by
  simp [selects]

theorem selects_of_ne {asked : Str} (one : asked ≠ "both".toList) (kind : ρ → Bool)
    (transport : ρ → Str) (row : ρ) :
    selects kind transport asked row = (kind row && decide (transport row = asked)) := by
  rw [selects, decide_eq_false one, Bool.false_or]

/-- A row came by one of the transports. -/
theorem weight_transports {kind : ρ → Bool} {transport : ρ → Str} (weight : Int) {row : ρ}
    (known : (∃ way, transport row = columnText way) ∨ transport row = botsTransport) :
    (if selects kind transport "both".toList row then weight else 0) =
      (if selects kind transport "dm".toList row then weight else 0) +
      (if selects kind transport "channel".toList row then weight else 0) +
      (if selects kind transport botsTransport row then weight else 0) := by
  have apart : "dm".toList ≠ "channel".toList ∧ "dm".toList ≠ botsTransport ∧
      "channel".toList ≠ botsTransport := by decide
  have one : "dm".toList ≠ "both".toList ∧ "channel".toList ≠ "both".toList ∧
      botsTransport ≠ "both".toList := by decide
  have dm := selects_of_ne one.1 kind transport row
  have channel := selects_of_ne one.2.1 kind transport row
  have bots := selects_of_ne one.2.2 kind transport row
  simp only [selects_both, dm, channel, bots]
  rcases known with ⟨_ | _, is⟩ | is
  · have is : transport row = "dm".toList := is
    simp only [is, decide_eq_false apart.1, decide_eq_false apart.2.1]
    simp
  · have is : transport row = "channel".toList := is
    simp only [is, decide_eq_false apart.1.symm, decide_eq_false apart.2.2]
    simp
  · simp only [is, decide_eq_false apart.2.1.symm, decide_eq_false apart.2.2.symm]
    simp

/-- What rows weigh is what those of each transport weigh. -/
theorem sum_transports {kind : ρ → Bool} {transport : ρ → Str} (here : ρ → Bool) (weight : ρ → Int)
    {rows : List ρ}
    (known : ∀ row ∈ rows,
      (∃ way, transport row = columnText way) ∨ transport row = botsTransport) :
    (((rows.filter (selects kind transport "both".toList)).filter here).map weight).sum =
      (((rows.filter (selects kind transport "dm".toList)).filter here).map weight).sum +
      (((rows.filter (selects kind transport "channel".toList)).filter here).map weight).sum +
      (((rows.filter (selects kind transport botsTransport)).filter here).map weight).sum := by
  have weigh (asked : Str) :
      (((rows.filter (selects kind transport asked)).filter here).map weight).sum =
        ((rows.filter here).map fun row =>
          if selects kind transport asked row then weight row else 0).sum := by
    rw [List.filter_comm, List.sum_map_ite]
    simp
  rw [weigh, weigh, weigh, weigh, ← List.sum_map_add, ← List.sum_map_add]
  refine congrArg List.sum (List.map_congr_left fun row there => ?_)
  exact weight_transports (weight row) (known row (List.mem_filter.mp there).1)

/-- The value of a point, for the rows of a transport. -/
def shownAt (kind : ρ → Bool) (transport : ρ → Str) (time : ρ → Int) (add : ρ → β → β) (zero : β)
    (rows : List ρ) (from_ to_ : Int) (w : Width) (asked : Str) (s : Int) : β :=
  ((rows.filter (selects kind transport asked)).filter fun row =>
    Within from_ to_ time row ∧ floor w (time row) = s).foldl (fun b row => add row b) zero

section

variable {kind : ρ → Bool} {transport : ρ → Str} {time : ρ → Int} {add : ρ → β → β} {zero : β}
  {rows : List ρ} {from_ to_ s : Int} {w : Width} {weight : ρ → Int}

/-- A field of a point shows what rows weigh. -/
theorem field_shownAt (field : β → Int) (empty : field zero = 0)
    (adds : ∀ row b, field (add row b) = field b + weight row) (asked : Str) :
    field (shownAt kind transport time add zero rows from_ to_ w asked s) =
      (((rows.filter (selects kind transport asked)).filter fun row =>
        Within from_ to_ time row ∧ floor w (time row) = s).map weight).sum := by
  rw [shownAt, field_foldl field add adds, empty, zero_add]

theorem shownAt_of_none {asked : Str} (none : ∀ row ∈ rows, transport row = asked →
      kind row = true → Within from_ to_ time row → floor w (time row) = s → asked = "both".toList)
    (one : asked ≠ "both".toList) :
    shownAt kind transport time add zero rows from_ to_ w asked s = zero := by
  have nobody : ((rows.filter (selects kind transport asked)).filter fun row =>
      Within from_ to_ time row ∧ floor w (time row) = s) = [] := by
    refine List.filter_eq_nil_iff.mpr fun row there falls => ?_
    obtain ⟨there, selected⟩ := List.mem_filter.mp there
    rw [selects_of_ne one, Bool.and_eq_true, decide_eq_true_eq] at selected
    obtain ⟨within, start⟩ := of_decide_eq_true falls
    exact one (none row there selected.2 selected.1 within start)
  rw [shownAt, nobody, List.foldl_nil]

/-- What both show is what each shows, and the roll calls. -/
theorem shownAt_transports (field : β → Int) (empty : field zero = 0)
    (adds : ∀ row b, field (add row b) = field b + weight row)
    (known : ∀ row ∈ rows,
      (∃ way, transport row = columnText way) ∨ transport row = botsTransport) :
    field (shownAt kind transport time add zero rows from_ to_ w "both".toList s) =
      field (shownAt kind transport time add zero rows from_ to_ w "dm".toList s) +
      field (shownAt kind transport time add zero rows from_ to_ w "channel".toList s) +
      field (shownAt kind transport time add zero rows from_ to_ w botsTransport s) := by
  simp only [field_shownAt field empty adds]
  exact sum_transports _ weight known

end

end

section

variable {now : Int} {tables : StatsTables} {asksFrom asksTo : Option Int} {bucket : Str}

/-- A chart that is asked for by transport is the sum when each point is. -/
theorem bothIsSum_iff {β ρ : Type} {kind : ρ → Bool} {transport : ρ → Str} {time : ρ → Int}
    {add : ρ → β → β} {zero : β} {rows : List ρ} {sum : β → β → β}
    {answer : Str → Except StatsError (List (Int × β))}
    (is : ∀ asked ∈ validTransports, answer asked = do
      let (from_, to_, w) ← range now asksFrom asksTo bucket
      let kept ← between from_ to_ time (rows.filter (selects kind transport asked))
      return series (tally w zero time add kept (zeroFill from_ to_ w zero))) :
    BothIsSum sum answer ↔
      ∀ from_ to_ w, range now asksFrom asksTo bucket = .ok (from_, to_, w) →
        fitsInteger from_ ∧ fitsInteger to_ → ∀ s ∈ steps w to_ (floor w from_),
          let shown asked := shownAt kind transport time add zero rows from_ to_ w asked s
          shown "both".toList = sum (shown "dm".toList) (shown "channel".toList) := by
  have valid : "dm".toList ∈ validTransports ∧ "channel".toList ∈ validTransports ∧
      "both".toList ∈ validTransports := by decide
  constructor
  · intro summed from_ to_ w asked fits
    have points (way : Str) (known : way ∈ validTransports) : answer way = .ok _ :=
      (is way known).trans (tally_answer_iff.mpr ⟨from_, to_, w, asked, fits, rfl⟩)
    obtain ⟨dm, channel, byDm, byChannel, sums⟩ := summed _ (points _ valid.2.2)
    cases (points _ valid.1).symm.trans byDm
    cases (points _ valid.2.1).symm.trans byChannel
    exact (pointwiseSum_iff ..).mp sums
  · intro sums both answered
    rw [is _ valid.2.2] at answered
    obtain ⟨from_, to_, w, asked, fits, rfl⟩ := tally_answer_iff.mp answered
    have points (way : Str) (known : way ∈ validTransports) : answer way = .ok _ :=
      (is way known).trans (tally_answer_iff.mpr ⟨from_, to_, w, asked, fits, rfl⟩)
    exact ⟨_, _, points _ valid.1, points _ valid.2.1,
      (pointwiseSum_iff ..).mpr (sums from_ to_ w asked fits)⟩

theorem statsMessages_eq {direction asked : Str} (known : direction ∈ validDirections)
    (valid : asked ∈ validTransports) :
    statsMessages now tables asksFrom asksTo bucket direction asked = do
      let (from_, to_, w) ← range now asksFrom asksTo bucket
      let kept ← between from_ to_ MessageRow.at_ (tables.messages.filter
        (selects (fun row => row.direction = direction) MessageRow.transport asked))
      return series (tally w ⟨0, 0⟩ MessageRow.at_
        (fun row b => ⟨b.count + 1, b.chars + row.chars⟩) kept (zeroFill from_ to_ w ⟨0, 0⟩)) := by
  rw [statsMessages, if_neg (not_not.mpr known), if_neg (not_not.mpr valid)]
  rfl

theorem statsCommands_eq {command : Option Str} {asked : Str} (valid : asked ∈ validTransports) :
    statsCommands now tables asksFrom asksTo bucket command asked = do
      let (from_, to_, w) ← range now asksFrom asksTo bucket
      let kept ← between from_ to_ CommandRow.at_ (tables.commands.filter
        (selects (fun row => command.all fun command => row.command = command)
          CommandRow.transport asked))
      return series (tally w ⟨0, 0⟩ CommandRow.at_
        (fun row b =>
          if row.accepted ≠ 0 then { b with accepted := b.accepted + 1 }
          else { b with rejected := b.rejected + 1 })
        kept (zeroFill from_ to_ w ⟨0, 0⟩)) := by
  rw [statsCommands, if_neg (not_not.mpr valid)]
  rfl

/-- What the bot's tables show of messages by both transports is what they show by each. -/
theorem messages_bothIsSum (carried : Carried tables) (direction : Str) :
    BothIsSum (fun a b => MessagesPoint.mk (a.count + b.count) (a.chars + b.chars))
      (statsMessages now tables asksFrom asksTo bucket direction) := by
  by_cases known : direction ∈ validDirections
  · refine (bothIsSum_iff fun asked valid => statsMessages_eq known valid).mpr ?_
    intro from_ to_ w _ _ s _ shown
    have ways (row : MessageRow) (there : row ∈ tables.messages) :
        (∃ way, row.transport = columnText way) ∨ row.transport = botsTransport :=
      .inl (carried.messages row there)
    have nobody : shown botsTransport = ⟨0, 0⟩ := by
      refine shownAt_of_none (fun row there is => ?_) (by decide)
      obtain ⟨_ | _, way⟩ := carried.messages row there
      · exact absurd (way.symm.trans is) (by decide)
      · exact absurd (way.symm.trans is) (by decide)
    refine MessagesPoint.ext ?_ ?_
    · refine (shownAt_transports MessagesPoint.count rfl (fun _ _ => rfl) ways).trans ?_
      exact (congrArg _ (congrArg MessagesPoint.count nobody)).trans (add_zero _)
    · refine (shownAt_transports MessagesPoint.chars rfl (fun _ _ => rfl) ways).trans ?_
      exact (congrArg _ (congrArg MessagesPoint.chars nobody)).trans (add_zero _)
  · intro both answered
    rw [statsMessages, if_pos known] at answered
    cases answered

/-- No roll call is among the commands that are asked for. -/
def NoRollCall (now : Int) (tables : StatsTables) (asksFrom asksTo : Option Int) (bucket : Str)
    (command : Option Str) : Prop :=
  ∀ from_ to_ w, range now asksFrom asksTo bucket = .ok (from_, to_, w) →
    fitsInteger from_ ∧ fitsInteger to_ →
      ∀ row ∈ tables.commands, Within from_ to_ CommandRow.at_ row →
        (∀ asked, command = some asked → row.command = asked) → row.transport ≠ botsTransport

/-- A command is shown as accepted or as rejected. -/
theorem accepted_or_rejected (rows : List CommandRow) :
    (rows.map fun row => if row.accepted ≠ 0 then (1 : Int) else 0).sum +
      (rows.map fun row => if row.accepted ≠ 0 then (0 : Int) else 1).sum = rows.length := by
  have one (row : CommandRow) : (if row.accepted ≠ 0 then (1 : Int) else 0) +
      (if row.accepted ≠ 0 then (0 : Int) else 1) = 1 := by
    split <;> rfl
  rw [← List.sum_map_add]
  simp only [one]
  simp

/-- What the tables show of commands by both transports is what they show by each, unless there
are roll calls. -/
theorem commands_bothIsSum_iff (carried : Carried tables) (command : Option Str) :
    BothIsSum (fun a b => CommandsPoint.mk (a.accepted + b.accepted) (a.rejected + b.rejected))
      (statsCommands now tables asksFrom asksTo bucket command) ↔
    NoRollCall now tables asksFrom asksTo bucket command := by
  rw [bothIsSum_iff fun asked valid => statsCommands_eq valid]
  refine forall₃_congr fun from_ to_ w => forall₂_congr fun asked fits => ?_
  constructor
  · intro sums row there within named is
    have equal := sums (floor w row.at_) (floor_mem_steps within)
    have accepted := add_eq_left.mp
      ((shownAt_transports CommandsPoint.accepted rfl accepted_counted carried.commands).symm.trans
        (congrArg CommandsPoint.accepted equal))
    have rejected := add_eq_left.mp
      ((shownAt_transports CommandsPoint.rejected rfl rejected_counted carried.commands).symm.trans
        (congrArg CommandsPoint.rejected equal))
    rw [field_shownAt CommandsPoint.accepted rfl accepted_counted] at accepted
    rw [field_shownAt CommandsPoint.rejected rfl rejected_counted] at rejected
    have none := accepted_or_rejected ((tables.commands.filter (selects
      (fun row => command.all fun command => row.command = command) CommandRow.transport
      botsTransport)).filter fun other =>
        Within from_ to_ CommandRow.at_ other ∧ floor w other.at_ = floor w row.at_)
    rw [accepted, rejected, zero_add, eq_comm, Int.natCast_eq_zero, List.length_eq_zero_iff] at none
    refine List.not_mem_nil (a := row)
      (none ▸ List.mem_filter.mpr ⟨?_, decide_eq_true ⟨within, rfl⟩⟩)
    refine List.mem_filter.mpr ⟨there, ?_⟩
    rw [selects_of_ne (by decide), decide_eq_true is, Bool.and_true, Option.all_eq_true]
    exact fun asked some => decide_eq_true (named asked some)
  · intro free s start shown
    have nobody : shown botsTransport = ⟨0, 0⟩ := by
      refine shownAt_of_none (fun row there is named within _ => ?_) (by decide)
      refine absurd is (free row there within fun asked some => ?_)
      rw [some] at named
      exact of_decide_eq_true named
    refine CommandsPoint.ext ?_ ?_
    · refine
        (shownAt_transports CommandsPoint.accepted rfl accepted_counted carried.commands).trans ?_
      exact (congrArg _ (congrArg CommandsPoint.accepted nobody)).trans (add_zero _)
    · refine
        (shownAt_transports CommandsPoint.rejected rfl rejected_counted carried.commands).trans ?_
      exact (congrArg _ (congrArg CommandsPoint.rejected nobody)).trans (add_zero _)

end

/-! ## Every log of the bot -/

/-- In every log that the bot can write, the chart of messages for both transports is the sum of
those for each, and so is the chart of commands exactly if it shows no roll call. -/
theorem both_is_sum_iff {speaker : Speaker} {tables : StatsTables}
    (reached : (traffic speaker).Reachable (fun _ _ => True) tables) (now : Int)
    (asksFrom asksTo : Option Int) (bucket direction : Str) (command : Option Str) :
    BothIsSum (fun a b => MessagesPoint.mk (a.count + b.count) (a.chars + b.chars))
        (statsMessages now tables asksFrom asksTo bucket direction) ∧
      (BothIsSum (fun a b => CommandsPoint.mk (a.accepted + b.accepted) (a.rejected + b.rejected))
          (statsCommands now tables asksFrom asksTo bucket command) ↔
        NoRollCall now tables asksFrom asksTo bucket command) :=
  ⟨messages_bothIsSum (carried reached) direction, commands_bothIsSum_iff (carried reached) command⟩

/-- A speaker to whom capital letters are ASCII's. -/
def zorkbot : Speaker := ⟨Bot.lower fun _ _ => false, "zorkbot".toList⟩

/-- A command on the channel that is not in the lobby, and one in a direct message. -/
theorem both_is_sum_of_two :
    ∃ tables, (traffic zorkbot).Reachable (fun _ _ => True) tables ∧
      tables.commands.length = 2 ∧
      BothIsSum (fun a b => CommandsPoint.mk (a.accepted + b.accepted) (a.rejected + b.rejected))
        (statsCommands 0 tables (some 0) (some 59) "minute".toList none) := by
  let look : CommandRecord := ⟨none, "look".toList, .dm, none, true, none⟩
  let one : StatsTables := ⟨[], [], [refuseCommand 10 "rules".toList]⟩
  let two : StatsTables :=
    ⟨[], [], [refuseCommand 10 "rules".toList, recordCommand 20 look]⟩
  have first : (traffic zorkbot).step (traffic zorkbot).init
      (.write 10 (.refused "rules".toList)) = some one := rfl
  have second : (traffic zorkbot).step one (.write 20 (.command look)) = some two := rfl
  have start : (traffic zorkbot).Reachable (fun _ _ => True) (traffic zorkbot).init :=
    System.reachable_init
  have reached := (start.step trivial first).step trivial second
  refine ⟨two, reached, rfl, (both_is_sum_iff reached 0 _ _ _ "rx".toList none).2.mpr ?_⟩
  intro from_ to_ w _ _ row there _ _
  rcases List.mem_pair.mp there with rfl | rfl
  · decide
  · decide

/-- A roll call that is answered. -/
theorem roll_call_breaks_sum :
    ∃ tables, (traffic zorkbot).Reachable (fun _ _ => True) tables ∧
      ¬ BothIsSum
        (fun a b => CommandsPoint.mk (a.accepted + b.accepted) (a.rejected + b.rejected))
        (statsCommands 0 tables (some 0) (some 59) "minute".toList none) := by
  have outcome : (Bot.dispatchBotsChannel zorkbot.lower zorkbot.name ⟨true, some 7⟩ (.init 12) 100
      (Bot.onBotsChannel "!bots")).1 =
      .answered ⟨Bot.onBotsChannel "!bots", "bots".toList⟩ := by decide +kernel
  have called : (traffic zorkbot).step (traffic zorkbot).init
      (.write 30 (.rollCall ⟨true, some 7⟩ (.init 12) 100 (Bot.onBotsChannel "!bots"))) =
      some ⟨[], [], [commandRow 30 Bot.botsCommand botsTransport true]⟩ := by
    simp only [traffic, StatsTables.step, StatsTables.write, outcome]
    rfl
  have start : (traffic zorkbot).Reachable (fun _ _ => True) (traffic zorkbot).init :=
    System.reachable_init
  have reached := start.step trivial called
  refine ⟨_, reached, fun sum => ?_⟩
  have free := (commands_bothIsSum_iff (carried reached) none).mp sum
  exact free 0 59 ⟨60, by decide⟩ rfl (by decide) _ List.mem_cons_self (by decide) nofun rfl

end Zorkbot.Admin
