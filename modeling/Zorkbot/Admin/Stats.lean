/-
# The charts

The endpoints under `/stats`. Each first makes a dictionary of empty buckets for the range that is
asked for and then counts the rows of a query in it. The buckets begin with the one that `from`
falls into, and a range is refused when it spans too many.
-/

import Zorkbot.Admin.SessionHistory
import Zorkbot.Data.Buckets

namespace Zorkbot.Admin

open Buckets (Counted Grid Width tally)
open Zorkbot.Bot (Str)

/-! ## The tables -/

/-- A row of `messages`. -/
structure MessageRow where
  at_ : Int
  direction : Str
  transport : Str
  chars : Int
  acked : Option Int
  deriving DecidableEq

/-- A row of `commands`. -/
structure CommandRow where
  at_ : Int
  command : Str
  transport : Str
  accepted : Int
  deriving DecidableEq

/-- The tables that are charted. -/
structure StatsTables where
  sessions : List SessionRow
  messages : List MessageRow
  commands : List CommandRow

/-! ## The request -/

inductive StatsError
  /-- Status 400: `invalid bucket`. -/
  | invalidBucket (bucket : Str)
  /-- Status 400: `invalid direction`. -/
  | invalidDirection (direction : Str)
  /-- Status 400: `invalid transport`. -/
  | invalidTransport (transport : Str)
  /-- Status 400: `'to' must be >= 'from'`. -/
  | reversed
  /-- Status 400: `range too wide for` this bucket. -/
  | tooWide (bucket : Str)
  /-- The driver's: a parameter does not fit. -/
  | overflow
  deriving DecidableEq

/-- `_MAX_POINTS`. -/
def maxPoints : Int := 5000

/-- `_VALID_BUCKETS`. -/
def validBuckets : List (Str × Width) :=
  [("minute".toList, ⟨60, by decide⟩), ("hour".toList, ⟨3600, by decide⟩),
    ("day".toList, ⟨86400, by decide⟩)]

/-- `Store.bucket_seconds`; `none` is its `ValueError`. -/
def bucketSeconds (bucket : Str) : Option Width :=
  (validBuckets.find? fun valid => valid.1 = bucket).map Prod.snd

/-- `_VALID_TRANSPORTS`. -/
def validTransports : List Str := ["dm".toList, "channel".toList, "both".toList]

/-- `_VALID_DIRECTIONS`. -/
def validDirections : List Str := ["rx".toList, "tx".toList]

/-- `_range`, where `now` is what the clock shows. -/
def range (now : Int) (from_ to_ : Option Int) (bucket : Str) :
    Except StatsError (Int × Int × Width) :=
  match bucketSeconds bucket with
  | none => .error (.invalidBucket bucket)
  | some w =>
      let to_ := to_.getD now
      let from_ := from_.getD (to_ - 86400)
      if to_ < from_ then .error .reversed
      else if (to_ - from_) / w.seconds + 1 > maxPoints then .error (.tooWide bucket)
      else .ok (from_, to_, w)

/-- `_zero_fill`. -/
def zeroFill {β : Type} (from_ to_ : Int) (w : Width) (zero : β) : OrderedDict Int β :=
  Buckets.fill w zero to_ (from_ - from_ % w.seconds) .empty

/-- `BETWEEN ? AND ?`, when the bounds can be bound. -/
def between {ρ : Type} (from_ to_ : Int) (time : ρ → Int) (rows : List ρ) :
    Except StatsError (List ρ) :=
  if fitsInteger from_ ∧ fitsInteger to_ then
    .ok (rows.filter fun row => Buckets.Within from_ to_ time row)
  else .error .overflow

/-- `sorted(buckets.items())`; no time comes twice. -/
def series {β : Type} (buckets : OrderedDict Int β) : List (Int × β) :=
  buckets.items.insertionSort fun a b => a.1 ≤ b.1

/-! ## The endpoints -/

structure SessionsPoint where
  started : Int
  ended : Int
  deriving DecidableEq

@[ext]
structure MessagesPoint where
  count : Int
  chars : Int
  deriving DecidableEq

structure DeliveryPoint where
  delivered : Int
  failed : Int
  deriving DecidableEq

@[ext]
structure CommandsPoint where
  accepted : Int
  rejected : Int
  deriving DecidableEq

variable (now : Int) (tables : StatsTables) (from_ to_ : Option Int) (bucket : Str)

/-- `stats_sessions`. -/
def statsSessions : Except StatsError (List (Int × SessionsPoint)) := do
  let (from_, to_, w) ← range now from_ to_ bucket
  let startedRows ← between from_ to_ SessionRow.startedAt tables.sessions
  let buckets := tally w ⟨0, 0⟩ SessionRow.startedAt
    (fun _ b => { b with started := b.started + 1 }) startedRows (zeroFill from_ to_ w ⟨0, 0⟩)
  let endedRows ← between from_ to_ id (tables.sessions.filterMap SessionRow.endedAt)
  let buckets := tally w ⟨0, 0⟩ id (fun _ b => { b with ended := b.ended + 1 }) endedRows buckets
  return series buckets

/-- The query of `stats_messages`. -/
def MessageRow.selected (direction transport : Str) (row : MessageRow) : Bool :=
  row.direction = direction && (transport = "both".toList || row.transport = transport)

/-- `stats_messages`. -/
def statsMessages (direction transport : Str) : Except StatsError (List (Int × MessagesPoint)) :=
  if direction ∉ validDirections then .error (.invalidDirection direction)
  else if transport ∉ validTransports then .error (.invalidTransport transport)
  else do
    let (from_, to_, w) ← range now from_ to_ bucket
    let rows ← between from_ to_ MessageRow.at_
      (tables.messages.filter (MessageRow.selected direction transport))
    return series (tally w ⟨0, 0⟩ MessageRow.at_
      (fun row b => ⟨b.count + 1, b.chars + row.chars⟩) rows (zeroFill from_ to_ w ⟨0, 0⟩))

/-- A delivery was waited for, and the packet arrived. -/
def MessageRow.delivered (row : MessageRow) : Bool := row.acked.any (· ≠ 0)

/-- `stats_delivery`. -/
def statsDelivery : Except StatsError (List (Int × DeliveryPoint)) := do
  let (from_, to_, w) ← range now from_ to_ bucket
  let rows ← between from_ to_ MessageRow.at_
    (tables.messages.filter fun row => row.direction = "tx".toList && row.acked.isSome)
  return series (tally w ⟨0, 0⟩ MessageRow.at_
    (fun row b =>
      if row.delivered then { b with delivered := b.delivered + 1 }
      else { b with failed := b.failed + 1 })
    rows (zeroFill from_ to_ w ⟨0, 0⟩))

/-- The query of `stats_commands`. -/
def CommandRow.selected (command : Option Str) (transport : Str) (row : CommandRow) : Bool :=
  (command.all fun command => row.command = command) &&
    (transport = "both".toList || row.transport = transport)

/-- `stats_commands`. -/
def statsCommands (command : Option Str) (transport : Str) :
    Except StatsError (List (Int × CommandsPoint)) :=
  if transport ∉ validTransports then .error (.invalidTransport transport)
  else do
    let (from_, to_, w) ← range now from_ to_ bucket
    let rows ← between from_ to_ CommandRow.at_
      (tables.commands.filter (CommandRow.selected command transport))
    return series (tally w ⟨0, 0⟩ CommandRow.at_
      (fun row b =>
        if row.accepted ≠ 0 then { b with accepted := b.accepted + 1 }
        else { b with rejected := b.rejected + 1 })
      rows (zeroFill from_ to_ w ⟨0, 0⟩))

end Zorkbot.Admin
