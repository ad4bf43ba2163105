/-
# What the charts show

The points of a chart are the buckets from the one that `from` falls into, and each row of the
range is counted in its own. All of that holds whatever the range is. The cap on the number of
points counts the buckets from `from` itself on, which is one too few when the last one begins
only because the first one begins earlier.
-/

import Zorkbot.Admin.Stats

namespace Zorkbot.Admin

open Buckets (Counted Falls Grid Width Within floor steps tally)
open Zorkbot.Bot (Str)

variable {β ρ : Type} {from_ to_ : Int} {w : Width}

/-! ## Points -/

theorem items_zeroFill (from_ to_ : Int) (w : Width) (zero : β) :
    (zeroFill from_ to_ w zero).items = (steps w to_ (floor w from_)).map fun s => (s, zero) :=
  Buckets.items_fill (d := .empty) nofun

theorem keys_zeroFill (from_ to_ : Int) (w : Width) (zero : β) :
    (zeroFill from_ to_ w zero).keys = steps w to_ (floor w from_) := by
  rw [OrderedDict.keys, items_zeroFill, List.map_map]
  exact List.map_id _

theorem floor_mem_steps {time : ρ → Int} {row : ρ} (within : Within from_ to_ time row) :
    floor w (time row) ∈ steps w to_ (floor w from_) :=
  (Buckets.grid_steps w from_ to_).mem_of_within within

/-- Each count of a dictionary goes on with the rows of its bucket. -/
theorem items_counted {zero : β} {time : ρ → Int} {add : ρ → β → β} {buckets : OrderedDict Int β}
    {count : Int → β} (rows : List ρ)
    (items : buckets.items = (steps w to_ (floor w from_)).map fun s => (s, count s)) :
    (tally w zero time add (rows.filter fun row => Within from_ to_ time row) buckets).items =
      (steps w to_ (floor w from_)).map fun s =>
        (s, (rows.filter fun row => Within from_ to_ time row ∧ floor w (time row) = s).foldl
          (fun b row => add row b) (count s)) := by
  have keys : buckets.keys = steps w to_ (floor w from_) := by
    rw [OrderedDict.keys, items, List.map_map]
    exact List.map_id _
  have bound : ∀ row ∈ rows.filter fun row => Within from_ to_ time row,
      floor w (time row) ∈ buckets.keys := by
    intro row there
    rw [keys]
    exact floor_mem_steps (of_decide_eq_true (List.mem_filter.mp there).2)
  rw [Buckets.items_tally bound, items, List.map_map]
  refine List.map_congr_left fun s _ => ?_
  simp only [Function.comp_apply, List.filter_filter, Bool.decide_and, Bool.and_comm]

/-- The dictionary is sorted as it is. -/
theorem series_of_items {buckets : OrderedDict Int β} {count : Int → β}
    (items : buckets.items = (steps w to_ (floor w from_)).map fun s => (s, count s)) :
    series buckets = (steps w to_ (floor w from_)).map fun s => (s, count s) := by
  rw [series, List.Pairwise.insertionSort_eq, items]
  rw [items]
  refine List.pairwise_map.mpr ?_
  exact (Buckets.ascending_steps w to_ (floor w from_)).imp fun less => less.le

/-- A field that every row adds to. -/
theorem field_foldl (field : β → Int) (add : ρ → β → β) {weight : ρ → Int}
    (adds : ∀ row b, field (add row b) = field b + weight row) (rows : List ρ) (b : β) :
    field (rows.foldl (fun b row => add row b) b) = field b + (rows.map weight).sum := by
  induction rows generalizing b with
  | nil => simp
  | cons row rows ih => rw [List.foldl_cons, ih, adds, List.map_cons, List.sum_cons, add_assoc]

/-! ## Exact charts -/

/-- What a field of the points counts: events, each with its time and how much it counts. -/
structure Counting (β : Type) where
  field : β → Int
  events : List (Int × Int)

/-- The points chart the range that is asked for: they are those of zero filling, the starts of
the buckets without a gap, and each field counts each of its events in one of them. -/
def ChartOf (now : Int) (from_ to_ : Option Int) (bucket : Str) (countings : List (Counting β))
    (points : List (Int × β)) : Prop :=
  ∃ f t w, range now from_ to_ bucket = .ok (f, t, w) ∧ Grid w f t (points.map Prod.fst) ∧
    (∀ zero : β, points.map Prod.fst = (zeroFill f t w zero).keys) ∧
    ∀ counting ∈ countings, Counted w f t Prod.fst Prod.snd counting.events
      (points.map fun p => (p.1, counting.field p.2))

section

variable {now : Int} {tables : StatsTables} {asksFrom asksTo : Option Int} {bucket : Str}

theorem ok_of_bind {ε α γ : Type} {x : Except ε α} {f : α → Except ε γ} {c : γ}
    (done : x >>= f = .ok c) : ∃ a, x = .ok a ∧ f a = .ok c := by
  cases x with
  | error => cases done
  | ok a => exact ⟨a, rfl, done⟩

theorem between_ok {time : ρ → Int} {rows kept : List ρ}
    (found : between from_ to_ time rows = .ok kept) :
    (fitsInteger from_ ∧ fitsInteger to_) ∧
      kept = rows.filter fun row => Within from_ to_ time row := by
  unfold between at found
  split at found
  · next fits => exact ⟨fits, (Except.ok.inj found).symm⟩
  · cases found

/-- A field is what its rows of a bucket weigh. -/
theorem counted_points (field : β → Int) (time weight : ρ → Int) (rows : List ρ) {value : Int → β}
    (values : ∀ s, field (value s) = ((rows.filter fun row =>
      Within from_ to_ time row ∧ floor w (time row) = s).map weight).sum) :
    Counted w from_ to_ Prod.fst Prod.snd (rows.map fun row => (time row, weight row))
      (((steps w to_ (floor w from_)).map fun s => (s, value s)).map
        fun p => (p.1, field p.2)) := by
  rw [List.map_map]
  refine (Buckets.grid_steps w from_ to_).counted fun s _ => ?_
  rw [values, List.filter_map, List.map_map]
  rfl

theorem chartOf_steps {countings : List (Counting β)} {value : Int → β}
    (asked : range now asksFrom asksTo bucket = .ok (from_, to_, w))
    (counted : ∀ counting ∈ countings, Counted w from_ to_ Prod.fst Prod.snd counting.events
      (((steps w to_ (floor w from_)).map fun s => (s, value s)).map
        fun p => (p.1, counting.field p.2))) :
    ChartOf now asksFrom asksTo bucket countings
      ((steps w to_ (floor w from_)).map fun s => (s, value s)) := by
  have times : ((steps w to_ (floor w from_)).map fun s => (s, value s)).map Prod.fst =
      steps w to_ (floor w from_) := by
    rw [List.map_map]
    exact List.map_id _
  refine ⟨from_, to_, w, asked, ?_, fun zero => ?_, counted⟩
  · rw [times]
    exact Buckets.grid_steps w from_ to_
  · rw [times, keys_zeroFill]

/-- What is answered, when the bounds can be bound. -/
theorem tally_answer_iff {zero : β} {time : ρ → Int} {add : ρ → β → β} {rows : List ρ}
    {points : List (Int × β)} :
    (do
      let (from_, to_, w) ← range now asksFrom asksTo bucket
      let kept ← between from_ to_ time rows
      return series (tally w zero time add kept (zeroFill from_ to_ w zero))) = .ok points ↔
    ∃ from_ to_ w, range now asksFrom asksTo bucket = .ok (from_, to_, w) ∧
      (fitsInteger from_ ∧ fitsInteger to_) ∧
      points = (steps w to_ (floor w from_)).map fun s =>
        (s, (rows.filter fun row => Within from_ to_ time row ∧ floor w (time row) = s).foldl
          (fun b row => add row b) zero) := by
  have counted (from_ to_ : Int) (w : Width) :
      series (tally w zero time add (rows.filter fun row => Within from_ to_ time row)
        (zeroFill from_ to_ w zero)) = _ :=
    series_of_items (items_counted rows (items_zeroFill from_ to_ w zero))
  constructor
  · intro answer
    obtain ⟨⟨from_, to_, w⟩, asked, answer⟩ := ok_of_bind answer
    obtain ⟨kept, found, answer⟩ := ok_of_bind answer
    obtain ⟨fits, rfl⟩ := between_ok found
    obtain rfl := Except.ok.inj answer
    exact ⟨from_, to_, w, asked, fits, counted from_ to_ w⟩
  · rintro ⟨from_, to_, w, asked, fits, rfl⟩
    rw [← counted, asked]
    have found : between from_ to_ time rows = _ := if_pos fits
    change (between from_ to_ time rows >>= _) = _
    rw [found]
    rfl

/-- A chart of the rows of one query. -/
theorem chartOf_tally {countings : List (Counting β)} {zero : β} {time : ρ → Int}
    {add : ρ → β → β} {rows : List ρ} {points : List (Int × β)}
    (answer : (do
      let (from_, to_, w) ← range now asksFrom asksTo bucket
      let kept ← between from_ to_ time rows
      return series (tally w zero time add kept (zeroFill from_ to_ w zero))) = .ok points)
    (fields : ∀ counting ∈ countings, ∃ weight : ρ → Int,
      counting.events = (rows.map fun row => (time row, weight row)) ∧ counting.field zero = 0 ∧
        ∀ row b, counting.field (add row b) = counting.field b + weight row) :
    ChartOf now asksFrom asksTo bucket countings points := by
  obtain ⟨from_, to_, w, asked, -, rfl⟩ := tally_answer_iff.mp answer
  refine chartOf_steps asked fun counting listed => ?_
  obtain ⟨weight, events, empty, adds⟩ := fields counting listed
  rw [events]
  refine counted_points counting.field time weight rows fun s => ?_
  rw [field_foldl counting.field add adds, empty, zero_add]

/-! ### The endpoints -/

/-- How many rows there are at each time. -/
def each (rows : List ρ) (time : ρ → Int) : List (Int × Int) := rows.map fun row => (time row, 1)

/-- How many rows of a kind there are at each time. -/
def eachOf (rows : List ρ) (time : ρ → Int) (kind : ρ → Bool) : List (Int × Int) :=
  rows.map fun row => (time row, if kind row then 1 else 0)

theorem chartOf_sessions {points : List (Int × SessionsPoint)}
    (answer : statsSessions now tables asksFrom asksTo bucket = .ok points) :
    ChartOf now asksFrom asksTo bucket
      [⟨SessionsPoint.started, each tables.sessions SessionRow.startedAt⟩,
        ⟨SessionsPoint.ended, each (tables.sessions.filterMap SessionRow.endedAt) id⟩] points := by
  obtain ⟨⟨from_, to_, w⟩, asked, answer⟩ := ok_of_bind answer
  obtain ⟨started, found, answer⟩ := ok_of_bind answer
  obtain ⟨-, rfl⟩ := between_ok found
  obtain ⟨ended, found, answer⟩ := ok_of_bind answer
  obtain ⟨-, rfl⟩ := between_ok found
  obtain rfl := Except.ok.inj answer
  let started (_ : SessionRow) (b : SessionsPoint) : SessionsPoint :=
    { b with started := b.started + 1 }
  let ended (_ : Int) (b : SessionsPoint) : SessionsPoint := { b with ended := b.ended + 1 }
  have items : (tally w ⟨0, 0⟩ SessionRow.startedAt started _ _).items = _ :=
    items_counted tables.sessions (items_zeroFill from_ to_ w ⟨0, 0⟩)
  have items : (tally w ⟨0, 0⟩ id ended _ _).items = _ :=
    items_counted (tables.sessions.filterMap SessionRow.endedAt) items
  have starts (rows : List SessionRow) (b : SessionsPoint) :
      (rows.foldl (fun b row => started row b) b).started =
        b.started + (rows.map fun _ => (1 : Int)).sum :=
    field_foldl SessionsPoint.started started (fun _ _ => rfl) rows b
  have startsStay (rows : List Int) (b : SessionsPoint) :
      (rows.foldl (fun b row => ended row b) b).started =
        b.started + (rows.map fun _ => (0 : Int)).sum :=
    field_foldl SessionsPoint.started ended (fun _ _ => (add_zero _).symm) rows b
  have ends (rows : List Int) (b : SessionsPoint) :
      (rows.foldl (fun b row => ended row b) b).ended =
        b.ended + (rows.map fun _ => (1 : Int)).sum :=
    field_foldl SessionsPoint.ended ended (fun _ _ => rfl) rows b
  have endsStay (rows : List SessionRow) (b : SessionsPoint) :
      (rows.foldl (fun b row => started row b) b).ended =
        b.ended + (rows.map fun _ => (0 : Int)).sum :=
    field_foldl SessionsPoint.ended started (fun _ _ => (add_zero _).symm) rows b
  rw [series_of_items items]
  refine chartOf_steps asked fun counting listed => ?_
  rcases List.mem_pair.mp listed with rfl | rfl
  · refine counted_points SessionsPoint.started _ (fun _ => 1) tables.sessions fun s => ?_
    rw [startsStay, starts]
    simp
  · refine counted_points SessionsPoint.ended id (fun _ => 1) _ fun s => ?_
    rw [ends, endsStay]
    simp

theorem chartOf_messages {direction transport : Str} {points : List (Int × MessagesPoint)}
    (answer : statsMessages now tables asksFrom asksTo bucket direction transport = .ok points) :
    let rows := tables.messages.filter (MessageRow.selected direction transport)
    ChartOf now asksFrom asksTo bucket
      [⟨MessagesPoint.count, each rows MessageRow.at_⟩,
        ⟨MessagesPoint.chars, rows.map fun row => (row.at_, row.chars)⟩] points := by
  unfold statsMessages at answer
  split_ifs at answer
  refine chartOf_tally answer fun counting listed => ?_
  rcases List.mem_pair.mp listed with rfl | rfl
  · exact ⟨fun _ => 1, rfl, rfl, fun _ _ => rfl⟩
  · exact ⟨MessageRow.chars, rfl, rfl, fun _ _ => rfl⟩

theorem chartOf_delivery {points : List (Int × DeliveryPoint)}
    (answer : statsDelivery now tables asksFrom asksTo bucket = .ok points) :
    let rows := tables.messages.filter fun row => row.direction = "tx".toList && row.acked.isSome
    ChartOf now asksFrom asksTo bucket
      [⟨DeliveryPoint.delivered, eachOf rows MessageRow.at_ MessageRow.delivered⟩,
        ⟨DeliveryPoint.failed, eachOf rows MessageRow.at_ fun row => !row.delivered⟩] points := by
  refine chartOf_tally answer fun counting listed => ?_
  rcases List.mem_pair.mp listed with rfl | rfl
  · refine ⟨_, rfl, rfl, fun row b => ?_⟩
    dsimp only
    split <;> simp [*]
  · refine ⟨_, rfl, rfl, fun row b => ?_⟩
    dsimp only
    split <;> simp [*]

/-- An accepted command is counted as that. -/
theorem accepted_counted (row : CommandRow) (b : CommandsPoint) :
    (if row.accepted ≠ 0 then { b with accepted := b.accepted + 1 }
      else { b with rejected := b.rejected + 1 }).accepted =
    b.accepted + if row.accepted ≠ 0 then 1 else 0 := by
  split <;> simp

/-- Any other command is counted as rejected. -/
theorem rejected_counted (row : CommandRow) (b : CommandsPoint) :
    (if row.accepted ≠ 0 then { b with accepted := b.accepted + 1 }
      else { b with rejected := b.rejected + 1 }).rejected =
    b.rejected + if row.accepted ≠ 0 then 0 else 1 := by
  split <;> simp

theorem chartOf_commands {command : Option Str} {transport : Str}
    {points : List (Int × CommandsPoint)}
    (answer : statsCommands now tables asksFrom asksTo bucket command transport = .ok points) :
    let rows := tables.commands.filter (CommandRow.selected command transport)
    ChartOf now asksFrom asksTo bucket
      [⟨CommandsPoint.accepted, eachOf rows CommandRow.at_ fun row => row.accepted ≠ 0⟩,
        ⟨CommandsPoint.rejected, eachOf rows CommandRow.at_ fun row => row.accepted = 0⟩]
      points := by
  unfold statsCommands at answer
  split_ifs at answer
  refine chartOf_tally answer fun counting listed => ?_
  rcases List.mem_pair.mp listed with rfl | rfl
  · refine ⟨_, rfl, rfl, fun row b => (accepted_counted row b).trans ?_⟩
    simp
  · refine ⟨_, rfl, rfl, fun row b => (rejected_counted row b).trans ?_⟩
    simp

end

/-- Whatever is asked for, the points of an answer are the buckets of the range, and each row that
the request selects is counted in its own. -/
theorem charts_are_exact (now : Int) (tables : StatsTables) (asksFrom asksTo : Option Int)
    (bucket : Str) :
    (∀ points, statsSessions now tables asksFrom asksTo bucket = .ok points →
      ChartOf now asksFrom asksTo bucket
        [⟨SessionsPoint.started, each tables.sessions SessionRow.startedAt⟩,
          ⟨SessionsPoint.ended, each (tables.sessions.filterMap SessionRow.endedAt) id⟩] points) ∧
    (∀ direction transport points,
      statsMessages now tables asksFrom asksTo bucket direction transport = .ok points →
      let rows := tables.messages.filter (MessageRow.selected direction transport)
      ChartOf now asksFrom asksTo bucket
        [⟨MessagesPoint.count, each rows MessageRow.at_⟩,
          ⟨MessagesPoint.chars, rows.map fun row => (row.at_, row.chars)⟩] points) ∧
    (∀ points, statsDelivery now tables asksFrom asksTo bucket = .ok points →
      let rows := tables.messages.filter fun row => row.direction = "tx".toList && row.acked.isSome
      ChartOf now asksFrom asksTo bucket
        [⟨DeliveryPoint.delivered, eachOf rows MessageRow.at_ MessageRow.delivered⟩,
          ⟨DeliveryPoint.failed, eachOf rows MessageRow.at_ fun row => !row.delivered⟩] points) ∧
    ∀ command transport points,
      statsCommands now tables asksFrom asksTo bucket command transport = .ok points →
      let rows := tables.commands.filter (CommandRow.selected command transport)
      ChartOf now asksFrom asksTo bucket
        [⟨CommandsPoint.accepted, eachOf rows CommandRow.at_ fun row => row.accepted ≠ 0⟩,
          ⟨CommandsPoint.rejected, eachOf rows CommandRow.at_ fun row => row.accepted = 0⟩]
        points :=
  ⟨fun _ => chartOf_sessions, fun _ _ _ => chartOf_messages, fun _ => chartOf_delivery,
    fun _ _ _ => chartOf_commands⟩

/-- Around the beginning of time, with both ends inside a minute. -/
def aroundZero : StatsTables where
  sessions :=
    [⟨"run".toList, 1, "a11ce0000000".toList, -70, some 61, none, 0⟩,
      ⟨"run".toList, 2, "a11ce0000000".toList, 0, none, none, 0⟩]
  messages := [⟨-1, "tx".toList, "dm".toList, 12, some 1⟩, ⟨62, "tx".toList, "dm".toList, 5, none⟩]
  commands := [⟨59, "look".toList, "dm".toList, 1⟩, ⟨60, "look".toList, "channel".toList, 0⟩]

theorem charts_are_exact_around_zero :
    ChartOf 0 (some (-70)) (some 61) "minute".toList
      [⟨SessionsPoint.started, [(-70, 1), (0, 1)]⟩, ⟨SessionsPoint.ended, [(61, 1)]⟩]
      [(-120, ⟨1, 0⟩), (-60, ⟨0, 0⟩), (0, ⟨1, 0⟩), (60, ⟨0, 1⟩)] ∧
    ChartOf 0 (some (-70)) (some 61) "minute".toList
      [⟨MessagesPoint.count, [(-1, 1), (62, 1)]⟩, ⟨MessagesPoint.chars, [(-1, 12), (62, 5)]⟩]
      [(-120, ⟨0, 0⟩), (-60, ⟨1, 12⟩), (0, ⟨0, 0⟩), (60, ⟨0, 0⟩)] ∧
    ChartOf 0 (some (-70)) (some 61) "minute".toList
      [⟨DeliveryPoint.delivered, [(-1, 1)]⟩, ⟨DeliveryPoint.failed, [(-1, 0)]⟩]
      [(-120, ⟨0, 0⟩), (-60, ⟨1, 0⟩), (0, ⟨0, 0⟩), (60, ⟨0, 0⟩)] ∧
    ChartOf 0 (some (-70)) (some 61) "minute".toList
      [⟨CommandsPoint.accepted, [(59, 1), (60, 0)]⟩, ⟨CommandsPoint.rejected, [(59, 0), (60, 1)]⟩]
      [(-120, ⟨0, 0⟩), (-60, ⟨0, 0⟩), (0, ⟨1, 0⟩), (60, ⟨0, 1⟩)] := by
  obtain ⟨sessions, messages, delivery, commands⟩ :=
    charts_are_exact 0 aroundZero (some (-70)) (some 61) "minute".toList
  exact ⟨sessions _ (by decide +kernel), messages "tx".toList "both".toList _ (by decide +kernel),
    delivery _ (by decide +kernel), commands none "both".toList _ (by decide +kernel)⟩

/-! ## The cap -/

theorem range_ok {now : Int} {asksFrom asksTo : Option Int} {bucket : Str}
    (asked : range now asksFrom asksTo bucket = .ok (from_, to_, w)) :
    from_ ≤ to_ ∧ (to_ - from_) / w.seconds + 1 ≤ maxPoints := by
  unfold range at asked
  split at asked
  · cases asked
  · dsimp only at asked
    split_ifs at asked with reversed wide
    cases asked
    exact ⟨not_lt.mp reversed, not_lt.mp wide⟩

/-- One more bucket begins when what `from` is ahead of its bucket and what is left of the range
after whole buckets make up another. -/
theorem size_zeroFill (ordered : from_ ≤ to_) (w : Width) (zero : β) :
    ((zeroFill from_ to_ w zero).size : Int) = (to_ - from_) / w.seconds + 1 +
      if from_ % w.seconds + (to_ - from_) % w.seconds < w.seconds then 0 else 1 := by
  have first := Buckets.floor_le w from_
  have positive := w.positive
  have size : (zeroFill from_ to_ w zero).size = (steps w to_ (floor w from_)).length := by
    rw [OrderedDict.size, items_zeroFill, List.length_map]
  have span : to_ - floor w from_ = from_ % w.seconds + (to_ - from_) % w.seconds +
      w.seconds * ((to_ - from_) / w.seconds) := by
    have split := Int.emod_add_mul_ediv (to_ - from_) w.seconds
    rw [floor]
    omega
  rw [size, Buckets.length_steps (by omega), span, Int.add_mul_ediv_left _ _ positive.ne']
  have low := Int.emod_nonneg from_ positive.ne'
  have high := Int.emod_lt_of_pos from_ positive
  have lowRest := Int.emod_nonneg (to_ - from_) positive.ne'
  have highRest := Int.emod_lt_of_pos (to_ - from_) positive
  split
  · next less =>
      rw [Int.ediv_eq_zero_of_lt (by omega) less]
      omega
  · next carries =>
      have one : (from_ % w.seconds + (to_ - from_) % w.seconds) / w.seconds = 1 := by
        rw [Int.ediv_eq_iff_of_pos positive]
        omega
      rw [one]
      omega

/-- An accepted range has at most as many points as it may, unless its whole buckets are as many
already and a part of another is at both ends. -/
theorem points_capped_iff {now : Int} {asksFrom asksTo : Option Int} {bucket : Str}
    (asked : range now asksFrom asksTo bucket = .ok (from_, to_, w)) (zero : β) :
    ((zeroFill from_ to_ w zero).size : Int) ≤ maxPoints ↔
      ((to_ - from_) / w.seconds + 1 = maxPoints →
        from_ % w.seconds + (to_ - from_) % w.seconds < w.seconds) := by
  obtain ⟨ordered, accepted⟩ := range_ok asked
  rw [size_zeroFill ordered]
  split
  · next less => exact iff_of_true (by omega) fun _ => less
  · next carries =>
      constructor
      · intro capped full
        omega
      · intro spared
        have fewer : (to_ - from_) / w.seconds + 1 ≠ maxPoints := fun full => carries (spared full)
        omega

/-- Minutes from the beginning of one. -/
theorem points_capped_aligned :
    ((zeroFill 0 299999 ⟨60, by decide⟩ ()).size : Int) ≤ maxPoints := by
  have asked : range 0 (some 0) (some 299999) "minute".toList =
      .ok (0, 299999, ⟨60, by decide⟩) := rfl
  exact (points_capped_iff asked ()).mpr fun _ => by decide

/-- The last second of a minute and five thousand minutes more are five thousand and one. -/
theorem points_one_too_many :
    range 0 (some 59) (some 300000) "minute".toList = .ok (59, 300000, ⟨60, by decide⟩) ∧
      ((zeroFill 59 300000 ⟨60, by decide⟩ ()).size : Int) = maxPoints + 1 :=
  ⟨rfl, size_zeroFill (by decide) _ ()⟩

end Zorkbot.Admin
