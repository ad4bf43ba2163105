/-
# Roll calls

What the bot does with a message on the bots channel. A roll call is meant to be the command
`!bots` at the start of the message. The message is read like any other command, so two more
kinds of texts are taken for one: `bots` as a game text in the legacy form, and `bots` with
white space between it and the exclamation mark.
-/

import Mathlib.Algebra.Order.Ring.Rat
import Zorkbot.Bot.Legacy
import Zorkbot.Bot.PacketBudget

namespace Zorkbot.Bot

/-! ## The cooldown -/

/-- `Cooldown`, with `_interval` and `_last_at`. -/
structure Cooldown where
  interval : ℚ
  lastAt : Option ℚ

namespace Cooldown

/-- `Cooldown(interval)`. -/
def init (interval : ℚ) : Cooldown := ⟨interval, none⟩

/-- The last claim was less than the interval ago. -/
def isOpen (self : Cooldown) (now : ℚ) : Bool :=
  self.lastAt.any fun lastAt => decide (now - lastAt < self.interval)

/-- `claim`, at a reading of the clock. -/
def claim (self : Cooldown) (now : ℚ) : Bool × Cooldown :=
  if self.interval ≤ 0 then (true, self)
  else if self.isOpen now then (false, self)
  else (true, { self with lastAt := some now })

end Cooldown

/-! ## The bots channel -/

/-- What the bot is configured with for roll calls. -/
structure BotsConfig where
  botsEnabled : Bool
  /-- The index of `bots_channel`. -/
  botsChannel : Option Int

/-- What becomes of a message on the bots channel. -/
inductive RollCall
  | ignored
  /-- The cooldown is asked and a window is open; the sink records that the command is dropped
  for `bots_cooldown`. -/
  | dropped
  /-- The cooldown is asked and opens a window; the sink records the command, and `handle_bots`
  is spawned. -/
  | answered (ctx : Context)
  deriving DecidableEq

/-- The command word of a roll call. -/
def botsCommand : Str := "bots".toList

/-- `dispatch_bots_channel`; it returns whether the message is answered. -/
def dispatchBotsChannel (lower : Str → Str) (name : Str) (config : BotsConfig)
    (cooldown : Cooldown) (now : ℚ) (message : IncomingMessage) : RollCall × Cooldown :=
  if !config.botsEnabled || config.botsChannel = none then (.ignored, cooldown)
  else if config.botsChannel ≠ some message.channelIdx then (.ignored, cooldown)
  else
    match parseCommand lower (stripAddress lower name (strip message.text)).1 with
    | none => (.ignored, cooldown)
    | some args =>
        let (command, _) := splitArgs lower args
        if command ≠ botsCommand then (.ignored, cooldown)
        else
          match cooldown.claim now with
          | (false, cooldown) => (.dropped, cooldown)
          | (true, cooldown) => (.answered ⟨message, args⟩, cooldown)

section

variable {final : Str → Nat → Bool} {name text : Str}

/-- The text is read as a roll call. -/
def AsksForBots (final : Str → Nat → Bool) (text : Str) : Prop :=
  ∃ args, parseCommand (lower final) text = some args ∧
    (splitArgs (lower final) args).1 = botsCommand

/-- The first word is `!bots`, in any letter case. -/
def StartsWithBots (final : Str → Nat → Bool) (text : Str) : Prop :=
  (splitWords text).head?.map (lower final) = some "!bots".toList

/-- `bots` is the first word of a game text in the legacy form. -/
def LegacyBots (final : Str → Nat → Bool) (text : Str) : Prop :=
  zorkPrefix ++ " ".toList <+: lower final (strip text) ∧
    (splitArgs (lower final) (strip ((strip text).drop 5))).1 = botsCommand

/-- White space is between the exclamation mark and `bots`. -/
def SpacedBots (final : Str → Nat → Bool) (text : Str) : Prop :=
  ∃ word rest, splitWords text = ['!'] :: word :: rest ∧ lower final word = botsCommand

/-! ## Words -/

theorem head_of_splitWords {word : Str} {more : List Str} {c : Char}
    (first : ∀ d, text.head? = some d → isSpace d = false)
    (words : splitWords text = (c :: word) :: more) : text.head? = some c := by
  cases text with
  | nil => cases words
  | cons d rest =>
      have plain := first d rfl
      rw [splitWords, Words.split_of_head plain, List.takeWhile_cons_of_pos (by simp [plain])]
        at words
      rw [List.head?_cons, (List.cons.inj (List.cons.inj words).1).1]

/-- `split(None, 1)` begins with the first word. -/
theorem head_splitWords (text : Str) :
    (splitWord text).map Prod.fst = (splitWords text).head? := by
  have trimmed : splitWords text = splitWords (lstrip text) := (Words.split_dropWhile text).symm
  rw [trimmed, splitWord]
  cases left : lstrip text with
  | nil => rfl
  | cons c after =>
      have plain : isSpace c = false := by
        have stop := List.head?_dropWhile_not isSpace text
        unfold lstrip at left
        rwa [left] at stop
      rw [splitWords, Words.split_of_head plain]
      rfl

/-- The first word of a text that begins with a mark. -/
theorem splitWords_mark (rest : Str) :
    splitWords ('!' :: rest) = ('!' :: rest.takeWhile (!isSpace ·)) ::
      splitWords (rest.dropWhile (!isSpace ·)) := by
  rw [splitWords, Words.split_of_head (by decide), List.takeWhile_cons_of_pos (by decide),
    List.dropWhile_cons_of_pos (by decide)]
  rfl

/-! ## Three kinds of texts -/

variable {word rest : Str} {more : List Str}

theorem botsCommand_ascii : ∀ d ∈ botsCommand, d.toNat < 128 := ascii_of_all (by decide)

/-- The mark and a word are `!bots` in lower case when the word is `bots`. -/
theorem lower_mark_iff : lower final ('!' :: word) = "!bots".toList ↔
    lower final word = botsCommand := by
  have mark : Go.toLower ('!' :: word) = '!' :: Go.toLower word := rfl
  constructor
  · intro lowered
    have simple : Simple ('!' :: word) :=
      simple_of_lower (f := final) (lowered ▸ ascii_of_all (by decide))
    have inner : Simple word := by
      constructor
      · exact fun there => simple.dotted (List.mem_cons_of_mem _ there)
      · exact fun there => simple.sigma (List.mem_cons_of_mem _ there)
    rw [simple.lower, mark] at lowered
    exact inner.lower.trans (List.cons.inj lowered).2
  · intro lowered
    have inner : Simple word := simple_of_lower (f := final) (lowered ▸ botsCommand_ascii)
    have first : Simple "!".toList := simple_of_ascii (ascii_of_all (by decide))
    have simple : Simple ('!' :: word) := first.append inner
    rw [simple.lower, mark, ← inner.lower (f := final), lowered]
    rfl

theorem unalias_eq_bots : unalias word = botsCommand ↔ word = botsCommand := by
  unfold unalias
  split
  · next is => exact iff_of_false (by decide) (is ▸ by decide)
  · split
    · next is => exact iff_of_false (by decide) (is ▸ by decide)
    · rfl

/-- White space behind the mark keeps a text from being in the legacy form. -/
theorem not_zork_of_space {d : Char} (space : isSpace d = true) (rest : Str) :
    ¬ zorkPrefix <+: lower final ('!' :: d :: rest) := by
  intro starts
  have dotted : d ≠ '\u0130' := by
    rintro rfl
    exact absurd space (by decide)
  have sigma : d ≠ 'Σ' := by
    rintro rfl
    exact absurd space (by decide)
  have simple : Simple ['!', d] := by
    constructor
    · simp [dotted.symm]
    · simp [sigma.symm]
  obtain ⟨u, lowered⟩ := simple.lower_append (f := final) rest
  change lower final ('!' :: d :: rest) = '!' :: Go.toLowerChar d :: u at lowered
  rw [lowered] at starts
  have second := (List.cons_prefix_cons.mp (List.cons_prefix_cons.mp starts).2).1
  obtain ⟨-, same⟩ := toLowerChar_of_space space (second ▸ by decide)
  rw [← same, ← second] at space
  cases space

/-- What is stripped begins with the mark of its first word. -/
theorem marked_of_splitWords (words : splitWords text = ('!' :: word) :: more) :
    ∃ v, strip text = '!' :: v := by
  rw [← splitWords_strip] at words
  have first := head_of_splitWords (head_strip text) words
  cases kept : strip text with
  | nil => rw [kept] at first; cases first
  | cons c v =>
      rw [kept] at first
      exact ⟨v, by rw [Option.some.inj first]⟩

/-- The characters of a text up to its first white space. -/
def upToSpace (text : Str) : Str := text.takeWhile (!isSpace ·)

theorem upToSpace_append (text : Str) : upToSpace text ++ text.dropWhile (!isSpace ·) = text :=
  List.takeWhile_append_dropWhile

theorem dropWhile_of_upToSpace (none : upToSpace text = []) :
    text.dropWhile (!isSpace ·) = text := by
  have both := upToSpace_append text
  rwa [none, List.nil_append] at both

theorem splitWords_of_marked {v : Str} (marked : strip text = '!' :: v) :
    splitWords text = ('!' :: upToSpace v) :: splitWords (v.dropWhile (!isSpace ·)) := by
  rw [← splitWords_strip, marked, splitWords_mark]
  rfl

theorem startsWithBots_iff {v : Str} (marked : strip text = '!' :: v) :
    StartsWithBots final text ↔ lower final (upToSpace v) = botsCommand := by
  rw [StartsWithBots, splitWords_of_marked marked, List.head?_cons, Option.map_some,
    Option.some.injEq, lower_mark_iff]

theorem marked_of_startsWithBots (starts : StartsWithBots final text) :
    ∃ v, strip text = '!' :: v := by
  unfold StartsWithBots at starts
  cases words : splitWords text with
  | nil => rw [words] at starts; cases starts
  | cons first more =>
      rw [words, List.head?_cons, Option.map_some, Option.some.injEq] at starts
      have mark : first.head? = some '!' :=
        head_of_lower (f := final) (by decide) (by rw [starts]; rfl)
      cases first with
      | nil => cases mark
      | cons c word =>
          obtain rfl := Option.some.inj mark
          exact marked_of_splitWords words

theorem spacedBots_iff {v : Str} (marked : strip text = '!' :: v) :
    SpacedBots final text ↔
      upToSpace v = [] ∧ (splitWords v).head?.map (lower final) = some botsCommand := by
  have words := splitWords_of_marked marked
  constructor
  · rintro ⟨word, rest, spaced, lowered⟩
    rw [words, List.cons.injEq, List.cons.injEq] at spaced
    obtain ⟨⟨-, none⟩, others⟩ := spaced
    rw [dropWhile_of_upToSpace none] at others
    exact ⟨none, by rw [others, List.head?_cons, Option.map_some, lowered]⟩
  · rintro ⟨none, first⟩
    rw [none, dropWhile_of_upToSpace none] at words
    cases others : splitWords v with
    | nil => rw [others] at first; cases first
    | cons word rest =>
        rw [others] at words first
        exact ⟨word, rest, words, Option.some.inj first⟩

/-- Neither of the two begins like a text in the legacy form. -/
theorem not_zork_of_startsWithBots (starts : StartsWithBots final text) :
    ¬ zorkPrefix <+: lower final (strip text) := by
  intro zork
  obtain ⟨v, marked⟩ := marked_of_startsWithBots starts
  have lowered := lower_mark_iff.mpr ((startsWithBots_iff marked).mp starts)
  have simple : Simple ('!' :: upToSpace v) :=
    simple_of_lower (f := final) (lowered ▸ ascii_of_all (by decide))
  obtain ⟨u, whole⟩ := simple.lower_append (f := final) (v.dropWhile (!isSpace ·))
  have both : '!' :: upToSpace v ++ v.dropWhile (!isSpace ·) = '!' :: v := by
    rw [List.cons_append, upToSpace_append]
  rw [both, ← marked, ← simple.lower (f := final), lowered] at whole
  rw [whole] at zork
  exact absurd (List.cons_prefix_cons.mp (List.cons_prefix_cons.mp zork).2).1 (by decide)

theorem not_zork_of_spacedBots (spaced : SpacedBots final text) :
    ¬ zorkPrefix <+: lower final (strip text) := by
  obtain ⟨word, rest, words, -⟩ := id spaced
  obtain ⟨v, marked⟩ := marked_of_splitWords words
  obtain ⟨none, first⟩ := (spacedBots_iff marked).mp spaced
  rw [marked]
  cases v with
  | nil => cases first
  | cons d v =>
      apply not_zork_of_space
      by_contra plain
      rw [Bool.not_eq_true] at plain
      rw [upToSpace, List.takeWhile_cons_of_pos (by simp [plain])] at none
      cases none

/-- The first word behind a mark is `bots` in one of two ways. -/
theorem bots_iff {v : Str} {rest : Option Str} (marked : strip text = '!' :: v)
    (split : splitWord v = some (word, rest)) :
    lower final word = botsCommand ↔ StartsWithBots final text ∨ SpacedBots final text := by
  have first : (splitWords v).head? = some word := by
    rw [← head_splitWords, split]
    rfl
  rw [startsWithBots_iff marked, spacedBots_iff marked, first, Option.map_some, Option.some.injEq]
  cases v with
  | nil => cases first
  | cons d v =>
      cases space : isSpace d with
      | true =>
          have none : upToSpace (d :: v) = [] := List.takeWhile_cons_of_neg (by simp [space])
          rw [none]
          have empty : lower final [] ≠ botsCommand := nofun
          simp [empty]
      | false =>
          rw [splitWords, Words.split_of_head space, List.head?_cons, Option.some.injEq] at first
          have some : upToSpace (d :: v) ≠ [] := by
            rw [upToSpace, List.takeWhile_cons_of_pos (by simp [space])]
            exact List.cons_ne_nil _ _
          have same : upToSpace (d :: v) = word := first
          simp [some, ← same]

theorem not_legacyBots (other : ¬ zorkPrefix ++ " ".toList <+: lower final (strip text)) :
    ¬ LegacyBots final text := fun legacy => other legacy.1

theorem zork_of_legacy (starts : zorkPrefix ++ " ".toList <+: lower final (strip text)) :
    zorkPrefix <+: lower final (strip text) := (List.prefix_append _ _).trans starts

/-- A roll call that begins otherwise is read by its first word behind the mark. -/
theorem known_of_bots (starts : StartsWithBots final text ∨ SpacedBots final text) :
    (strip text).head? = some '!' ∧ ∃ word rest,
      splitWord ((strip text).drop 1) = some (word, rest) ∧ lower final word = botsCommand := by
  obtain ⟨v, marked⟩ : ∃ v, strip text = '!' :: v := by
    rcases starts with starts | ⟨_, _, words, _⟩
    · exact marked_of_startsWithBots starts
    · exact marked_of_splitWords words
  cases split : splitWord v with
  | none =>
      have none : (splitWords v).head? = none := by
        rw [← head_splitWords, split]
        rfl
      rcases starts with starts | spaced
      · have lowered := (startsWithBots_iff marked).mp starts
        have blank : ∀ c ∈ v, isSpace c = true :=
          Words.split_eq_nil_iff.mp (List.head?_eq_none_iff.mp none)
        have empty : upToSpace v = [] := by
          cases v with
          | nil => rfl
          | cons d v =>
              exact List.takeWhile_cons_of_neg (by simp [blank d List.mem_cons_self])
        rw [empty] at lowered
        cases lowered
      · obtain ⟨-, first⟩ := (spacedBots_iff marked).mp spaced
        rw [none] at first
        cases first
  | some pair =>
      obtain ⟨word, rest⟩ := pair
      rw [marked]
      exact ⟨rfl, word, rest, split, (bots_iff marked split).mpr starts⟩

/-- The texts that are taken for a roll call. -/
theorem asksForBots_iff (final : Str → Nat → Bool) (text : Str) :
    AsksForBots final text ↔
      (StartsWithBots final text ∨ SpacedBots final text) ∨ LegacyBots final text := by
  have read := parses final text
  unfold AsksForBots
  generalize parseCommand (lower final) text = result at read
  cases read with
  | bare alone =>
      have zork : zorkPrefix <+: lower final (strip text) := alone ▸ List.prefix_rfl
      constructor
      · rintro ⟨args, is, bots⟩
        cases is
        cases bots
      · rintro ((starts | spaced) | ⟨longer, -⟩)
        · exact absurd zork (not_zork_of_startsWithBots starts)
        · exact absurd zork (not_zork_of_spacedBots spaced)
        · rw [alone] at longer
          exact absurd longer.length_le (by decide)
  | legacy starts =>
      have zork := zork_of_legacy starts
      constructor
      · rintro ⟨args, is, bots⟩
        cases is
        exact .inr ⟨starts, bots⟩
      · rintro ((starts | spaced) | legacy)
        · exact absurd zork (not_zork_of_startsWithBots starts)
        · exact absurd zork (not_zork_of_spacedBots spaced)
        · exact ⟨_, rfl, legacy.2⟩
  | @command word rest other starts mark split known =>
      obtain ⟨v, marked⟩ : ∃ v, strip text = '!' :: v := by
        cases kept : strip text with
        | nil => rw [kept] at mark; cases mark
        | cons c v => rw [kept] at mark; exact ⟨v, by rw [Option.some.inj mark]⟩
      rw [marked] at split
      have behind : lower final word = botsCommand ↔ StartsWithBots final text ∨ SpacedBots final text :=
        bots_iff marked split
      rw [← unalias_eq_bots] at behind
      constructor
      · rintro ⟨args, is, bots⟩
        cases is
        rw [splitArgs_withRest known] at bots
        exact .inl (behind.mp bots)
      · rintro (bots | legacy)
        · exact ⟨_, rfl, (splitArgs_withRest known _).trans (behind.mpr bots)⟩
        · exact absurd legacy (not_legacyBots starts)
  | nothing other starts unknown =>
      constructor
      · rintro ⟨args, is, -⟩
        cases is
      · rintro (bots | legacy)
        · obtain ⟨mark, word, rest, split, lowered⟩ := known_of_bots bots
          have command : unalias (lower final word) = botsCommand := unalias_eq_bots.mpr lowered
          refine absurd ?_ (unknown mark word rest split)
          rw [command]
          decide
        · exact absurd legacy (not_legacyBots starts)

end

/-! ## The channel -/

/-- A message on the channel comes to the cooldown or is answered when it is read as a roll
call. -/
theorem not_ignored_iff (lower : Str → Str) (name : Str) (cooldown : Cooldown) (now : ℚ)
    (message : IncomingMessage) :
    (dispatchBotsChannel lower name ⟨true, some message.channelIdx⟩ cooldown now message).1 ≠
        .ignored ↔
      ∃ args, parseCommand lower (stripAddress lower name (strip message.text)).1 = some args ∧
        (splitArgs lower args).1 = botsCommand := by
  unfold dispatchBotsChannel
  rw [if_neg (by simp), if_neg (by simp)]
  cases parseCommand lower (stripAddress lower name (strip message.text)).1 with
  | none => simp
  | some args =>
      by_cases bots : (splitArgs lower args).1 = botsCommand
      · simp only [bots, ne_eq, not_true_eq_false, if_false, Option.some.injEq, exists_eq_left']
        split <;> simp
      · simp [bots]

/-- The text of a message without the address of the bot. -/
def unaddressed (lower : Str → Str) (name : Str) (message : IncomingMessage) : Str :=
  (stripAddress lower name (strip message.text)).1

/-- A message on the channel, to a bot that is called so. -/
def callsRoll (final : Str → Nat → Bool) (name : Str) (cooldown : Cooldown) (now : ℚ)
    (message : IncomingMessage) : RollCall :=
  (dispatchBotsChannel (lower final) name ⟨true, some message.channelIdx⟩ cooldown now message).1

theorem StartsWithBots.alone {final : Str → Nat → Bool} {text : Str}
    (starts : StartsWithBots final text) : ¬ LegacyBots final text ∧ ¬ SpacedBots final text := by
  constructor
  · intro legacy
    exact not_zork_of_startsWithBots starts (zork_of_legacy legacy.1)
  · intro spaced
    obtain ⟨v, marked⟩ := marked_of_startsWithBots starts
    have lowered := (startsWithBots_iff marked).mp starts
    rw [((spacedBots_iff marked).mp spaced).1] at lowered
    cases lowered

/-- The cooldown is asked exactly for the messages whose first word is `!bots`, unless a game
text in the legacy form begins with `bots` or white space is behind the mark. -/
theorem roll_call_iff (final : Str → Nat → Bool) (name : Str) (cooldown : Cooldown) (now : ℚ)
    (message : IncomingMessage) :
    (callsRoll final name cooldown now message ≠ .ignored ↔
        StartsWithBots final (unaddressed (lower final) name message)) ↔
      ¬ LegacyBots final (unaddressed (lower final) name message) ∧
        ¬ SpacedBots final (unaddressed (lower final) name message) := by
  have asks : callsRoll final name cooldown now message ≠ .ignored ↔
      AsksForBots final (unaddressed (lower final) name message) :=
    not_ignored_iff (lower final) name cooldown now message
  rw [asks, asksForBots_iff]
  constructor
  · intro agree
    have all (bots : LegacyBots final (unaddressed (lower final) name message) ∨
        SpacedBots final (unaddressed (lower final) name message)) : False := by
      have starts := agree.mp (bots.elim .inr fun spaced => .inl (.inr spaced))
      exact bots.elim starts.alone.1 starts.alone.2
    exact ⟨fun legacy => all (.inl legacy), fun spaced => all (.inr spaced)⟩
  · rintro ⟨legacy, spaced⟩
    simp [legacy, spaced]

/-- A message on the channel 7. -/
def onBotsChannel (text : String) : IncomingMessage := ⟨text.toList, none, none, false, 7⟩

/-- `!zork bots` and `! bots` are answered, and neither begins with the word `!bots`. -/
theorem roll_call_near_misses :
    ∃ (final : Str → Nat → Bool) (name : Str) (cooldown : Cooldown),
      ∀ message ∈ [onBotsChannel "!zork bots", onBotsChannel "! bots"],
        callsRoll final name cooldown 100 message ≠ .ignored ∧
          ¬ StartsWithBots final (unaddressed (lower final) name message) := by
  refine ⟨medial, "zorkbot".toList, .init 12, ?_⟩
  unfold StartsWithBots
  decide +kernel

end Zorkbot.Bot
