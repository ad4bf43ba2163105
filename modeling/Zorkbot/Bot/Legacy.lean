/-
# The legacy form

`!zork` followed by a game text is still read, and what is read is the game text. The
dispatcher takes it for a command of the bot all the same: it splits off the first word, so a
direct message in the legacy form is never handled like the game text alone, unless `!zork` is
the name of the bot.
-/

import Zorkbot.Bot.Addressed
import Zorkbot.Bot.Incoming

namespace Zorkbot.Bot

variable {final : Str → Nat → Bool} {name t text args : Str}

/-! ## Parts of a text -/

theorem partition_append {sep : Char} {w : Str} (plain : sep ∉ w) (rest : Str) :
    partition sep (w ++ sep :: rest) = (w, some rest) := by
  have all : ∀ c ∈ w, decide (c ≠ sep) = true := by
    intro c there
    exact decide_eq_true fun is => plain (is ▸ there)
  have dropped : (w ++ sep :: rest).dropWhile (fun c => decide (c ≠ sep)) = sep :: rest := by
    rw [List.dropWhile_append_of_pos all, List.dropWhile_cons_of_neg (by simp)]
  have taken : (w ++ sep :: rest).takeWhile (fun c => decide (c ≠ sep)) = w := by
    rw [List.takeWhile_append_of_pos all, List.takeWhile_cons_of_neg (by simp), List.append_nil]
  rw [partition, dropped, taken]

theorem partition_of_notMem {sep : Char} {w : Str} (plain : sep ∉ w) :
    partition sep w = (w, none) := by
  have all : ∀ c ∈ w, decide (c ≠ sep) = true := by
    intro c there
    exact decide_eq_true fun is => plain (is ▸ there)
  rw [partition, List.dropWhile_eq_nil_iff.mpr all]

theorem splitArgs_append (lower : Str → Str) {w : Str} (plain : ' ' ∉ w) (rest : Str) :
    splitArgs lower (w ++ ' ' :: rest) = (lower w, rest) := by
  unfold splitArgs
  rw [partition_append plain]
  rfl

theorem splitArgs_word (lower : Str → Str) {w : Str} (plain : ' ' ∉ w) :
    splitArgs lower w = (lower w, []) := by
  unfold splitArgs
  rw [partition_of_notMem plain]
  rfl

/-- The arguments are shorter than the text they are split from. -/
theorem length_splitArgs (lower : Str → Str) (some : args ≠ []) :
    (splitArgs lower args).2.length < args.length := by
  by_cases there : ' ' ∈ args
  · obtain ⟨w, rest, rfl, plain⟩ := List.eq_append_cons_of_mem there
    rw [splitArgs_append lower plain, List.length_append, List.length_cons]
    change rest.length < _
    omega
  · rw [splitArgs_word lower there]
    exact List.length_pos_of_ne_nil some

/-! ## The commands that are read -/

theorem botCommands_plain : ∀ c ∈ botCommands, c ≠ [] ∧ (∀ d ∈ c, isSpace d = false) ∧
    (∀ d ∈ c, d.toNat < 128) ∧ Go.toLower c = c := by
  have plain : ∀ c ∈ botCommands, c ≠ [] ∧ (c.all fun d => decide (isSpace d = false)) = true ∧
      (c.all fun d => decide (d.toNat < 128)) = true ∧ Go.toLower c = c := by
    decide +kernel
  intro c known
  obtain ⟨some, visible, ascii, small⟩ := plain c known
  exact ⟨some, List.all_iff_forall_prop.mp visible, ascii_of_all ascii, small⟩

/-- What `parse_command` returns for a command and what follows it. -/
def withRest (command : Str) : Option Str → Str
  | some rest => strip (command ++ " ".toList ++ rest)
  | none => command

/-- The dispatcher splits off the command that was read. -/
theorem splitArgs_withRest {f : Str → Nat → Bool} {command : Str} (known : command ∈ botCommands)
    (rest : Option Str) : (splitArgs (lower f) (withRest command rest)).1 = command := by
  obtain ⟨some, visible, ascii, small⟩ := botCommands_plain command known
  have plain : ' ' ∉ command := fun there => absurd (visible _ there) (by decide)
  have lowered : lower f command = command := (simple_of_ascii ascii).lower.trans small
  cases rest with
  | none => rw [withRest, splitArgs_word _ plain, lowered]
  | some rest =>
      have first : ∀ d, (command ++ " ".toList ++ rest).head? = .some d → isSpace d = false := by
        intro d head
        cases command with
        | nil => exact absurd rfl some
        | cons c command => exact visible d (Option.some.inj head ▸ List.mem_cons_self)
      have kept : command.rdropWhile isSpace = command :=
        List.rdropWhile_eq_self_iff.mpr fun some => by
          simpa using visible _ (List.getLast_mem some)
      rw [withRest, strip_of_head first, List.append_assoc, rdropWhile_append]
      split
      · rw [kept, splitArgs_word _ plain, lowered]
      · next more =>
          obtain ⟨tail, whole⟩ := List.rdropWhile_prefix isSpace (" ".toList ++ rest)
          cases cut : (" ".toList ++ rest).rdropWhile isSpace with
          | nil => exact absurd cut more
          | cons d after =>
              rw [cut] at whole
              obtain rfl : d = ' ' := (List.cons.inj whole).1
              rw [splitArgs_append _ plain, lowered]

/-- How a text is read. -/
inductive Parses (final : Str → Nat → Bool) (text : Str) : Option Str → Prop
  | bare (alone : lower final (strip text) = zorkPrefix) : Parses final text (some [])
  | legacy (starts : zorkPrefix ++ " ".toList <+: lower final (strip text)) :
      Parses final text (some (strip ((strip text).drop 5)))
  | command {word : Str} {rest : Option Str} (other : lower final (strip text) ≠ zorkPrefix)
      (starts : ¬ zorkPrefix ++ " ".toList <+: lower final (strip text))
      (mark : (strip text).head? = some '!')
      (words : splitWord ((strip text).drop 1) = some (word, rest))
      (known : unalias (lower final word) ∈ botCommands) :
      Parses final text (some (withRest (unalias (lower final word)) rest))
  | nothing (other : lower final (strip text) ≠ zorkPrefix)
      (starts : ¬ zorkPrefix ++ " ".toList <+: lower final (strip text))
      (unknown : (strip text).head? = some '!' → ∀ word rest,
        splitWord ((strip text).drop 1) = some (word, rest) →
          unalias (lower final word) ∉ botCommands) :
      Parses final text none

theorem mark_iff : "!".toList <+: text ↔ text.head? = some '!' := by
  cases text with
  | nil => exact iff_of_false (by decide) nofun
  | cons c rest =>
      rw [List.head?_cons, Option.some.injEq]
      constructor
      · intro mark
        exact (List.cons_prefix_cons.mp mark).1.symm
      · rintro rfl
        exact ⟨rest, rfl⟩

theorem parses (final : Str → Nat → Bool) (text : Str) :
    Parses final text (parseCommand (lower final) text) := by
  unfold parseCommand
  simp only []
  split
  · next alone => exact .bare alone
  · next other =>
      split
      · next starts => exact .legacy starts
      · next starts =>
          split
          · next mark =>
              split
              · next none =>
                  refine .nothing other starts fun _ word rest words => ?_
                  cases none.symm.trans words
              · next word rest words =>
                  split
                  · next known =>
                      have read := Parses.command other starts (mark_iff.mp mark) words known
                      cases rest with
                      | none => exact read
                      | some rest => exact read
                  · next unknown =>
                      refine .nothing other starts fun _ word' rest' words' => ?_
                      obtain ⟨rfl, rfl⟩ := Prod.mk.inj (Option.some.inj (words.symm.trans words'))
                      exact unknown
          · next bare => exact .nothing other starts fun mark => absurd (mark_iff.mpr mark) bare

/-! ## Direct messages -/

/-- The command and the arguments that are queued. -/
def Dispatch.asked : Dispatch → Option (Str × Str)
  | .enqueued _ command restArgs => some (command, restArgs)
  | _ => none

/-- The command of game texts. -/
def gameCommand : Str := "_game".toList

/-- A direct message in the legacy form. -/
def legacyForm (t : Str) : Str := zorkPrefix ++ " ".toList ++ t

/-- What a direct message asks for, given what is left without its address. -/
theorem asked_dispatchDm (final : Str → Nat → Bool) (name : Str) (message : IncomingMessage)
    (some : strip text ≠ []) {rest : Str}
    (left : (stripAddress (lower final) name (strip text)).1 = rest) :
    (dispatchDm (lower final) name { message with text := text }).asked =
      .some ((parseCommand (lower final) rest).elim (gameCommand, strip rest)
        (splitArgs (lower final))) := by
  unfold dispatchDm
  simp only [if_neg some, left]
  cases parseCommand (lower final) rest with
  | none => rfl
  | some args => rfl

/-- A game text is no command. -/
theorem parseCommand_of_bare (trimmed : strip t = t) (bare : t.head? ≠ some '!') :
    parseCommand (lower final) t = none := by
  have read := parses final t
  cases read' : parseCommand (lower final) t with
  | none => rfl
  | some args =>
      rw [read'] at read
      have mark : (strip t).head? = some '!' := by
        cases read with
        | bare alone => exact head_of_lower (f := final) (by decide) (alone ▸ rfl)
        | legacy starts =>
            obtain ⟨u, whole⟩ := starts
            exact head_of_lower (f := final) (by decide) (whole ▸ rfl)
        | command _ _ mark => exact mark
      exact absurd (trimmed ▸ mark) bare

/-- How an address is stripped. -/
inductive Strips (lower : Str → Str) (name text : Str) : Str × Bool → Prop
  | mention {mention : Str} (is : mention = "@[".toList ++ lower name ++ "]".toList)
      (starts : mention <+: lower (strip text)) :
      Strips lower name text (lstripSeparators ((strip text).drop mention.length), true)
  | name {body : Str}
      (is : body = if "@".toList <+: strip text then (strip text).drop 1 else strip text)
      (starts : lower name <+: lower body)
      (ends : ((body.drop name.length).take 1).all (· ∈ " :,".toList) = true) :
      Strips lower name text (lstripSeparators (body.drop name.length), true)
  | nothing : Strips lower name text (strip text, false)

theorem strips (lower : Str → Str) (name text : Str) :
    Strips lower name text (stripAddress lower name text) := by
  unfold stripAddress
  simp only []
  split
  · next starts => exact .mention rfl starts
  · generalize body : (if "@".toList <+: strip text then (strip text).drop 1 else strip text) = b
    split
    · next both => exact .name body.symm both.1 both.2
    · exact .nothing

theorem stripAddress_of_unaddressed {lower : Str → Str}
    (unaddressed : (stripAddress lower name text).2 = false) :
    (stripAddress lower name text).1 = strip text := by
  have stripped := strips lower name text
  generalize stripAddress lower name text = result at stripped unaddressed
  cases stripped with
  | mention | name => cases unaddressed
  | nothing => rfl

theorem length_strip_le (text : Str) : (strip text).length ≤ text.length := by
  have right : (strip text).length ≤ (lstrip text).length :=
    (List.rdropWhile_prefix isSpace (lstrip text)).length_le
  exact right.trans (List.dropWhile_suffix isSpace).length_le

/-- A text does not ask for a game text as a command of the bot when what it would be in the
legacy form is no longer than the game text. -/
theorem asked_ne {args : Str} (read : parseCommand (lower final) text = some args) (some : t ≠ [])
    (short : (strip ((strip text).drop 5)).length ≤ t.length) :
    splitArgs (lower final) args ≠ (gameCommand, t) := by
  intro same
  have reads := parses final text
  rw [read] at reads
  cases reads with
  | bare => exact some (congrArg Prod.snd same).symm
  | legacy starts =>
      generalize strip ((strip text).drop 5) = args at same short
      by_cases none : args = []
      · subst none
        exact some (congrArg Prod.snd same).symm
      · have shorter := length_splitArgs (lower final) none
        rw [same] at shorter
        exact absurd (shorter.trans_le short) (lt_irrefl _)
  | command _ _ _ words known =>
      have command := splitArgs_withRest (f := final) known ‹_›
      rw [same] at command
      rw [← command] at known
      exact absurd (show gameCommand ∈ botCommands from known) (by decide)

/-- A name whose lower case begins with as many characters as it has, none of them an `i`, has
no more in lower case. -/
theorem lower_eq_of_prefix {w u : Str} (starts : lower final name <+: w ++ u)
    (length : name.length = w.length) (plain : 'i' ∉ w) : lower final name = w := by
  unfold lower at starts ⊢
  generalize final name = ends at starts ⊢
  induction name generalizing w ends with
  | nil => exact (List.eq_nil_of_length_eq_zero length.symm).symm
  | cons c name ih =>
      cases w with
      | nil => cases length
      | cons d w =>
          rw [List.mapIdx_cons, List.flatten_cons] at starts ⊢
          have one : (∃ x, lowerChar (ends 0) c = [x]) ∨
              lowerChar (ends 0) c = ['i', '\u0307'] := by
            unfold lowerChar
            split
            · exact .inr rfl
            · split
              · exact .inl ⟨_, rfl⟩
              · exact .inl ⟨_, rfl⟩
          rcases one with ⟨x, one⟩ | two
          · rw [one] at starts ⊢
            obtain ⟨rfl, rest⟩ := List.cons_prefix_cons.mp starts
            rw [List.singleton_append]
            congr 1
            exact ih (Nat.succ.inj length) (fun there => plain (List.mem_cons_of_mem _ there))
              (fun n => ends (n + 1)) rest
          · rw [two] at starts
            obtain ⟨rfl, -⟩ := List.cons_prefix_cons.mp starts
            exact absurd List.mem_cons_self plain

theorem strip_legacyForm (some : t ≠ []) (trimmed : strip t = t) :
    strip (legacyForm t) = legacyForm t :=
  strip_append_of_trimmed trimmed some fun _ head => Option.some.inj head ▸ rfl

theorem lower_legacyForm (final : Str → Nat → Bool) (t : Str) :
    ∃ u, lower final (legacyForm t) = zorkPrefix ++ " ".toList ++ u := by
  have simple : Simple (zorkPrefix ++ " ".toList) := simple_of_ascii (ascii_of_all (by decide))
  obtain ⟨u, lowered⟩ := simple.lower_append (f := final) t
  exact ⟨u, lowered⟩

/-- An address ends at the space behind `!zork`, or less than the game text is left. -/
theorem length_cut {n : Nat} (some : t ≠ [])
    (ends : (((legacyForm t).drop n).take 1).all (· ∈ " :,".toList) = true) :
    n = 5 ∨ (lstripSeparators ((legacyForm t).drop n)).length < t.length := by
  rcases Nat.lt_trichotomy n 5 with early | at_ | late
  · have other : ∀ c ∈ zorkPrefix, c ∉ separators :=
        List.all_iff_forall_prop.mp (by decide)
    have dropped : (legacyForm t).drop n = zorkPrefix.drop n ++ (" ".toList ++ t) := by
      rw [legacyForm, List.append_assoc, List.drop_append_of_le_length early.le]
    cases left : zorkPrefix.drop n with
    | nil => exact absurd (List.drop_eq_nil_iff.mp left) (Nat.not_le.mpr early)
    | cons c rest =>
        have there : c ∈ zorkPrefix := List.mem_of_mem_drop (left ▸ List.mem_cons_self)
        rw [dropped, left] at ends
        exact absurd (by simpa [separators] using ends) (other c there)
  · exact .inl at_
  · obtain ⟨m, rfl⟩ : ∃ m, n = m + 6 := ⟨n - 6, by omega⟩
    right
    have dropped : (legacyForm t).drop (m + 6) = t.drop m := by
      rw [Nat.add_comm, ← List.drop_drop]
      rfl
    have fewer : (t.drop m).length ≤ t.length := (List.drop_suffix m t).length_le
    rw [dropped] at ends ⊢
    cases left : t.drop m with
    | nil => exact List.length_pos_of_ne_nil some
    | cons d rest =>
        rw [left] at ends fewer
        have separator : d ∈ separators := by simpa [separators] using ends
        rw [lstripSeparators_cons separator]
        exact (Nat.lt_succ_of_le (List.dropWhile_suffix _).length_le).trans_le fewer

/-- The bot is called `!zork`, and the game text begins with no separator. -/
structure CalledZork (final : Str → Nat → Bool) (name t : Str) : Prop where
  called : lower final name = zorkPrefix
  first : ∀ d, t.head? = some d → d ∉ separators

theorem stripAddress_called (called : CalledZork final name t) (some : t ≠ [])
    (trimmed : strip t = t) : stripAddress (lower final) name (legacyForm t) = (t, true) := by
  have length : name.length = 5 := by
    have simple : Simple name := simple_of_lower (f := final) (called.called ▸ ascii_of_all (by decide))
    rw [← simple.length_lower (f := final), called.called]
    rfl
  obtain ⟨u, lowered⟩ := lower_legacyForm final t
  have bare : ¬ "@[".toList ++ lower final name ++ "]".toList <+: lower final (legacyForm t) := by
    rw [lowered]
    intro mention
    exact absurd (List.cons_prefix_cons.mp mention).1 (by decide)
  have mark : ¬ "@".toList <+: legacyForm t := by
    intro mention
    exact absurd (List.cons_prefix_cons.mp mention).1 (by decide)
  have dropped : (legacyForm t).drop 5 = ' ' :: t := rfl
  have left : lstripSeparators (' ' :: t) = t := by
    cases t with
    | nil => rfl
    | cons d rest =>
        have space : ∀ x ∈ " ".toList, x ∈ separators :=
          List.all_iff_forall_prop.mp (by decide)
        exact lstripSeparators_run space (called.first d rfl) rest
  unfold stripAddress
  simp only [strip_legacyForm some trimmed, if_neg bare, if_neg mark, length, dropped, left]
  rw [if_pos]
  rw [called.called, lowered, List.append_assoc]
  exact ⟨List.prefix_append .., rfl⟩

theorem length_lstripSeparators_le (text : Str) : (lstripSeparators text).length ≤ text.length :=
  (List.dropWhile_suffix _).length_le

/-- The legacy form asks for the game text only where it begins with the bot's name. -/
theorem called_of_strips (some : t ≠ []) (trimmed : strip t = t) {u : Str} {b : Bool}
    (stripped : Strips (lower final) name (legacyForm t) (u, b))
    (read : (parseCommand (lower final) u).elim (gameCommand, strip u)
      (splitArgs (lower final)) = (gameCommand, t)) : CalledZork final name t := by
  -- what is left is not longer than the game text, so it is read as no command
  have game (short : (strip ((strip u).drop 5)).length ≤ t.length) : strip u = t := by
    cases command : parseCommand (lower final) u with
    | none =>
        rw [command] at read
        exact congrArg Prod.snd read
    | some args =>
        rw [command] at read
        exact absurd read (asked_ne command some short)
  obtain ⟨v, lowered⟩ := lower_legacyForm final t
  have whole := strip_legacyForm some trimmed
  cases stripped with
  | mention is starts =>
      rw [is, whole, lowered] at starts
      exact absurd (List.cons_prefix_cons.mp starts).1 (by decide)
  | nothing =>
      rw [strip_strip, whole] at game
      have behind : strip ((legacyForm t).drop 5) = t := by
        exact (strip_cons_space t).trans trimmed
      have same := congrArg List.length (game (by rw [behind]))
      change t.length + 6 = t.length at same
      omega
  | @name body is starts ends =>
      have bare : ¬ "@".toList <+: legacyForm t := by
        intro mention
        exact absurd (List.cons_prefix_cons.mp mention).1 (by decide)
      rw [whole, if_neg bare] at is
      subst is
      generalize cut : lstripSeparators ((legacyForm t).drop name.length) = r at game
      have left (short : r.length ≤ t.length) : r.length = t.length := by
        have inner : (strip ((strip r).drop 5)).length ≤ r.length :=
          (length_strip_le _).trans ((List.drop_suffix 5 _).length_le.trans (length_strip_le r))
        have same := game (inner.trans short)
        exact le_antisymm short (same ▸ length_strip_le r)
      rcases length_cut some ends with five | short
      · have behind : r = lstripSeparators t := by
          rw [← cut, five]
          exact lstripSeparators_cons (by decide) t
        constructor
        · rw [lowered] at starts
          rw [List.append_assoc] at starts
          exact lower_eq_of_prefix starts five (by decide)
        · intro d first separator
          cases t with
          | nil => exact some rfl
          | cons e rest =>
              obtain rfl := Option.some.inj first
              rw [lstripSeparators_cons separator] at behind
              have fewer : r.length ≤ rest.length := behind ▸ length_lstripSeparators_le rest
              have equal := left (fewer.trans (Nat.le_succ _))
              rw [List.length_cons] at equal
              omega
      · rw [cut] at short
        exact absurd (left short.le) short.ne

/-- The legacy form of a game text is queued as the game text is, exactly when `!zork` is the
name of the bot, so that it is an address, and the text begins with no separator. -/
theorem legacy_plays_iff (final : Str → Nat → Bool) (name : Str) (message : IncomingMessage)
    (some : t ≠ []) (trimmed : strip t = t) (bare : t.head? ≠ .some '!')
    (unaddressed : (stripAddress (lower final) name t).2 = false) :
    ((dispatchDm (lower final) name { message with text := legacyForm t }).asked =
        (dispatchDm (lower final) name { message with text := t }).asked ∧
      (dispatchDm (lower final) name { message with text := t }).asked =
        .some (gameCommand, t)) ↔
      CalledZork final name t := by
  have whole := strip_legacyForm some trimmed
  have alone : (dispatchDm (lower final) name { message with text := t }).asked =
      .some (gameCommand, t) := by
    have left : (stripAddress (lower final) name (strip t)).1 = t := by
      rw [trimmed, stripAddress_of_unaddressed unaddressed, trimmed]
    rw [asked_dispatchDm final name message (by rwa [trimmed]) left,
      parseCommand_of_bare trimmed bare, Option.elim_none, trimmed]
  have filled : legacyForm t ≠ [] := by
    intro none
    have length := congrArg List.length none
    change t.length + 6 = 0 at length
    omega
  have legacy {rest : Str}
      (left : (stripAddress (lower final) name (legacyForm t)).1 = rest) :
      (dispatchDm (lower final) name { message with text := legacyForm t }).asked =
        .some ((parseCommand (lower final) rest).elim (gameCommand, strip rest)
          (splitArgs (lower final))) := by
    apply asked_dispatchDm final name message
    · rwa [whole]
    · rwa [whole]
  constructor
  · rintro ⟨same, -⟩
    rw [legacy rfl, alone] at same
    exact called_of_strips some trimmed (strips _ name (legacyForm t)) (Option.some.inj same)
  · intro called
    have left := congrArg Prod.fst (stripAddress_called called some trimmed)
    rw [legacy left, alone, parseCommand_of_bare trimmed bare, Option.elim_none, trimmed]
    exact ⟨rfl, rfl⟩

/-- A direct message. -/
def directly (text : Str) : IncomingMessage := ⟨text, none, some "a1b2c3d4e5f6".toList, true, 0⟩

/-- The bot is called `!Zork`. -/
theorem legacy_plays_look :
    (dispatchDm (lower medial) "!Zork".toList (directly (legacyForm "look".toList))).asked =
        (dispatchDm (lower medial) "!Zork".toList (directly "look".toList)).asked ∧
      (dispatchDm (lower medial) "!Zork".toList (directly "look".toList)).asked =
        some (gameCommand, "look".toList) := by
  have called : lower medial "!Zork".toList = zorkPrefix := by decide +kernel
  have unaddressed : (stripAddress (lower medial) "!Zork".toList "look".toList).2 = false := by
    decide +kernel
  have first : ∀ d, "look".toList.head? = some d → d ∉ separators := fun d head =>
    Option.some.inj head ▸ by decide
  exact (legacy_plays_iff medial "!Zork".toList (directly []) (by decide) (by decide) (by decide)
    unaddressed).mpr ⟨called, first⟩

/-- `!zork look` is queued as a command `look`, which the bot does not know. -/
theorem legacy_look_unknown :
    ∃ (final : Str → Nat → Bool) (name : Str) (message : IncomingMessage) (t : Str),
      t ≠ [] ∧ strip t = t ∧ t.head? ≠ some '!' ∧ (stripAddress (lower final) name t).2 = false ∧
      (dispatchDm (lower final) name { message with text := t }).asked = some (gameCommand, t) ∧
      (dispatchDm (lower final) name { message with text := legacyForm t }).asked =
        some (t, []) := by
  refine ⟨medial, "zorkbot".toList, directly [], "look".toList, ?_⟩
  decide +kernel

end Zorkbot.Bot
