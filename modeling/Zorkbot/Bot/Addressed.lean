/-
# Commands to the bot by name

A command that follows the bot's name is read as the command alone. The name is looked for in
the lower case of the text and cut off by its own length; the three forms of an address are
told apart by their beginnings, so a name may contain brackets, separators or an at sign, as
long as it does not begin with one.
-/

import Zorkbot.Bot.Casing

namespace Zorkbot.Bot

/-- What may stand between an address and what follows it. -/
def separators : Str := " :,".toList

/-- A name that a bot can be given and addressed by. -/
structure BotName (name : Str) : Prop where
  nonempty : name ≠ []
  ascii : ∀ d ∈ name, d.toNat < 128
  trimmed : strip name = name
  bare : name.head? ≠ some '@'

/-- The texts that address the bot, its name being spelt `n`, and go on with `c`. -/
inductive Addressing (n c : Str) : Str → Prop
  | bracketed {run : Str} (separated : ∀ d ∈ run, d ∈ separators) :
      Addressing n c ("@[".toList ++ n ++ "]".toList ++ run ++ c)
  | mentioned {run : Str} (separated : ∀ d ∈ run, d ∈ separators) (some : run ≠ []) :
      Addressing n c ("@".toList ++ n ++ run ++ c)
  | named {run : Str} (separated : ∀ d ∈ run, d ∈ separators) (some : run ≠ []) :
      Addressing n c (n ++ run ++ c)

/-! ## Separators -/

theorem lstripSeparators_cons {d : Char} (is : d ∈ separators) (rest : Str) :
    lstripSeparators (d :: rest) = lstripSeparators rest :=
  List.dropWhile_cons_of_pos (decide_eq_true is)

theorem lstripSeparators_run {run : Str} (separated : ∀ d ∈ run, d ∈ separators) {c : Char}
    (other : c ∉ separators) (rest : Str) : lstripSeparators (run ++ c :: rest) = c :: rest := by
  have gone : ∀ d ∈ run, decide (d ∈ " :,".toList) = true := fun d there =>
    decide_eq_true (separated d there)
  rw [lstripSeparators, List.dropWhile_append_of_pos gone, List.dropWhile_cons_of_neg]
  exact fun is => other (of_decide_eq_true is)

theorem ascii_of_separator {d : Char} (is : d ∈ separators) : d.toNat < 128 :=
  ascii_of_all (by decide) d is

theorem toLower_separator {d : Char} (is : d ∈ separators) : Go.toLowerChar d = d := by
  have same : ∀ d ∈ separators, Go.toLowerChar d = d := List.all_iff_forall_prop.mp (by decide)
  exact same d is

/-! ## Names -/

variable {final : Str → Nat → Bool} {name n c run rest : Str}

/-- A name in another spelling is as long and has the same lower case wherever it stands. -/
structure Spelling (name n : Str) : Prop where
  simple : Simple n
  lower : Go.toLower n = Go.toLower name

theorem BotName.lower {f : Str → Nat → Bool} (named : BotName name) :
    lower f name = Go.toLower name :=
  (simple_of_ascii named.ascii).lower

theorem BotName.spelling (named : BotName name) (spelt : Bot.lower final n = Bot.lower final name) :
    Spelling name n := by
  rw [named.lower] at spelt
  have simple : Simple n := simple_of_lower (f := final) (spelt ▸ toLower_ascii named.ascii)
  exact ⟨simple, simple.lower.symm.trans spelt⟩

theorem Spelling.length (spelling : Spelling name n) : n.length = name.length := by
  have same := congrArg List.length spelling.lower
  rwa [Go.toLower, Go.toLower, List.length_map, List.length_map] at same

/-- A symbol at the head of a spelling is at the head of the name. -/
theorem Spelling.head (spelling : Spelling name n) {d : Char} (symbol : d.toNat < 97) :
    (Go.toLower n).head? = some d → name.head? = some d := by
  intro first
  rw [spelling.lower] at first
  cases name with
  | nil => cases first
  | cons e name => rw [List.head?_cons, head_of_toLower symbol first]

theorem BotName.head_not_space (named : BotName name) (spelling : Spelling name n) :
    ∀ d, n.head? = some d → isSpace d = false := by
  intro d first
  by_contra space
  rw [Bool.not_eq_false] at space
  have listed : Go.toLowerChar d ∈ Go.toLower n := List.mem_map_of_mem (List.mem_of_head? first)
  have low := toLower_ascii named.ascii _ (spelling.lower ▸ listed)
  obtain ⟨small, same⟩ := toLowerChar_of_space space low
  have head : name.head? = some d := by
    apply spelling.head (by omega)
    rw [Go.toLower, List.head?_map, first, Option.map_some, same]
  rw [head_strip name d (named.trimmed.symm ▸ head)] at space
  cases space

/-- A name is not its own continuation after a bracket. -/
theorem bracket_of_shifted {x d : Char} {m u : Str} (shifted : (x :: m) <+: m ++ d :: u) :
    d = x := by
  induction m generalizing x with
  | nil => exact (List.cons_prefix_cons.mp shifted).1.symm
  | cons y m ih =>
      obtain ⟨rfl, rest⟩ := List.cons_prefix_cons.mp shifted
      exact ih rest

/-! ## The three forms -/

section

variable {e : Char} {text : Str}

theorem Simple.append {s t : Str} (left : Simple s) (right : Simple t) : Simple (s ++ t) := by
  constructor
  · simp [left.dotted, right.dotted]
  · simp [left.sigma, right.sigma]

theorem toLower_append (s t : Str) : Go.toLower (s ++ t) = Go.toLower s ++ Go.toLower t :=
  List.map_append

/-- The mention is recognized and cut off. -/
theorem stripAddress_bracketed (named : BotName name) (spelling : Spelling name n)
    (trimmed : strip text = "@[".toList ++ n ++ "]".toList ++ rest) :
    stripAddress (Bot.lower final) name text = (lstripSeparators rest, true) := by
  have simple : Simple ("@[".toList ++ n ++ "]".toList) :=
    ((simple_of_ascii (ascii_of_all (by decide))).append spelling.simple).append
      (simple_of_ascii (ascii_of_all (by decide)))
  have mention : Go.toLower ("@[".toList ++ n ++ "]".toList) =
      "@[".toList ++ Bot.lower final name ++ "]".toList := by
    rw [toLower_append, toLower_append, spelling.lower, named.lower]
    rfl
  have length : ("@[".toList ++ Bot.lower final name ++ "]".toList).length =
      ("@[".toList ++ n ++ "]".toList).length := by
    rw [← mention, Go.toLower, List.length_map]
  obtain ⟨u, lowered⟩ := simple.lower_append (f := final) rest
  unfold stripAddress
  simp only [trimmed]
  rw [if_pos]
  · rw [length, List.drop_left]
  · rw [lowered, mention]
    exact List.prefix_append ..

/-- No mention, and the name is followed by a separator. -/
theorem stripAddress_named (named : BotName name) (spelling : Spelling name n) {r : Str} {d : Char}
    (separator : d ∈ separators)
    (bare : ¬ "@[".toList ++ Bot.lower final name ++ "]".toList <+: Bot.lower final (strip text))
    (body : (if "@".toList <+: strip text then (strip text).drop 1 else strip text) =
      n ++ d :: r) :
    stripAddress (Bot.lower final) name text = (lstripSeparators r, true) := by
  obtain ⟨u, lowered⟩ := spelling.simple.lower_append (f := final) (d :: r)
  have prefixed : Bot.lower final name <+: Bot.lower final (n ++ d :: r) := by
    rw [lowered, spelling.lower, named.lower]
    exact List.prefix_append ..
  have dropped : (n ++ d :: r).drop name.length = d :: r := by
    rw [← spelling.length, List.drop_left]
  unfold stripAddress
  simp only [if_neg bare, body, dropped, lstripSeparators_cons separator]
  exact if_pos ⟨prefixed, by simpa [separators] using separator⟩

theorem not_mention_of_mentioned (named : BotName name) (spelling : Spelling name n) {d : Char}
    (separator : d ∈ separators) :
    ¬ "@[".toList ++ Bot.lower final name ++ "]".toList <+:
      Bot.lower final ("@".toList ++ n ++ d :: rest) := by
  intro mention
  have simple : Simple ("@".toList ++ n ++ [d]) :=
    ((simple_of_ascii (ascii_of_all (by decide))).append spelling.simple).append
      (simple_of_ascii (by simpa using ascii_of_separator separator))
  obtain ⟨u, lowered⟩ := simple.lower_append (f := final) rest
  rw [List.append_assoc, List.singleton_append, toLower_append, toLower_append, spelling.lower,
    ← named.lower (f := final)] at lowered
  rw [lowered] at mention
  simp only [List.append_assoc] at mention
  have inner : '[' :: Bot.lower final name ++ "]".toList <+:
      Bot.lower final name ++ Go.toLowerChar d :: u := (List.cons_prefix_cons.mp mention).2
  have shifted : '[' :: Bot.lower final name <+: Bot.lower final name ++ Go.toLowerChar d :: u :=
    (List.prefix_append _ _).trans inner
  have bracket := bracket_of_shifted shifted
  rw [toLower_separator separator] at bracket
  subst bracket
  exact absurd separator (by decide)

theorem head_ne_at {f : Str → Nat → Bool} (named : BotName name) (spelling : Spelling name n)
    (rest : Str) :
    (n ++ rest).head? ≠ some '@' ∧ (Bot.lower f (n ++ rest)).head? ≠ some '@' := by
  have bare : (n ++ rest).head? ≠ some '@' := by
    intro at_
    cases n with
    | nil => exact named.nonempty (List.eq_nil_of_length_eq_zero spelling.length.symm)
    | cons c n =>
        obtain rfl := Option.some.inj at_
        exact named.bare (spelling.head (by decide) rfl)
  exact ⟨bare, fun lowered => bare (head_of_lower (by decide) lowered)⟩

end

/-- A command behind an address is what is left, without the spaces behind it. -/
theorem stripAddress_addressing (named : BotName name) (spelling : Spelling name n) {e : Char}
    (other : e ∉ separators) (visible : isSpace e = false) {text : Str}
    (addressed : Addressing n (e :: c) text) :
    stripAddress (Bot.lower final) name text = (strip (e :: c), true) := by
  obtain ⟨rest, kept⟩ := strip_cons visible c
  cases addressed with
  | @bracketed run separated =>
      have trimmed : strip ("@[".toList ++ n ++ "]".toList ++ run ++ e :: c) =
          "@[".toList ++ n ++ "]".toList ++ (run ++ e :: rest) := by
        rw [strip_append visible, kept, List.append_assoc]
        exact fun d head => Option.some.inj head ▸ rfl
      rw [stripAddress_bracketed named spelling trimmed, lstripSeparators_run separated other, kept]
  | @mentioned run separated some =>
      cases run with
      | nil => exact absurd rfl some
      | cons d run =>
          have separator := separated d List.mem_cons_self
          have more : ∀ x ∈ run, x ∈ separators := fun x there =>
            separated x (List.mem_cons_of_mem _ there)
          have trimmed : strip ("@".toList ++ n ++ d :: run ++ e :: c) =
              "@".toList ++ n ++ d :: (run ++ e :: rest) := by
            rw [strip_append visible, kept, List.append_assoc, List.cons_append]
            exact fun d head => Option.some.inj head ▸ rfl
          rw [stripAddress_named named spelling separator (r := run ++ e :: rest),
            lstripSeparators_run more other, kept]
          · rw [trimmed]
            exact not_mention_of_mentioned named spelling separator
          · rw [trimmed, if_pos]
            · rfl
            · exact List.prefix_append ..
  | @named run separated some =>
      cases run with
      | nil => exact absurd rfl some
      | cons d run =>
          have separator := separated d List.mem_cons_self
          have more : ∀ x ∈ run, x ∈ separators := fun x there =>
            separated x (List.mem_cons_of_mem _ there)
          have first : ∀ x, (n ++ d :: run).head? = .some x → isSpace x = false := by
            intro x head
            cases n with
            | nil =>
                exact absurd (List.eq_nil_of_length_eq_zero spelling.length.symm) named.nonempty
            | cons => exact named.head_not_space spelling x head
          have trimmed : strip (n ++ d :: run ++ e :: c) = n ++ d :: (run ++ e :: rest) := by
            rw [strip_append visible first, kept, List.append_assoc, List.cons_append]
          obtain ⟨bare, lowered⟩ :=
            head_ne_at (f := final) named spelling (d :: (run ++ e :: rest))
          rw [stripAddress_named named spelling separator (r := run ++ e :: rest),
            lstripSeparators_run more other, kept]
          · rw [trimmed]
            rintro ⟨u, mention⟩
            rw [← mention] at lowered
            exact lowered rfl
          · rw [trimmed, if_neg]
            rintro ⟨u, at_⟩
            rw [← at_] at bare
            exact bare rfl

theorem parseCommand_strip (lower : Str → Str) (text : Str) :
    parseCommand lower (strip text) = parseCommand lower text := by
  unfold parseCommand
  simp only [strip_strip]

/-- Addressing the bot, by any spelling of its name and in any of the three forms, does not
change the command that is read. -/
theorem addressing_keeps_command (named : BotName name)
    (spelt : Bot.lower final n = Bot.lower final name) (command : c.head? = some '!') {text : Str}
    (addressed : Addressing n c text) :
    parseCommand (Bot.lower final) (stripAddress (Bot.lower final) name text).1 =
      parseCommand (Bot.lower final) c := by
  cases c with
  | nil => cases command
  | cons e c =>
      obtain rfl := Option.some.inj command
      rw [stripAddress_addressing named (named.spelling spelt) (by decide) (by decide) addressed,
        parseCommand_strip]

/-- A name in mixed case, a Kelvin sign for its `k` and a separator inside. -/
theorem addressing_keeps_command_kelvin :
    parseCommand (lower medial) (stripAddress (lower medial) "Zork, bot".toList
        "@ZOR\u212A, bOt, !Help".toList).1 =
      parseCommand (lower medial) "!Help".toList := by
  have named : BotName "Zork, bot".toList :=
    ⟨by decide, ascii_of_all (by decide), by decide, by decide⟩
  apply addressing_keeps_command (n := "ZOR\u212A, bOt".toList) named
  · decide +kernel
  · rfl
  · have whole : "@ZOR\u212A, bOt, !Help".toList =
        "@".toList ++ "ZOR\u212A, bOt".toList ++ ", ".toList ++ "!Help".toList := by
      decide +kernel
    rw [whole]
    exact .mentioned (List.all_iff_forall_prop.mp (by decide)) (by decide)

end Zorkbot.Bot
