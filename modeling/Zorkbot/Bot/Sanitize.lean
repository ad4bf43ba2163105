/-
# The bot's sanitizer

`zorkbot.sanitize`, which mirrors the game service's `sanitize.Validate`. The two
measure a text differently, trim it differently and map it to lower case
differently. Whatever the game service accepts the bot accepts, and the exact kinds
of texts that only the bot accepts are given.
-/

import Zorkbot.Bot.Addressing
import Zorkbot.Pty.Sanitize

namespace Zorkbot.Bot

/-! ## Lower case -/

/-- What `str.lower` makes of one character. It is Unicode's simple mapping but for two
letters: U+0130 becomes two characters, and a sigma at the end of a word has a form of
its own. -/
def lowerChar (final : Bool) (c : Char) : Str :=
  if c = '\u0130' then ['i', '\u0307']
  else if c = 'Σ' then [if final then 'ς' else 'σ']
  else [Go.toLowerChar c]

/-- `str.lower`, given which places of a text are ends of words. -/
def lower (final : Str → Nat → Bool) (text : Str) : Str :=
  (text.mapIdx fun n c => lowerChar (final text n) c).flatten

/-! ## The sanitizer -/

/-- `MAX_COMMAND_LENGTH`. -/
def maxCommandLength : Nat := 80

/-- `BLOCKED_DEBUG_COMMANDS`. -/
def blockedDebugCommands : List Str :=
  ["$help", "$quit", "$undo", "$redo", "$dump", "$dict", "$tree", "$room", "$you", "$find",
    "$object", "$parent", "$attrs", "$props", "$simple", "$header", "$history", "$have_attr",
    "$have_prop", "$steal", "$teleport"].map String.toList

/-- What only an administrator may send. -/
def requests : List Str := ["save", "restore", "quit"].map String.toList

/-- `_has_control_or_ansi`. -/
def hasControlOrAnsi (text : Str) : Bool :=
  text.any fun c => c.toNat != 0xFFFD && (c.toNat < 0x20 || c.toNat == 0x7F || c == '\x1b')

/-- `validate`; it raises where this is false. -/
def validate (final : Str → Nat → Bool) (text : Str) (admin : Bool) : Bool :=
  let text := strip text
  if text = [] then false
  else if text.length > maxCommandLength then false
  else if text.any fun c => c == '\n' || c == '\r' then false
  else if "$".toList.isPrefixOf text then false
  else if lower final text ∈ blockedDebugCommands then false
  else if hasControlOrAnsi text then false
  else
    let lower := lower final text
    !(!admin && lower ∈ requests)

/-- The rules that both sanitizers have, for a trimmed text, its size and its lower
case. -/
structure Permitted (text : Str) (size : Nat) (lower : Str) (admin : Bool) : Prop where
  some : text ≠ []
  short : size ≤ maxCommandLength
  plain : hasControlOrAnsi text = false
  game : text.head? ≠ .some '$'
  allowed : admin = true ∨ lower ∉ requests

/-! ## Characters -/

theorem lowerRanges_beyond : ∀ r ∈ Go.lowerRanges,
    r.lo = 304 ∧ r.hi = 304 ∨ r.lo = 8490 ∧ r.hi = 8490 ∨ 128 ≤ r.lo + r.delta ∧
      (r.hi + r.delta < 0xD800 ∨ 0xDFFF < r.lo + r.delta ∧ r.hi + r.delta < 0x110000) := by
  decide +kernel

theorem toNat_ofNat_of_valid {n : Nat} (valid : n.isValidChar) : (Char.ofNat n).toNat = n := by
  rw [Char.ofNat, dif_pos valid]
  rfl

/-- Beyond ASCII two letters have an ASCII lower case: the dotted capital I and the
Kelvin sign. -/
theorem toLowerChar_beyond {c : Char} (beyond : 128 ≤ c.toNat) (dotted : c ≠ '\u0130')
    (kelvin : c ≠ '\u212A') : 128 ≤ (Go.toLowerChar c).toNat := by
  rw [Go.toLowerChar, if_neg (Nat.not_lt.mpr beyond)]
  cases mapped : Go.lowerRanges.findSome? (·.map c.toNat) with
  | none => exact beyond
  | some n =>
      obtain ⟨r, listed, image⟩ := List.exists_of_findSome?_eq_some mapped
      unfold Go.CaseRange.map at image
      split at image
      · next inside =>
          simp only [Option.some.injEq] at image
          rcases lowerRanges_beyond r listed with i | k | high
          · exact absurd (Char.toNat_inj.mp (show c.toNat = 304 by omega)) dotted
          · exact absurd (Char.toNat_inj.mp (show c.toNat = 8490 by omega)) kelvin
          · have valid : n.isValidChar := by
              unfold Nat.isValidChar
              omega
            change 128 ≤ (Char.ofNat n).toNat
            rw [toNat_ofNat_of_valid valid]
            omega
      · cases image

theorem asciiLower_eq_symbol {c d : Char} (symbol : d.toNat < 97)
    (lowered : Go.asciiLower c = d) : c = d := by
  unfold Go.asciiLower at lowered
  split at lowered
  · next capital =>
      have bounds : 65 ≤ c.toNat ∧ c.toNat ≤ 90 := capital
      have image := congrArg Char.toNat lowered
      rw [toNat_ofNat_of_valid (by unfold Nat.isValidChar; omega)] at image
      omega
  · exact lowered

/-- What no letter's lower case is, is the lower case of itself only. -/
theorem toLowerChar_eq_symbol {c d : Char} (symbol : d.toNat < 97)
    (lowered : Go.toLowerChar c = d) : c = d := by
  by_cases ascii : c.toNat < 128
  · rw [Go.toLowerChar, if_pos ascii] at lowered
    exact asciiLower_eq_symbol symbol lowered
  · have beyond := Nat.le_of_not_lt ascii
    have high : 97 ≤ (Go.toLowerChar c).toNat := by
      by_cases dotted : c = '\u0130'
      · subst dotted
        decide +kernel
      · by_cases kelvin : c = '\u212A'
        · subst kelvin
          decide +kernel
        · have above := toLowerChar_beyond beyond dotted kelvin
          omega
    rw [lowered] at high
    exact absurd symbol (Nat.not_lt.mpr high)

/-! ## Lower case in the two languages -/

variable {final : Str → Nat → Bool} {text : Str} {admin : Bool}

/-- The two agree on texts without the two letters. -/
theorem lower_eq_toLower (dotted : '\u0130' ∉ text) (sigma : 'Σ' ∉ text) :
    lower final text = Go.toLower text := by
  unfold lower Go.toLower
  generalize final text = ends
  induction text generalizing ends with
  | nil => rfl
  | cons c rest ih =>
      obtain ⟨first, dotted⟩ := List.ne_and_not_mem_of_not_mem_cons dotted
      obtain ⟨first', sigma⟩ := List.ne_and_not_mem_of_not_mem_cons sigma
      have one : lowerChar (ends 0) c = [Go.toLowerChar c] := by
        rw [lowerChar, if_neg (Ne.symm first), if_neg (Ne.symm first')]
      rw [List.mapIdx_cons, List.flatten_cons, one, ih dotted sigma (fun n => ends (n + 1)),
        List.map_cons]
      rfl

theorem lowerChar_subset {n : Nat} {c : Char} (there : text[n]? = some c) :
    lowerChar (final text n) c ⊆ lower final text := by
  intro d among
  apply List.mem_flatten.mpr
  refine ⟨_, List.mem_of_getElem? (i := n) ?_, among⟩
  rw [List.getElem?_mapIdx, there]
  rfl

/-- Neither letter leaves a text that is ASCII in lower case. -/
theorem plain_of_lower (ascii : ∀ d ∈ lower final text, d.toNat < 128) :
    '\u0130' ∉ text ∧ 'Σ' ∉ text := by
  constructor
  · intro listed
    obtain ⟨n, there⟩ := List.mem_iff_getElem?.mp listed
    have dot : '\u0307' ∈ lower final text := lowerChar_subset there (by simp [lowerChar])
    exact absurd (ascii _ dot) (by decide)
  · intro listed
    obtain ⟨n, there⟩ := List.mem_iff_getElem?.mp listed
    have sigma : (if final text n then 'ς' else 'σ') ∈ lower final text :=
      lowerChar_subset there (by simp [lowerChar])
    have high := ascii _ sigma
    split at high
    · exact absurd high (by decide)
    · exact absurd high (by decide)

theorem plain_of_toLower (ascii : ∀ d ∈ Go.toLower text, d.toNat < 128 ∧ d ≠ 'i') :
    '\u0130' ∉ text ∧ 'Σ' ∉ text := by
  have image : ∀ c ∈ text, Go.toLowerChar c ∈ Go.toLower text :=
    fun c listed => List.mem_map_of_mem listed
  constructor
  · intro listed
    exact (ascii _ (image _ listed)).2 (by decide +kernel)
  · intro listed
    exact absurd (ascii _ (image _ listed)).1 (by decide +kernel)

theorem requests_ascii : ∀ w ∈ requests, ∀ d ∈ w, d.toNat < 128 := by
  have all : (requests.all fun w => w.all fun d => decide (d.toNat < 128)) = true := by decide
  simpa only [List.all_eq_true, decide_eq_true_eq] using all

theorem toLower_mem_requests (asked : lower final text ∈ requests) :
    Go.toLower text ∈ requests := by
  obtain ⟨dotted, sigma⟩ := plain_of_lower (requests_ascii _ asked)
  exact lower_eq_toLower dotted sigma ▸ asked

/-- Only `quit` has a letter that two characters stand for. -/
theorem lower_mem_requests (asked : Go.toLower text ∈ requests)
    (other : Go.toLower text ≠ "quit".toList) : lower final text ∈ requests := by
  have all : (requests.all fun w => decide (w = "quit".toList) ||
      w.all fun d => decide (d.toNat < 128 ∧ d ≠ 'i')) = true := by decide
  have words : ∀ w ∈ requests, w = "quit".toList ∨ ∀ d ∈ w, d.toNat < 128 ∧ d ≠ 'i' := by
    simpa only [List.all_eq_true, Bool.or_eq_true, decide_eq_true_eq] using all
  obtain ⟨dotted, sigma⟩ := plain_of_toLower ((words _ asked).resolve_left other)
  exact (lower_eq_toLower dotted sigma).symm ▸ asked

theorem head_of_blocked (blocked : lower final text ∈ blockedDebugCommands) :
    text.head? = some '$' := by
  have starts : ∀ w ∈ blockedDebugCommands, w.head? = some '$' := by decide
  have first := starts _ blocked
  cases text with
  | nil => cases first
  | cons c rest =>
      rw [lower, List.mapIdx_cons, List.flatten_cons] at first
      unfold lowerChar at first
      split at first
      · cases first
      · split at first
        · split at first <;> cases first
        · simp only [List.cons_append, List.head?_cons, Option.some.injEq] at first
          rw [List.head?_cons, toLowerChar_eq_symbol (by decide) first]

theorem head_of_toLower_blocked (blocked : Go.toLower text ∈ Sanitize.blockedDebugCommands) :
    text.head? = some '$' := by
  have starts : ∀ w ∈ Sanitize.blockedDebugCommands, w.head? = some '$' := by decide
  have first := starts _ blocked
  cases text with
  | nil => cases first
  | cons c rest =>
      simp only [Go.toLower, List.map_cons, List.head?_cons, Option.some.injEq] at first
      rw [List.head?_cons, toLowerChar_eq_symbol (by decide) first]

/-! ## Trimming -/

/-- Python trims four control characters that Go does not. -/
theorem isSpace_eq (c : Char) : isSpace c = (Go.isSpace c || (28 ≤ c.toNat && c.toNat ≤ 31)) := by
  unfold isSpace Go.isSpace
  grind

theorem hasControl_of_isSpace {c : Char} (listed : c ∈ text) (space : isSpace c = true)
    (kept : Go.isSpace c = false) : Sanitize.hasControlOrANSI text = true := by
  rw [isSpace_eq, kept, Bool.false_or] at space
  simp only [Bool.and_eq_true, decide_eq_true_eq] at space
  apply List.any_eq_true.mpr
  refine ⟨c, listed, ?_⟩
  have low : c.toNat < 0x20 := by omega
  have other : c.toNat ≠ 0xFFFD := by omega
  simp [low, other]

section

variable {α : Type*} {p q : α → Bool} {l : List α}

theorem dropWhile_of_wider (wider : ∀ x, p x = true → q x = true) :
    l.dropWhile q = (l.dropWhile p).dropWhile q := by
  have gone : ∀ x ∈ l.takeWhile p, q x = true := fun x among => wider x (List.mem_takeWhile_imp among)
  conv_lhs => rw [← List.takeWhile_append_dropWhile (p := p) (l := l)]
  exact List.dropWhile_append_of_pos gone

theorem rdropWhile_of_wider (wider : ∀ x, p x = true → q x = true) :
    l.rdropWhile q = (l.rdropWhile p).rdropWhile q := by
  unfold List.rdropWhile
  rw [dropWhile_of_wider wider, List.reverse_reverse]

/-- Trimming more than `p` changes nothing where the rest is free of it. -/
theorem trim_eq_of_wider (wider : ∀ x, p x = true → q x = true)
    (same : ∀ x ∈ (l.dropWhile p).rdropWhile p, q x = p x) :
    (l.dropWhile q).rdropWhile q = (l.dropWhile p).rdropWhile p := by
  rw [dropWhile_of_wider wider]
  cases trimmed : (l.dropWhile p).rdropWhile p with
  | nil =>
      have all := List.rdropWhile_eq_nil_iff.mp trimmed
      have none : (l.dropWhile p).dropWhile q = [] :=
        List.dropWhile_eq_nil_iff.mpr fun x listed => wider x (all x listed)
      rw [none, List.rdropWhile_nil]
  | cons c rest =>
      obtain ⟨tail, whole⟩ := List.rdropWhile_prefix p (l.dropWhile p)
      rw [trimmed] at whole same
      have first : p c = false := by
        have head := List.head?_dropWhile_not p l
        rw [← whole] at head
        simpa using head
      have kept : (l.dropWhile p).dropWhile q = l.dropWhile p := by
        rw [← whole, List.cons_append, List.dropWhile_cons_of_neg]
        rw [same c List.mem_cons_self, first]
        exact Bool.false_ne_true
      rw [kept, rdropWhile_of_wider wider, trimmed, List.rdropWhile_eq_self_iff]
      intro some
      have last : ¬ p ((c :: rest).getLast some) := by
        have end_ := List.rdropWhile_last_not p (l.dropWhile p) (by rw [trimmed]; exact some)
        simpa only [trimmed] using end_
      rw [same _ (List.getLast_mem some)]
      exact last

end

/-- Where Go leaves no control character, the two trim the same. -/
theorem strip_eq_trimSpace (plain : Sanitize.hasControlOrANSI (Go.trimSpace text) = false) :
    strip text = Go.trimSpace text := by
  apply trim_eq_of_wider (p := Go.isSpace) (q := isSpace)
  · intro c space
    rw [isSpace_eq, space, Bool.true_or]
  · intro c listed
    cases kept : Go.isSpace c with
    | true => rw [isSpace_eq, kept, Bool.true_or]
    | false =>
        by_contra space
        rw [Bool.not_eq_false] at space
        exact Bool.false_ne_true (plain.symm.trans (hasControl_of_isSpace listed space kept))

/-! ## The two validators -/

theorem newline_of_plain (plain : hasControlOrAnsi text = false) :
    (text.any fun c => c == '\n' || c == '\r') = false := by
  apply List.any_eq_false.mpr
  intro c listed broken
  apply List.any_eq_false.mp plain c listed
  rw [Bool.or_eq_true, beq_iff_eq, beq_iff_eq] at broken
  rcases broken with rfl | rfl <;> rfl

theorem dollar_isPrefixOf : "$".toList.isPrefixOf text = true ↔ text.head? = some '$' := by
  cases text with
  | nil => exact iff_of_false nofun nofun
  | cons c rest =>
      change ('$' == c && true) = true ↔ _
      rw [Bool.and_true, beq_iff_eq, List.head?_cons, Option.some.injEq]
      exact eq_comm

theorem validate_iff : validate final text admin = true ↔
    Permitted (strip text) (strip text).length (lower final (strip text)) admin := by
  unfold validate
  generalize strip text = t
  simp only [Bool.if_false_left, Bool.and_eq_true, Bool.not_eq_true', decide_eq_false_iff_not,
    dollar_isPrefixOf, Bool.not_eq_true]
  constructor
  · rintro ⟨some, short, -, game, -, plain, allowed⟩
    exact ⟨some, Nat.le_of_not_lt short, plain, game, by cases admin <;> simp_all⟩
  · rintro ⟨some, short, plain, game, allowed⟩
    exact ⟨some, Nat.not_lt.mpr short, newline_of_plain plain, game,
      fun blocked => game (head_of_blocked blocked), plain, by cases admin <;> simp_all⟩

theorem sanitize_validate_iff : Sanitize.validate text admin = true ↔
    Permitted (Go.trimSpace text) (Go.byteLength (Go.trimSpace text))
      (Go.toLower (Go.trimSpace text)) admin := by
  unfold Sanitize.validate
  generalize Go.trimSpace text = t
  have command : Go.hasPrefix t ['$'] = true ↔ t.head? = some '$' := dollar_isPrefixOf
  simp only [Bool.if_false_left, Bool.and_eq_true, Bool.not_eq_true', decide_eq_false_iff_not,
    Bool.not_eq_true, command]
  constructor
  · rintro ⟨some, short, -, game, -, plain, allowed⟩
    refine ⟨some, Nat.le_of_not_lt short, plain, game, ?_⟩
    cases admin <;> simp_all [requests]
  · rintro ⟨some, short, plain, game, allowed⟩
    refine ⟨some, Nat.not_lt.mpr short, newline_of_plain plain, game,
      fun blocked => game (head_of_toLower_blocked blocked), plain, ?_⟩
    cases admin <;> simp_all [requests]

theorem length_le_byteLength (t : Str) : t.length ≤ Go.byteLength t := by
  induction t with
  | nil => exact Nat.le_refl 0
  | cons c rest ih =>
      have one : 1 ≤ c.utf8Size := Char.utf8Size_pos c
      have more : Go.byteLength (c :: rest) = c.utf8Size + Go.byteLength rest := by
        simp [Go.byteLength]
      rw [more, List.length_cons]
      omega

/-- What the game service would accept, the bot accepts. -/
theorem validate_of_sanitize (accepted : Sanitize.validate text admin = true) :
    validate final text admin = true := by
  have permitted := sanitize_validate_iff.mp accepted
  rw [validate_iff, strip_eq_trimSpace permitted.plain]
  refine ⟨permitted.some, ?_, permitted.plain, permitted.game, ?_⟩
  · exact Nat.le_trans (length_le_byteLength _) permitted.short
  · exact permitted.allowed.imp_right fun forbidden asked => forbidden (toLower_mem_requests asked)

/-- The sanitizers agree on a text unless the bot's rules permit it while Go trims less
from it, counts more than 80 bytes in it or, where that matters, reads it as `quit`. -/
theorem sanitizers_agree_iff (final : Str → Nat → Bool) (text : Str) (admin : Bool) :
    validate final text admin = Sanitize.validate text admin ↔
      (Permitted (strip text) (strip text).length (lower final (strip text)) admin →
        strip text = Go.trimSpace text ∧ Go.byteLength (strip text) ≤ maxCommandLength ∧
          (admin = true ∨ Go.toLower (strip text) ≠ "quit".toList)) := by
  constructor
  · intro agree permitted
    have go := sanitize_validate_iff.mp (agree ▸ validate_iff.mpr permitted)
    rw [strip_eq_trimSpace go.plain]
    refine ⟨rfl, go.short, go.allowed.imp_right ?_⟩
    intro forbidden quit
    rw [quit] at forbidden
    exact forbidden (by decide)
  · intro otherwise
    cases verdict : validate final text admin with
    | true =>
        have permitted := validate_iff.mp verdict
        obtain ⟨same, short, other⟩ := otherwise permitted
        symm
        rw [sanitize_validate_iff, ← same]
        refine ⟨permitted.some, short, permitted.plain, permitted.game, ?_⟩
        rcases permitted.allowed with admin | forbidden
        · exact .inl admin
        · exact other.imp_right fun other asked => forbidden (lower_mem_requests asked other)
    | false =>
        symm
        rw [Bool.eq_false_iff]
        intro accepted
        rw [validate_of_sanitize accepted] at verdict
        cases verdict

/-- Forty-one letters of two bytes each. -/
theorem sanitizers_disagree :
    validate (fun _ _ => false) (List.replicate 41 'é') false = true ∧
      Sanitize.validate (List.replicate 41 'é') false = false := by
  decide +kernel

end Zorkbot.Bot
