/-
# Spellings of JSON values

A value has many texts: there may be blanks around every comma, colon and bracket, and a string
has as many texts as its escapes allow. Each of them is read as the value. A writer that leaves
no blanks is one that spells.
-/

import Zorkbot.Data.JsonRoundTrip

namespace JsonText

universe u v

variable {σ : Type u}

/-! ## The texts of a value -/

/-- What may stand between quotation marks for a string, and which code units it has. -/
structure Spelling (σ : Type u) where
  body : σ → List Char → Prop
  units : σ → List UInt16
  read : ∀ {s text}, body s text → ∀ rest, readString (text ++ '"' :: rest) = some (units s, rest)

def Blanks (w : List Char) : Prop := ∀ c ∈ w, isBlank c = true

/-- The parts behind the first, each after its comma, and the closing bracket. -/
inductive More {α : Type v} (close : Char) (spells : α → List Char → Prop) :
    List α → List Char → Prop
  | done {w : List Char} (blank : Blanks w) : More close spells [] (w ++ [close])
  | next {x : α} {xs : List α} {w w' text rest : List Char} (blank : Blanks w)
      (blank' : Blanks w') (first : spells x text) (others : More close spells xs rest) :
      More close spells (x :: xs) (w ++ ',' :: (w' ++ (text ++ rest)))

/-- What stands behind an opening bracket. -/
inductive Sequence {α : Type v} (close : Char) (spells : α → List Char → Prop) :
    List α → List Char → Prop
  | empty {w : List Char} (blank : Blanks w) : Sequence close spells [] (w ++ [close])
  | parts {x : α} {xs : List α} {w text rest : List Char} (blank : Blanks w)
      (first : spells x text) (others : More close spells xs rest) :
      Sequence close spells (x :: xs) (w ++ (text ++ rest))

/-- A member of an object, where the values have their texts. -/
inductive Member {α : Type v} (q : Spelling σ) (spells : α → List Char → Prop) :
    σ × α → List Char → Prop
  | pair {k : σ} {x : α} {key w w' text : List Char} (body : q.body k key) (blank : Blanks w)
      (blank' : Blanks w') (value : spells x text) :
      Member q spells (k, x) ('"' :: (key ++ '"' :: (w ++ ':' :: (w' ++ text))))

/-- A text is one of a value. -/
inductive Spells (q : Spelling σ) : Value σ → List Char → Prop
  | null : Spells q .null ['n', 'u', 'l', 'l']
  | yes : Spells q (.bool true) ['t', 'r', 'u', 'e']
  | no : Spells q (.bool false) ['f', 'a', 'l', 's', 'e']
  | num (n : Number) : Spells q (.num n) n.text
  | str {s : σ} {text : List Char} (body : q.body s text) :
      Spells q (.str s) ('"' :: (text ++ ['"']))
  | arr {items : List (Value σ)} {text : List Char}
      (sequence : Sequence ']' (Spells q) items text) : Spells q (.arr items) ('[' :: text)
  | obj {members : List (σ × Value σ)} {text : List Char}
      (sequence : Sequence '}' (Member q (Spells q)) members text) :
      Spells q (.obj members) ('{' :: text)

/-! ## Every text is read -/

theorem skip_blanks {w : List Char} (blank : Blanks w) (rest : List Char) :
    skip (w ++ rest) = skip rest := by
  rw [skip, List.dropWhile_append_of_pos blank, skip]

/-- A sequence goes on or ends, after blanks. -/
theorem stops_blanks {c : Char} {w : List Char} (blank : Blanks w) (rest : List Char)
    (stops : Stops (c :: rest)) : Stops (w ++ c :: rest) := by
  cases w with
  | nil => exact stops
  | cons d w =>
      have blank : isBlank d = true := blank d List.mem_cons_self
      rintro _ ⟨⟩
      simp only [isBlank, Bool.or_eq_true, decide_eq_true_eq] at blank
      rcases blank with ((rfl | rfl) | rfl) | rfl <;> decide

section

variable {α : Type v} {β : Type u} {close : Char} {item : List Char → Option (β × List Char)}
  {value : α → β} {spells : α → List Char → Prop} {fuel : Nat}

theorem More.stops {parts : List α} {text : List Char} (more : More close spells parts text)
    (is : IsClose close) (rest : List Char) : Stops (text ++ rest) := by
  cases more with
  | done blank =>
      rw [List.append_assoc]
      exact stops_blanks blank rest (is.spec rest).2
  | next blank =>
      rw [List.append_assoc]
      refine stops_blanks blank _ ?_
      rintro _ ⟨⟩
      decide

theorem More.positive {parts : List α} {text : List Char} (more : More close spells parts text) :
    0 < text.length := by
  cases more <;> simp only [List.length_append, List.length_cons] <;> omega

theorem readMore_more (is : IsClose close) {parts : List α} {text : List Char}
    (more : More close spells parts text) (enough : text.length ≤ fuel)
    (reads : ∀ p ∈ parts, ∀ t, spells p t → t.length < text.length → ReadAs item (value p) t)
    (rest : List Char) :
    readMore close item fuel (text ++ rest) = some (parts.map value, rest) := by
  induction more generalizing fuel with
  | done blank =>
      have positive : fuel ≠ 0 := by
        rw [List.length_append, List.length_singleton] at enough
        omega
      obtain ⟨fuel, rfl⟩ := Nat.exists_eq_succ_of_ne_zero positive
      rw [List.append_assoc, readMore, skip_blanks blank, List.singleton_append,
        (is.spec rest).1]
      exact if_pos rfl
  | @next p parts w w' text others blank blank' first more ih =>
      have long : (w ++ ',' :: (w' ++ (text ++ others))).length =
          w.length + 1 + w'.length + text.length + others.length := by
        simp only [List.length_append, List.length_cons]
        omega
      rw [long] at enough reads
      obtain ⟨fuel, rfl⟩ := Nat.exists_eq_succ_of_ne_zero (show fuel ≠ 0 by omega)
      have behind : readMore close item fuel (others ++ rest) = some (parts.map value, rest) :=
        ih (by omega) fun p there t spelled short =>
          reads p (List.mem_cons_of_mem _ there) t spelled (by omega)
      have positive := more.positive
      obtain ⟨begins, read⟩ := reads p List.mem_cons_self text first (by omega)
      have comma : ',' ≠ close := by rcases is with rfl | rfl <;> decide
      have skipped (s : List Char) : skip (',' :: s) = ',' :: s := rfl
      have apart : w ++ ',' :: (w' ++ (text ++ others)) ++ rest =
          w ++ ',' :: (w' ++ (text ++ (others ++ rest))) := by
        simp only [List.append_assoc, List.cons_append]
      rw [apart, readMore, skip_blanks blank, skipped]
      simp only [if_neg comma, if_true, skip_blanks blank', skip_begins begins,
        read _ (more.stops is rest), Option.bind_eq_bind, Option.bind_some, behind]
      rfl

/-- What stands between brackets is read, part by part. -/
theorem readSequence_sequence (is : IsClose close) {parts : List α} {text : List Char}
    (sequence : Sequence close spells parts text) (enough : text.length ≤ fuel)
    (reads : ∀ p ∈ parts, ∀ t, spells p t → t.length < text.length → ReadAs item (value p) t)
    (rest : List Char) :
    readSequence close item fuel (text ++ rest) = some (parts.map value, rest) := by
  cases sequence with
  | empty blank =>
      rw [List.append_assoc, readSequence, skip_blanks blank, List.singleton_append,
        (is.spec rest).1]
      exact if_pos rfl
  | @parts p parts w text others blank first more =>
      have long : (w ++ (text ++ others)).length = w.length + text.length + others.length := by
        simp only [List.length_append]
        omega
      rw [long] at enough reads
      have behind : readMore close item fuel (others ++ rest) = some (parts.map value, rest) :=
        readMore_more is more (by omega) (fun p there t spelled short =>
          reads p (List.mem_cons_of_mem _ there) t spelled (by omega)) rest
      have positive := more.positive
      obtain ⟨begins, read⟩ := reads p List.mem_cons_self text first (by omega)
      have read := read _ (more.stops is rest)
      have skipped := skip_begins begins (others ++ rest)
      rw [List.append_assoc, List.append_assoc, readSequence, skip_blanks blank, skipped]
      obtain ⟨c, s, is', ink, square, curly⟩ := begins
      have other : c ≠ close := Begins.ne_close ⟨c, s, rfl, ink, square, curly⟩ is
      rw [is', List.cons_append] at read ⊢
      simp only [if_neg other, read, Option.bind_eq_bind, Option.bind_some, behind]
      rfl

end

/-- A member is read when its value is. -/
theorem readAs_spelled {α : Type v} (q : Spelling σ) {spells : α → List Char → Prop}
    {f : α → Value (List UInt16)} {read : List Char → Option (Value (List UInt16) × List Char)}
    {m : σ × α} {text : List Char} (member : Member q spells m text)
    (reads : ∀ t, spells m.2 t → t.length < text.length → ReadAs read (f m.2) t) :
    ReadAs (readMember read) (q.units m.1, f m.2) text := by
  cases member with
  | @pair k x key w w' text body blank blank' spelled =>
      refine ⟨⟨'"', _, rfl, by decide⟩, fun rest stops => ?_⟩
      obtain ⟨begins, value⟩ := reads text spelled (by
        simp only [List.length_append, List.length_cons]
        omega)
      have apart : '"' :: (key ++ '"' :: (w ++ ':' :: (w' ++ text))) ++ rest =
          '"' :: (key ++ '"' :: (w ++ ':' :: (w' ++ (text ++ rest)))) := by
        simp only [List.append_assoc, List.cons_append]
      have colon (s : List Char) : skip (':' :: s) = ':' :: s := rfl
      rw [apart, readMember, q.read body]
      simp only [Option.bind_eq_bind, Option.bind_some, skip_blanks blank, colon,
        skip_blanks blank', skip_begins begins, value rest stops]
      rfl

theorem Spells.begins {q : Spelling σ} {t : Value σ} {text : List Char}
    (spelled : Spells q t text) : Begins text := by
  cases spelled with
  | null => exact ⟨'n', _, rfl, by decide⟩
  | yes => exact ⟨'t', _, rfl, by decide⟩
  | no => exact ⟨'f', _, rfl, by decide⟩
  | num n =>
      obtain ⟨c, rest, is, numeral⟩ := n.begins
      have ink := ink_of_numeral numeral
      exact ⟨c, rest, is, ink.1, ink.2.1, ink.2.2.1⟩
  | str => exact ⟨'"', _, rfl, by decide⟩
  | arr => exact ⟨'[', _, rfl, by decide⟩
  | obj => exact ⟨'{', _, rfl, by decide⟩

/-- A value is read from each of its texts, with the code units of its strings. -/
theorem readAs_spells (q : Spelling σ) : ∀ t : Value σ, ∀ text, Spells q t text →
    ∀ fuel, text.length ≤ fuel → ReadAs (readValue fuel) (t.map q.units) text := by
  refine Value.Closed.all ?_
  have positive {t : Value σ} {text : List Char} {fuel : Nat} (spelled : Spells q t text)
      (enough : text.length ≤ fuel) : ∃ n, fuel = n + 1 := by
    obtain ⟨c, rest, rfl, _⟩ := spelled.begins
    rw [List.length_cons] at enough
    exact Nat.exists_eq_succ_of_ne_zero (by omega)
  refine
    { null := fun text spelled fuel enough => ⟨spelled.begins, fun rest stops => ?_⟩
      bool := fun b text spelled fuel enough => ⟨spelled.begins, fun rest stops => ?_⟩
      num := fun n text spelled fuel enough => ⟨spelled.begins, fun rest stops => ?_⟩
      str := fun s text spelled fuel enough => ⟨spelled.begins, fun rest stops => ?_⟩
      arr := fun items parts text spelled fuel enough => ⟨spelled.begins, fun rest stops => ?_⟩
      obj := fun members parts text spelled fuel enough =>
        ⟨spelled.begins, fun rest stops => ?_⟩ }
  all_goals
    obtain ⟨fuel, rfl⟩ := positive spelled enough
    cases spelled
  · rfl
  · rfl
  · rfl
  · obtain ⟨c, text, is, numeral⟩ := n.begins
    have read := readNumber_text n stops
    have ink := ink_of_numeral numeral
    rw [is, List.cons_append] at read ⊢
    rw [readValue]
    · rw [read]
      rfl
    all_goals simp_all
  · next text body =>
    rw [List.cons_append, List.append_assoc, List.singleton_append, readValue, q.read body]
    rfl
  · next text sequence =>
    rw [List.length_cons] at enough
    have read := readSequence_sequence (.inl rfl : IsClose ']') sequence (by omega : _ ≤ fuel)
      (fun t there text spelled short => parts t there text spelled fuel (by omega)) rest
    rw [List.cons_append, readValue, read, Value.map, Value.mapItems_eq]
    rfl
  · next text sequence =>
    rw [List.length_cons] at enough
    have read := readSequence_sequence (.inr rfl : IsClose '}') sequence (by omega : _ ≤ fuel)
      (fun m there text spelled short => readAs_spelled q spelled (f := Value.map q.units)
        fun t spelled shorter => parts m there t spelled fuel (by omega)) rest
    rw [List.cons_append, readValue, read, Value.map, Value.mapMembers_eq]
    rfl

/-- A text that spells a value is read as it, whatever blanks are behind. -/
theorem parse_spells (q : Spelling σ) {t : Value σ} {text w : List Char}
    (spelled : Spells q t text) (blank : Blanks w) :
    parse (text ++ w) = some (t.map q.units) := by
  have whole : skip (text ++ w) = text ++ w := skip_begins spelled.begins w
  have stops : Stops w := by
    cases w with
    | nil => exact nofun
    | cons c w =>
        have stops := stops_blanks (c := ']') (w := c :: w) blank [] ((IsClose.spec (.inl rfl) []).2)
        exact stops
  have read := (readAs_spells q t text spelled (text ++ w).length (by simp)).2 w stops
  have nothing : skip w = [] := List.dropWhile_eq_nil_iff.mpr blank
  rw [parse, whole, read]
  simp only [Option.bind_eq_bind, Option.bind_some, nothing, if_true]
  rfl

/-! ## A writer without blanks -/

/-- How a writer writes a string between quotation marks. -/
structure Escaping (σ : Type u) where
  body : σ → List Char
  units : σ → List UInt16
  read : ∀ s rest, readString (body s ++ '"' :: rest) = some (units s, rest)

namespace Escaping

/-- What the writer writes. -/
def spelling (e : Escaping σ) : Spelling σ where
  body s text := text = e.body s
  units := e.units
  read body rest := body ▸ e.read _ rest

def text (e : Escaping σ) (s : σ) : List Char := '"' :: (e.body s ++ ['"'])

/-- Texts with commas between them. -/
def separate (texts : List (List Char)) (close : Char) : List Char :=
  [','].intercalate texts ++ [close]

mutual

def compact (e : Escaping σ) : Value σ → List Char
  | .null => ['n', 'u', 'l', 'l']
  | .bool true => ['t', 'r', 'u', 'e']
  | .bool false => ['f', 'a', 'l', 's', 'e']
  | .num n => n.text
  | .str s => e.text s
  | .arr items => '[' :: separate (compactItems e items) ']'
  | .obj members => '{' :: separate (compactMembers e members) '}'

def compactItems (e : Escaping σ) : List (Value σ) → List (List Char)
  | [] => []
  | t :: rest => compact e t :: compactItems e rest

def compactMembers (e : Escaping σ) : List (σ × Value σ) → List (List Char)
  | [] => []
  | (k, t) :: rest => (e.text k ++ ':' :: compact e t) :: compactMembers e rest

end

theorem compactItems_eq (e : Escaping σ) (items : List (Value σ)) :
    compactItems e items = items.map (compact e) := by
  induction items with
  | nil => rfl
  | cons t rest ih => rw [compactItems, ih, List.map_cons]

theorem compactMembers_eq (e : Escaping σ) (members : List (σ × Value σ)) :
    compactMembers e members = members.map fun m => e.text m.1 ++ ':' :: compact e m.2 := by
  induction members with
  | nil => rfl
  | cons m rest ih => rw [compactMembers, ih, List.map_cons]

theorem blanks_nil : Blanks [] := nofun

theorem more_separate {α : Type v} (close : Char) {spells : α → List Char → Prop}
    {text : α → List Char} {parts : List α} (each : ∀ p ∈ parts, spells p (text p)) :
    More close spells parts ((parts.map text).flatMap (fun t => ',' :: t) ++ [close]) := by
  induction parts with
  | nil => exact .done blanks_nil
  | cons p parts ih =>
      have others := ih fun p there => each p (List.mem_cons_of_mem _ there)
      have more := More.next blanks_nil blanks_nil (each p List.mem_cons_self) others
      rw [List.map_cons, List.flatMap_cons, List.append_assoc]
      exact more

theorem separate_cons (text : List Char) (texts : List (List Char)) (close : Char) :
    separate (text :: texts) close =
      text ++ (texts.flatMap (fun t => ',' :: t) ++ [close]) := by
  induction texts generalizing text with
  | nil => rw [separate, List.intercalate_singleton]; rfl
  | cons next texts ih =>
      have more := ih next
      rw [separate] at more ⊢
      rw [List.intercalate_cons_cons, List.append_assoc, List.append_assoc, more]
      simp

theorem sequence_separate {α : Type v} {close : Char} {spells : α → List Char → Prop}
    {text : α → List Char} {parts : List α} (each : ∀ p ∈ parts, spells p (text p)) :
    Sequence close spells parts (separate (parts.map text) close) := by
  cases parts with
  | nil =>
      rw [List.map_nil, separate, List.intercalate_nil]
      exact .empty blanks_nil
  | cons p parts =>
      have others := more_separate close fun p there =>
        each p (List.mem_cons_of_mem _ there)
      rw [List.map_cons, separate_cons]
      exact .parts (w := []) blanks_nil (each p List.mem_cons_self) others

/-- What is written spells the value. -/
theorem spells_compact (e : Escaping σ) : ∀ t, Spells e.spelling t (compact e t) := by
  refine Value.Closed.all ?_
  refine
    { null := .null
      bool := fun b => ?_
      num := fun n => .num n
      str := fun s => .str rfl
      arr := fun items parts => ?_
      obj := fun members parts => ?_ }
  · cases b
    · exact .no
    · exact .yes
  · rw [compact, compactItems_eq]
    exact .arr (sequence_separate parts)
  · rw [compact, compactMembers_eq]
    refine .obj (sequence_separate fun m there => ?_)
    have pair := Member.pair (q := e.spelling) (show e.spelling.body m.1 _ from rfl) blanks_nil
      blanks_nil (parts m there)
    rw [text, List.cons_append, List.append_assoc]
    exact pair

end Escaping

/-! ## Natural numbers -/

/-- Only zero begins with a zero. -/
theorem head_toDigits {n : Nat} (zero : (Nat.toDigits 10 n).head? = some '0') : n = 0 := by
  induction n using Nat.strongRecOn with
  | ind n ih =>
      rcases Nat.lt_or_ge n 10 with small | large
      · have figures : ∀ d < 10, Nat.digitChar d = '0' → d = 0 := by decide
        rw [Nat.toDigits_of_lt_base small, List.head?_cons, Option.some.injEq] at zero
        exact figures n small zero
      · obtain ⟨c, rest, first⟩ := List.exists_cons_of_ne_nil
          (Nat.toDigits_ne_nil : Nat.toDigits 10 (n / 10) ≠ [])
        rw [Nat.toDigits_of_base_le (by decide) large, first, List.cons_append,
          List.head?_cons] at zero
        have quotient := ih (n / 10) (by omega) (by rw [first, List.head?_cons, zero])
        omega

def Number.ofNat (n : Nat) : Number where
  negative := false
  whole := ⟨Nat.toDigits 10 n, Nat.toDigits_ne_nil, fun _ there =>
    Nat.isDigit_of_mem_toDigits (by decide) (by decide) there⟩
  fraction := none
  exponent := none
  plain zero := by
    obtain rfl := head_toDigits zero
    rfl

/-- The number, if it is a natural one that is written as such. -/
def Number.toNat? (n : Number) : Option Nat :=
  if n.negative = false ∧ n.fraction = none ∧ n.exponent = none then
    some (Nat.ofDigitChars 10 n.whole.text 0)
  else none

theorem Number.toNat?_ofNat (n : Nat) : (Number.ofNat n).toNat? = some n := by
  rw [Number.toNat?, if_pos ⟨rfl, rfl, rfl⟩, Number.ofNat, Nat.ofDigitChars_ten_toDigits]

/-! ## Characters of code units -/

/-- The characters of code units, with `none` for each surrogate on its own. A high surrogate may
be waiting for its other half. -/
def scan : Option Nat → List UInt16 → List (Option Char)
  | none, [] => []
  | some _, [] => [none]
  | high, u :: units =>
      let alone := if high.isSome then [none] else []
      if u.toNat < 0xD800 ∨ 0xE000 ≤ u.toNat then
        alone ++ some (Char.ofNat u.toNat) :: scan none units
      else if u.toNat < 0xDC00 then alone ++ scan (some (u.toNat - 0xD800)) units
      else
        match high with
        | some high =>
            some (Char.ofNat (0x10000 + high * 0x400 + (u.toNat - 0xDC00))) :: scan none units
        | none => none :: scan none units

/-- The text of code units, if there is one. -/
def charsOf (units : List UInt16) : Option (List Char) :=
  if (scan none units).all Option.isSome then some ((scan none units).filterMap id) else none

/-- The text of code units, with a replacement character for each surrogate on its own. -/
def lossyCharsOf (units : List UInt16) : List Char := (scan none units).map (·.getD '\uFFFD')

theorem scan_scalar {u : UInt16} (scalar : u.toNat < 0xD800 ∨ 0xE000 ≤ u.toNat)
    (units : List UInt16) : scan none (u :: units) = some (Char.ofNat u.toNat) :: scan none units := by
  rw [scan]
  exact if_pos scalar

theorem scan_pair {u v : UInt16} (high : 0xD800 ≤ u.toNat ∧ u.toNat < 0xDC00)
    (low : 0xDC00 ≤ v.toNat ∧ v.toNat < 0xE000) (units : List UInt16) :
    scan none (u :: v :: units) =
      some (Char.ofNat (0x10000 + (u.toNat - 0xD800) * 0x400 + (v.toNat - 0xDC00))) ::
        scan none units := by
  have first : scan none (u :: v :: units) = scan (some (u.toNat - 0xD800)) (v :: units) := by
    rw [scan]
    exact (if_neg (by omega)).trans (if_pos high.2)
  rw [first, scan]
  exact (if_neg (by omega)).trans (if_neg (by omega))

theorem scan_unitsOf (c : Char) (units : List UInt16) :
    scan none (unitsOf c ++ units) = some c :: scan none units := by
  have valid : c.toNat < 0xD800 ∨ 0xDFFF < c.toNat ∧ c.toNat < 0x110000 := c.valid
  rw [unitsOf]
  split
  · next basic =>
    have unit : (UInt16.ofNat c.toNat).toNat = c.toNat := UInt16.toNat_ofNat_of_lt' basic
    rw [List.singleton_append, scan_scalar (by omega), unit, Char.ofNat_toNat]
  · next beyond =>
    have fits {n : Nat} (small : n < 0x10000) : (UInt16.ofNat n).toNat = n :=
      UInt16.toNat_ofNat_of_lt' small
    have high := fits (show 0xD800 + (c.toNat - 0x10000) / 0x400 < 0x10000 by omega)
    have low := fits (show 0xDC00 + (c.toNat - 0x10000) % 0x400 < 0x10000 by omega)
    have whole : 0x10000 + (0xD800 + (c.toNat - 0x10000) / 0x400 - 0xD800) * 0x400 +
        (0xDC00 + (c.toNat - 0x10000) % 0x400 - 0xDC00) = c.toNat := by omega
    rw [List.cons_append, List.singleton_append, scan_pair (by omega) (by omega), high, low, whole,
      Char.ofNat_toNat]

theorem scan_flatMap (text : List Char) : scan none (text.flatMap unitsOf) = text.map some := by
  induction text with
  | nil => rfl
  | cons c text ih => rw [List.flatMap_cons, scan_unitsOf, ih, List.map_cons]

/-- A text is got back from its code units. -/
theorem charsOf_flatMap (text : List Char) : charsOf (text.flatMap unitsOf) = some text := by
  rw [charsOf, scan_flatMap]
  simp

theorem lossyCharsOf_flatMap (text : List Char) :
    lossyCharsOf (text.flatMap unitsOf) = text := by
  rw [lossyCharsOf, scan_flatMap, List.map_map]
  exact List.map_id text

end JsonText
