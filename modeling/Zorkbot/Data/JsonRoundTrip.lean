/-
# JSON texts that are read back

A value that was written is read back, wherever its text stands: a number ends where no number
goes on, and all else ends by itself. What is written is printed in ASCII and begins and ends with
a character that counts.
-/

import Zorkbot.Data.JsonText

namespace JsonText

universe u v

variable {σ : Type u}

/-! ## What is written is read -/

/-- A text in which the first character counts. -/
def Begins (s : List Char) : Prop :=
  ∃ c rest, s = c :: rest ∧ isBlank c = false ∧ c ≠ ']' ∧ c ≠ '}'

theorem skip_begins {s : List Char} (begins : Begins s) (rest : List Char) :
    skip (s ++ rest) = s ++ rest := by
  obtain ⟨c, t, rfl, ink, _⟩ := begins
  rw [List.cons_append, skip, List.dropWhile_cons_of_neg (by simp [ink])]

theorem Number.begins (n : Number) : ∃ c rest, n.text = c :: rest ∧ (c = '-' ∨ c.isDigit) := by
  cases negative : n.negative with
  | true =>
      refine ⟨'-', n.whole.text ++ (fractionText n.fraction ++ exponentText n.exponent), ?_,
        .inl rfl⟩
      rw [Number.text, negative]
      rfl
  | false =>
      obtain ⟨c, s, is, digit⟩ := n.whole.exists_cons
      refine ⟨c, s ++ (fractionText n.fraction ++ exponentText n.exponent), ?_, .inr digit⟩
      rw [Number.text, negative, is]
      rfl

theorem ink_of_numeral {c : Char} (numeral : c = '-' ∨ c.isDigit) :
    isBlank c = false ∧ c ≠ ']' ∧ c ≠ '}' ∧ c ≠ '"' ∧ c ≠ '[' ∧ c ≠ '{' ∧ c ≠ 'n' ∧ c ≠ 't' ∧
      c ≠ 'f' := by
  rcases numeral with rfl | digit
  · decide
  · have other : ∀ d : Char, d.isDigit = false → c ≠ d := by
      rintro d letter rfl
      rw [letter] at digit
      cases digit
    refine ⟨?_, other _ rfl, other _ rfl, other _ rfl, other _ rfl, other _ rfl, other _ rfl,
      other _ rfl, other _ rfl⟩
    simp [isBlank, other ' ' rfl, other '\t' rfl, other '\n' rfl, other '\r' rfl]

theorem begins_write (q : Quoting σ) (t : Value σ) : Begins (write q t) := by
  cases t with
  | null => exact ⟨'n', _, rfl, by decide⟩
  | bool b => cases b <;> exact ⟨_, _, rfl, by decide⟩
  | num n =>
      obtain ⟨c, rest, is, numeral⟩ := n.begins
      have ink := ink_of_numeral numeral
      exact ⟨c, rest, is, ink.1, ink.2.1, ink.2.2.1⟩
  | str s => exact ⟨'"', _, rfl, by decide⟩
  | arr items => exact ⟨'[', _, rfl, by decide⟩
  | obj members => exact ⟨'{', _, rfl, by decide⟩

/-- A bracket that closes. -/
def IsClose (close : Char) : Prop := close = ']' ∨ close = '}'

theorem IsClose.spec {close : Char} (is : IsClose close) (rest : List Char) :
    skip (close :: rest) = close :: rest ∧ Stops (close :: rest) := by
  rcases is with rfl | rfl
  · exact ⟨rfl, by rintro c ⟨⟩; decide⟩
  · exact ⟨rfl, by rintro c ⟨⟩; decide⟩

theorem Begins.ne_close {c close : Char} {rest : List Char} (begins : Begins (c :: rest))
    (is : IsClose close) : c ≠ close := by
  obtain ⟨_, _, same, _, square, curly⟩ := begins
  obtain ⟨rfl, _⟩ := List.cons.inj same
  rcases is with rfl | rfl
  · exact square
  · exact curly

theorem enclose_cons (text : List Char) (texts : List (List Char)) (close : Char) :
    enclose (text :: texts) close =
      text ++ (texts.flatMap (fun t => ',' :: ' ' :: t) ++ [close]) := by
  induction texts generalizing text with
  | nil => rw [enclose, List.intercalate_singleton]; rfl
  | cons next texts ih =>
      have more := ih next
      rw [enclose] at more ⊢
      rw [List.intercalate_cons_cons, List.append_assoc, List.append_assoc, more]
      simp

section

variable {α : Type v} {β : Type u} {close : Char} {item : List Char → Option (β × List Char)}
  {value : α → β} {text : α → List Char} {fuel : Nat}

/-- A text that is read wherever it stops. -/
def ReadAs (item : List Char → Option (β × List Char)) (x : β) (text : List Char) : Prop :=
  Begins text ∧ ∀ rest, Stops rest → item (text ++ rest) = some (x, rest)

theorem stops_more (is : IsClose close) (texts : List (List Char)) (rest : List Char) :
    Stops (texts.flatMap (fun t => ',' :: ' ' :: t) ++ close :: rest) := by
  cases texts with
  | nil => exact (is.spec rest).2
  | cons =>
      rintro c ⟨⟩
      decide

theorem readMore_texts (is : IsClose close) {parts : List α}
    (reads : ∀ p ∈ parts, ReadAs item (value p) (text p)) (enough : parts.length < fuel)
    (rest : List Char) :
    readMore close item fuel
      ((parts.map text).flatMap (fun t => ',' :: ' ' :: t) ++ close :: rest) =
        some (parts.map value, rest) := by
  induction parts generalizing fuel with
  | nil =>
      obtain ⟨fuel, rfl⟩ := Nat.exists_eq_succ_of_ne_zero (Nat.ne_zero_of_lt enough)
      rw [List.map_nil, List.flatMap_nil, List.nil_append, readMore, (is.spec rest).1]
      exact if_pos rfl
  | cons p parts ih =>
      obtain ⟨fuel, rfl⟩ := Nat.exists_eq_succ_of_ne_zero (Nat.ne_zero_of_lt enough)
      have others := ih (fun p there => reads p (List.mem_cons_of_mem _ there))
        (Nat.lt_of_succ_lt_succ enough)
      obtain ⟨begins, read⟩ := reads p List.mem_cons_self
      have comma : ',' ≠ close := by rcases is with rfl | rfl <;> decide
      have skipped (s : List Char) : skip (',' :: ' ' :: s) = ',' :: ' ' :: s := rfl
      have blank (s : List Char) : skip (' ' :: s) = skip s := rfl
      rw [List.map_cons, List.flatMap_cons, List.append_assoc, List.cons_append,
        List.cons_append, readMore]
      simp only [skipped, if_neg comma, if_true, blank, skip_begins begins,
        read _ (stops_more is (parts.map text) rest), Option.bind_eq_bind, Option.bind_some, others]
      rfl

/-- What stands between brackets is read, part by part. -/
theorem readSequence_enclose (is : IsClose close) {parts : List α}
    (reads : ∀ p ∈ parts, ReadAs item (value p) (text p)) (enough : parts.length ≤ fuel)
    (rest : List Char) :
    readSequence close item fuel (enclose (parts.map text) close ++ rest) =
      some (parts.map value, rest) := by
  cases parts with
  | nil =>
      rw [List.map_nil, enclose, List.intercalate_nil, List.nil_append, List.singleton_append,
        readSequence, (is.spec rest).1]
      exact if_pos rfl
  | cons p parts =>
      obtain ⟨begins, read⟩ := reads p List.mem_cons_self
      have others := readMore_texts is
        (fun p there => reads p (List.mem_cons_of_mem _ there)) enough rest
      have first := read _ (stops_more is (parts.map text) rest)
      have skipped := skip_begins begins
        ((parts.map text).flatMap (fun t => ',' :: ' ' :: t) ++ close :: rest)
      rw [List.map_cons, enclose_cons, List.append_assoc, List.append_assoc,
        List.singleton_append, readSequence, skipped]
      obtain ⟨c, s, is', ink, square, curly⟩ := begins
      have other : c ≠ close := Begins.ne_close ⟨c, s, rfl, ink, square, curly⟩ is
      rw [is', List.cons_append] at first ⊢
      simp only [if_neg other, first, Option.bind_eq_bind, Option.bind_some, others]
      rfl

end

theorem length_enclose (texts : List (List Char)) (close : Char) :
    texts.length ≤ (enclose texts close).length ∧
      ∀ t ∈ texts, t.length < (enclose texts close).length := by
  cases texts with
  | nil => exact ⟨Nat.zero_le _, nofun⟩
  | cons t texts =>
      rw [enclose_cons]
      induction texts generalizing t with
      | nil =>
          refine ⟨by simp, ?_⟩
          rintro _ (_ | ⟨_, ⟨⟩⟩)
          simp
      | cons next texts ih =>
          obtain ⟨count, long⟩ := ih t
          rw [List.flatMap_cons, List.append_assoc]
          simp only [List.length_append, List.length_cons, List.mem_cons] at count long ⊢
          refine ⟨by omega, ?_⟩
          rintro u (rfl | rfl | there)
          · have := long u (.inl rfl)
            omega
          · omega
          · have := long u (.inr there)
            omega

/-- A member is read when its value is. -/
theorem readAs_member (q : Quoting σ) {value : List Char → Option (Value (List UInt16) × List Char)}
    {x : Value (List UInt16)} {text : List Char} (read : ReadAs value x text) (k : σ) :
    ReadAs (readMember value) (q.units k, x) (q.text k ++ (':' :: ' ' :: text)) := by
  refine ⟨⟨'"', _, rfl, by decide⟩, fun rest stops => ?_⟩
  obtain ⟨begins, read⟩ := read
  have text_ : q.text k ++ (':' :: ' ' :: text) ++ rest =
      '"' :: (q.body k ++ '"' :: ':' :: ' ' :: (text ++ rest)) := by
    simp [Quoting.text]
  have colon (s : List Char) : skip (':' :: s) = ':' :: s := rfl
  have blank (s : List Char) : skip (' ' :: s) = skip s := rfl
  rw [text_, readMember, q.read]
  simp only [Option.bind_eq_bind, Option.bind_some, colon, blank, skip_begins begins,
    read rest stops]
  rfl

/-- A value is read back, with the code units of its strings. -/
theorem readAs_write (q : Quoting σ) : ∀ t : Value σ, ∀ fuel, (write q t).length ≤ fuel →
    ReadAs (readValue fuel) (t.map q.units) (write q t) := by
  refine Value.Closed.all ?_
  have positive {t : Value σ} {fuel : Nat} (enough : (write q t).length ≤ fuel) :
      ∃ n, fuel = n + 1 := by
    obtain ⟨c, rest, is, _⟩ := begins_write q t
    rw [is, List.length_cons] at enough
    exact Nat.exists_eq_succ_of_ne_zero (by omega)
  refine
    { null := fun fuel enough => ⟨begins_write q _, fun rest stops => ?_⟩
      bool := fun b fuel enough => ⟨begins_write q _, fun rest stops => ?_⟩
      num := fun n fuel enough => ⟨begins_write q _, fun rest stops => ?_⟩
      str := fun s fuel enough => ⟨begins_write q _, fun rest stops => ?_⟩
      arr := fun items parts fuel enough => ⟨begins_write q _, fun rest stops => ?_⟩
      obj := fun members parts fuel enough => ⟨begins_write q _, fun rest stops => ?_⟩ }
  all_goals obtain ⟨fuel, rfl⟩ := positive enough
  · rfl
  · cases b <;> rfl
  · obtain ⟨c, text, is, numeral⟩ := n.begins
    have read := readNumber_text n stops
    have ink := ink_of_numeral numeral
    rw [is, List.cons_append] at read
    rw [write, is, List.cons_append, readValue]
    · rw [read]
      rfl
    all_goals simp_all
  · rw [write, Quoting.text, List.cons_append, List.append_assoc, List.singleton_append, readValue,
      q.read]
    rfl
  · rw [write, List.length_cons, writeItems_eq] at enough
    obtain ⟨count, long⟩ := length_enclose (items.map (write q)) ']'
    rw [List.length_map] at count
    have few : items.length ≤ fuel := by omega
    have read := readSequence_enclose (.inl rfl : IsClose ']') (fun t there => parts t there fuel
      (Nat.le_of_lt (Nat.lt_of_lt_of_le (long _ (List.mem_map_of_mem there)) (by omega)))) few rest
    rw [write, List.cons_append, readValue, writeItems_eq, read, Value.map, Value.mapItems_eq]
    rfl
  · rw [write, List.length_cons, writeMembers_eq] at enough
    obtain ⟨count, long⟩ := length_enclose
      (members.map fun m => q.text m.1 ++ (':' :: ' ' :: write q m.2)) '}'
    rw [List.length_map] at count
    have few : members.length ≤ fuel := by omega
    have read := readSequence_enclose (.inr rfl : IsClose '}') (fun m there =>
      readAs_member q (parts m there fuel (by
        have := long _ (List.mem_map_of_mem there)
        simp only [List.length_append, List.length_cons] at this
        omega)) m.1) few rest
    rw [write, List.cons_append, readValue, writeMembers_eq, read, Value.map, Value.mapMembers_eq]
    rfl

/-- The text of a value is that of one value. -/
theorem parse_write (q : Quoting σ) (t : Value σ) : parse (write q t) = some (t.map q.units) := by
  have whole := skip_begins (begins_write q t) []
  have read := (readAs_write q t _ le_rfl).2 [] nofun
  rw [List.append_nil] at whole read
  rw [parse, whole, read]
  rfl

/-! ## The characters of what is written -/

theorem printed_of_isDigit {c : Char} (digit : c.isDigit = true) : Printed c := by
  have bounds : 48 ≤ c.toNat ∧ c.toNat ≤ 57 := Char.isDigit_iff_toNat.mp digit
  exact ⟨by omega, by omega⟩

theorem printed_of_all {s : List Char} (all : (s.all fun c => decide (Printed c)) = true) :
    ∀ c ∈ s, Printed c := fun c there => of_decide_eq_true (List.all_eq_true.mp all c there)

theorem Digits.printed (d : Digits) : ∀ c ∈ d.text, Printed c :=
  fun c there => printed_of_isDigit (d.digits c there)

theorem Number.printed (n : Number) : ∀ c ∈ n.text, Printed c := by
  intro c there
  rw [Number.text] at there
  simp only [List.mem_append] at there
  rcases there with there | there | there | there
  · split at there
    · rw [List.mem_singleton.mp there]
      decide
    · cases there
  · exact n.whole.printed c there
  · cases is : n.fraction with
    | none =>
        rw [is] at there
        cases there
    | some d =>
        rw [is, fractionText] at there
        rcases List.mem_cons.mp there with rfl | there
        · decide
        · exact d.printed c there
  · cases is : n.exponent with
    | none =>
        rw [is] at there
        cases there
    | some e =>
        rw [is, exponentText] at there
        rcases List.mem_cons.mp there with rfl | there
        · cases e.upper <;> decide
        · rcases List.mem_append.mp there with there | there
          · rcases sign : e.sign with _ | minus
            · rw [sign] at there
              cases there
            · rw [sign] at there
              cases minus
              · rw [List.mem_singleton.mp there]
                decide
              · rw [List.mem_singleton.mp there]
                decide
          · exact e.digits.printed c there

theorem Quoting.printed_text (q : Quoting σ) (s : σ) : ∀ c ∈ q.text s, Printed c := by
  intro c there
  rw [Quoting.text, List.mem_cons, List.mem_append, List.mem_singleton] at there
  rcases there with rfl | there | rfl
  · decide
  · exact q.printed s c there
  · decide

theorem printed_enclose {texts : List (List Char)} {close : Char} (is : IsClose close)
    (printed : ∀ t ∈ texts, ∀ c ∈ t, Printed c) : ∀ c ∈ enclose texts close, Printed c := by
  intro c there
  have last : Printed close := by rcases is with rfl | rfl <;> decide
  cases texts with
  | nil => exact List.mem_singleton.mp there ▸ last
  | cons t texts =>
      rw [enclose_cons] at there
      simp only [List.mem_append, List.mem_flatMap, List.mem_cons, List.not_mem_nil, or_false]
        at there
      rcases there with there | ⟨u, listed, rfl | rfl | there⟩ | rfl
      · exact printed t List.mem_cons_self c there
      · decide
      · decide
      · exact printed u (List.mem_cons_of_mem t listed) c there
      · exact last

/-- A value is written in printed characters only. -/
theorem printed_write (q : Quoting σ) : ∀ t : Value σ, ∀ c ∈ write q t, Printed c := by
  refine Value.Closed.all ?_
  refine
    { null := printed_of_all rfl
      bool := fun b => by cases b <;> exact printed_of_all rfl
      num := Number.printed
      str := q.printed_text
      arr := fun items parts c there => ?_
      obj := fun members parts c there => ?_ }
  · rw [write, writeItems_eq] at there
    rcases List.mem_cons.mp there with rfl | there
    · decide
    · exact printed_enclose (.inl rfl) (List.forall_mem_map.mpr parts) c there
  · rw [write, writeMembers_eq] at there
    rcases List.mem_cons.mp there with rfl | there
    · decide
    · refine printed_enclose (.inr rfl)
        (List.forall_mem_map.mpr fun m listed d inside => ?_) c there
      simp only [List.mem_append, List.mem_cons] at inside
      rcases inside with inside | rfl | rfl | inside
      · exact q.printed_text m.1 d inside
      · decide
      · decide
      · exact parts m listed d inside

theorem Digits.getLast (d : Digits) : ∃ c ∈ d.text.getLast?, c ≠ ' ' := by
  refine ⟨d.text.getLast d.some, List.getLast?_eq_some_getLast d.some, ?_⟩
  intro blank
  have digit := d.digits _ (List.getLast_mem d.some)
  rw [blank] at digit
  cases digit

theorem getLast_append {s t : List Char} (last : ∃ c ∈ t.getLast?, c ≠ ' ') :
    ∃ c ∈ (s ++ t).getLast?, c ≠ ' ' := by
  obtain ⟨c, there, ink⟩ := last
  refine ⟨c, ?_, ink⟩
  rw [Option.mem_def] at there ⊢
  rw [List.getLast?_append, there]
  rfl

theorem getLast_cons {a : Char} {t : List Char} (last : ∃ c ∈ t.getLast?, c ≠ ' ') :
    ∃ c ∈ (a :: t).getLast?, c ≠ ' ' :=
  @getLast_append [a] t last

/-- A value does not end with a blank. -/
theorem getLast_write (q : Quoting σ) (t : Value σ) : ∃ c ∈ (write q t).getLast?, c ≠ ' ' := by
  cases t with
  | null => exact ⟨_, rfl, by decide⟩
  | bool b => cases b <;> exact ⟨_, rfl, by decide⟩
  | num n =>
      rw [write, Number.text]
      refine getLast_append ?_
      cases n.exponent with
      | none =>
          rw [exponentText, List.append_nil]
          cases n.fraction with
          | none =>
              rw [fractionText, List.append_nil]
              exact n.whole.getLast
          | some d => exact getLast_append (getLast_cons d.getLast)
      | some e =>
          exact getLast_append (getLast_append (getLast_cons (getLast_append e.digits.getLast)))
  | str s => exact getLast_cons (getLast_append ⟨_, rfl, by decide⟩)
  | arr items => exact getLast_cons (getLast_append ⟨_, rfl, by decide⟩)
  | obj members => exact getLast_cons (getLast_append ⟨_, rfl, by decide⟩)

end JsonText
