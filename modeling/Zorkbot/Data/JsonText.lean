/-
# JSON texts

Values are read from any JSON text and written in the form that escapes whatever is not ASCII. A
number is kept as it is written, and a string by its UTF-16 code units, of which an escape makes
one.
-/

import Mathlib.Data.List.TakeWhile

namespace JsonText

/-! ## Numbers -/

/-- One digit or more. -/
structure Digits where
  text : List Char
  some : text ≠ []
  digits : ∀ c ∈ text, c.isDigit = true
  deriving DecidableEq

structure Exponent where
  upper : Bool
  /-- Whether there is a sign, and whether it is a minus. -/
  sign : Option Bool
  digits : Digits
  deriving DecidableEq

structure Number where
  negative : Bool
  whole : Digits
  fraction : Option Digits
  exponent : Option Exponent
  /-- No digit follows a zero at the beginning. -/
  plain : whole.text.head? = some '0' → whole.text = ['0']
  deriving DecidableEq

def signText : Option Bool → List Char
  | none => []
  | some true => ['-']
  | some false => ['+']

def fractionText : Option Digits → List Char
  | none => []
  | some digits => '.' :: digits.text

def exponentText : Option Exponent → List Char
  | none => []
  | some e => (if e.upper then 'E' else 'e') :: (signText e.sign ++ e.digits.text)

def Number.text (n : Number) : List Char :=
  (if n.negative then ['-'] else []) ++
    (n.whole.text ++ (fractionText n.fraction ++ exponentText n.exponent))

def readDigits (s : List Char) : Option (Digits × List Char) :=
  if there : s.takeWhile Char.isDigit ≠ [] then
    some (⟨s.takeWhile Char.isDigit, there, fun _ => List.mem_takeWhile_imp⟩,
      s.dropWhile Char.isDigit)
  else none

def readSign : List Char → Option Bool × List Char
  | '-' :: s => (some true, s)
  | '+' :: s => (some false, s)
  | s => (none, s)

def readFraction : List Char → Option (Option Digits × List Char)
  | '.' :: s => (readDigits s).map fun (digits, s) => (some digits, s)
  | s => some (none, s)

def readExponentAfter (upper : Bool) (s : List Char) : Option (Option Exponent × List Char) :=
  (readDigits (readSign s).2).map fun (digits, rest) =>
    (some ⟨upper, (readSign s).1, digits⟩, rest)

def readExponent : List Char → Option (Option Exponent × List Char)
  | 'e' :: s => readExponentAfter false s
  | 'E' :: s => readExponentAfter true s
  | s => some (none, s)

def readMinus : List Char → Bool × List Char
  | '-' :: s => (true, s)
  | s => (false, s)

def readNumber (s : List Char) : Option (Number × List Char) := do
  let (whole, rest) ← readDigits (readMinus s).2
  let (fraction, rest) ← readFraction rest
  let (exponent, rest) ← readExponent rest
  if plain : whole.text.head? = some '0' → whole.text = ['0'] then
    return (⟨(readMinus s).1, whole, fraction, exponent, plain⟩, rest)
  else none

/-- No number goes on here. -/
def Stops (rest : List Char) : Prop :=
  ∀ c ∈ rest.head?, c.isDigit = false ∧ c ≠ '.' ∧ c ≠ 'e' ∧ c ≠ 'E'

theorem readDigits_text (d : Digits) {rest : List Char}
    (stops : ∀ c ∈ rest.head?, c.isDigit = false) :
    readDigits (d.text ++ rest) = some (d, rest) := by
  have behind : rest.takeWhile Char.isDigit = [] ∧ rest.dropWhile Char.isDigit = rest := by
    cases rest with
    | nil => exact ⟨rfl, rfl⟩
    | cons c rest => simp [stops c rfl]
  have taken : (d.text ++ rest).takeWhile Char.isDigit = d.text := by
    rw [List.takeWhile_append_of_pos d.digits, behind.1, List.append_nil]
  have left : (d.text ++ rest).dropWhile Char.isDigit = rest := by
    rw [List.dropWhile_append_of_pos d.digits, behind.2]
  have there : (d.text ++ rest).takeWhile Char.isDigit ≠ [] := by
    rw [taken]
    exact d.some
  rw [readDigits, dif_pos there]
  simp only [taken, left]

theorem Digits.exists_cons (d : Digits) : ∃ c s, d.text = c :: s ∧ c.isDigit = true := by
  obtain ⟨c, s, is⟩ := List.exists_cons_of_ne_nil d.some
  exact ⟨c, s, is, d.digits c (is ▸ List.mem_cons_self)⟩

theorem readSign_text (sign : Option Bool) (d : Digits) (rest : List Char) :
    readSign (signText sign ++ (d.text ++ rest)) = (sign, d.text ++ rest) := by
  match sign with
  | some true | some false => rfl
  | none =>
      obtain ⟨c, s, is, digit⟩ := d.exists_cons
      rw [signText, is, List.nil_append, List.cons_append]
      unfold readSign
      split
      · next same => cases (List.cons.inj same).1 ▸ digit
      · next same => cases (List.cons.inj same).1 ▸ digit
      · rfl

theorem readExponent_text (e : Option Exponent) {rest : List Char} (stops : Stops rest) :
    readExponent (exponentText e ++ rest) = some (e, rest) := by
  cases e with
  | none =>
      rw [exponentText, List.nil_append]
      unfold readExponent
      split
      · exact absurd rfl (stops 'e' rfl).2.2.1
      · exact absurd rfl (stops 'E' rfl).2.2.2
      · rfl
  | some e =>
      have after : readExponentAfter e.upper (signText e.sign ++ (e.digits.text ++ rest)) =
          some (some e, rest) := by
        rw [readExponentAfter, readSign_text, readDigits_text _ fun c head => (stops c head).1]
        rfl
      rw [exponentText, List.cons_append, List.append_assoc, ← after]
      cases e.upper <;> rfl

theorem head_exponentText {e : Option Exponent} {rest : List Char} (stops : Stops rest) :
    ∀ c ∈ (exponentText e ++ rest).head?, c.isDigit = false ∧ c ≠ '.' := by
  cases e with
  | none => exact fun c head => ⟨(stops c head).1, (stops c head).2.1⟩
  | some e =>
      intro c head
      obtain rfl := Option.some.inj head
      cases e.upper <;> decide

theorem readFraction_text (f : Option Digits) {rest : List Char}
    (stops : ∀ c ∈ rest.head?, c.isDigit = false ∧ c ≠ '.') :
    readFraction (fractionText f ++ rest) = some (f, rest) := by
  cases f with
  | none =>
      rw [fractionText, List.nil_append]
      unfold readFraction
      split
      · exact absurd rfl (stops '.' rfl).2
      · rfl
  | some d =>
      change (readDigits (d.text ++ rest)).map _ = _
      rw [readDigits_text d fun c head => (stops c head).1]
      rfl

/-- A number is read back. -/
theorem readNumber_text (n : Number) {rest : List Char} (stops : Stops rest) :
    readNumber (n.text ++ rest) = some (n, rest) := by
  have minus : readMinus (n.text ++ rest) = (n.negative,
      n.whole.text ++ (fractionText n.fraction ++ (exponentText n.exponent ++ rest))) := by
    rw [Number.text]
    simp only [List.append_assoc]
    cases n.negative with
    | true => rfl
    | false =>
        obtain ⟨c, s, is, digit⟩ := n.whole.exists_cons
        rw [is, if_neg Bool.false_ne_true, List.nil_append, List.cons_append]
        unfold readMinus
        split
        · next same => cases (List.cons.inj same).1 ▸ digit
        · rfl
  have behind : ∀ c ∈ (fractionText n.fraction ++ (exponentText n.exponent ++ rest)).head?,
      c.isDigit = false := by
    cases n.fraction with
    | none => exact fun c head => (head_exponentText stops c head).1
    | some d =>
        rintro c ⟨⟩
        rfl
  rw [readNumber, minus, readDigits_text n.whole behind]
  change (readFraction _ >>= _) = _
  rw [readFraction_text n.fraction (head_exponentText stops)]
  change (readExponent _ >>= _) = _
  rw [readExponent_text n.exponent stops]
  exact dif_pos n.plain

/-! ## Strings -/

/-- The code units of UTF-16. -/
def unitsOf (c : Char) : List UInt16 :=
  if c.toNat < 0x10000 then [UInt16.ofNat c.toNat]
  else
    [UInt16.ofNat (0xD800 + (c.toNat - 0x10000) / 0x400),
      UInt16.ofNat (0xDC00 + (c.toNat - 0x10000) % 0x400)]

/-- The value of a hexadecimal digit. -/
def hexValue (c : Char) : Option Nat :=
  if '0' ≤ c ∧ c ≤ '9' then some (c.toNat - '0'.toNat)
  else if 'a' ≤ c ∧ c ≤ 'f' then some (c.toNat - 'a'.toNat + 10)
  else if 'A' ≤ c ∧ c ≤ 'F' then some (c.toNat - 'A'.toNat + 10)
  else none

/-- The code unit that four hexadecimal digits stand for. -/
def hexUnit (a b c d : Char) : Option UInt16 := do
  let a ← hexValue a
  let b ← hexValue b
  let c ← hexValue c
  let d ← hexValue d
  return UInt16.ofNat (((a * 16 + b) * 16 + c) * 16 + d)

/-- The character that a short escape stands for. -/
def unescape : Char → Option UInt16
  | '"' => some 0x22
  | '\\' => some 0x5C
  | '/' => some 0x2F
  | 'b' => some 0x08
  | 'f' => some 0x0C
  | 'n' => some 0x0A
  | 'r' => some 0x0D
  | 't' => some 0x09
  | _ => none

/-- Code units in front of what is read. -/
def prepend (units : List UInt16) (read : Option (List UInt16 × List Char)) :
    Option (List UInt16 × List Char) :=
  read.map fun (more, rest) => (units ++ more, rest)

/-- What is behind a quotation mark, up to the next. -/
def readString : List Char → Option (List UInt16 × List Char)
  | [] => none
  | '"' :: rest => some ([], rest)
  | '\\' :: 'u' :: a :: b :: c :: d :: rest =>
      match hexUnit a b c d with
      | some u => prepend [u] (readString rest)
      | none => none
  | '\\' :: c :: rest =>
      match unescape c with
      | some u => prepend [u] (readString rest)
      | none => none
  | c :: rest => if c.toNat < 0x20 then none else prepend (unitsOf c) (readString rest)

/-- The escape of a code unit. -/
def escapeUnit (n : Nat) : List Char :=
  ['\\', 'u', Nat.digitChar (n / 4096 % 16), Nat.digitChar (n / 256 % 16),
    Nat.digitChar (n / 16 % 16), Nat.digitChar (n % 16)]

theorem hexValue_digitChar : ∀ n < 16, hexValue (Nat.digitChar n) = some n := by decide

theorem readString_escapeUnit {n : Nat} (unit : n < 0x10000) (rest : List Char) :
    readString (escapeUnit n ++ rest) = prepend [UInt16.ofNat n] (readString rest) := by
  have read : hexUnit (Nat.digitChar (n / 4096 % 16)) (Nat.digitChar (n / 256 % 16))
      (Nat.digitChar (n / 16 % 16)) (Nat.digitChar (n % 16)) = some (UInt16.ofNat n) := by
    have whole : ((n / 4096 % 16 * 16 + n / 256 % 16) * 16 + n / 16 % 16) * 16 + n % 16 = n := by
      omega
    simp only [hexUnit, hexValue_digitChar _ (Nat.mod_lt _ (by decide : 16 > 0))]
    exact congrArg (some ∘ UInt16.ofNat) whole
  rw [escapeUnit]
  simp only [List.cons_append, List.nil_append, readString, read]

/-- A character that needs no escape. -/
def IsPlain (c : Char) : Prop := c ≠ '"' ∧ c ≠ '\\' ∧ 0x20 ≤ c.toNat

theorem readString_plain {c : Char} (plain : IsPlain c) (rest : List Char) :
    readString (c :: rest) = prepend (unitsOf c) (readString rest) := by
  obtain ⟨quote, escape, printed⟩ := plain
  rw [readString]
  · rw [if_neg (by omega)]
  all_goals simp_all

theorem readString_unescape {c : Char} {u : UInt16} (short : unescape c = some u)
    (rest : List Char) : readString ('\\' :: c :: rest) = prepend [u] (readString rest) := by
  have other : c ≠ 'u' := by
    rintro rfl
    cases short
  rw [readString]
  · simp only [short]
  · simp [other]

/-! ## Values -/

universe u v

variable {σ : Type u} {τ : Type v}

/-- A value, whose strings are of a type. -/
inductive Value (σ : Type u)
  | null
  | bool (b : Bool)
  | num (n : Number)
  | str (s : σ)
  | arr (items : List (Value σ))
  | obj (members : List (σ × Value σ))

namespace Value

mutual

/-- The same value with other strings. -/
def map (f : σ → τ) : Value σ → Value τ
  | null => null
  | bool b => bool b
  | num n => num n
  | str s => str (f s)
  | arr items => arr (mapItems f items)
  | obj members => obj (mapMembers f members)

def mapItems (f : σ → τ) : List (Value σ) → List (Value τ)
  | [] => []
  | t :: rest => map f t :: mapItems f rest

def mapMembers (f : σ → τ) : List (σ × Value σ) → List (τ × Value τ)
  | [] => []
  | (k, t) :: rest => (f k, map f t) :: mapMembers f rest

end

theorem mapItems_eq (f : σ → τ) (items : List (Value σ)) :
    mapItems f items = items.map (map f) := by
  induction items with
  | nil => rfl
  | cons t rest ih => rw [mapItems, ih, List.map_cons]

theorem mapMembers_eq (f : σ → τ) (members : List (σ × Value σ)) :
    mapMembers f members = members.map fun m => (f m.1, map f m.2) := by
  induction members with
  | nil => rfl
  | cons m rest ih => rw [mapMembers, ih, List.map_cons]

/-- What holds of a value when it holds of its parts. -/
structure Closed (motive : Value σ → Prop) : Prop where
  null : motive null
  bool : ∀ b, motive (bool b)
  num : ∀ n, motive (num n)
  str : ∀ s, motive (str s)
  arr : ∀ items, (∀ t ∈ items, motive t) → motive (arr items)
  obj : ∀ members : List (σ × Value σ), (∀ m ∈ members, motive m.2) → motive (obj members)

mutual

theorem Closed.all {motive : Value σ → Prop} (closed : Closed motive) : ∀ t, motive t
  | .null => closed.null
  | .bool b => closed.bool b
  | .num n => closed.num n
  | .str s => closed.str s
  | .arr items => closed.arr items (closed.items items)
  | .obj members => closed.obj members (closed.members members)

theorem Closed.items {motive : Value σ → Prop} (closed : Closed motive) :
    ∀ items : List (Value σ), ∀ t ∈ items, motive t
  | [] => nofun
  | t :: rest => List.forall_mem_cons.mpr ⟨closed.all t, closed.items rest⟩

theorem Closed.members {motive : Value σ → Prop} (closed : Closed motive) :
    ∀ members : List (σ × Value σ), ∀ m ∈ members, motive m.2
  | [] => nofun
  | (_, t) :: rest => List.forall_mem_cons.mpr ⟨closed.all t, closed.members rest⟩

end

end Value

/-! ## Writing -/

/-- A character that is printed in ASCII. -/
def Printed (c : Char) : Prop := 0x20 ≤ c.toNat ∧ c.toNat < 0x7F

instance (c : Char) : Decidable (Printed c) := inferInstanceAs (Decidable (_ ∧ _))

/-- How strings are written between quotation marks, and which code units they have. -/
structure Quoting (σ : Type u) where
  body : σ → List Char
  units : σ → List UInt16
  read : ∀ s rest, readString (body s ++ '"' :: rest) = some (units s, rest)
  printed : ∀ s, ∀ c ∈ body s, Printed c

/-- A string with its quotation marks. -/
def Quoting.text (q : Quoting σ) (s : σ) : List Char := '"' :: (q.body s ++ ['"'])

/-- Texts between brackets, separated. -/
def enclose (texts : List (List Char)) (close : Char) : List Char :=
  [',', ' '].intercalate texts ++ [close]

mutual

/-- The text of a value. -/
def write (q : Quoting σ) : Value σ → List Char
  | .null => ['n', 'u', 'l', 'l']
  | .bool true => ['t', 'r', 'u', 'e']
  | .bool false => ['f', 'a', 'l', 's', 'e']
  | .num n => n.text
  | .str s => q.text s
  | .arr items => '[' :: enclose (writeItems q items) ']'
  | .obj members => '{' :: enclose (writeMembers q members) '}'

def writeItems (q : Quoting σ) : List (Value σ) → List (List Char)
  | [] => []
  | t :: rest => write q t :: writeItems q rest

def writeMembers (q : Quoting σ) : List (σ × Value σ) → List (List Char)
  | [] => []
  | (k, t) :: rest => (q.text k ++ (':' :: ' ' :: write q t)) :: writeMembers q rest

end

theorem writeItems_eq (q : Quoting σ) (items : List (Value σ)) :
    writeItems q items = items.map (write q) := by
  induction items with
  | nil => rfl
  | cons t rest ih => rw [writeItems, ih, List.map_cons]

theorem writeMembers_eq (q : Quoting σ) (members : List (σ × Value σ)) :
    writeMembers q members =
      members.map fun m => q.text m.1 ++ (':' :: ' ' :: write q m.2) := by
  induction members with
  | nil => rfl
  | cons m rest ih => rw [writeMembers, ih, List.map_cons]

/-! ## Reading -/

def isBlank (c : Char) : Bool := c = ' ' || c = '\t' || c = '\n' || c = '\r'

def skip (s : List Char) : List Char := s.dropWhile isBlank

/-- The elements behind the first, up to the closing bracket. -/
def readMore {β : Type u} (close : Char) (item : List Char → Option (β × List Char)) :
    Nat → List Char → Option (List β × List Char)
  | 0, _ => none
  | fuel + 1, s =>
      match skip s with
      | [] => none
      | c :: rest =>
          if c = close then some ([], rest)
          else if c = ',' then do
            let (x, rest) ← item (skip rest)
            let (xs, rest) ← readMore close item fuel rest
            return (x :: xs, rest)
          else none

/-- What is behind an opening bracket, up to the closing one. -/
def readSequence {β : Type u} (close : Char) (item : List Char → Option (β × List Char))
    (fuel : Nat) (s : List Char) : Option (List β × List Char) :=
  match skip s with
  | [] => none
  | c :: rest =>
      if c = close then some ([], rest)
      else do
        let (x, rest) ← item (c :: rest)
        let (xs, rest) ← readMore close item fuel rest
        return (x :: xs, rest)

/-- A member of an object. -/
def readMember (value : List Char → Option (Value (List UInt16) × List Char)) :
    List Char → Option ((List UInt16 × Value (List UInt16)) × List Char)
  | '"' :: rest => do
      let (k, rest) ← readString rest
      match skip rest with
      | ':' :: rest => do
          let (t, rest) ← value (skip rest)
          return ((k, t), rest)
      | _ => none
  | _ => none

/-- A value at the beginning of a text. -/
def readValue : Nat → List Char → Option (Value (List UInt16) × List Char)
  | 0, _ => none
  | _ + 1, 'n' :: 'u' :: 'l' :: 'l' :: rest => some (.null, rest)
  | _ + 1, 't' :: 'r' :: 'u' :: 'e' :: rest => some (.bool true, rest)
  | _ + 1, 'f' :: 'a' :: 'l' :: 's' :: 'e' :: rest => some (.bool false, rest)
  | _ + 1, '"' :: rest => (readString rest).map fun (s, rest) => (.str s, rest)
  | fuel + 1, '[' :: rest =>
      (readSequence ']' (readValue fuel) fuel rest).map fun (items, rest) => (.arr items, rest)
  | fuel + 1, '{' :: rest =>
      (readSequence '}' (readMember (readValue fuel)) fuel rest).map fun (members, rest) =>
        (.obj members, rest)
  | _ + 1, s => (readNumber s).map fun (n, rest) => (.num n, rest)

/-- The value of a text, if it is one. A value within another is shorter. -/
def parse (text : List Char) : Option (Value (List UInt16)) := do
  let (t, rest) ← readValue text.length (skip text)
  if skip rest = [] then return t else none

end JsonText
