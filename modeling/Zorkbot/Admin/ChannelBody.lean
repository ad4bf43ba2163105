/-
# The body of a channel write

`_channel_from_body` makes a name and a key of whatever JSON an operator sends. The
library derives a key from the name where it gets none, so what is accepted matters: a
name without `#` comes with exactly the sixteen bytes that were sent, and a name with `#`
comes with none.
-/

import Zorkbot.Admin.Radio
import Zorkbot.Bot.Addressing

namespace Zorkbot.Admin

open Zorkbot.Bot (Str str isSpace)

/-! ## JSON as Python has it -/

/-- A character of a Python string that came by JSON. -/
inductive PyChar
  | scalar (c : Char)
  /-- A surrogate on its own, which no encoding has. -/
  | surrogate (n : Fin 2048)
  deriving DecidableEq

abbrev PyStr := List PyChar

inductive Json
  | null
  | bool (b : Bool)
  | int (n : Int)
  /-- A number with a fraction or an exponent, by the bits of the double. -/
  | float (bits : UInt64)
  | str (s : PyStr)
  | arr (items : List Json)
  | obj (entries : List (PyStr × Json))

namespace PyStr

/-- A string without surrogates. -/
def ofStr (s : Str) : PyStr := s.map .scalar

def isSpace : PyChar → Bool
  | .scalar c => Bot.isSpace c
  | .surrogate _ => false

/-- `str.strip()`. -/
def strip (s : PyStr) : PyStr :=
  (((s.dropWhile isSpace).reverse).dropWhile isSpace).reverse

/-- `ord(ch) < 0x20 or ord(ch) == 0x7F`. -/
def isControl : PyChar → Bool
  | .scalar c => c.toNat < 0x20 || c.toNat == 0x7F
  | .surrogate _ => false

/-- The string, unless `str.encode` raises. -/
def encode : PyStr → Option Str
  | [] => some []
  | .scalar c :: rest => (encode rest).map (c :: ·)
  | .surrogate _ :: _ => none

theorem encode_eq_some {s : PyStr} {text : Str} : encode s = some text ↔ s = ofStr text := by
  induction s generalizing text with
  | nil => cases text <;> simp [encode, ofStr]
  | cons c rest ih =>
      cases c with
      | surrogate n => cases text <;> simp [encode, ofStr]
      | scalar c =>
          cases text with
          | nil => simp [encode, ofStr]
          | cons d text =>
              simp only [encode, Option.map_eq_some_iff, List.cons.injEq, ih]
              simp [ofStr, and_comm]

theorem encode_eq_none {s : PyStr} : encode s = none ↔ ∃ n, .surrogate n ∈ s := by
  induction s with
  | nil => simp [encode]
  | cons c rest ih =>
      cases c with
      | scalar c => simp [encode, ih]
      | surrogate n =>
          rw [encode]
          exact iff_of_true rfl ⟨n, List.mem_cons_self⟩

end PyStr

namespace Json

/-- How Python takes a value as a condition. -/
def truthy : Json → Bool
  | .null => false
  | .bool b => b
  | .int n => n != 0
  | .float bits => bits &&& 0x7FFFFFFFFFFFFFFF != 0
  | .str s => !s.isEmpty
  | .arr items => !items.isEmpty
  | .obj entries => !entries.isEmpty

/-- `dict.get`, where the last of equal keys counts. -/
def get (entries : List (PyStr × Json)) (key : String) : Json :=
  match entries.reverse.find? fun entry => decide (entry.1 = PyStr.ofStr key.toList) with
  | some entry => entry.2
  | none => .null

end Json

/-! ## Hexadecimal keys -/

/-- The value of a hexadecimal digit. -/
def hexValue (c : Char) : Option Nat :=
  if '0' ≤ c ∧ c ≤ '9' then some (c.toNat - '0'.toNat)
  else if 'a' ≤ c ∧ c ≤ 'f' then some (c.toNat - 'a'.toNat + 10)
  else if 'A' ≤ c ∧ c ≤ 'F' then some (c.toNat - 'A'.toNat + 10)
  else none

/-- `_SECRET_RE.match`: its `$` is also before a last line feed. -/
def secretRe (s : Str) : Bool :=
  (s.take 32).length == 32 && (s.take 32).all (fun c => (hexValue c).isSome) &&
    (s.drop 32 == [] || s.drop 32 == ['\n'])

/-- The white space that `bytes.fromhex` skips. -/
def isAsciiSpace (c : Char) : Bool := (9 ≤ c.toNat && c.toNat ≤ 13) || c.toNat == 32

/-- `bytes.fromhex`. -/
def fromHex : Str → Option (List UInt8)
  | [] => some []
  | c :: rest =>
      if isAsciiSpace c then fromHex rest
      else
        match hexValue c, rest with
        | some high, d :: rest =>
            match hexValue d with
            | some low => (fromHex rest).map (UInt8.ofNat (16 * high + low) :: ·)
            | none => none
        | _, _ => none

/-- Sixteen bytes. -/
def toKey (bytes : List UInt8) : Option Key :=
  if sixteen : bytes.length = 16 then some ⟨⟨bytes⟩, sixteen⟩ else none

/-- The two digits of a byte. -/
def nibbles (b : UInt8) : List (Option Nat) := [some (b.toNat / 16), some (b.toNat % 16)]

/-- A text that spells a key, digit by digit; it may end with a line feed. -/
def Spells (text : Str) (key : Key) : Prop :=
  ∃ digits, (text = digits ∨ text = digits ++ ['\n']) ∧
    digits.map hexValue = key.toList.flatMap nibbles

/-! ## The validation -/

/-- Where the key comes from. -/
inductive KeySource
  | derived
  | provided
  deriving DecidableEq

/-- How a body is turned away. -/
inductive Rejection
  | http (status : Nat) (error description : Str)
  /-- An exception that is no `HTTPException`. -/
  | exception
  deriving DecidableEq

/-- `MAX_CHANNEL_NAME_BYTES`. -/
def maxChannelNameBytes : Nat := 31

def invalidName (description : String) : Rejection :=
  .http 400 "invalid_name".toList description.toList

/-- How many bytes a text has in UTF-8. -/
def utf8Bytes (text : Str) : Nat := (text.map Char.utf8Size).sum

/-- `_channel_from_body`, from when the name is known. -/
def keyFromBody (name : Str) (secret : Json) : Except Rejection (Str × Option Key × KeySource) :=
  if name.head? = some '#' then
    if secret.truthy then
      .error (.http 400 "secret_not_used".toList
        ("a channel whose name starts with '#' derives its key from the name, so the key given " ++
          "here would be ignored — and the channel is public either way").toList)
    else .ok (name, none, .derived)
  else if !secret.truthy then
    .error (.http 400 "secret_required".toList
      ("a channel whose name does not start with '#' needs a 16-byte key; without one the radio " ++
        "would derive the key from the name, and anyone who can read the name could compute " ++
        "it").toList)
  else
    let invalid := Rejection.http 400 "invalid_secret".toList
      "the key must be 32 hex characters (16 bytes)".toList
    match secret with
    | .str raw =>
        match PyStr.encode raw with
        | none => .error invalid
        | some text =>
            if secretRe text then
              match (fromHex text).bind toKey with
              | some key => .ok (name, some key, .provided)
              | none => .error .exception
            else .error invalid
    | _ => .error invalid

/-- `_channel_from_body`. Without a body there is `None`. -/
def channelFromBody : Option Json → Except Rejection (Str × Option Key × KeySource)
  | some (.obj entries) =>
      match Json.get entries "name" with
      | .str raw =>
          let name := PyStr.strip raw
          if name = [] then .error (invalidName "name is required")
          else if name.any PyStr.isControl then
            .error (invalidName "name must not contain control characters")
          else
            match PyStr.encode name with
            | none => .error .exception
            | some name =>
                if utf8Bytes name > maxChannelNameBytes then
                  .error (.http 400 "name_too_long".toList
                    ("name must be at most ".toList ++ str maxChannelNameBytes ++
                      (" bytes as UTF-8; the radio silently truncates anything " ++
                        "longer").toList))
                else keyFromBody name (Json.get entries "secret")
      | _ => .error (invalidName "name is required")
  | _ => .error (invalidName "a JSON object with a name is required")

/-! ## Keys -/

theorem toNat_of_hexValue {c : Char} {v : Nat} (digit : hexValue c = some v) :
    v < 16 ∧ 48 ≤ c.toNat := by
  have order : ∀ {a b : Char}, a ≤ b → a.toNat ≤ b.toNat := fun le => le
  unfold hexValue at digit
  split at digit
  · next range =>
      have low : 48 ≤ c.toNat := order range.1
      have high : c.toNat ≤ 57 := order range.2
      simp only [Option.some.injEq] at digit
      change c.toNat - 48 = v at digit
      omega
  · split at digit
    · next range =>
        have low : 97 ≤ c.toNat := order range.1
        have high : c.toNat ≤ 102 := order range.2
        simp only [Option.some.injEq] at digit
        change c.toNat - 97 + 10 = v at digit
        omega
    · split at digit
      · next range =>
          have low : 65 ≤ c.toNat := order range.1
          have high : c.toNat ≤ 70 := order range.2
          simp only [Option.some.injEq] at digit
          change c.toNat - 65 + 10 = v at digit
          omega
      · cases digit

theorem not_space_of_digit {c : Char} (digit : (hexValue c).isSome = true) :
    isAsciiSpace c = false := by
  obtain ⟨v, value⟩ := Option.isSome_iff_exists.mp digit
  have low := (toNat_of_hexValue value).2
  simp only [isAsciiSpace, Bool.or_eq_false_iff, Bool.and_eq_false_iff, decide_eq_false_iff_not,
    beq_eq_false_iff_ne]
  omega

/-- Digits in pairs are read as bytes, up to white space at the end. -/
theorem fromHex_digits (k : Nat) {digits tail : Str} (even : digits.length = 2 * k)
    (hex : ∀ c ∈ digits, (hexValue c).isSome = true) (spaces : fromHex tail = some []) :
    ∃ bytes, fromHex (digits ++ tail) = some bytes ∧ bytes.length = k ∧
      digits.map hexValue = bytes.flatMap nibbles := by
  induction k generalizing digits with
  | zero =>
      rw [List.length_eq_zero_iff] at even
      subst even
      exact ⟨[], spaces, rfl, rfl⟩
  | succ k ih =>
      match digits with
      | [] | [_] => simp at even; try omega
      | c :: d :: rest =>
          have shorter : rest.length = 2 * k := by
            simp only [List.length_cons] at even
            omega
          obtain ⟨bytes, read, length, spelled⟩ := ih shorter fun e among => hex e (by simp [among])
          obtain ⟨high, value⟩ := Option.isSome_iff_exists.mp (hex c (by simp))
          obtain ⟨low, value'⟩ := Option.isSome_iff_exists.mp (hex d (by simp))
          have highBound := (toNat_of_hexValue value).1
          have lowBound := (toNat_of_hexValue value').1
          have byte : (UInt8.ofNat (16 * high + low)).toNat = 16 * high + low := by
            rw [UInt8.toNat_ofNat']
            omega
          refine ⟨UInt8.ofNat (16 * high + low) :: bytes, ?_, congrArg (· + 1) length, ?_⟩
          · simp [fromHex, not_space_of_digit (hex c (by simp)), value, value', read]
          · simp only [List.map_cons, List.flatMap_cons, nibbles, byte, value, value', spelled]
            rw [show (16 * high + low) / 16 = high by omega,
              show (16 * high + low) % 16 = low by omega]
            rfl

/-- What the pattern matches is the spelling of a key, and is read as that key. -/
theorem key_of_secretRe {text : Str} (matched : secretRe text = true) :
    ∃ key, (fromHex text).bind toKey = some key ∧ Spells text key := by
  simp only [secretRe, Bool.and_eq_true, beq_iff_eq, List.all_eq_true, Bool.or_eq_true] at matched
  obtain ⟨⟨length, hex⟩, rest⟩ := matched
  have spaces : fromHex (text.drop 32) = some [] := by
    rcases rest with none | feed
    · rw [none]; rfl
    · rw [feed]; rfl
  obtain ⟨bytes, read, sixteen, spelled⟩ := fromHex_digits 16 length hex spaces
  rw [List.take_append_drop] at read
  refine ⟨⟨⟨bytes⟩, sixteen⟩, ?_, text.take 32, ?_, spelled⟩
  · rw [read, Option.bind_some, toKey, dif_pos sixteen]
  · rcases rest with none | feed
    · left
      rw [List.take_of_length_le (List.drop_eq_nil_iff.mp none)]
    · right
      rw [← feed, List.take_append_drop]

/-! ## What is accepted -/

/-- A name and a key that may be written for a body. -/
structure Sound (body : Option Json) (name : Str) (secret : Option Key) : Prop where
  /-- The name is the one in the body, trimmed. -/
  named : ∃ entries raw, body = some (.obj entries) ∧ Json.get entries "name" = .str raw ∧
    PyStr.strip raw = PyStr.ofStr name
  nonempty : name ≠ []
  plain : ∀ c ∈ name, 0x20 ≤ c.toNat ∧ c.toNat ≠ 0x7F
  short : utf8Bytes name ≤ 31
  /-- The key is the one in the body, spelled out, or there is none and the name has `#`. -/
  keyed : name.head? = some '#' ∧ secret = none ∨
    name.head? ≠ some '#' ∧ ∃ entries text key, body = some (.obj entries) ∧
      Json.get entries "secret" = .str (PyStr.ofStr text) ∧ Spells text key ∧ secret = some key

theorem keyFromBody_ok {name name' : Str} {secret : Json} {key : Option Key} {source : KeySource}
    (accepted : keyFromBody name secret = .ok (name', key, source)) :
    name' = name ∧ (name.head? = some '#' ∧ key = none ∨
      name.head? ≠ some '#' ∧ ∃ text k, secret = .str (PyStr.ofStr text) ∧ Spells text k ∧
        key = some k) := by
  unfold keyFromBody at accepted
  split at accepted
  · next hashtag =>
      split at accepted
      · cases accepted
      · cases accepted
        exact ⟨rfl, .inl ⟨hashtag, rfl⟩⟩
  · next other =>
      split at accepted
      · cases accepted
      · dsimp only at accepted
        split at accepted
        · next raw =>
            split at accepted
            · cases accepted
            · next text encoded =>
                split at accepted
                · next matched =>
                    obtain ⟨k, read, spelled⟩ := key_of_secretRe matched
                    rw [read] at accepted
                    cases accepted
                    exact ⟨rfl, .inr ⟨other, text, k,
                      congrArg Json.str (PyStr.encode_eq_some.mp encoded), spelled, rfl⟩⟩
                · cases accepted
        · cases accepted

/-- The name in the body passes the test of its characters and has a surrogate on its own. -/
def SurrogateName (body : Option Json) : Prop :=
  ∃ entries raw, body = some (.obj entries) ∧ Json.get entries "name" = .str raw ∧
    (PyStr.strip raw).any PyStr.isControl = false ∧ ∃ n, .surrogate n ∈ PyStr.strip raw

/-- What becomes of a body: it is refused, its name raises, or its name is known. -/
inductive Named (body : Option Json) : Except Rejection (Str × Option Key × KeySource) → Prop
  | refused {error description : Str} (fine : ¬SurrogateName body) :
      Named body (.error (.http 400 error description))
  | raised (bad : SurrogateName body) : Named body (.error .exception)
  | known {entries : List (PyStr × Json)} {raw : PyStr} {name : Str}
      (is : body = some (.obj entries)) (given : Json.get entries "name" = .str raw)
      (trimmed : PyStr.strip raw = PyStr.ofStr name) (fine : ¬SurrogateName body)
      (nonempty : name ≠ []) (plain : ∀ c ∈ name, 0x20 ≤ c.toNat ∧ c.toNat ≠ 0x7F)
      (short : utf8Bytes name ≤ 31) : Named body (keyFromBody name (Json.get entries "secret"))

theorem named_channelFromBody (body : Option Json) : Named body (channelFromBody body) := by
  unfold channelFromBody
  split
  · next entries =>
      split
      · next raw given =>
          have named (bad : SurrogateName (some (.obj entries))) :
              (PyStr.strip raw).any PyStr.isControl = false ∧
                ∃ n, .surrogate n ∈ PyStr.strip raw := by
            obtain ⟨entries', raw', is, given', rest⟩ := bad
            cases is
            cases given.symm.trans given'
            exact rest
          dsimp only
          split
          · next empty =>
              refine .refused fun bad => ?_
              obtain ⟨-, n, there⟩ := named bad
              exact absurd (empty ▸ there) List.not_mem_nil
          · next nonempty =>
              split
              · next control => exact .refused fun bad => absurd control (by simp [(named bad).1])
              · next plain =>
                  have plain := Bool.eq_false_of_not_eq_true plain
                  split
                  · next none =>
                      exact .raised ⟨entries, raw, rfl, given, plain, PyStr.encode_eq_none.mp none⟩
                  · next name encoded =>
                      have whole : ¬SurrogateName (some (.obj entries)) := fun bad =>
                        absurd (PyStr.encode_eq_none.mpr (named bad).2) (by simp [encoded])
                      have same := PyStr.encode_eq_some.mp encoded
                      split
                      · exact .refused whole
                      · next short =>
                          refine .known rfl given same whole ?_ (fun c among => ?_) (not_lt.mp short)
                          · rintro rfl
                            exact nonempty same
                          · have outside := List.any_eq_false.mp plain (.scalar c)
                              (same ▸ List.mem_map_of_mem among)
                            simpa [PyStr.isControl] using outside
      · next other =>
          refine .refused fun bad => ?_
          obtain ⟨_, raw, is, given, -⟩ := bad
          cases is
          exact other raw given
  · next other =>
      refine .refused fun bad => ?_
      obtain ⟨entries, _, is, -⟩ := bad
      exact other entries is

/-- Whatever the body is, what is accepted is sound. -/
theorem sound_of_channelFromBody {body : Option Json} {name : Str} {secret : Option Key}
    {source : KeySource} (accepted : channelFromBody body = .ok (name, secret, source)) :
    Sound body name secret := by
  have named := named_channelFromBody body
  generalize channelFromBody body = outcome at named accepted
  cases named with
  | refused => cases accepted
  | raised => cases accepted
  | @known entries raw name' is given trimmed _ nonempty plain short =>
      obtain ⟨rfl, keyed⟩ := keyFromBody_ok accepted
      refine ⟨⟨entries, raw, is, given, trimmed⟩, nonempty, plain, short, ?_⟩
      refine keyed.imp_right fun ⟨other, text, k, spelled⟩ => ?_
      exact ⟨other, entries, text, k, is, spelled⟩

/-! ## What is refused -/

/-- A triple, or a refusal with status 400. -/
def Validated : Except Rejection (Str × Option Key × KeySource) → Prop
  | .ok _ => True
  | .error (.http status _ _) => status = 400
  | .error .exception => False

/-- Once the name is known nothing raises: the pattern lets through what `bytes.fromhex` reads. -/
theorem validated_keyFromBody (name : Str) (secret : Json) :
    Validated (keyFromBody name secret) := by
  unfold keyFromBody
  split
  · split
    · rfl
    · trivial
  · split
    · rfl
    · dsimp only
      split
      · split
        · rfl
        · split
          · next matched =>
              obtain ⟨key, read, -⟩ := key_of_secretRe matched
              rw [read]
              trivial
          · rfl
      · rfl

/-- Every body is validated, whatever types and values it has, unless its name has a surrogate
that UTF-8 has not. -/
theorem body_validated_iff (body : Option Json) :
    Validated (channelFromBody body) ↔ ¬ SurrogateName body := by
  have named := named_channelFromBody body
  generalize channelFromBody body = outcome at named ⊢
  cases named with
  | refused fine => exact iff_of_true rfl fine
  | raised bad => exact iff_of_false id (not_not.mpr bad)
  | known _ _ _ fine => exact iff_of_true (validated_keyFromBody _ _) fine

/-- The body `{"name": "\ud800"}`. -/
def surrogateBody : Json := .obj [(PyStr.ofStr "name".toList, .str [.surrogate 0])]

theorem surrogate_raises :
    channelFromBody (some surrogateBody) = .error .exception ∧
      ¬ Validated (channelFromBody (some surrogateBody)) := by
  have raised : channelFromBody (some surrogateBody) = .error .exception := by decide
  refine ⟨raised, ?_⟩
  rw [raised]
  exact id

end Zorkbot.Admin
