/-
# TOML as Python has it

A document is a table. What is done to a value depends on what it is: a section that is no table
is searched, indexed and iterated over as the string or the array that it is, or the interpreter
raises. What the interpreter makes of a floating point number or shows of a value is a parameter.
-/

import Zorkbot.Bot.Addressing
import Zorkbot.Data.Numeral
import Mathlib.Data.Char
import Mathlib.Data.List.Infix
import Mathlib.Data.List.Lex
import Mathlib.Data.List.Sort

namespace Zorkbot.Config

open Zorkbot.Bot (Str)

/-- A floating point number, by its bits. -/
structure Double where
  bits : UInt64
  deriving DecidableEq

inductive Toml
  | str (s : Str)
  | int (n : Int)
  | float (x : Double)
  | bool (b : Bool)
  /-- A date, a time or both. -/
  | moment (text : Str)
  | arr (items : List Toml)
  | table (entries : List (Str × Toml))

/-- What the interpreter raises. -/
inductive PyError
  | type
  | value
  | key
  | attribute
  | overflow
  deriving DecidableEq

/-- The interpreter, where a configuration depends on it. -/
structure Python where
  /-- `str` of what is no string. -/
  shown : Toml → Str
  /-- `int` of a floating point number. -/
  truncated : Double → Except PyError Int
  /-- `float` of an integer. -/
  converted : Int → Except PyError Double
  /-- `float` of a string. -/
  parsed : Str → Except PyError Double
  /-- `sorted` of a list. -/
  sorted : List Toml → Except PyError (List Toml)
  /-- `str.lower`. -/
  lower : Str → Str

namespace Toml

/-- How a value counts as a condition. -/
def truthy : Toml → Bool
  | .str s => s ≠ []
  | .int n => n ≠ 0
  | .float x => x.bits &&& 0x7FFFFFFFFFFFFFFF ≠ 0
  | .bool b => b
  | .moment _ => true
  | .arr items => !items.isEmpty
  | .table entries => !entries.isEmpty

/-! ## Conversions -/

/-- `str`. -/
def toStr (py : Python) : Toml → Str
  | .str s => s
  | value => py.shown value

/-- `int`. -/
def toInt (py : Python) : Toml → Except PyError Int
  | .int n => .ok n
  | .float x => py.truncated x
  | .bool b => .ok b.toNat
  | .str s =>
      match Numeral.ofText s with
      | some n => .ok n
      | none => .error .value
  | .moment _ | .arr _ | .table _ => .error .type

/-- `float`. -/
def toFloat (py : Python) : Toml → Except PyError Double
  | .float x => .ok x
  | .int n => py.converted n
  | .bool b => py.converted b.toNat
  | .str s => py.parsed s
  | .moment _ | .arr _ | .table _ => .error .type

/-! ## Containers -/

/-- The value of a key, of which there is one. -/
def find (entries : List (Str × Toml)) (key : Str) : Option Toml :=
  (entries.find? fun entry => entry.1 = key).map Prod.snd

/-- `key in value`. -/
def contains (key : Str) : Toml → Except PyError Bool
  | .table entries => .ok (find entries key).isSome
  | .str s => .ok (decide (key <:+: s))
  | .arr items => .ok (items.any fun
      | .str s => s = key
      | _ => false)
  | .int _ | .float _ | .bool _ | .moment _ => .error .type

/-- `value[key]`. -/
def item (key : Str) : Toml → Except PyError Toml
  | .table entries =>
      match find entries key with
      | some value => .ok value
      | none => .error .key
  | .str _ | .arr _ | .int _ | .float _ | .bool _ | .moment _ => .error .type

/-- `value.get(key)`. -/
def get (key : Str) : Toml → Except PyError (Option Toml)
  | .table entries => .ok (find entries key)
  | .str _ | .arr _ | .int _ | .float _ | .bool _ | .moment _ => .error .attribute

/-- What is in a value, one after another. -/
def elements : Toml → Except PyError (List Toml)
  | .table entries => .ok (entries.map fun entry => .str entry.1)
  | .str s => .ok (s.map fun c => .str [c])
  | .arr items => .ok items
  | .int _ | .float _ | .bool _ | .moment _ => .error .type

/-- `sorted`. Strings are compared by code points. -/
def sorted (py : Python) : Toml → Except PyError (List Toml)
  | .table entries => .ok (((entries.map Prod.fst).insertionSort fun a b => a ≤ b).map .str)
  | .str s => .ok ((s.insertionSort fun a b => a ≤ b).map fun c => .str [c])
  | .arr items => py.sorted items
  | .int _ | .float _ | .bool _ | .moment _ => .error .type

end Toml

end Zorkbot.Config
