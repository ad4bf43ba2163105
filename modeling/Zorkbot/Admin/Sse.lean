/-
# Events over a stream

The server writes an event as a frame of two lines and a comment now and then, and encodes them in
UTF-8. The console decodes what comes in chunks, cuts what it has at blank lines and reads each
frame line by line. `json.dumps` escapes line feeds and all that is not ASCII, so no frame has a
blank line inside.
-/

import Zorkbot.Admin.ChannelBody
import Zorkbot.Data.Cutting
import Zorkbot.Data.JsonRoundTrip
import Zorkbot.Data.Utf8Stream

namespace Zorkbot.Admin

open JsonText (Printed Quoting Value escapeUnit prepend readString unitsOf)
open Zorkbot.Bot (Str)

/-! ## The server -/

/-- How `json.dumps` writes a character of a string. -/
def escapeChar : PyChar → Str
  | .scalar c =>
      if c = '"' then ['\\', '"']
      else if c = '\\' then ['\\', '\\']
      else if c = '\n' then ['\\', 'n']
      else if c = '\r' then ['\\', 'r']
      else if c = '\t' then ['\\', 't']
      else if c = '\x0C' then ['\\', 'f']
      else if c = '\x08' then ['\\', 'b']
      else if ' ' ≤ c ∧ c ≤ '~' then [c]
      else if c.toNat < 0x10000 then escapeUnit c.toNat
      else
        escapeUnit (0xD800 + (c.toNat - 0x10000) / 0x400) ++
          escapeUnit (0xDC00 + (c.toNat - 0x10000) % 0x400)
  | .surrogate n => escapeUnit (0xD800 + n)

/-- The code units of a character in JavaScript. -/
def PyChar.units : PyChar → List UInt16
  | .scalar c => unitsOf c
  | .surrogate n => [UInt16.ofNat (0xD800 + n)]

def PyStr.units (s : PyStr) : List UInt16 := s.flatMap PyChar.units

theorem prepend_prepend (a b : List UInt16) (read : Option (List UInt16 × List Char)) :
    prepend a (prepend b read) = prepend (a ++ b) read := by
  cases read with
  | none => rfl
  | some read => simp [prepend]

/-- A character is read back as its code units. -/
theorem readString_escapeChar (c : PyChar) (rest : Str) :
    readString (escapeChar c ++ rest) = prepend c.units (readString rest) := by
  cases c with
  | surrogate n => exact JsonText.readString_escapeUnit (by omega) rest
  | scalar c =>
      unfold escapeChar
      dsimp only
      split_ifs with quote backslash lf cr tab ff bs printed basic
      · subst quote
        exact JsonText.readString_unescape rfl rest
      · subst backslash
        exact JsonText.readString_unescape rfl rest
      · subst lf
        exact JsonText.readString_unescape rfl rest
      · subst cr
        exact JsonText.readString_unescape rfl rest
      · subst tab
        exact JsonText.readString_unescape rfl rest
      · subst ff
        exact JsonText.readString_unescape rfl rest
      · subst bs
        exact JsonText.readString_unescape rfl rest
      · exact JsonText.readString_plain ⟨quote, backslash, printed.1⟩ rest
      · rw [JsonText.readString_escapeUnit basic, PyChar.units, unitsOf, if_pos basic]
      · have valid : c.toNat < 0x110000 := by
          have : c.toNat < 0xD800 ∨ 0xDFFF < c.toNat ∧ c.toNat < 0x110000 := c.valid
          omega
        rw [List.append_assoc, JsonText.readString_escapeUnit (by omega),
          JsonText.readString_escapeUnit (by omega), prepend_prepend, PyChar.units, unitsOf,
          if_neg basic]
        rfl

theorem printed_escapeUnit (n : Nat) : ∀ c ∈ escapeUnit n, Printed c := by
  have digits : ∀ d < 16, Printed (Nat.digitChar d) := by decide
  intro c there
  simp only [escapeUnit, List.mem_cons, List.not_mem_nil, or_false] at there
  rcases there with rfl | rfl | rfl | rfl | rfl | rfl
  · decide
  · decide
  all_goals exact digits _ (Nat.mod_lt _ (by decide))

theorem printed_escapeChar (c : PyChar) : ∀ d ∈ escapeChar c, Printed d := by
  cases c with
  | surrogate n => exact printed_escapeUnit _
  | scalar c =>
      unfold escapeChar
      dsimp only
      split_ifs with quote backslash lf cr tab ff bs printed basic
      iterate 7 exact JsonText.printed_of_all rfl
      · intro d there
        rw [List.mem_singleton.mp there]
        have most : c.toNat ≤ '~'.toNat := printed.2
        exact ⟨printed.1, Nat.lt_succ_of_le most⟩
      · exact printed_escapeUnit _
      · intro d there
        rcases List.mem_append.mp there with there | there
        · exact printed_escapeUnit _ d there
        · exact printed_escapeUnit _ d there

/-- How `json.dumps` writes a string. -/
def quoting : Quoting PyStr where
  body s := s.flatMap escapeChar
  units := PyStr.units
  read s rest := by
    induction s with
    | nil => rfl
    | cons c s ih =>
        rw [List.flatMap_cons, List.append_assoc, readString_escapeChar, ih]
        rfl
  printed s d there := by
    obtain ⟨c, _, inside⟩ := List.mem_flatMap.mp there
    exact printed_escapeChar c d inside

/-- `json.dumps`. A number is an integer or a finite float, by what Python shows of it. -/
def dumps (data : Value PyStr) : Str := JsonText.write quoting data

/-- `_sse`, and `_sse_format` of an item's event and data. -/
def sse (event : Str) (data : Value PyStr) : Str :=
  "event: ".toList ++ event ++ "\ndata: ".toList ++ dumps data ++ "\n\n".toList

/-- What a source of events yields. -/
inductive SseItem
  | event (name : Str) (data : Value PyStr)
  | ping

def SseItem.text : SseItem → Str
  | .event name data => sse name data
  | .ping => ": ping\n\n".toList

/-- The response. -/
def sseBytes (items : List SseItem) : List UInt8 :=
  items.flatMap fun item => item.text.flatMap String.utf8EncodeChar

/-! ## The console -/

/-- A `TextDecoder`. -/
structure TextDecoder where
  state : Option Utf8.Partial
  /-- Whether a character has come: a byte order mark is dropped when it is the first. -/
  begun : Bool

/-- `decoder.decode(value, { stream: true })`. -/
def TextDecoder.decode (d : TextDecoder) (value : List UInt8) : TextDecoder × Str :=
  match Utf8.decode d.state value with
  | (state, []) => (⟨state, d.begun⟩, [])
  | (state, c :: text) =>
      (⟨state, true⟩, if d.begun = false ∧ c = '\uFEFF' then text else c :: text)

/-- White space and line terminators of JavaScript. -/
def isJsSpace (c : Char) : Bool :=
  let n := c.toNat
  (9 ≤ n && n ≤ 13) || n == 0x20 || n == 0xA0 || n == 0x1680 || (0x2000 ≤ n && n ≤ 0x200A) ||
    n == 0x2028 || n == 0x2029 || n == 0x202F || n == 0x205F || n == 0x3000 || n == 0xFEFF

/-- `trim`. -/
def jsTrim (s : Str) : Str := (((s.dropWhile isJsSpace).reverse).dropWhile isJsSpace).reverse

/-- The loop of `parseSseFrame`: the event and the data, or a comment. -/
def sseLines (event dataLine : Str) : List Str → Option (Str × Str)
  | [] => some (event, dataLine)
  | line :: rest =>
      if "event:".toList <+: line then sseLines (jsTrim (line.drop 6)) dataLine rest
      else if "data:".toList <+: line then sseLines event (dataLine ++ jsTrim (line.drop 5)) rest
      else if ":".toList <+: line then none
      else sseLines event dataLine rest

variable {δ : Type}

/-- `parseSseFrame`, where the engine makes a value of what a JSON text says. -/
def parseSseFrame (engine : Value (List UInt16) → δ) (raw : Str) : Option (Str × δ) := do
  let (event, dataLine) ← sseLines "message".toList [] (raw.splitOn '\n')
  if dataLine = [] then none
  else return (event, engine (← JsonText.parse dataLine))

/-- Where frames end. -/
def blankLine : Cutting.Separator Char := ⟨['\n', '\n'], List.cons_ne_nil _ _⟩

/-- The variables of `readSse`, and what `onEvent` was called with. -/
structure SseReader (δ : Type) where
  decoder : TextDecoder
  buf : Str
  delivered : List (Str × δ)

/-- `reader.read()` gave a chunk. -/
def SseReader.read (engine : Value (List UInt16) → δ) (r : SseReader δ) (value : List UInt8) :
    SseReader δ :=
  let decoded := r.decoder.decode value
  let drained := Cutting.drain blankLine (r.buf ++ decoded.2)
  ⟨decoded.1, drained.2, r.delivered ++ drained.1.filterMap (parseSseFrame engine)⟩

/-- `readSse` of a response that comes in these chunks. -/
def readSse (engine : Value (List UInt16) → δ) (chunks : List (List UInt8)) : List (Str × δ) :=
  (chunks.foldl (SseReader.read engine) ⟨⟨none, false⟩, [], []⟩).delivered

/-! ## The chunks -/

/-- A text without a byte order mark at the beginning. -/
def unmarked : Str → Str
  | [] => []
  | c :: text => if c = '\uFEFF' then text else c :: text

theorem unmarked_append (s t : Str) :
    unmarked (s ++ t) = unmarked s ++ if s = [] then unmarked t else t := by
  cases s with
  | nil => rfl
  | cons c s =>
      rw [if_neg (List.cons_ne_nil c s), List.cons_append, unmarked, unmarked]
      split <;> rfl

/-- The decoder after these bytes. -/
def decoderAfter (bytes : List UInt8) : TextDecoder :=
  ⟨(Utf8.decode none bytes).1, (Utf8.decode none bytes).2 ≠ []⟩

theorem decode_decoderAfter (bytes chunk : List UInt8) :
    (decoderAfter bytes).decode chunk = (decoderAfter (bytes ++ chunk),
      if (Utf8.decode none bytes).2 = [] then
        unmarked (Utf8.decode (Utf8.decode none bytes).1 chunk).2
      else (Utf8.decode (Utf8.decode none bytes).1 chunk).2) := by
  rw [decoderAfter, decoderAfter, Utf8.decode_append, TextDecoder.decode]
  generalize Utf8.decode none bytes = before
  dsimp only
  generalize Utf8.decode before.1 chunk = now
  obtain ⟨state, _ | ⟨c, text⟩⟩ := now
  · simp [unmarked]
  · by_cases begun : before.2 = []
    · simp [begun, unmarked]
    · simp [begun]

variable {engine : Value (List UInt16) → δ}

/-- The reader after these bytes. -/
def readerAfter (engine : Value (List UInt16) → δ) (bytes : List UInt8) : SseReader δ :=
  let drained := Cutting.drain blankLine (unmarked (Utf8.decode none bytes).2)
  ⟨decoderAfter bytes, drained.2, drained.1.filterMap (parseSseFrame engine)⟩

/-- It does not matter where the bytes are cut. -/
theorem read_readerAfter (bytes chunk : List UInt8) :
    (readerAfter engine bytes).read engine chunk = readerAfter engine (bytes ++ chunk) := by
  have text : unmarked (Utf8.decode none (bytes ++ chunk)).2 =
      unmarked (Utf8.decode none bytes).2 ++ ((decoderAfter bytes).decode chunk).2 := by
    rw [Utf8.decode_append, unmarked_append, decode_decoderAfter]
  have decoder : ((decoderAfter bytes).decode chunk).1 = decoderAfter (bytes ++ chunk) := by
    rw [decode_decoderAfter]
  rw [readerAfter, readerAfter, text, Cutting.drain_append, ← decoder, SseReader.read]
  dsimp only
  rw [List.filterMap_append]

theorem readerAfter_nil : readerAfter engine [] = ⟨⟨none, false⟩, [], []⟩ := by
  have empty : Cutting.drain blankLine (unmarked []) = ([], []) := Cutting.drain_of_none rfl
  rw [readerAfter, Utf8.decode, empty, decoderAfter, Utf8.decode]
  simp

theorem readSse_eq (chunks : List (List UInt8)) :
    readSse engine chunks = (readerAfter engine chunks.flatten).delivered := by
  have after (bytes : List UInt8) :
      chunks.foldl (SseReader.read engine) (readerAfter engine bytes) =
        readerAfter engine (bytes ++ chunks.flatten) := by
    induction chunks generalizing bytes with
    | nil => rw [List.foldl_nil, List.flatten_nil, List.append_nil]
    | cons chunk chunks ih =>
        rw [List.foldl_cons, read_readerAfter, ih, List.flatten_cons, List.append_assoc]
  rw [readSse, ← readerAfter_nil, after, List.nil_append]

/-! ## The frames -/

/-- An event whose name has no white space. -/
def SseItem.Spaceless : SseItem → Prop
  | .event name _ => ∀ c ∈ name, isJsSpace c = false
  | .ping => True

/-- What is in front of the blank line. -/
def SseItem.frame : SseItem → Str
  | .event name data => "event: ".toList ++ name ++ '\n' :: ("data: ".toList ++ dumps data)
  | .ping => ": ping".toList

/-- What the console is to be given. -/
def SseItem.delivered (engine : Value (List UInt16) → δ) : SseItem → Option (Str × δ)
  | .event name data => some (name, engine (data.map PyStr.units))
  | .ping => none

theorem SseItem.text_eq (item : SseItem) : item.text = item.frame ++ blankLine.piece := by
  cases item with
  | ping => rfl
  | event name data =>
      change "event: ".toList ++ name ++ '\n' :: "data: ".toList ++ dumps data ++ ['\n', '\n'] =
        "event: ".toList ++ name ++ '\n' :: ("data: ".toList ++ dumps data) ++ ['\n', '\n']
      simp only [List.append_assoc, List.cons_append]

theorem lf_notMem_name {name : Str} (spaceless : ∀ c ∈ name, isJsSpace c = false) :
    '\n' ∉ "event: ".toList ++ name := by
  intro there
  rcases List.mem_append.mp there with there | there
  · exact absurd there (by simp)
  · cases spaceless _ there

theorem lf_notMem_data (data : Value PyStr) : '\n' ∉ "data: ".toList ++ dumps data := by
  intro there
  rcases List.mem_append.mp there with there | there
  · exact absurd there (by simp)
  · exact absurd (JsonText.printed_write quoting data _ there) (by decide)

theorem indexOf_blankLine : Cutting.indexOf ['\n', '\n'] ['\n', '\n'] = some 0 := rfl

/-- The blank line behind a frame is its first. -/
theorem SseItem.framed {item : SseItem} (spaceless : item.Spaceless) :
    Cutting.Framed blankLine.piece item.frame := by
  have skip {part : Str} (without : '\n' ∉ part) (s : Str) :
      Cutting.indexOf ['\n', '\n'] (part ++ s) =
        (Cutting.indexOf ['\n', '\n'] s).map (· + part.length) :=
    Cutting.indexOf_append_of_notMem without s
  cases item with
  | ping => exact (skip (show '\n' ∉ ": ping".toList by simp) ['\n', '\n']).trans rfl
  | event name data =>
      have elsewhere (s : Str) : ¬['\n', '\n'] <+: '\n' :: ("data: ".toList ++ s) := by simp
      change Cutting.indexOf ['\n', '\n']
        ("event: ".toList ++ name ++ '\n' :: ("data: ".toList ++ dumps data) ++ ['\n', '\n']) =
        some ("event: ".toList ++ name ++ '\n' :: ("data: ".toList ++ dumps data)).length
      rw [List.append_assoc, List.cons_append, skip (lf_notMem_name spaceless), Cutting.indexOf,
        List.append_assoc, if_neg (elsewhere _), ← List.append_assoc,
        skip (lf_notMem_data data), indexOf_blankLine]
      simp only [Option.map_some, List.length_append, List.length_cons]
      congr 1
      omega

/-! ## The lines -/

/-- `trim` takes the blank in front away and nothing else. -/
theorem jsTrim_blank {s : Str} (head : ∀ c ∈ s.head?, isJsSpace c = false)
    (last : ∀ c ∈ s.getLast?, isJsSpace c = false) : jsTrim (' ' :: s) = s := by
  have kept {s : Str} (head : ∀ c ∈ s.head?, isJsSpace c = false) : s.dropWhile isJsSpace = s := by
    cases s with
    | nil => rfl
    | cons c s => exact List.dropWhile_cons_of_neg (by simp [head c rfl])
  rw [← List.head?_reverse] at last
  rw [jsTrim, List.dropWhile_cons_of_pos rfl, kept head, kept last, List.reverse_reverse]

theorem isJsSpace_of_printed {c : Char} (printed : Printed c) (ink : c ≠ ' ') :
    isJsSpace c = false := by
  have other : c.toNat ≠ 0x20 := fun same => ink (Char.toNat_inj.mp same)
  obtain ⟨least, most⟩ := printed
  simp only [isJsSpace, Bool.or_eq_false_iff, Bool.and_eq_false_iff, decide_eq_false_iff_not,
    beq_eq_false_iff_ne]
  omega

theorem jsTrim_name {name : Str} (spaceless : ∀ c ∈ name, isJsSpace c = false) :
    jsTrim (' ' :: name) = name :=
  jsTrim_blank (fun c there => spaceless c (List.mem_of_head? there))
    fun c there => spaceless c (List.mem_of_getLast? there)

theorem jsTrim_dumps (data : Value PyStr) : jsTrim (' ' :: dumps data) = dumps data := by
  have printed := JsonText.printed_write quoting data
  obtain ⟨first, rest, is, ink, _⟩ := JsonText.begins_write quoting data
  obtain ⟨final, final_, other⟩ := JsonText.getLast_write quoting data
  refine jsTrim_blank (fun c there => ?_) fun c there => ?_
  · refine isJsSpace_of_printed (printed c (List.mem_of_head? there)) ?_
    rintro rfl
    rw [dumps, is] at there
    cases there
    cases ink
  · refine isJsSpace_of_printed (printed c (List.mem_of_getLast? there)) ?_
    rw [← Option.mem_unique final_ there]
    exact other

theorem sseLines_frame (name data : Str) :
    sseLines "message".toList [] ["event: ".toList ++ name, "data: ".toList ++ data] =
      some (jsTrim (' ' :: name), jsTrim (' ' :: data)) := by
  have event : "event:".toList <+: "event: ".toList ++ name := by simp
  have other : ¬"event:".toList <+: "data: ".toList ++ data := by simp
  have data_ : "data:".toList <+: "data: ".toList ++ data := by simp
  rw [sseLines, if_pos event, sseLines, if_neg other, if_pos data_, sseLines]
  simp

/-- The console reads an event from its frame. -/
theorem parseSseFrame_frame {item : SseItem} (spaceless : item.Spaceless) :
    parseSseFrame engine item.frame = item.delivered engine := by
  cases item with
  | ping =>
      have comment : sseLines "message".toList [] (": ping".toList.splitOn '\n') = none := by
        rw [List.splitOn_eq_singleton (show '\n' ∉ ": ping".toList by simp)]
        rfl
      change parseSseFrame engine ": ping".toList = none
      rw [parseSseFrame, comment]
      rfl
  | event name data =>
      have lines : ("event: ".toList ++ name ++ '\n' :: ("data: ".toList ++ dumps data)).splitOn
          '\n' = ["event: ".toList ++ name, "data: ".toList ++ dumps data] := by
        rw [List.splitOn_append_cons_self_of_not_mem (lf_notMem_name spaceless),
          List.splitOn_eq_singleton (lf_notMem_data data)]
      have some_ : dumps data ≠ [] := by
        obtain ⟨c, rest, is, _⟩ := JsonText.begins_write quoting data
        rw [dumps, is]
        exact List.cons_ne_nil c rest
      have parsed : JsonText.parse (dumps data) = some (data.map PyStr.units) :=
        JsonText.parse_write quoting data
      change parseSseFrame engine
        ("event: ".toList ++ name ++ '\n' :: ("data: ".toList ++ dumps data)) =
          some (name, engine (data.map PyStr.units))
      rw [parseSseFrame, lines, sseLines_frame, jsTrim_name spaceless, jsTrim_dumps]
      simp only [Option.bind_eq_bind, Option.bind_some, if_neg some_, parsed]
      rfl

/-! ## The stream -/

theorem unmarked_text (items : List SseItem) :
    unmarked (items.flatMap SseItem.text) = items.flatMap SseItem.text := by
  match items with
  | [] => rfl
  | .event name data :: rest => rfl
  | .ping :: rest => rfl

theorem decode_sseBytes (items : List SseItem) :
    Utf8.decode none (sseBytes items) = (none, items.flatMap SseItem.text) := by
  rw [sseBytes, ← List.flatMap_assoc, Utf8.decode_text]

theorem drain_text {items : List SseItem} (spaceless : ∀ item ∈ items, item.Spaceless) :
    Cutting.drain blankLine (items.flatMap SseItem.text) = (items.map SseItem.frame, []) := by
  have frames : items.flatMap SseItem.text =
      (items.map SseItem.frame).flatMap (· ++ blankLine.piece) := by
    rw [List.flatMap_map]
    exact congrArg items.flatMap (funext SseItem.text_eq)
  rw [frames]
  refine Cutting.drain_flatMap (fun f there => ?_) rfl
  obtain ⟨item, among, rfl⟩ := List.mem_map.mp there
  exact SseItem.framed (spaceless item among)

/-- However the response is cut into chunks, the console is given every event once, in order. -/
theorem events_delivered {items : List SseItem} (spaceless : ∀ item ∈ items, item.Spaceless)
    {chunks : List (List UInt8)} (cut : chunks.flatten = sseBytes items)
    (engine : Value (List UInt16) → δ) :
    readSse engine chunks = items.filterMap (SseItem.delivered engine) := by
  have read : readSse engine chunks = _ := readSse_eq chunks
  simp only [readerAfter, cut, decode_sseBytes, unmarked_text, drain_text spaceless] at read
  rw [read, List.filterMap_map]
  exact List.filterMap_congr fun item there => parseSseFrame_frame (spaceless item there)

/-- A ping and an event. -/
def pinged : List SseItem := [.ping, .event "né".toList (.str (PyStr.ofStr "a\n:".toList))]

/-- The response is cut inside the é. -/
theorem events_delivered_cut :
    readSse id [(sseBytes pinged).take 17, (sseBytes pinged).drop 17] =
      [("né".toList, .str [97, 10, 58])] := by
  have spaceless : ∀ item ∈ pinged, item.Spaceless := by
    rintro item (_ | ⟨_, _ | ⟨_, ⟨⟩⟩⟩)
    · exact trivial
    · exact List.forall_mem_cons.mpr ⟨by decide, List.forall_mem_singleton.mpr (by decide)⟩
  exact events_delivered spaceless (by simp) id

end Zorkbot.Admin
