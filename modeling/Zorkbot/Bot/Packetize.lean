/-
# Packets

`packetize` cuts the game's output into texts that fit the radio: escape sequences are
stripped, a room's title is kept on a line of its own, the rest becomes one line of words, and
the words are packed greedily. The packets are numbered when there are several. The length of
their numbers depends on how many there are, so the words are packed until that is settled.
-/

import Zorkbot.Bot.Registry
import Zorkbot.Bot.Sanitize
import Zorkbot.Data.Words
import Zorkbot.Pty.Text

namespace Zorkbot.Bot

/-! ## Characters -/

/-- Code points `lo, lo + stride, …, hi`. -/
structure UpperRange where
  lo : Nat
  hi : Nat
  stride : Nat

/-- Upper case beyond ASCII. -/
def upperRanges : List UpperRange :=
  [⟨192, 214, 1⟩, ⟨216, 222, 1⟩, ⟨256, 310, 2⟩, ⟨313, 327, 2⟩, ⟨330, 376, 2⟩, ⟨377, 381, 2⟩,
   ⟨385, 386, 1⟩, ⟨388, 390, 2⟩, ⟨391, 393, 2⟩, ⟨394, 395, 1⟩, ⟨398, 401, 1⟩, ⟨403, 404, 1⟩,
   ⟨406, 408, 1⟩, ⟨412, 413, 1⟩, ⟨415, 416, 1⟩, ⟨418, 422, 2⟩, ⟨423, 425, 2⟩, ⟨428, 430, 2⟩,
   ⟨431, 433, 2⟩, ⟨434, 435, 1⟩, ⟨437, 439, 2⟩, ⟨440, 440, 1⟩, ⟨444, 444, 1⟩, ⟨452, 452, 1⟩,
   ⟨455, 455, 1⟩, ⟨458, 458, 1⟩, ⟨461, 475, 2⟩, ⟨478, 494, 2⟩, ⟨497, 497, 1⟩, ⟨500, 502, 2⟩,
   ⟨503, 504, 1⟩, ⟨506, 562, 2⟩, ⟨570, 571, 1⟩, ⟨573, 574, 1⟩, ⟨577, 579, 2⟩, ⟨580, 582, 1⟩,
   ⟨584, 590, 2⟩, ⟨880, 882, 2⟩, ⟨886, 886, 1⟩, ⟨895, 895, 1⟩, ⟨902, 904, 2⟩, ⟨905, 906, 1⟩,
   ⟨908, 910, 2⟩, ⟨911, 913, 2⟩, ⟨914, 929, 1⟩, ⟨931, 939, 1⟩, ⟨975, 975, 1⟩, ⟨978, 980, 1⟩,
   ⟨984, 1006, 2⟩, ⟨1012, 1012, 1⟩, ⟨1015, 1017, 2⟩, ⟨1018, 1018, 1⟩, ⟨1021, 1071, 1⟩,
   ⟨1120, 1152, 2⟩, ⟨1162, 1216, 2⟩, ⟨1217, 1229, 2⟩, ⟨1232, 1326, 2⟩, ⟨1329, 1366, 1⟩,
   ⟨4256, 4293, 1⟩, ⟨4295, 4295, 1⟩, ⟨4301, 4301, 1⟩, ⟨5024, 5109, 1⟩, ⟨7312, 7354, 1⟩,
   ⟨7357, 7359, 1⟩, ⟨7680, 7828, 2⟩, ⟨7838, 7934, 2⟩, ⟨7944, 7951, 1⟩, ⟨7960, 7965, 1⟩,
   ⟨7976, 7983, 1⟩, ⟨7992, 7999, 1⟩, ⟨8008, 8013, 1⟩, ⟨8025, 8031, 2⟩, ⟨8040, 8047, 1⟩,
   ⟨8120, 8123, 1⟩, ⟨8136, 8139, 1⟩, ⟨8152, 8155, 1⟩, ⟨8168, 8172, 1⟩, ⟨8184, 8187, 1⟩,
   ⟨8450, 8450, 1⟩, ⟨8455, 8455, 1⟩, ⟨8459, 8461, 1⟩, ⟨8464, 8466, 1⟩, ⟨8469, 8469, 1⟩,
   ⟨8473, 8477, 1⟩, ⟨8484, 8490, 2⟩, ⟨8491, 8493, 1⟩, ⟨8496, 8499, 1⟩, ⟨8510, 8511, 1⟩,
   ⟨8517, 8517, 1⟩, ⟨8544, 8559, 1⟩, ⟨8579, 8579, 1⟩, ⟨9398, 9423, 1⟩, ⟨11264, 11311, 1⟩,
   ⟨11360, 11362, 2⟩, ⟨11363, 11364, 1⟩, ⟨11367, 11373, 2⟩, ⟨11374, 11376, 1⟩, ⟨11378, 11378, 1⟩,
   ⟨11381, 11381, 1⟩, ⟨11390, 11392, 1⟩, ⟨11394, 11490, 2⟩, ⟨11499, 11501, 2⟩, ⟨11506, 11506, 1⟩,
   ⟨42560, 42604, 2⟩, ⟨42624, 42650, 2⟩, ⟨42786, 42798, 2⟩, ⟨42802, 42862, 2⟩, ⟨42873, 42877, 2⟩,
   ⟨42878, 42886, 2⟩, ⟨42891, 42893, 2⟩, ⟨42896, 42898, 2⟩, ⟨42902, 42922, 2⟩, ⟨42923, 42926, 1⟩,
   ⟨42928, 42932, 1⟩, ⟨42934, 42948, 2⟩, ⟨42949, 42951, 1⟩, ⟨42953, 42953, 1⟩, ⟨42960, 42960, 1⟩,
   ⟨42966, 42968, 2⟩, ⟨42997, 42997, 1⟩, ⟨65313, 65338, 1⟩, ⟨66560, 66599, 1⟩, ⟨66736, 66771, 1⟩,
   ⟨66928, 66938, 1⟩, ⟨66940, 66954, 1⟩, ⟨66956, 66962, 1⟩, ⟨66964, 66965, 1⟩, ⟨68736, 68786, 1⟩,
   ⟨71840, 71871, 1⟩, ⟨93760, 93791, 1⟩, ⟨119808, 119833, 1⟩, ⟨119860, 119885, 1⟩,
   ⟨119912, 119937, 1⟩, ⟨119964, 119966, 2⟩, ⟨119967, 119967, 1⟩, ⟨119970, 119970, 1⟩,
   ⟨119973, 119974, 1⟩, ⟨119977, 119980, 1⟩, ⟨119982, 119989, 1⟩, ⟨120016, 120041, 1⟩,
   ⟨120068, 120069, 1⟩, ⟨120071, 120074, 1⟩, ⟨120077, 120084, 1⟩, ⟨120086, 120092, 1⟩,
   ⟨120120, 120121, 1⟩, ⟨120123, 120126, 1⟩, ⟨120128, 120132, 1⟩, ⟨120134, 120134, 1⟩,
   ⟨120138, 120144, 1⟩, ⟨120172, 120197, 1⟩, ⟨120224, 120249, 1⟩, ⟨120276, 120301, 1⟩,
   ⟨120328, 120353, 1⟩, ⟨120380, 120405, 1⟩, ⟨120432, 120457, 1⟩, ⟨120488, 120512, 1⟩,
   ⟨120546, 120570, 1⟩, ⟨120604, 120628, 1⟩, ⟨120662, 120686, 1⟩, ⟨120720, 120744, 1⟩,
   ⟨120778, 120778, 1⟩, ⟨125184, 125217, 1⟩, ⟨127280, 127305, 1⟩, ⟨127312, 127337, 1⟩,
   ⟨127344, 127369, 1⟩]

/-- `str.isupper` of one character. -/
def isUpper (c : Char) : Bool :=
  if c.toNat < 128 then 'A' ≤ c && c ≤ 'Z'
  else upperRanges.any fun r =>
    r.lo ≤ c.toNat && c.toNat ≤ r.hi && (c.toNat - r.lo) % r.stride == 0

/-- `string.punctuation`. -/
def isPunctuation (c : Char) : Bool :=
  ('!' ≤ c && c ≤ '/') || (':' ≤ c && c ≤ '@') || ('[' ≤ c && c.toNat ≤ 96) ||
    (123 ≤ c.toNat && c ≤ '~')

/-- `str.split()`. -/
def splitWords (text : Str) : List Str := Words.split isSpace text

/-- `" ".join`. -/
def joinWords (words : List Str) : Str := [' '].intercalate words

/-- `"\n".join`. -/
def joinLines (lines : List Str) : Str := ['\n'].intercalate lines

/-! ## The text -/

/-- `strip_ansi`. The expressions `_OSC_ESCAPE` and `_ANSI_ESCAPE` are the game service's. -/
def stripAnsi (text : Str) : Str :=
  Pty.deleteMatches Pty.csiLength 0 (Pty.deleteMatches Pty.oscLength 0 text)

/-- `_TITLE_MINOR_WORDS`. -/
def titleMinorWords : List Str :=
  ["a", "an", "and", "as", "at", "but", "by", "for", "from", "in", "nor", "of", "on", "or", "the",
    "to", "with"].map String.toList

/-- `_MAX_TITLE_WORDS`. -/
def maxTitleWords : Nat := 6

/-- `word.strip(string.punctuation)`. -/
def titleCore (word : Str) : Str :=
  ((word.dropWhile isPunctuation).reverse.dropWhile isPunctuation).reverse

/-- What the loop of `_looks_like_title` asks of a word. No minor word has a sigma. -/
def titleWord (index : Nat) (word : Str) : Bool :=
  match titleCore word with
  | [] => false
  | first :: rest =>
      (index != 0 && lower (fun _ _ => false) (first :: rest) ∈ titleMinorWords) || isUpper first

/-- `_looks_like_title`. -/
def looksLikeTitle (line : Str) : Bool :=
  if line = [] || ['.'].isSuffixOf line then false
  else
    let words := splitWords line
    if words = [] || words.length > maxTitleWords then false
    else words.zipIdx.all fun (word, index) => titleWord index word

/-- The loop of `_collapse_lines`: the lines so far and whether the last is blank. -/
def collapseLoop (collapsed : List Str) (blank : Bool) : List Str → List Str
  | [] => collapsed
  | line :: lines =>
      if line = [] then
        if collapsed ≠ [] ∧ blank = false then collapseLoop (collapsed ++ [[]]) true lines
        else collapseLoop collapsed blank lines
      else collapseLoop (collapsed ++ [line]) false lines

/-- `_collapse_lines`. -/
def collapseLines (lines : List Str) : Str := strip (joinWords (collapseLoop [] false lines))

/-- The lines of a text, stripped, without blank ones at either end. -/
def trimmedLines (text : Str) : List Str :=
  let lines := ((Pty.normalizeNewlines (stripAnsi text)).splitOn '\n').map strip
  ((lines.dropWhile (· = [])).reverse.dropWhile (· = [])).reverse

/-- `_prepare_text`: the title and the body. -/
def prepareText (text : Str) : Option Str × Str :=
  match trimmedLines text with
  | [] => (none, [])
  | [line] => (none, collapseLines [line])
  | line :: lines =>
      if looksLikeTitle line then (some line, collapseLines lines)
      else (none, collapseLines (line :: lines))

/-! ## Packing -/

/-- The loop of `_pack_words`. -/
def packLoop (limit : Int) (chunks current : List Str) (currentLen : Nat) : List Str → List Str
  | [] => if current = [] then chunks else chunks ++ [joinWords current]
  | word :: words =>
      let addition := if current = [] then word.length else word.length + 1
      if current ≠ [] ∧ ((currentLen + addition : Nat) : Int) > limit then
        packLoop limit (chunks ++ [joinWords current]) [word] word.length words
      else packLoop limit chunks (current ++ [word]) (currentLen + addition) words

/-- `_pack_words`. -/
def packWords (text : Str) (limit : Int) : List Str := packLoop limit [] [] 0 (splitWords text)

/-- `f"({index}/{total}) "`. -/
def marker (index total : Nat) : Str :=
  '(' :: str index ++ '/' :: str total ++ [')', ' ']

/-- `_sequence_prefix_len`. -/
def sequencePrefixLen (total : Nat) : Nat := (marker total total).length

inductive PackError
  /-- `ValueError("max_chars must be greater than prefix length")`. -/
  | value
  /-- The loop is not through; see `packWithSequenceBudget`. -/
  | endless
  deriving DecidableEq

/-- This many rounds of the `while True` of `_pack_with_sequence_budget`, unless it returns
before. -/
def repack (text : Str) (limit : Int) : Nat → List Str → Option (List Str)
  | 0, _ => none
  | rounds + 1, chunks =>
      let total := chunks.length
      let next := packWords text (max 1 (limit - sequencePrefixLen total))
      if next.length = total then some next else repack text limit rounds next

/-- `_pack_with_sequence_budget`, with a round for each word and one more for its loop. -/
def packWithSequenceBudget (text : Str) (limit : Int) (numbered : Bool) :
    Except PackError (List Str) :=
  if limit ≤ 0 then .error .value
  else
    let reserve := if numbered then sequencePrefixLen 99 else 0
    let chunks := packWords text (max 1 (limit - reserve))
    if numbered = false ∨ chunks.length ≤ 1 then .ok chunks
    else
      match repack text limit ((splitWords text).length + 1) chunks with
      | some chunks => .ok chunks
      | none => .error .endless

/-- `packetize`. -/
def packetize (text : Str) (maxChars : Int) (pre firstLine : Option Str) (numbered : Bool) :
    Except PackError (List Str) :=
  let (title, body) := prepareText text
  let mention := pre.getD []
  let lead := joinLines ([firstLine, title].filterMap truthy)
  if truthy title = none ∧ body = [] ∧ truthy firstLine = none then .ok []
  else if body = [] then .ok (if lead = [] then [] else [mention ++ lead])
  else do
    let leadPrefix := if lead = [] then [] else lead ++ ['\n']
    let chunks ←
      packWithSequenceBudget body (maxChars - mention.length - leadPrefix.length) numbered
    let total := chunks.length
    return (chunks.zipIdx 1).map fun (chunk, index) =>
      let bodyChunk := if numbered && total > 1 then marker index total ++ chunk else chunk
      let thisLead := if index = 1 then leadPrefix else []
      mention ++ thisLead ++ bodyChunk

/-! ## Whole lines -/

/-- The loop of `pack_lines`. -/
def packLinesLoop (budget : Int) (packets current : List Str) : List Str → List Str
  | [] => if current = [] then packets else packets ++ [joinLines current]
  | line :: lines =>
      if current ≠ [] ∧ ((joinLines (current ++ [line])).length : Int) > budget then
        packLinesLoop budget (packets ++ [joinLines current]) [line] lines
      else packLinesLoop budget packets (current ++ [line]) lines

/-- `pack_lines`. -/
def packLines (lines : List Str) (maxChars : Int) : List Str :=
  packLinesLoop (maxChars - sequencePrefixLen 99) [] [] lines

/-- `add_sequence_prefixes`. -/
def addSequencePrefixes (packets : List Str) : List Str :=
  let total := packets.length
  if total ≤ 1 then packets
  else (packets.zipIdx 1).map fun (packet, index) => marker index total ++ packet

end Zorkbot.Bot
