/-
# What goes over the wire

The game client asks by HTTP and reads the answers, the game service reads the requests
and answers them, and both write JSON. What a handler of the service makes of the return
of its operation is read by the client as what the bot goes on with: the status and the
body are enough to tell the errors apart, and an output arrives as it is, whatever
characters it has.
-/

import Zorkbot.Compose.AntiSquat
import Zorkbot.Data.JsonSpelling
import Zorkbot.Pty.PoolSteps
import Zorkbot.Pty.Responses

namespace Zorkbot.Compose

open JsonText (Blanks Escaping Spelling Spells Value charsOf escapeUnit lossyCharsOf readString
  unitsOf)
open Transition
open Zorkbot.Bot (Answer CommandResult Str ZorkBot)
open Zorkbot.Pty (By Interpreter Op PlayerId Pool PoolConfig PoolErr Ret Thread Via
  matchesPlayerID)

abbrev Units := List UInt16

/-- The members of a payload, as a client has them. -/
abbrev Members := List (Units × Value Units)

/-! ## How Go writes JSON -/

/-- How `encoding/json` writes a character of a string. -/
def goEscape (c : Char) : Str :=
  if c = '"' then ['\\', '"']
  else if c = '\\' then ['\\', '\\']
  else if c = '\x08' then ['\\', 'b']
  else if c = '\x0C' then ['\\', 'f']
  else if c = '\n' then ['\\', 'n']
  else if c = '\r' then ['\\', 'r']
  else if c = '\t' then ['\\', 't']
  else if c.toNat < 0x20 ∨ c = '<' ∨ c = '>' ∨ c = '&' ∨ c = '\u2028' ∨ c = '\u2029' then
    escapeUnit c.toNat
  else [c]

theorem readString_goEscape (c : Char) (rest : Str) :
    readString (goEscape c ++ rest) = JsonText.prepend (unitsOf c) (readString rest) := by
  unfold goEscape
  split_ifs with quote backslash bs ff lf cr tab escaped
  · subst quote
    exact JsonText.readString_unescape rfl rest
  · subst backslash
    exact JsonText.readString_unescape rfl rest
  · subst bs
    exact JsonText.readString_unescape rfl rest
  · subst ff
    exact JsonText.readString_unescape rfl rest
  · subst lf
    exact JsonText.readString_unescape rfl rest
  · subst cr
    exact JsonText.readString_unescape rfl rest
  · subst tab
    exact JsonText.readString_unescape rfl rest
  · have basic : c.toNat < 0x10000 := by
      rcases escaped with control | rfl | rfl | rfl | rfl | rfl
      · omega
      all_goals decide
    rw [JsonText.readString_escapeUnit basic, unitsOf, if_pos basic]
  · have plain : 0x20 ≤ c.toNat := by
      by_contra control
      exact escaped (.inl (by omega))
    exact JsonText.readString_plain ⟨quote, backslash, plain⟩ rest

/-- The code units of a text. -/
def units (s : Str) : Units := s.flatMap unitsOf

def goEscaping : Escaping Str where
  body s := s.flatMap goEscape
  units := units
  read s rest := by
    induction s with
    | nil => rfl
    | cons c s ih =>
        rw [List.flatMap_cons, List.append_assoc, readString_goEscape, ih]
        rfl

/-- A response of the service, which is always JSON. -/
structure Response where
  status : Nat
  body : Str
  deriving DecidableEq

/-- The fields of a struct, by their names in JSON. -/
abbrev Fields := List (Str × Value Str)

/-- `writeJSON`: the encoder ends what it writes with a newline. -/
def writeJSON (status : Nat) (payload : Fields) : Response :=
  ⟨status, goEscaping.compact (.obj payload) ++ ['\n']⟩

/-- A field with `omitempty`. -/
def omitEmpty (name : String) (value : Str) : Fields :=
  if value = [] then [] else [(name.toList, .str value)]

/-- `startResponse` and `sessionResponse`. -/
def sessionResponse (ok : Bool) (error : Str) : Fields :=
  ("ok".toList, .bool ok) :: omitEmpty "error" error

def commandResponse (output : Str) (ok : Bool) (error : Str) : Fields :=
  omitEmpty "output" output ++ ("ok".toList, .bool ok) :: omitEmpty "error" error

/-! ## The handlers of the service -/

/-- `handleStartSession`, once `Pool.Start` or the check of the player ID has returned. -/
def handleStartSession (message : PoolErr → Str) : Ret → Option Response
  | .failed .invalidPlayerID =>
      some (writeJSON 400 (sessionResponse false (message .invalidPlayerID)))
  | .started _ .request (some .sessionFull) =>
      some (writeJSON 503 (sessionResponse false "session pool is full".toList))
  | .started _ .request (some err) => some (writeJSON 500 (sessionResponse false (message err)))
  | .started _ .request none => some (writeJSON 200 (sessionResponse true []))
  | _ => none

/-- What `handleCommand` makes of an error of `Pool.Command`. -/
def commandError (message : PoolErr → Str) : PoolErr → Nat × Str
  | .sessionNotFound => (404, "no active session for player".toList)
  | .manager .busy => (409, "game is busy, try again".toList)
  | .manager .timeout => (504, "command timed out".toList)
  | .manager .notAlive => (503, "game session is not alive".toList)
  | err => (500, message err)

/-- `handleCommand`, once a check or `Pool.Command` has returned. -/
def handleCommand (message : PoolErr → Str) : Ret → Option Response
  | .failed .invalidPlayerID =>
      some (writeJSON 400 (commandResponse [] false (message .invalidPlayerID)))
  | .failed .notAllowed =>
      some (writeJSON 200 (commandResponse [] false (message .notAllowed)))
  | .failed .sessionNotFound =>
      some (writeJSON (commandError message .sessionNotFound).1
        (commandResponse [] false (commandError message .sessionNotFound).2))
  | .failed (.manager err) =>
      some (writeJSON (commandError message (.manager err)).1
        (commandResponse [] false (commandError message (.manager err)).2))
  | .replied _ output => some (writeJSON 200 (commandResponse (terminated output) true []))
  | _ => none

/-- `handleEndSession`, once `Pool.End` or the check of the player ID has returned. -/
def handleEndSession (message : PoolErr → Str) : Ret → Option Response
  | .failed .invalidPlayerID =>
      some (writeJSON 400 (sessionResponse false (message .invalidPlayerID)))
  | .ended _ (some .sessionNotFound) =>
      some (writeJSON 404 (sessionResponse false (message .sessionNotFound)))
  | .ended _ (some err) => some (writeJSON 500 (sessionResponse false (message err)))
  | .ended _ none => some (writeJSON 200 (sessionResponse true []))
  | _ => none

/-- `handleResetSession`, once `Pool.Reset` or the check of the player ID has returned. -/
def handleResetSession (message : PoolErr → Str) : Ret → Option Response
  | .failed .invalidPlayerID =>
      some (writeJSON 400 (sessionResponse false (message .invalidPlayerID)))
  | .failed .removal =>
      some (writeJSON 500 (sessionResponse false ("reset failed: ".toList ++ message .removal)))
  | .started _ (.reset _) (some err) =>
      some (writeJSON 500 (sessionResponse false ("reset failed: ".toList ++ message err)))
  | .started _ (.reset _) none => some (writeJSON 200 (sessionResponse true []))
  | _ => none

/-- The response to a request for an operation, if the operation can return so. -/
def handle (message : PoolErr → Str) : Op → Ret → Option Response
  | .start _ => handleStartSession message
  | .command .. => handleCommand message
  | .endSession _ => handleEndSession message
  | .reset _ => handleResetSession message
  | .close => fun _ => none

/-! ## The game client -/

/-- What a member of a payload is, by its name: of two with one name, the second. -/
def member (name : String) (payload : Members) : Option (Value Units) :=
  (payload.reverse.find? (·.1 = units name.toList)).map (·.2)

/-- `payload.get(name, default)`, if that is a string. -/
def getText (name : String) (default : Str) (payload : Members) : Option Str :=
  match member name payload with
  | none => some default
  | some (.str s) => charsOf s
  | some _ => none

/-- `payload.get("ok", False)`, if that is a truth value. -/
def getOk (payload : Members) : Option Bool :=
  match member "ok" payload with
  | none => some false
  | some (.bool ok) => some ok
  | some _ => none

/-- The exception for a status. -/
def serviceError (status : Nat) : Bot.ServiceError :=
  if status = 503 then .full else if status = 404 then .notFound else .other

/-- `_request`, up to `response.json()`: what a method of the client does with a payload, unless
an exception was raised before. `reason` is what `httpx` says of a status. A payload whose
members have other types than those of the service is not told about. -/
def request_ (reason : Nat → Str) (r : Response)
    (payload : Members → Option Answer) : Option Answer :=
  match JsonText.parse r.body with
  | some (.obj members) =>
      if 200 ≤ r.status ∧ r.status < 300 then payload members
      else (getText "error" (reason r.status) members).map (.failed (serviceError r.status))
  -- a text that is no JSON, or a value without `get`
  | _ => some .raised

/-- The end of `end_session` and `reset_session`. -/
def checkOk (default : String) (payload : Members) : Option Answer := do
  if ← getOk payload then return succeeded
  else return .failed .other (← getText "error" default.toList payload)

/-- `start_session`. -/
def startSession (reason : Nat → Str) (r : Response) : Option Answer :=
  request_ reason r fun payload => do
    if ← getOk payload then return succeeded
    else
      return .failed (if r.status = 503 then .full else .other)
        (← getText "error" "start failed".toList payload)

/-- `end_session`. -/
def endSession (reason : Nat → Str) (r : Response) : Option Answer :=
  request_ reason r (checkOk "end failed")

/-- `reset_session`. -/
def resetSession (reason : Nat → Str) (r : Response) : Option Answer :=
  request_ reason r (checkOk "reset failed")

/-- `command`. -/
def command (reason : Nat → Str) (r : Response) : Option Answer :=
  request_ reason r fun payload => do
    return .returned ⟨← getOk payload, ← getText "output" [] payload, ← getText "error" [] payload⟩

/-- What the client makes of the response to a request for an operation. -/
def understand (reason : Nat → Str) : Op → Response → Option Answer
  | .start _ => startSession reason
  | .command .. => command reason
  | .endSession _ => endSession reason
  | .reset _ => resetSession reason
  | .close => fun _ => none

/-! ## The client understands the service -/

theorem blanks_newline : Blanks ['\n'] := by
  rintro c (_ | ⟨_, ⟨⟩⟩)
  rfl

/-- The members that a client has of a payload. -/
def received (payload : Fields) : Members := payload.map fun m => (units m.1, m.2.map units)

theorem map_obj (payload : Fields) : (Value.obj payload).map units = .obj (received payload) := by
  rw [Value.map, Value.mapMembers_eq, received]

theorem parse_writeJSON (status : Nat) (payload : Fields) :
    JsonText.parse (writeJSON status payload).body = some (.obj (received payload)) := by
  rw [← map_obj]
  exact JsonText.parse_spells goEscaping.spelling (goEscaping.spells_compact _) blanks_newline

theorem received_append (a b : Fields) : received (a ++ b) = received a ++ received b :=
  List.map_append

@[simp]
theorem charsOf_units (s : Str) : charsOf (units s) = some s := JsonText.charsOf_flatMap s

@[simp]
theorem units_inj {s t : Str} : units s = units t ↔ s = t := by
  constructor
  · intro same
    have same := congrArg charsOf same
    rwa [charsOf_units, charsOf_units, Option.some.injEq] at same
  · exact congrArg units

@[simp]
theorem member_nil (name : String) : member name (received []) = none := rfl

theorem member_append (name : String) (a b : Fields) :
    member name (received (a ++ b)) = (member name (received b)).or (member name (received a)) := by
  rw [received_append, member, member, member, List.reverse_append, List.find?_append]
  cases List.find? _ (received b).reverse <;> rfl

theorem member_cons (name : String) (k : Str) (v : Value Str) (rest : Fields) :
    member name (received ((k, v) :: rest)) =
      (member name (received rest)).or (if k = name.toList then some (v.map units) else none) := by
  have single : member name (received [(k, v)]) =
      if k = name.toList then some (v.map units) else none := by
    simp only [member, received, List.map_cons, List.map_nil, List.reverse_singleton,
      List.find?_singleton, decide_eq_true_eq, units_inj]
    split <;> rfl
  rw [← List.singleton_append, member_append, single]

theorem member_omitEmpty (name other : String) (value : Str) :
    member name (received (omitEmpty other value)) =
      if value ≠ [] ∧ other.toList = name.toList then some (.str (units value)) else none := by
  unfold omitEmpty
  by_cases empty : value = []
  · simp [empty]
  · simp [empty, member_cons, Value.map]

section

variable (output error default : Str) (ok : Bool)

/-! ### The fields of a session's response -/

theorem getOk_sessionResponse : getOk (received (sessionResponse ok error)) = some ok := by
  simp [sessionResponse, getOk, member_cons, member_omitEmpty, Value.map]

theorem getText_sessionResponse :
    getText "error" default (received (sessionResponse ok error)) =
      some (if error = [] then default else error) := by
  by_cases empty : error = []
  · simp [sessionResponse, getText, member_cons, member_omitEmpty, empty]
  · simp [sessionResponse, getText, member_cons, member_omitEmpty, empty]

/-! ### The fields of a command's response -/

theorem getOk_commandResponse :
    getOk (received (commandResponse output ok error)) = some ok := by
  simp [commandResponse, getOk, member_append, member_cons, member_omitEmpty, Value.map]

theorem getText_commandResponse :
    getText "error" default (received (commandResponse output ok error)) =
      some (if error = [] then default else error) := by
  by_cases empty : error = []
  · simp [commandResponse, getText, member_append, member_cons, member_omitEmpty, empty]
  · simp [commandResponse, getText, member_append, member_cons, member_omitEmpty, empty]

theorem output_commandResponse :
    getText "output" [] (received (commandResponse output ok error)) = some output := by
  by_cases empty : output = []
  · simp [commandResponse, getText, member_append, member_cons, member_omitEmpty, empty]
  · simp [commandResponse, getText, member_append, member_cons, member_omitEmpty, empty]

end

section

variable {message : PoolErr → Str} {reason : Nat → Str} {payload : Members → Option Answer}

/-- A response that succeeds is handed to the method, -/
theorem request_succeeded (fields : Fields) :
    request_ reason (writeJSON 200 fields) payload = payload (received fields) := by
  rw [request_, parse_writeJSON]
  exact if_pos (show 200 ≤ 200 ∧ 200 < 300 by decide)

/-- and of any other the status and the error are told. -/
theorem request_failed {status : Nat} {fields : Fields} {error : Str} (bad : 300 ≤ status)
    (told : getText "error" (reason status) (received fields) = some error) :
    request_ reason (writeJSON status fields) payload =
      some (.failed (serviceError status) error) := by
  have fails : ¬ (200 ≤ status ∧ status < 300) := fun ok => absurd ok.2 (by omega)
  rw [request_, parse_writeJSON]
  exact (if_neg fails).trans (by rw [writeJSON, told, Option.map_some])

theorem session_failed {status : Nat} {error : Str} (bad : 300 ≤ status) (spoken : error ≠ []) :
    request_ reason (writeJSON status (sessionResponse false error)) payload =
      some (.failed (serviceError status) error) :=
  request_failed bad (by rw [getText_sessionResponse, if_neg spoken])

theorem command_failed {status : Nat} {error : Str} (bad : 300 ≤ status) (spoken : error ≠ []) :
    request_ reason (writeJSON status (commandResponse [] false error)) payload =
      some (.failed (serviceError status) error) :=
  request_failed bad (by rw [getText_commandResponse, if_neg spoken])

theorem session_succeeded {rest : Members → Option Answer}
    (reads : ∀ members, getOk members = some true → rest members = some succeeded) :
    request_ reason (writeJSON 200 (sessionResponse true [])) rest = some succeeded := by
  rw [request_succeeded]
  exact reads _ (getOk_sessionResponse [] true)

theorem commandError_spec (spoken : ∀ err, message err ≠ []) (err : PoolErr) :
    300 ≤ (commandError message err).1 ∧ (commandError message err).2 ≠ [] := by
  unfold commandError
  split
  · decide
  · decide
  · decide
  · decide
  · exact ⟨Nat.le_of_ble_eq_true rfl, spoken _⟩

theorem answer_commandError (err : PoolErr)
    (reached : err = .sessionNotFound ∨ ∃ fault, err = .manager fault) :
    answer message (.failed err) =
      .failed (serviceError (commandError message err).1) (commandError message err).2 := by
  rcases reached with rfl | ⟨fault, rfl⟩
  · rfl
  · cases fault <;> rfl

theorem understand_start (spoken : ∀ err, message err ≠ []) {id : Str} {ret : Ret}
    {response : Response} (handled : handleStartSession message ret = some response) :
    understand reason (.start id) response = some (answer message ret) := by
  unfold handleStartSession at handled
  split at handled <;> cases handled <;> rw [understand, startSession]
  · exact session_failed (by decide) (spoken _)
  · exact session_failed (by decide) (List.cons_ne_nil _ _)
  · next p err other =>
    rw [session_failed (by decide) (spoken _)]
    cases err <;> first | rfl | exact absurd rfl other
  · exact session_succeeded fun members ok => by rw [ok]; rfl

theorem understand_end (spoken : ∀ err, message err ≠ []) {id : Str} {ret : Ret}
    {response : Response} (handled : handleEndSession message ret = some response) :
    understand reason (.endSession id) response = some (answer message ret) := by
  unfold handleEndSession at handled
  split at handled <;> cases handled <;> rw [understand, endSession]
  · exact session_failed (by decide) (spoken _)
  · exact session_failed (by decide) (spoken _)
  · next p err other =>
    rw [session_failed (by decide) (spoken _)]
    cases err <;> first | rfl | exact absurd rfl other
  · exact session_succeeded fun members ok => by rw [checkOk, ok]; rfl

theorem understand_reset (spoken : ∀ err, message err ≠ []) {id : Str} {ret : Ret}
    {response : Response} (handled : handleResetSession message ret = some response) :
    understand reason (.reset id) response = some (answer message ret) := by
  have told (err : PoolErr) : "reset failed: ".toList ++ message err ≠ [] :=
    List.cons_ne_nil _ _
  unfold handleResetSession at handled
  split at handled <;> cases handled <;> rw [understand, resetSession]
  · exact session_failed (by decide) (spoken _)
  · exact session_failed (show 300 ≤ 500 by decide) (told _)
  · next p wipes err =>
    rw [session_failed (show 300 ≤ 500 by decide) (told _)]
    cases err <;> rfl
  · exact session_succeeded fun members ok => by rw [checkOk, ok]; rfl

theorem understand_command (spoken : ∀ err, message err ≠ []) {id text : Str} {ret : Ret}
    {response : Response} (handled : handleCommand message ret = some response) :
    understand reason (.command id text) response = some (answer message ret) := by
  have refused {err : PoolErr} (reached : err = .sessionNotFound ∨ ∃ fault, err = .manager fault) :
      command reason (writeJSON (commandError message err).1
        (commandResponse [] false (commandError message err).2)) =
          some (answer message (.failed err)) := by
    obtain ⟨bad, told⟩ := commandError_spec spoken err
    rw [answer_commandError err reached]
    exact command_failed bad told
  have returned (output error : Str) (ok : Bool) :
      command reason (writeJSON 200 (commandResponse output ok error)) =
        some (.returned ⟨ok, output, error⟩) := by
    rw [command, request_succeeded, getOk_commandResponse, output_commandResponse,
      getText_commandResponse]
    by_cases silent : error = []
    · rw [if_pos silent, silent]
      rfl
    · rw [if_neg silent]
      rfl
  unfold handleCommand at handled
  split at handled <;> cases handled
  · exact command_failed (by decide) (spoken _)
  · exact returned ..
  · exact refused (.inl rfl)
  · exact refused (.inr ⟨_, rfl⟩)
  · exact returned ..

/-- Whatever the operation of a request has returned: what the client reads off the response is
what the bot goes on with. -/
theorem understand_handle (spoken : ∀ err, message err ≠ []) {op : Op} {ret : Ret}
    {response : Response} (handled : handle message op ret = some response) :
    understand reason op response = some (answer message ret) := by
  cases op with
  | start => exact understand_start spoken handled
  | command => exact understand_command spoken handled
  | endSession => exact understand_end spoken handled
  | reset => exact understand_reset spoken handled
  | close => cases handled

end

/-! ## The service answers whatever was returned -/

/-- `Pool.Start` was run by this operation, -/
def startedBy : Op → Via → Bool
  | .start _, .request | .reset _, .reset _ => true
  | _, _ => false

/-- and `endInternal` by that. -/
def endedBy : Op → By → Bool
  | .endSession _, .request | .reset _, .reset => true
  | _, _ => false

def isCommand : Op → Bool
  | .command .. => true
  | _ => false

def isReset : Op → Bool
  | .reset _ => true
  | _ => false

/-- Where a goroutine may be that serves a request for an operation. -/
def serving (message : PoolErr → Str) (op : Op) : Thread → Bool
  | .checking _ via | .probing _ via | .launching _ via _ | .booting _ via .. | .restoring _ via _
  | .inserting _ via .. | .discarding _ via .. | .calling _ _ (.restore via) _ => startedBy op via
  | .lookup .. | .commanding .. | .calling _ _ .reply _ => isCommand op
  | .deleting _ by_ | .saving _ by_ _ | .closing _ by_ _ | .calling _ _ (.save by_) _ =>
      endedBy op by_
  | .wiping _ => isReset op
  | .autoEnding .. | .listing => false
  | .returned r => (handle message op r).isSome

section

variable {G : Type} {message : PoolErr → Str} {cfg : PoolConfig} {s t : Pool G} {op : Op}

theorem serving_thread (message : PoolErr → Str) (asked : op ≠ .close) :
    serving message op op.thread = true := by
  cases op with
  | start id => rw [Op.thread]; split <;> rfl
  | command id text =>
      rw [Op.thread]
      split
      · split <;> rfl
      · rfl
  | endSession id => rw [Op.thread]; split <;> rfl
  | reset id => rw [Op.thread]; split <;> rfl
  | close => exact absurd rfl asked

/-- What `Pool.Start` returns is answered. -/
theorem serving_started {via : Via} (by_ : startedBy op via = true) (p : PlayerId)
    (err : Option PoolErr) : serving message op (.returned (.started p via err)) = true := by
  cases op <;> cases via <;> cases by_
  · cases err with
    | none => rfl
    | some err => cases err <;> rfl
  · cases err <;> rfl

theorem serving_afterEnd {by_ : By} (mine : endedBy op by_ = true) (p : PlayerId)
    (err : Option PoolErr) : serving message op (Thread.afterEnd p err by_) = true := by
  cases op <;> cases by_ <;> cases mine
  · cases err with
    | none => rfl
    | some err => cases err <;> rfl
  · rfl

theorem serving_afterCall {p : PlayerId} {m : Nat} {for_ : Pty.For} {call : Pty.Call}
    (here : serving message op (.calling p m for_ call) = true) (r : Pty.Result) :
    serving message op (Thread.afterCall p m r for_) = true := by
  cases for_ with
  | restore via => exact here
  | save by_ => exact here
  | reply =>
      cases op <;> cases here
      cases r <;> rfl

/-- A goroutine that serves a request goes on to serve it. -/
theorem serving_onward {a : Pool.Act} {c : Nat} {here next : Thread}
    (onward : Pool.Onward cfg s a t c (some here) next) (mine : serving message op here = true) :
    serving message op next = true := by
  cases onward with
  | passes pass =>
      cases pass with
      | idempotent | full => exact serving_started mine ..
      | checked | probed | raced | crowded => exact mine
      | missing => cases op <;> cases mine; rfl
      | current | stale => cases mine
      | gone => exact serving_afterEnd mine ..
  | inserts | discards => exact serving_started mine ..
  | touches | deletes | drops | restores | unrestored | commands | saves | unsaved => exact mine
  | refused => cases op <;> cases mine; rfl
  | closes => exact serving_afterEnd mine ..
  | lists => cases mine
  | creates | waits | started | startedNew => exact mine
  | refuses | failed => exact serving_started mine ..
  | @advances p m for_ => cases for_ <;> exact mine
  | leaves => exact serving_afterCall mine _
  | wipes => cases op <;> cases mine; rfl
  | givesUp => cases op <;> cases mine; rfl

end

/-! ## The requests -/

inductive Method
  | get
  | post
  | delete
  deriving DecidableEq

structure HttpRequest where
  method : Method
  path : Str
  body : Str

/-- What the client's methods ask for; `encode` is the JSON encoder of `httpx`. Player IDs are
such that nothing of a path is quoted. -/
def send (encode : Value Str → Str) : Op → Option HttpRequest
  | .start id => some ⟨.post, "/sessions".toList, encode (.obj [("player_id".toList, .str id)])⟩
  | .command id text =>
      some ⟨.post, "/sessions/".toList ++ (id ++ "/command".toList),
        encode (.obj [("text".toList, .str text)])⟩
  | .endSession id => some ⟨.delete, "/sessions/".toList ++ id, []⟩
  | .reset id => some ⟨.delete, "/sessions/".toList ++ (id ++ "/save".toList), []⟩
  | .close => none

/-- Whether `encoding/json` takes a key for the name of a field, of which the letters have no
other forms than those of ASCII. -/
def namesField (name : String) (key : Units) : Bool :=
  decide ((lossyCharsOf key).map Char.toLower = name.toList)

/-- `Decode` of a struct with one field, which is a string. Only the first value of the body is
read. -/
def decodeField (name : String) (body : Str) : Option Str :=
  match JsonText.readValue body.length (JsonText.skip body) with
  | some (.null, _) => some []
  | some (.obj members, _) =>
      members.foldlM (fun field m =>
        if namesField name m.1 then
          match m.2 with
          | .str s => some (lossyCharsOf s)
          | .null => some field
          | _ => none
        else some field) []
  | _ => none

/-- The operation that a request is for, unless there is no such route or the body is no such
JSON. -/
def receive (q : HttpRequest) : Option Op :=
  match q.method, q.path.splitOn '/' with
  | .post, [[], sessions] =>
      if sessions = "sessions".toList then (decodeField "player_id" q.body).map .start else none
  | .post, [[], sessions, id, what] =>
      if sessions = "sessions".toList ∧ id ≠ [] ∧ what = "command".toList then
        (decodeField "text" q.body).map (.command id)
      else none
  | .delete, [[], sessions, id] =>
      if sessions = "sessions".toList ∧ id ≠ [] then some (.endSession id) else none
  | .delete, [[], sessions, id, what] =>
      if sessions = "sessions".toList ∧ id ≠ [] ∧ what = "save".toList then some (.reset id)
      else none
  | _, _ => none

/-- An operation of a request whose path has a player ID where one belongs. -/
def Addressed : Op → Prop
  | .start _ => True
  | .command id _ | .endSession id | .reset id => matchesPlayerID id = true
  | .close => False

/-- An encoder that writes JSON, in some spelling of the strings. -/
def Encodes (encode : Value Str → Str) : Prop :=
  ∃ q : Spelling Str, q.units = units ∧ ∀ v, Spells q v (encode v)

section

variable {encode : Value Str → Str}

theorem lossyCharsOf_units (s : Str) : lossyCharsOf (units s) = s :=
  JsonText.lossyCharsOf_flatMap s

theorem decodeField_encode (encodes : Encodes encode) (name : String) (text : Str)
    (plain : (name.toList.map Char.toLower) = name.toList) :
    decodeField name (encode (.obj [(name.toList, .str text)])) = some text := by
  obtain ⟨q, same, spells⟩ := encodes
  have spelled := spells (.obj [(name.toList, .str text)])
  have read := (JsonText.readAs_spells q _ _ spelled _ le_rfl).2 [] nofun
  have whole := JsonText.skip_begins spelled.begins []
  rw [List.append_nil] at read whole
  rw [same] at read
  have named : namesField name (units name.toList) = true := by
    rw [namesField, lossyCharsOf_units, plain]
    exact decide_eq_true rfl
  rw [decodeField, whole, read]
  simp only [Value.map, Value.mapMembers, List.foldlM_cons, List.foldlM_nil, named,
    if_true, Option.bind_eq_bind, Option.bind_some, lossyCharsOf_units]
  rfl

theorem slash_notMem {id : Str} (valid : matchesPlayerID id = true) : '/' ∉ id ∧ id ≠ [] := by
  simp only [matchesPlayerID, Bool.and_eq_true, beq_iff_eq, List.all_eq_true] at valid
  constructor
  · intro there
    exact absurd (valid.2 _ there) (by decide)
  · rintro rfl
    exact absurd valid.1 (by decide)

/-- A path is cut at its slashes. -/
theorem splitOn_slash {part : Str} (plain : '/' ∉ part) (rest : Str) :
    (part ++ '/' :: rest).splitOn '/' = part :: rest.splitOn '/' :=
  List.splitOn_append_cons_self_of_not_mem plain rest

theorem splitOn_last {part : Str} (plain : '/' ∉ part) : part.splitOn '/' = [part] :=
  List.splitOn_eq_singleton plain

theorem splitOn_sessions (rest : Str) :
    ("/sessions/".toList ++ rest).splitOn '/' = [] :: "sessions".toList :: rest.splitOn '/' := by
  have name : '/' ∉ "sessions".toList := by simp
  have first : '/' ∉ ([] : Str) := List.not_mem_nil
  have cut := splitOn_slash first ("sessions".toList ++ '/' :: rest)
  rwa [splitOn_slash name] at cut

/-- The service runs what the client asks for. -/
theorem receive_send (encodes : Encodes encode) {op : Op} (addressed : Addressed op) :
    (send encode op).bind receive = some op := by
  cases op with
  | start id =>
      have path : ("/sessions".toList : Str).splitOn '/' = [[], "sessions".toList] := by decide
      have body := decodeField_encode encodes "player_id" id (by decide)
      simp only [send, Option.bind_some, receive, path, if_true, body, Option.map_some]
  | command id text =>
      obtain ⟨plain, some_⟩ := slash_notMem addressed
      have path : ("/sessions/".toList ++ (id ++ "/command".toList)).splitOn '/' =
          [[], "sessions".toList, id, "command".toList] := by
        rw [splitOn_sessions]
        exact congrArg _ (congrArg _ (splitOn_slash plain "command".toList))
      have body := decodeField_encode encodes "text" text (by decide)
      simp only [send, Option.bind_some, receive, path, body, Option.map_some]
      exact if_pos ⟨trivial, some_, trivial⟩
  | endSession id =>
      obtain ⟨plain, some_⟩ := slash_notMem addressed
      have path : ("/sessions/".toList ++ id).splitOn '/' = [[], "sessions".toList, id] := by
        rw [splitOn_sessions, splitOn_last plain]
      simp only [send, Option.bind_some, receive, path]
      exact if_pos ⟨trivial, some_⟩
  | reset id =>
      obtain ⟨plain, some_⟩ := slash_notMem addressed
      have path : ("/sessions/".toList ++ (id ++ "/save".toList)).splitOn '/' =
          [[], "sessions".toList, id, "save".toList] := by
        rw [splitOn_sessions]
        exact congrArg _ (congrArg _ (splitOn_slash plain "save".toList))
      simp only [send, Option.bind_some, receive, path]
      exact if_pos ⟨trivial, some_, trivial⟩
  | close => cases addressed

end

/-! ## In every run -/

namespace Stack

variable {G : Type} {setup : Bot.Setup} {message : PoolErr → Str} {I : Interpreter G}
  {cfg : PoolConfig} {s t : Stack G} {guard : Stack G → Act → Prop}

theorem request_ne_close {b : ZorkBot} {i : Bot.Item} {point : Bot.Point} {op : Op}
    (asks : request b i point = some op) : op ≠ .close := by
  rintro rfl
  cases point <;> cases asks

/-- No request is for the shutdown, and who serves one is on its way to a response. -/
def Wired (message : PoolErr → Str) (s : Stack G) : Prop :=
  ∀ r ∈ s.requests, r.op ≠ .close ∧ ∀ c, r.goroutine = some c →
    ∃ here, s.pool.threads.get c = some here ∧ serving message r.op here = true

theorem serving_stays {a : Pool.Act} {q : Pool G} {op : Op} {c : Nat}
    (stepped : (Pty.pool I cfg).step s.pool a = some q)
    (mine : ∃ here, s.pool.threads.get c = some here ∧ serving message op here = true) :
    ∃ here, q.threads.get c = some here ∧ serving message op here = true := by
  obtain ⟨here, at_, mine⟩ := mine
  obtain ⟨next, now, rfl | onward⟩ := Pool.thread_after (Pool.pool_steps stepped) at_
  · exact ⟨next, now, mine⟩
  · exact ⟨next, now, serving_onward onward mine⟩

theorem wired (reached : (stack setup message I cfg).Reachable guard s) : s.Wired message := by
  apply reached.invariant (motive := Wired message)
  · intro r known
    cases known
  · intro s a t _ wired _ taken
    cases stack_steps taken with
    | @bot act b allowed stepped =>
        intro r known
        rcases List.mem_append.mp known with old | new
        · exact wired r old
        · obtain ⟨n, resume, rfl, -, -, unserved, asks⟩ := asked_cases (Option.mem_toList.mp new)
          refine ⟨request_ne_close asks, fun c served => ?_⟩
          rw [unserved] at served
          cases served
    | @arrives n c r₁ q there waiting stepped =>
        intro r known
        obtain ⟨k, at_⟩ := List.mem_iff_getElem?.mp known
        simp only [List.getElem?_modify, Option.map_eq_map, Option.map_eq_some_iff] at at_
        obtain ⟨r₀, at₀, rfl⟩ := at_
        have old := wired r₀ (List.mem_of_getElem? at₀)
        split
        · next same =>
          rw [same, at₀, Option.some.injEq] at there
          refine ⟨old.1, fun d served => ?_⟩
          obtain rfl : c = d := Option.some.inj served
          -- the new goroutine begins with what was asked for
          cases Pool.pool_steps stepped with
          | calls new =>
              refine ⟨r₁.op.thread, Table.get_set_self .., ?_⟩
              rw [there]
              exact serving_thread message (there ▸ old.1)
        · exact ⟨old.1, fun d served => serving_stays stepped (old.2 d served)⟩
    | @pool act q own stepped =>
        intro r known
        have old := wired r known
        exact ⟨old.1, fun d served => serving_stays stepped (old.2 d served)⟩

end Stack

/-- In every state of every run, a request that has arrived is for the operation that its
goroutine runs, and to whatever the goroutine has returned there is a response, in which the
client reads what the bot goes on with. -/
theorem Stack.exchange_faithful {G : Type} {setup : Bot.Setup} {message : PoolErr → Str}
    {I : Interpreter G} {cfg : PoolConfig} {encode : Value Str → Str} (reason : Nat → Str)
    (spoken : ∀ err, message err ≠ []) (encodes : Encodes encode) {s : Stack G}
    (reached : (stack setup message I cfg).Reachable (fun _ _ => True) s) {r : Request} {c : Nat}
    (known : r ∈ s.requests) (arrived : r.goroutine = some c) :
    (Addressed r.op → (send encode r.op).bind receive = some r.op) ∧
      ∀ ret, s.pool.threads.get c = some (.returned ret) →
        ∃ response, handle message r.op ret = some response ∧
          understand reason r.op response = some (answer message ret) := by
  refine ⟨receive_send encodes, fun ret returned => ?_⟩
  obtain ⟨here, at_, mine⟩ := (Stack.wired reached r known).2 c arrived
  obtain rfl : here = .returned ret := Option.some.inj (at_.symm.trans returned)
  obtain ⟨response, handled⟩ := Option.isSome_iff_exists.mp mine
  exact ⟨response, handled, understand_handle spoken handled⟩

namespace Script

/-- Alice's session is started, the bot's own look fails on its way, and Alice sends a command. -/
def playing : List Stack.Act :=
  (ZorkBot.sends Pty.alice.text "start" "" 0 ++ [ZorkBot.Act.run 0 .advertised]).map .bot ++
    serves 0 0 2 ++
    ([.move 0 (.relaunch .ok), .env 0 (.deliver 0 19), .move 0 (.poll (.data 19)),
      .move 0 (.poll .idle), .go 0] : List Pool.Act).map .pool ++
    ([.run 0 (.answered succeeded), .run 0 (.sent .delivered), .run 0 (.answered .raised),
      .finish 0] ++ ZorkBot.sends Pty.alice.text "_game" "take lamp" 1 : List ZorkBot.Act).map .bot

/-- The command reaches the service, is played, and its goroutine returns the answer. -/
def played : List Stack.Act :=
  playing ++ serves 2 1 2 ++
    ([.move 1 .write, .env 0 (.consume 0 true), .env 0 (.deliver 0 30), .move 1 (.poll (.data 30)),
      .move 1 (.poll .idle), .env 0 (.deliver 0 10), .move 1 .drained, .move 1 .leave] :
      List Pool.Act).map .pool

end Script

/-- Alice takes the lamp: her words arrive, and the bot goes on with the game's. -/
theorem Stack.exchange_faithful_played :
    (send goEscaping.compact (.command Pty.alice.text "take lamp".toList)).bind receive =
        some (.command Pty.alice.text "take lamp".toList) ∧
      ∃ response : Response,
        handle (fun _ => "error".toList) (.command Pty.alice.text "take lamp".toList)
            (.replied Pty.alice "You take lamp.".toList) = some response ∧
          understand (fun _ => []) (.command Pty.alice.text "take lamp".toList) response =
            some (.returned ⟨true, "You take lamp.\n".toList, []⟩) := by
  obtain ⟨s, reached, asked, returned⟩ := System.reaches
    (stack (ZorkBot.small 5) (fun _ => "error".toList) Pty.parrot Pty.timedPool) (fun _ _ => True)
    (fun s => ((s.requests[2]?).map fun r => (r.op, r.goroutine)) =
        some (.command Pty.alice.text "take lamp".toList, some 1) ∧
      s.pool.threads.get 1 = some (.returned (.replied Pty.alice "You take lamp.".toList)))
    Script.played (fun _ _ _ => trivial) (by decide +kernel)
  obtain ⟨r, there, is⟩ := Option.map_eq_some_iff.mp asked
  obtain ⟨op, goroutine⟩ := Prod.mk.inj is
  have encodes : Encodes goEscaping.compact :=
    ⟨goEscaping.spelling, rfl, goEscaping.spells_compact⟩
  have exchanged := Stack.exchange_faithful (fun _ => []) (fun _ => by decide) encodes
    (reached.mono fun _ _ _ => trivial) (List.mem_of_getElem? there) goroutine
  rw [op] at exchanged
  have addressed : Addressed (.command Pty.alice.text "take lamp".toList) :=
    show matchesPlayerID Pty.alice.text = true by decide
  exact ⟨exchanged.1 addressed, exchanged.2 _ returned⟩

end Zorkbot.Compose
