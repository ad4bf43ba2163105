/-
# The keys that reach the radio

The routes of the radio with the bodies that come in, and every `set_channel` that they
send. A `PUT` sends the name and the key of its body and a `DELETE` sends no name and
random bytes; nothing else sends one.
-/

import Zorkbot.Admin.ChannelBody
import Zorkbot.Admin.RadioConsole

namespace Zorkbot.Admin

open Zorkbot.Bot (Str)
open Transition

/-- A request to a route of the radio. -/
inductive RouteRequest
  | put (idx : Int) (body : Option Json)
  | delete (idx : Int)
  /-- A route that reads. -/
  | get
  /-- A request that is turned away before its route runs: without a token or with a wrong
  one, with a path or a body that is not valid. -/
  | refused (status : Nat)

/-- A `set_channel` that was sent: for which request, and the random bytes of that step. -/
structure SentWrite where
  call : Nat
  idx : Int
  name : Str
  secret : Option Key
  random : Key
  deriving DecidableEq

def Rejection.response : Rejection → RadioResponse
  | .http status error _ => .failed status error
  | .exception => .failed 500 "internal_error".toList

/-- `body.get("replace") is True`. -/
def replaces : Option Json → Bool
  | some (.obj entries) =>
      match Json.get entries "replace" with
      | .bool b => b
      | _ => false
  | _ => false

/-- The first checks of `put_channel`. -/
def acceptPut (setup : RadioSetup) (idx : Int) (body : Option Json) :
    Except RadioResponse RadioRequest :=
  if setup.writeEnabled then
    match channelFromBody body with
    | .ok (name, secret, _) => .ok (.put idx name secret (replaces body))
    | .error rejection => .error rejection.response
  else .error (.failed 403 "writes_disabled".toList)

/-- What the framework and the first checks of a route make of a request: the routes take
a JSON object or no body. -/
def RouteRequest.accept (setup : RadioSetup) : RouteRequest → Except RadioResponse RadioRequest
  | .put idx body =>
      match body with
      | none | some .null | some (.obj _) => acceptPut setup idx body
      | some _ => .error (.failed 422 "invalid_request".toList)
  | .delete idx => .ok (.delete idx)
  | .get => .ok .get
  | .refused status => .error (.failed status [])

structure RadioRoutes where
  console : RadioConsole
  requests : List RouteRequest
  /-- Bookkeeping: every `set_channel` that was sent. -/
  sent : List SentWrite

inductive RouteAct
  | call (request : RouteRequest)
  | connect (connected : Bool)
  | turn (n : Nat) (clock : Readings) (write : WriteAnswer) (random : Key) (faults : Faults)

namespace RadioRoutes

variable {setup : RadioSetup} {s t : RadioRoutes}

/-- The `set_channel` that a request sends when it has the lock. -/
def sends (setup : RadioSetup) (n : Nat) (clock : Readings) (random : Key) (s : RadioConsole) :
    Option SentWrite :=
  match s.call n with
  | some (request, .writing _) =>
      if (s.cache.refuses setup s.connected clock.entered).isNone then
        (request.target random).map fun (idx, name, secret) => ⟨n, idx, name, secret, random⟩
      else none
  | _ => none

def step (setup : RadioSetup) (s : RadioRoutes) : RouteAct → Option RadioRoutes
  | .call request =>
      let console :=
        match request.accept setup with
        | .ok accepted => s.console.step setup (.call accepted)
        | .error response =>
            some { s.console with calls := s.console.calls ++ [(RadioRequest.get, RadioPoint.ended response)] }
      console.map fun console =>
        { s with
          console := console
          requests := s.requests ++ [request] }
  | .connect connected => some { s with console := { s.console with connected := connected } }
  | .turn n clock write random faults =>
      (s.console.step setup (.turn n clock write random faults)).map fun console =>
        { s with
          console := console
          sent := s.sent ++ (sends setup n clock random s.console).toList }

end RadioRoutes

/-- The routes of a radio that has these slots. -/
def radioRoutes (setup : RadioSetup) (slots : Radio) : System RadioRoutes RouteAct :=
  ⟨⟨.init slots, [], []⟩, RadioRoutes.step setup⟩

namespace RadioRoutes

variable {setup : RadioSetup} {slots : Radio} {s t : RadioRoutes} {n : Nat}

/-- The radio after it has answered a `set_channel`. -/
def sentTo (setup : RadioSetup) (radio : Radio) (w : SentWrite × WriteAnswer) : Radio :=
  radio.write setup w.2 w.1.idx w.1.name w.1.secret

/-- What a turn does to the radio is what it sends. -/
theorem slots_of_turn {clock : Readings} {write : WriteAnswer} {random : Key} {faults : Faults}
    {c : RadioConsole}
    (taken : s.console.step setup (.turn n clock write random faults) = some c) :
    c.slots = (sends setup n clock random s.console).elim s.console.slots fun w =>
      sentTo setup s.console.slots (w, write) := by
  cases RadioConsole.console_steps taken with
  | bounds there | lists there =>
      simp only [sends, there]
      rfl
  | @writes n clock write random faults request existing idx name secret there target expectName =>
      have sent : sends setup n clock random s.console =
          if (s.console.cache.refuses setup s.console.connected clock.entered).isNone then
            some ⟨n, idx, name, secret, random⟩
          else none := by
        simp only [sends, there, target, Option.map_some]
      change (s.console.cache.writeChannel setup s.console.connected clock write faults idx name
        secret expectName s.console.slots).2.2 = _
      rw [sent]
      cases refused : s.console.cache.refuses setup s.console.connected clock.entered with
      | some refusal =>
          rw [RadioState.writeChannel_of_refuses refused]
          rfl
      | none =>
          rw [RadioState.writeChannel_of_passes refused]
          rfl

/-- Whatever is under way was accepted. -/
structure Accepts (setup : RadioSetup) (s : RadioRoutes) : Prop where
  aligned : s.requests.length = s.console.calls.length
  accepted : ∀ {n request point}, s.console.call n = some (request, point) →
    (∀ response, point ≠ .ended response) → ∃ route, s.requests[n]? = some route ∧
      route.accept setup = .ok request

/-- A request is added at the same place of both lists. -/
theorem Accepts.add (accepts : Accepts setup s) {route : RouteRequest} {request : RadioRequest}
    {point : RadioPoint} {c : RadioConsole}
    (calls : c.calls = s.console.calls ++ [(request, point)])
    (fits : (∀ response, point ≠ .ended response) → route.accept setup = .ok request) :
    Accepts setup { s with console := c, requests := s.requests ++ [route] } := by
  refine ⟨by simp [calls, accepts.aligned], fun {n request' point'} there waits => ?_⟩
  have there : (s.console.calls ++ [(request, point)])[n]? = some (request', point') := calls ▸ there
  rw [List.getElem?_append] at there
  split at there
  · next early =>
      obtain ⟨route', known, same⟩ := accepts.accepted there waits
      exact ⟨route', (List.getElem?_append_left (accepts.aligned ▸ early)).trans known, same⟩
  · next late =>
      have last := List.getElem?_eq_some_iff.mp there
      obtain ⟨inside, same⟩ := last
      have zero : n - s.console.calls.length = 0 := by simpa using inside
      simp only [zero, List.getElem_cons_zero, Prod.mk.injEq] at same
      obtain ⟨rfl, rfl⟩ := same
      refine ⟨route, ?_, fits waits⟩
      have place : n = s.requests.length := by
        rw [accepts.aligned]
        omega
      rw [place]
      exact List.getElem?_concat_length

/-- The console goes on with what is under way. -/
theorem Accepts.console (accepts : Accepts setup s) {c : RadioConsole} {sent : List SentWrite}
    (same : ∀ {n request point}, c.call n = some (request, point) →
      (∀ response, point ≠ .ended response) → ∃ point', s.console.call n = some (request, point') ∧
        ∀ response, point' ≠ .ended response)
    (aligned : c.calls.length = s.console.calls.length) :
    Accepts setup { s with console := c, sent := sent } := by
  refine ⟨accepts.aligned.trans aligned.symm, fun there waits => ?_⟩
  obtain ⟨point', there', waits'⟩ := same there waits
  exact accepts.accepted there' waits'

theorem accepts_step {a : RouteAct} (accepts : Accepts setup s) (taken : s.step setup a = some t) :
    Accepts setup t := by
  cases a with
  | call route =>
      obtain ⟨c, entered, rfl⟩ := Option.map_eq_some_iff.mp taken
      split at entered
      · next request accepted =>
          cases entered
          exact accepts.add rfl fun _ => accepted
      · next response rejected =>
          cases entered
          exact accepts.add rfl fun waits => absurd rfl (waits response)
  | connect connected =>
      cases taken
      exact accepts.console (fun there waits => ⟨_, there, waits⟩) rfl
  | turn n clock write random faults =>
      obtain ⟨c, goes, rfl⟩ := Option.map_eq_some_iff.mp taken
      have moved : ∀ {request point point'} {u : RadioConsole}, u.calls = s.console.calls →
          s.console.call n = some (request, point) → (∀ response, point ≠ .ended response) →
            Accepts setup { s with
              console := u.move n request point'
              sent := s.sent ++ (sends setup n clock random s.console).toList } := by
        intro request point point' u calls there waits
        refine accepts.console (fun {m request' point''} there' waits' => ?_) ?_
        · rcases RadioConsole.call_move there' with ⟨rfl, same⟩ | ⟨-, before⟩
          · cases same
            exact ⟨point, there, waits⟩
          · rw [RadioConsole.call, calls] at before
            exact ⟨point'', before, waits'⟩
        · rw [← calls]
          exact List.length_set ..
      cases RadioConsole.console_steps goes with
      | bounds there => exact moved rfl there nofun
      | lists there => exact moved rfl there nofun
      | writes there target expectName done => exact moved rfl there nofun

theorem accepts (reached : (radioRoutes setup slots).Reachable (fun _ _ => True) s) :
    Accepts setup s := by
  refine reached.invariant (motive := Accepts setup) ?_ ?_
  · exact ⟨rfl, fun there => absurd (List.getElem?_nil.symm.trans there) nofun⟩
  · exact fun _ _ _ _ prior _ taken => accepts_step prior taken

/-! ## What is sent -/

/-- A `set_channel` that a request may send. -/
def Justified (s : RadioRoutes) (w : SentWrite) : Prop :=
  (∃ body, s.requests[w.call]? = some (.put w.idx body) ∧ Sound body w.name w.secret) ∨
    s.requests[w.call]? = some (.delete w.idx) ∧ w.name = [] ∧ w.secret = some w.random

theorem acceptPut_ok {idx idx' : Int} {body : Option Json} {name : Str} {secret : Option Key}
    {replace : Bool} (accepted : acceptPut setup idx' body = .ok (.put idx name secret replace)) :
    idx' = idx ∧ Sound body name secret := by
  unfold acceptPut at accepted
  split at accepted
  · split at accepted
    · next found =>
        cases accepted
        exact ⟨rfl, sound_of_channelFromBody found⟩
    · cases accepted
  · cases accepted

theorem accept_put {route : RouteRequest} {idx : Int} {name : Str} {secret : Option Key}
    {replace : Bool} (accepted : route.accept setup = .ok (.put idx name secret replace)) :
    ∃ body, route = .put idx body ∧ Sound body name secret := by
  cases route with
  | delete | get | refused => cases accepted
  | put idx' body =>
      have put : acceptPut setup idx' body = .ok (.put idx name secret replace) := by
        simp only [RouteRequest.accept] at accepted
        split at accepted
        · exact accepted
        · exact accepted
        · exact accepted
        · cases accepted
      obtain ⟨rfl, sound⟩ := acceptPut_ok put
      exact ⟨body, rfl, sound⟩

theorem accept_delete {route : RouteRequest} {idx : Int}
    (accepted : route.accept setup = .ok (.delete idx)) : route = .delete idx := by
  cases route with
  | delete idx' =>
      cases accepted
      rfl
  | get | refused => cases accepted
  | put idx' body =>
      simp only [RouteRequest.accept, acceptPut] at accepted
      repeat' split at accepted
      all_goals cases accepted

theorem justified_sends (accepts : Accepts setup s) {clock : Readings} {random : Key}
    {w : SentWrite} (sent : sends setup n clock random s.console = some w) : s.Justified w := by
  unfold sends at sent
  split at sent
  · next request existing there =>
      split at sent
      · obtain ⟨⟨idx, name, secret⟩, target, rfl⟩ := Option.map_eq_some_iff.mp sent
        obtain ⟨route, known, accepted⟩ := accepts.accepted there nofun
        cases request with
        | get => cases target
        | put idx' name' secret' replace =>
            cases target
            obtain ⟨body, rfl, sound⟩ := accept_put accepted
            exact .inl ⟨body, known, sound⟩
        | delete idx' =>
            cases target
            exact .inr ⟨accept_delete accepted ▸ known, rfl, rfl⟩
      · cases sent
  · cases sent

/-- Requests are not forgotten. -/
theorem Justified.later {w : SentWrite} (justified : s.Justified w) {more : List RouteRequest}
    (requests : t.requests = s.requests ++ more) : t.Justified w := by
  have kept : ∀ {route}, s.requests[w.call]? = some route → t.requests[w.call]? = some route := by
    intro route known
    rw [requests, List.getElem?_append_left (List.getElem?_eq_some_iff.mp known).1]
    exact known
  rcases justified with ⟨body, known, sound⟩ | ⟨known, rest⟩
  · exact .inl ⟨body, kept known, sound⟩
  · exact .inr ⟨kept known, rest⟩

/-- What the radio holds is what was sent to it, and nothing else. -/
theorem slots_are_sent (reached : (radioRoutes setup slots).Reachable (fun _ _ => True) s) :
    ∃ answers : List WriteAnswer, answers.length = s.sent.length ∧
      s.console.slots = (s.sent.zip answers).foldl (sentTo setup) slots := by
  refine reached.invariant (motive := fun s => ∃ answers : List WriteAnswer,
    answers.length = s.sent.length ∧
      s.console.slots = (s.sent.zip answers).foldl (sentTo setup) slots) ⟨[], rfl, rfl⟩ ?_
  intro s a t _ ⟨answers, length, holds⟩ _ taken
  cases a with
  | call route =>
      obtain ⟨c, entered, rfl⟩ := Option.map_eq_some_iff.mp taken
      refine ⟨answers, length, Eq.trans ?_ holds⟩
      split at entered <;> cases entered <;> rfl
  | connect connected =>
      cases taken
      exact ⟨answers, length, holds⟩
  | turn n clock write random faults =>
      obtain ⟨c, goes, rfl⟩ := Option.map_eq_some_iff.mp taken
      have after := slots_of_turn goes
      cases sent : sends setup n clock random s.console with
      | none =>
          rw [sent] at after
          exact ⟨answers, by simpa [sent] using length, by simpa [sent] using after.trans holds⟩
      | some w =>
          rw [sent, Option.elim_some, holds] at after
          refine ⟨answers ++ [write], by simp [length], ?_⟩
          rw [after]
          simp only [Option.toList_some]
          rw [List.zip_append length.symm, List.foldl_append]
          rfl

/-- Every `set_channel` that reaches the radio is that of a `PUT` with the name and the key
of its body, or that of a `DELETE` with random bytes. -/
theorem keys_are_safe (reached : (radioRoutes setup slots).Reachable (fun _ _ => True) s) :
    ∀ w ∈ s.sent, s.Justified w := by
  refine reached.invariant (motive := fun s => ∀ w ∈ s.sent, s.Justified w) nofun ?_
  intro s a t reached prior _ taken w listed
  cases a with
  | call route =>
      obtain ⟨c, -, rfl⟩ := Option.map_eq_some_iff.mp taken
      exact (prior w listed).later rfl
  | connect connected =>
      cases taken
      exact (prior w listed).later (List.append_nil _).symm
  | turn n clock write random faults =>
      obtain ⟨c, -, rfl⟩ := Option.map_eq_some_iff.mp taken
      rcases List.mem_append.mp listed with before | new
      · exact (prior w before).later (List.append_nil _).symm
      · exact (justified_sends (accepts reached) (Option.mem_toList.mp new)).later
          (List.append_nil _).symm

/-- A body with a name and a key, as an operator may paste them. -/
def pasted : Json :=
  .obj [(PyStr.ofStr "name".toList, .str (PyStr.ofStr " london ".toList)),
    (PyStr.ofStr "secret".toList,
      .str (PyStr.ofStr "0aFf0aFf0aFf0aFf0aFf0aFf0aFf0aFf\n".toList))]

/-- A request that takes the lock three times. -/
def serves (n : Nat) (request : RouteRequest) (clock : ℚ) : List RouteAct :=
  [.call request, .turn n ⟨clock, clock, 0⟩ .accepts (.replicate 16 2) (faultless 1),
    .turn n ⟨clock, clock, 0⟩ .accepts (.replicate 16 2) (faultless 1),
    .turn n ⟨clock, clock, 0⟩ .accepts (.replicate 16 2) (faultless 1)]

/-- A channel is written, and removed again. -/
theorem keys_are_safe_london : ∃ s : RadioRoutes,
    s.sent.map (fun w => (w.name, w.secret)) =
        [("london".toList, some #v[10, 255, 10, 255, 10, 255, 10, 255, 10, 255, 10, 255, 10, 255,
          10, 255]), ([], some (.replicate 16 2))] ∧
      ∀ w ∈ s.sent, s.Justified w := by
  obtain ⟨s, reached, sent⟩ := System.reaches
    (radioRoutes RadioConsole.openRadio [⟨[], .replicate 16 3⟩]) (fun _ _ => True)
    (fun s => s.sent.map (fun w => (w.name, w.secret)) =
        [("london".toList, some #v[10, 255, 10, 255, 10, 255, 10, 255, 10, 255, 10, 255, 10, 255,
          10, 255]), ([], some (.replicate 16 2))])
    (RouteAct.connect true :: serves 0 (.put 0 (some pasted)) 10 ++ serves 1 (.delete 0) 20)
    (fun _ _ _ => trivial) (by decide +kernel)
  exact ⟨s, sent, keys_are_safe (reached.mono fun _ _ _ => trivial)⟩

end RadioRoutes

end Zorkbot.Admin
