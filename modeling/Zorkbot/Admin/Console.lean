/-
# The console's tokens

`static/app.js`. A tab of the console holds an access token and a refresh token. A call that is
refused for its access token exchanges the refresh token and is tried once more; the page does
not care whether another call does the same. The service takes a token that is exchanged twice
for a stolen one and logs everybody out, so it matters that what the tab asks of the tokens is
asked one after another.

Others use the service at the same time, and `prune_retention` deletes tokens from its store.
-/

import Zorkbot.Admin.Reuse

namespace Zorkbot.Admin

open Zorkbot.Bot (Str)
open Transition

/-! ## The tab -/

/-- What a call is made for. -/
inductive Purpose
  /-- `init`, which has no request of its own. -/
  | start
  /-- The login form. -/
  | login (username password ip : Str)
  /-- Any endpoint that has nothing to do with tokens. -/
  | request
  /-- The forms that change the password. -/
  | changePassword (current new : Str)
  /-- The logout button, with the refresh token that the tab had when it was pressed. -/
  | logout (refreshToken : Nat)
  deriving DecidableEq

/-- What a response says. -/
inductive Verdict
  /-- Status 401. -/
  | unauthorized
  /-- Status 204. -/
  | noContent
  | tokens (result : TokenResult)
  | other
  deriving DecidableEq

def Outcome.verdict : Outcome → Verdict
  | .tokens result => .tokens result
  | .changed _ | .revoked => .noContent
  | .raised _ | .failed => .other

/-- Where a call is. -/
inductive Stage
  /-- A request is on its way with an access token, for the first time or again. -/
  | asked (token : Option Nat) (again : Bool)
  /-- It was admitted, and the service is at work on it. -/
  | serving (n : Nat) (again : Bool)
  /-- A response from elsewhere is on its way: it refuses the access token or does not. -/
  | answered (refused again : Bool)
  /-- Inside `tryRefresh`. -/
  | refreshing (n : Nat)
  | ended
  deriving DecidableEq

/-- The request of the service that a call waits for. -/
def Stage.waitsFor : Stage → Option Nat
  | .serving n _ | .refreshing n => some n
  | _ => none

/-- A tab and the service. -/
structure Console where
  service : AuthService
  accessToken : Option Nat
  /-- Also in the session storage. -/
  refreshToken : Option Nat
  calls : List (Purpose × Stage)
  /-- Bookkeeping: which of the service's requests are the tab's, newest first. -/
  asked : List Nat
  /-- Bookkeeping: the refresh tokens that were deleted because they had expired. -/
  pruned : List Nat

namespace Console

def init (setup : Setup) : Console := ⟨.init setup, none, none, [], [], []⟩

def moveTo (c : Nat) (stage : Stage) (s : Console) : Console :=
  { s with calls := s.calls.modify c fun call => (call.1, stage) }

/-- `setTokens`. -/
def setTokens (result : TokenResult) (s : Console) : Console :=
  { s with
    accessToken := some result.accessToken
    refreshToken := some result.refreshToken }

/-- `clearTokens`, which `showLogin` begins with. -/
def clearTokens (s : Console) : Console :=
  { s with
    accessToken := none
    refreshToken := none }

inductive Act
  /-- The page is loaded anew. -/
  | reload (clock : Clock)
  /-- A call is made. -/
  | begin (purpose : Purpose) (clock : Clock)
  /-- The request of a call comes to its endpoint. -/
  | arrive (c : Nat) (clock : Clock)
  /-- The service goes on with a request, or somebody else makes one. -/
  | service (act : AuthService.Act)
  /-- `prune_retention`. -/
  | prune (retentionDays : Int) (readings : ClockReadings)
  /-- A call gets its response. -/
  | receive (c : Nat) (clock : Clock)
  /-- `tryRefresh` gets its response. -/
  | refreshed (c : Nat)
  /-- `fetch` raises. -/
  | lose (c : Nat)

/-- What an admitted call asks of the service's tokens. -/
def handlerRequest : Purpose → Scope → Option Request
  | .changePassword current new, _ => some (.changePassword current new)
  | .logout hash, .admin => some (.revokeRefreshToken hash)
  | _, _ => none

/-- What a call has been answered, and whether it was its second try. -/
def verdict (s : Console) : Stage → Option (Verdict × Bool)
  | .answered refused again => some (if refused then .unauthorized else .other, again)
  | .serving n again =>
      match s.service.call n with
      | some (_, .ended outcome) => some (outcome.verdict, again)
      | _ => none
  | _ => none

/-- What the page does about the tokens when a call has ended without tokens. -/
def conclude (purpose : Purpose) (verdict : Verdict) (s : Console) : Console :=
  match purpose, verdict with
  | .changePassword .., .noContent | .logout _, _ => s.clearTokens
  | _, _ => s

/-- A request comes in at the service, for a call that waits for it. -/
def enter (setup : Setup) (request : Request) (clock : Clock)
    (next : Nat → Console → Console) (s : Console) : Option Console :=
  (s.service.step setup (.call request clock)).map fun service =>
    next s.service.calls.length
      { s with
        service := service
        asked := s.service.calls.length :: s.asked }

/-- Tokens are deleted from the store. -/
def prune (retentionDays : Int) (readings : ClockReadings) (s : Console) : Console :=
  let rows := s.service.store.refreshTokens
  let kept := Vault.pruneRetention retentionDays readings rows
  { s with
    service := { s.service with store.refreshTokens := kept }
    pruned :=
      (rows.filter fun row =>
        decide (row.expiresAt < (readings.clock 1).seconds ∧ row ∉ kept)).map
          RefreshToken.tokenHash ++ s.pruned }

/-- What comes after a response in `api` and in those who call it. -/
def respond (setup : Setup) (c : Nat) (clock : Clock) (purpose : Purpose) (again : Bool)
    (s : Console) : Verdict → Option Console
  | .unauthorized =>
      match again, s.refreshToken with
      | false, some hash =>
          s.enter setup (.refreshGrant hash) clock fun n s => s.moveTo c (.refreshing n)
      | _, _ => some (s.clearTokens.moveTo c .ended)
  | .tokens result => some ((s.setTokens result).moveTo c .ended)
  | .noContent => some ((s.conclude purpose .noContent).moveTo c .ended)
  | .other => some ((s.conclude purpose .other).moveTo c .ended)

def step (setup : Setup) (s : Console) : Act → Option Console
  | .reload clock =>
      match s.refreshToken with
      | none => some { s with accessToken := none, calls := [] }
      | some hash =>
          s.enter setup (.refreshGrant hash) clock fun n s =>
            { s with accessToken := none, calls := [(.start, .refreshing n)] }
  | .begin purpose clock =>
      match purpose with
      | .start => none
      | .login username password ip =>
          s.enter setup (.passwordGrant username password ip) clock fun n s =>
            { s with calls := s.calls ++ [(purpose, .serving n false)] }
      | .logout hash =>
          if s.refreshToken = some hash then
            some { s with calls := s.calls ++ [(purpose, .asked s.accessToken false)] }
          else none
      | _ => some { s with calls := s.calls ++ [(purpose, .asked s.accessToken false)] }
  | .arrive c clock =>
      match s.calls[c]? with
      | some (_, .asked none again) => some (s.moveTo c (.answered true again))
      | some (purpose, .asked (some token) again) =>
          (s.service.step setup (.verify token clock)).bind fun service =>
            match (s.service.verifyAccessToken clock token).1 with
            | none =>
                some ({ s with service := service }.moveTo c (.answered true again))
            | some entry =>
                match handlerRequest purpose entry.scope with
                | some request =>
                    { s with service := service }.enter setup request clock fun n s =>
                      s.moveTo c (.serving n again)
                | none => some ({ s with service := service }.moveTo c (.answered false again))
      | _ => none
  | .service act => (s.service.step setup act).map fun service => { s with service := service }
  | .prune retentionDays readings => some (s.prune retentionDays readings)
  | .receive c clock =>
      match s.calls[c]? with
      | some (purpose, stage) =>
          (s.verdict stage).bind fun (verdict, again) =>
            s.respond setup c clock purpose again verdict
      | none => none
  | .refreshed c =>
      match s.calls[c]? with
      | some (purpose, .refreshing n) =>
          match s.service.call n with
          | some (_, .ended (.tokens result)) =>
              some ((s.setTokens result).moveTo c
                (if purpose = .start then .ended else .asked (some result.accessToken) true))
          | some (_, .ended _) => some (s.clearTokens.moveTo c .ended)
          | _ => none
      | _ => none
  | .lose c =>
      match s.calls[c]? with
      | some (_, .ended) | none => none
      | some (_, .refreshing _) | some (.logout _, _) => some (s.clearTokens.moveTo c .ended)
      | some _ => some (s.moveTo c .ended)

end Console

/-- The runs of a tab with the service. -/
def console (setup : Setup) : System Console Console.Act := ⟨.init setup, Console.step setup⟩

/-! ## One at a time -/

/-- A request is not answered yet. -/
def Point.pending : Point → Bool
  | .ended _ => false
  | _ => true

/-- A statement revokes a token. -/
def Statement.spends (hash : Nat) : Statement → Bool
  | .replaceRefreshToken other _ _ | .revoke other _ => decide (other = hash)
  | .revokeAll _ => true
  | _ => false

/-- The refresh tokens that a request is about to exchange or to hand out. -/
def Wait.tokens : Wait → List Nat
  | .passwordIssued result | .refreshReplaced _ result => [result.refreshToken]
  | .refreshRow hash | .refreshUser hash .. => [hash]
  | .refreshIssued hash _ result => [hash, result.refreshToken]
  | _ => []

def Point.tokens : Point → List Nat
  | .waiting _ wait | .replied _ wait => wait.tokens
  | .ended (.tokens result) => [result.refreshToken]
  | .ended _ => []

namespace Console

/-- The service is at work for the tab, or its answer has not come yet. -/
def busy (s : Console) : Bool :=
  (s.asked.any fun n => (s.service.call n).any fun call => call.2.pending) ||
    s.calls.any fun call => call.2.waitsFor.isSome

/-- The refresh tokens that the tab has, or that its last request is about. -/
def claims (s : Console) : List Nat :=
  s.refreshToken.toList ++ (s.asked.head?.bind s.service.call).elim [] fun call => call.2.tokens

/-- The answer to a password change is lost. -/
def losesChange (s : Console) : Act → Bool
  | .lose c =>
      match s.calls[c]? with
      | some (.changePassword .., .serving ..) => true
      | _ => false
  | _ => false

/-- What the store executes for somebody else revokes no token of the tab's. -/
def spares (s : Console) : Act → Bool
  | .service (.execute n) =>
      match s.service.call n with
      | some (_, .waiting statement _) =>
          decide (n ∈ s.asked) || s.claims.all fun hash => !statement.spends hash
      | _ => true
  | _ => true

/-- The refresh token that `secrets` makes up has not been made up before. -/
def makesNew (s : Console) : Act → Bool
  | .service (.resume _ _ fresh) =>
      decide (fresh.2 ∉ s.pruned) &&
        s.service.store.refreshTokens.all fun row => decide (row.tokenHash ≠ fresh.2)
  | _ => true

/-- The tab asks for nothing that has to do with tokens while it waits for such an answer, no
answer to a password change is lost, and nobody else has a token of the tab's revoked. -/
def apart (setup : Setup) (s : Console) (a : Act) : Bool :=
  (!s.busy || (s.step setup a).all fun t => decide (t.asked = s.asked)) && !s.losesChange a &&
    s.spares a && s.makesNew a

/-- The request is what a call in this stage waits for. -/
def suits : Purpose → Stage → Request → Bool
  | .login .., .serving .., .passwordGrant .. => true
  | .changePassword .., .serving .., .changePassword .. => true
  | .logout _, .serving .., .revokeRefreshToken _ => true
  | _, .refreshing _, .refreshGrant _ => true
  | _, _, _ => false

/-- A call that waits for an answer about tokens, by its number. -/
def waiting (s : Console) (c : Nat) : Option (Purpose × Stage) :=
  (s.calls[c]?).filter fun call => call.2.waitsFor.isSome

/-- The service has the same tokens in the store, and its requests are where they were. -/
structure Quiet (setup : Setup) (before after : AuthService) : Prop where
  store : after.store = before.store
  length : before.calls.length ≤ after.calls.length
  call : ∀ n < before.calls.length, after.call n = before.call n
  path : (authService setup).Path (fun _ _ => True) before after

theorem Quiet.refl {setup : Setup} (service : AuthService) : Quiet setup service service :=
  ⟨rfl, le_rfl, fun _ _ => rfl, .refl service⟩

/-- The tab has asked the service for nothing more, and no token was deleted. -/
structure Rests (s t : Console) : Prop where
  asked : t.asked = s.asked
  pruned : t.pruned = s.pruned

/-! ## What one step can do -/

variable {setup : Setup} {s t : Console}

/-- A call may stop to wait so when it has no answer. -/
def Released (s t : Console) (call : Purpose × Stage) : Prop :=
  t.refreshToken = none ∨ t.refreshToken = s.refreshToken ∧
    ∃ username password ip n again, call = (.login username password ip, .serving n again)

/-- What one step does with the service, the refresh token and the calls that wait for it. -/
inductive Moves (setup : Setup) (s t : Console) : Prop
  /-- A request goes on, of the tab or of somebody else. -/
  | serves {act : AuthService.Act}
      (goesOn : (∃ n, act = .execute n) ∨ ∃ n clock fresh, act = .resume n clock fresh)
      (stepped : s.service.step setup act = some t.service)
      (held : t.refreshToken = s.refreshToken) (calls : t.calls = s.calls) (rests : Rests s t)
      (spares : s.spares (.service act) = true) (makesNew : s.makesNew (.service act) = true)
  /-- A request enters, for a call that did not wait yet. -/
  | enters {request : Request} {clock : Clock} {service : AuthService} {c : Nat}
      {purpose : Purpose} {stage : Stage} (quiet : Quiet setup s.service service)
      (held : t.refreshToken = s.refreshToken)
      (own : ∀ hash, request = .refreshGrant hash → s.refreshToken = some hash)
      (entered : service.step setup (.call request clock) = some t.service)
      (waits : t.waiting c = some (purpose, stage))
      (for_ : stage.waitsFor = some service.calls.length)
      (suits : suits purpose stage request = true)
      (others : ∀ d, d ≠ c → t.waiting d = s.waiting d ∨ t.waiting d = none)
      (asked : t.asked = service.calls.length :: s.asked) (pruned : t.pruned = s.pruned)
  | idles (quiet : Quiet setup s.service t.service)
      (held : t.refreshToken = s.refreshToken ∨ t.refreshToken = none)
      (others : ∀ d, t.waiting d = s.waiting d ∨
        t.waiting d = none ∧ ∀ call, s.waiting d = some call → Released s t call)
      (rests : Rests s t)
  /-- A call gets the answer that it has waited for. -/
  | settles {c n : Nat} {purpose : Purpose} {stage : Stage} {request : Request}
      {outcome : Outcome} (waited : s.waiting c = some (purpose, stage))
      (for_ : stage.waitsFor = some n)
      (answered : s.service.call n = some (request, .ended outcome))
      (service : t.service = s.service)
      (held : t.refreshToken = none ∨
        (∃ result, outcome = .tokens result ∧ t.refreshToken = some result.refreshToken) ∨
        (t.refreshToken = s.refreshToken ∧ (∀ k, stage ≠ .refreshing k) ∧
          (∀ result, outcome ≠ .tokens result) ∧ (∀ hash, purpose ≠ .logout hash) ∧
          ∀ current new, purpose = .changePassword current new → outcome.verdict = .other))
      (done : t.waiting c = none) (others : ∀ d, d ≠ c → t.waiting d = s.waiting d)
      (rests : Rests s t)
  | prunes {retentionDays : Int} {readings : ClockReadings}
      (after : t = s.prune retentionDays readings)

theorem waiting_moveTo {c : Nat} {purpose : Purpose} {before : Stage}
    (there : s.calls[c]? = some (purpose, before)) (stage : Stage) (d : Nat) :
    (s.moveTo c stage).waiting d =
      if d = c then (some (purpose, stage)).filter fun call => call.2.waitsFor.isSome
      else s.waiting d := by
  rw [waiting, moveTo, List.getElem?_modify]
  by_cases here : d = c
  · subst here
    simp [there]
  · have other : c ≠ d := fun same => here same.symm
    simp [here, other, waiting]

theorem waiting_append (s : Console) (call : Purpose × Stage) (d : Nat) :
    { s with calls := s.calls ++ [call] }.waiting d =
      if d = s.calls.length then (some call).filter fun call => call.2.waitsFor.isSome
      else s.waiting d := by
  rw [waiting, waiting, List.getElem?_append]
  by_cases before : d < s.calls.length
  · rw [if_pos before, if_neg (Nat.ne_of_lt before)]
  · rw [if_neg before]
    by_cases here : d = s.calls.length
    · simp [here]
    · have beyond : s.calls[d]? = none := List.getElem?_eq_none (by omega)
      rw [if_neg here, beyond, List.getElem?_eq_none (by simp; omega)]

/-- A call that does not wait for an answer about tokens goes where it does not. -/
theorem moves_moveTo {c : Nat} {purpose : Purpose} {before stage : Stage} {u : Console}
    (there : s.calls[c]? = some (purpose, before)) (before_ : before.waitsFor = none)
    (after : stage.waitsFor = none) (calls : u.calls = s.calls) (quiet : Quiet setup s.service u.service)
    (held : u.refreshToken = s.refreshToken ∨ u.refreshToken = none) (rests : Rests s u) :
    Moves setup s (u.moveTo c stage) := by
  refine .idles quiet held (fun d => .inl ?_) ⟨rests.asked, rests.pruned⟩
  have there' : u.calls[c]? = some (purpose, before) := calls ▸ there
  rw [waiting_moveTo there']
  split
  · next here =>
    rw [here, waiting, there]
    simp [Option.filter, before_, after]
  · rw [waiting, waiting, calls]

theorem enter_cases {request : Request} {clock : Clock} {next : Nat → Console → Console}
    (entered : s.enter setup request clock next = some t) :
    ∃ service, s.service.step setup (.call request clock) = some service ∧
      t = next s.service.calls.length
        { s with
          service := service
          asked := s.service.calls.length :: s.asked } := by
  obtain ⟨service, stepped, rfl⟩ := Option.map_eq_some_iff.mp entered
  exact ⟨service, stepped, rfl⟩

theorem quiet_verify {service : AuthService} {token : Nat} {clock : Clock}
    (stepped : s.service.step setup (.verify token clock) = some service) :
    Quiet setup s.service service := by
  have taken : (authService setup).step s.service (.verify token clock) = some service := stepped
  have path : (authService setup).Path (fun _ _ => True) s.service service :=
    .tail (.refl s.service) trivial taken
  cases AuthService.auth_steps stepped with
  | verifies => exact ⟨rfl, le_rfl, fun _ _ => rfl, path⟩

theorem quiet_call {service : AuthService} {request : Request} {clock : Clock}
    (stepped : s.service.step setup (.call request clock) = some service) :
    Quiet setup s.service service := by
  have taken : (authService setup).step s.service (.call request clock) = some service := stepped
  have path : (authService setup).Path (fun _ _ => True) s.service service :=
    .tail (.refl s.service) trivial taken
  cases AuthService.auth_steps stepped with
  | calls =>
      refine ⟨rfl, ?_, fun n early => List.getElem?_append_left early, path⟩
      rw [List.length_append]
      exact Nat.le_add_right _ _

theorem waiting_of_asked {c : Nat} {purpose : Purpose} {stage : Stage}
    (there : s.calls[c]? = some (purpose, stage)) (for_ : stage.waitsFor = none) :
    s.waiting c = none := by
  rw [waiting, there]
  simp [Option.filter, for_]

theorem waiting_of_waits {c n : Nat} {purpose : Purpose} {stage : Stage}
    (there : s.calls[c]? = some (purpose, stage)) (for_ : stage.waitsFor = some n) :
    s.waiting c = some (purpose, stage) := by
  rw [waiting, there]
  simp [Option.filter, for_]

theorem calls_of_waiting {c : Nat} {call : Purpose × Stage} (there : s.waiting c = some call) :
    s.calls[c]? = some call ∧ ∃ n, call.2.waitsFor = some n := by
  obtain ⟨known, waits⟩ := Option.filter_eq_some_iff.mp there
  exact ⟨known, Option.isSome_iff_exists.mp waits⟩

/-- A call makes a request for which it waits. -/
theorem moves_enter {c : Nat} {purpose : Purpose} {before : Stage} (stage : Nat → Stage)
    {request : Request} {clock : Clock} {service : AuthService}
    (there : s.calls[c]? = some (purpose, before)) (quiet : Quiet setup s.service service)
    (own : ∀ hash, request = .refreshGrant hash → s.refreshToken = some hash)
    (for_ : ∀ n, (stage n).waitsFor = some n ∧ suits purpose (stage n) request = true)
    (entered : { s with service := service }.enter setup request clock
      (fun n s => s.moveTo c (stage n)) = some t) : Moves setup s t := by
  obtain ⟨after, stepped, rfl⟩ := enter_cases entered
  have waits (u : Console) (calls : u.calls = s.calls) (d : Nat) :
      (u.moveTo c (stage service.calls.length)).waiting d =
        if d = c then some (purpose, stage service.calls.length) else s.waiting d := by
    have there' : u.calls[c]? = some (purpose, before) := calls ▸ there
    rw [waiting_moveTo there']
    split
    · simp [Option.filter, (for_ service.calls.length).1]
    · rw [waiting, waiting, calls]
  refine .enters (c := c) quiet rfl own stepped ((waits _ rfl c).trans (if_pos rfl)) (for_ _).1
    (for_ _).2 (fun d other => .inl ((waits _ rfl d).trans (if_neg other))) rfl rfl

/-- A call has its answer and waits no more. -/
theorem moves_settle {c n : Nat} {purpose : Purpose} {stage after : Stage} {request : Request}
    {outcome : Outcome} {u : Console} (there : s.calls[c]? = some (purpose, stage))
    (for_ : stage.waitsFor = some n)
    (answered : s.service.call n = some (request, .ended outcome))
    (service : u.service = s.service) (calls : u.calls = s.calls) (after_ : after.waitsFor = none)
    (held : u.refreshToken = none ∨
      (∃ result, outcome = .tokens result ∧ u.refreshToken = some result.refreshToken) ∨
      (u.refreshToken = s.refreshToken ∧ (∀ k, stage ≠ .refreshing k) ∧
        (∀ result, outcome ≠ .tokens result) ∧ (∀ hash, purpose ≠ .logout hash) ∧
        ∀ current new, purpose = .changePassword current new → outcome.verdict = .other))
    (rests : Rests s u) : Moves setup s (u.moveTo c after) := by
  have there' : u.calls[c]? = some (purpose, stage) := calls ▸ there
  refine .settles (waiting_of_waits there for_) for_ answered service held ?_
    (fun d other => ?_) ⟨rests.asked, rests.pruned⟩
  · rw [waiting_moveTo there', if_pos rfl]
    simp [Option.filter, after_]
  · rw [waiting_moveTo there', if_neg other, waiting, waiting, calls]

/-- A call comes to nothing. -/
theorem moves_lose {c : Nat} {purpose : Purpose} {before : Stage} {u : Console}
    (there : s.calls[c]? = some (purpose, before)) (calls : u.calls = s.calls)
    (service : u.service = s.service)
    (held : u.refreshToken = s.refreshToken ∨ u.refreshToken = none)
    (released : before.waitsFor = none ∨ Released s u (purpose, before)) (rests : Rests s u) :
    Moves setup s (u.moveTo c .ended) := by
  have there' : u.calls[c]? = some (purpose, before) := calls ▸ there
  refine .idles (service ▸ .refl _) held (fun d => ?_) ⟨rests.asked, rests.pruned⟩
  rw [waiting_moveTo there']
  split
  · next here =>
    subst here
    rcases released with asked | released
    · exact .inl (waiting_of_asked there asked).symm
    · refine .inr ⟨rfl, fun call waited => ?_⟩
      obtain rfl : (purpose, before) = call :=
        Option.some.inj (there.symm.trans (calls_of_waiting waited).1)
      exact released
  · rw [waiting, waiting, calls]
    exact .inl rfl

/-- Only calls that ask for something wait for the service. -/
def Suited (s : Console) : Prop :=
  ∀ c purpose stage, s.waiting c = some (purpose, stage) → ∃ request, suits purpose stage request = true

theorem moves_begin {purpose : Purpose} {clock : Clock}
    (taken : s.step setup (.begin purpose clock) = some t) : Moves setup s t := by
  have asks {again : Bool} {token : Option Nat} :
      Moves setup s { s with calls := s.calls ++ [(purpose, .asked token again)] } := by
    refine .idles (.refl _) (.inl rfl) (fun d => ?_) ⟨rfl, rfl⟩
    rw [waiting_append]
    split
    · next here =>
      have beyond : s.waiting d = none := by
        rw [waiting, here, List.getElem?_eq_none (Nat.le_refl _)]
        rfl
      exact .inl beyond.symm
    · exact .inl rfl
  simp only [step] at taken
  split at taken
  · cases taken
  · next username password ip =>
    obtain ⟨service, stepped, rfl⟩ := enter_cases taken
    have waits := waiting_append
      { s with
        service := service
        asked := s.service.calls.length :: s.asked }
      (.login username password ip, .serving s.service.calls.length false)
    have last := waits s.calls.length
    rw [if_pos rfl] at last
    exact .enters (.refl _) rfl (fun hash same => by cases same) stepped last rfl rfl
      (fun d other => .inl ((waits d).trans (if_neg other))) rfl rfl
  · split at taken
    · cases taken
      exact asks
    · cases taken
  · cases taken
    exact asks

theorem handlerRequest_spec {purpose : Purpose} {scope : Scope} {request : Request}
    (asks : handlerRequest purpose scope = some request) :
    (∀ hash, request ≠ .refreshGrant hash) ∧
      ∀ n again, suits purpose (.serving n again) request = true := by
  cases purpose <;> cases scope <;> cases asks
  all_goals exact ⟨fun hash => nofun, fun n again => rfl⟩

theorem moves_arrive {c : Nat} {clock : Clock}
    (taken : s.step setup (.arrive c clock) = some t) : Moves setup s t := by
  simp only [step] at taken
  split at taken
  · next purpose again there =>
    cases taken
    exact moves_moveTo there rfl rfl rfl (.refl _) (.inl rfl) ⟨rfl, rfl⟩
  · next purpose token again there =>
    obtain ⟨service, stepped, taken⟩ := Option.bind_eq_some_iff.mp taken
    have quiet := quiet_verify stepped
    split at taken
    · cases taken
      exact moves_moveTo there rfl rfl rfl quiet (.inl rfl) ⟨rfl, rfl⟩
    · next entry verified =>
      split at taken
      · next request asks =>
        obtain ⟨other, suits⟩ := handlerRequest_spec asks
        exact moves_enter (fun n => .serving n again) there quiet
          (fun hash refreshes => absurd refreshes (other hash)) (fun n => ⟨rfl, suits n again⟩) taken
      · cases taken
        exact moves_moveTo there rfl rfl rfl quiet (.inl rfl) ⟨rfl, rfl⟩
  · cases taken

theorem moves_refreshed {c : Nat} (taken : s.step setup (.refreshed c) = some t) :
    Moves setup s t := by
  simp only [step] at taken
  split at taken
  · next purpose n there =>
    split at taken
    · next request result answered =>
      cases taken
      refine moves_settle there rfl answered rfl rfl ?_ (.inr (.inl ⟨result, rfl, rfl⟩)) ⟨rfl, rfl⟩
      split <;> rfl
    · next request outcome answered =>
      cases taken
      exact moves_settle there rfl answered rfl rfl rfl (.inl rfl) ⟨rfl, rfl⟩
    · cases taken
  · cases taken

/-- A verdict comes from elsewhere, or is what the service's request has come to. -/
theorem verdict_cases {stage : Stage} {verdict : Verdict} {again : Bool}
    (has : s.verdict stage = some (verdict, again)) :
    (∃ refused, stage = .answered refused again ∧
      verdict = if refused then .unauthorized else .other) ∨
        ∃ n request outcome, stage = .serving n again ∧
          s.service.call n = some (request, .ended outcome) ∧ verdict = outcome.verdict := by
  cases stage with
  | answered refused =>
      cases has
      exact .inl ⟨refused, rfl, rfl⟩
  | serving n =>
      simp only [Console.verdict] at has
      split at has
      · next request outcome answered =>
        cases has
        exact .inr ⟨n, request, outcome, rfl, answered, rfl⟩
      · cases has
  | _ => cases has

theorem conclude_spec (purpose : Purpose) (verdict : Verdict) (s : Console) :
    (s.conclude purpose verdict).service = s.service ∧ (s.conclude purpose verdict).calls = s.calls ∧
      Rests s (s.conclude purpose verdict) ∧
      ((s.conclude purpose verdict).refreshToken = none ∨
        (s.conclude purpose verdict).refreshToken = s.refreshToken ∧
          (∀ hash, purpose ≠ .logout hash) ∧
          ∀ current new, purpose = .changePassword current new → verdict ≠ .noContent) := by
  unfold conclude
  split
  · exact ⟨rfl, rfl, ⟨rfl, rfl⟩, .inl rfl⟩
  · exact ⟨rfl, rfl, ⟨rfl, rfl⟩, .inl rfl⟩
  · next change logout =>
    refine ⟨rfl, rfl, ⟨rfl, rfl⟩, .inr ⟨rfl, ?_, ?_⟩⟩
    · rintro hash rfl
      exact change hash rfl
    · rintro current new rfl rfl
      exact logout current new rfl rfl

/-- A call goes on with what it was answered from elsewhere. -/
theorem moves_answered {c : Nat} {clock : Clock} {purpose : Purpose} {refused again : Bool}
    (there : s.calls[c]? = some (purpose, .answered refused again))
    (taken : s.respond setup c clock purpose again (if refused then .unauthorized else .other) =
      some t) : Moves setup s t := by
  cases refused with
  | true =>
      simp only [respond, if_true] at taken
      split at taken
      · next hash held =>
        refine moves_enter .refreshing there (.refl _) ?_ (fun n => ⟨rfl, ?_⟩) taken
        · rintro _ ⟨⟩
          exact held
        · cases purpose <;> rfl
      · cases taken
        exact moves_moveTo there rfl rfl rfl (.refl _) (.inr rfl) ⟨rfl, rfl⟩
  | false =>
      cases taken
      obtain ⟨service, calls, rests, none_ | ⟨same, -⟩⟩ := conclude_spec purpose .other s
      · exact moves_moveTo there rfl rfl calls (service ▸ .refl _) (.inr none_) rests
      · exact moves_moveTo there rfl rfl calls (service ▸ .refl _) (.inl same) rests

/-- A call goes on with what the service's request has come to. -/
theorem moves_served {c n : Nat} {clock : Clock} {purpose : Purpose} {again : Bool}
    {request : Request} {outcome : Outcome}
    (there : s.calls[c]? = some (purpose, .serving n again))
    (answered : s.service.call n = some (request, .ended outcome))
    (taken : s.respond setup c clock purpose again outcome.verdict = some t) :
    Moves setup s t := by
  have concludes {verdict : Verdict} (same : outcome.verdict = verdict)
      (other : ∀ result, outcome ≠ .tokens result) :
      verdict = .noContent ∨ verdict = .other →
        Moves setup s ((s.conclude purpose verdict).moveTo c .ended) := by
    intro cases_
    obtain ⟨service, calls, rests, none_ | ⟨kept, logout, change⟩⟩ :=
      conclude_spec purpose verdict s
    · exact moves_settle there rfl answered service calls rfl (.inl none_) rests
    · refine moves_settle there rfl answered service calls rfl
        (.inr (.inr ⟨kept, fun k => nofun, other, logout, fun current new is => ?_⟩)) rests
      exact same.trans (cases_.resolve_left (change current new is))
  cases outcome with
  | tokens result =>
      cases taken
      exact moves_settle there rfl answered rfl rfl rfl (.inr (.inl ⟨result, rfl, rfl⟩)) ⟨rfl, rfl⟩
  | changed | revoked =>
      cases taken
      exact concludes rfl (fun result => nofun) (.inl rfl)
  | raised | failed =>
      cases taken
      exact concludes rfl (fun result => nofun) (.inr rfl)

theorem moves_receive {c : Nat} {clock : Clock}
    (taken : s.step setup (.receive c clock) = some t) : Moves setup s t := by
  simp only [step] at taken
  split at taken
  · next purpose stage there =>
    obtain ⟨⟨verdict, again⟩, has, taken⟩ := Option.bind_eq_some_iff.mp taken
    rcases verdict_cases has with ⟨refused, rfl, rfl⟩ | ⟨n, request, outcome, rfl, answered, rfl⟩
    · exact moves_answered there taken
    · exact moves_served there answered taken
  · cases taken

theorem moves_lost (suited : s.Suited) {c : Nat} (kept : s.losesChange (.lose c) = false)
    (taken : s.step setup (.lose c) = some t) : Moves setup s t := by
  simp only [step] at taken
  split at taken
  · cases taken
  · cases taken
  · next there =>
    cases taken
    exact moves_lose there rfl rfl (.inr rfl) (.inr (.inl rfl)) ⟨rfl, rfl⟩
  · next there =>
    cases taken
    exact moves_lose there rfl rfl (.inr rfl) (.inr (.inl rfl)) ⟨rfl, rfl⟩
  · next call ended refreshing logout there =>
    obtain ⟨purpose, stage⟩ := call
    cases taken
    refine moves_lose there rfl rfl (.inl rfl) ?_ ⟨rfl, rfl⟩
    cases stage with
    | asked | answered => exact .inl rfl
    | refreshing n => exact absurd rfl (refreshing purpose n)
    | ended => exact .inl rfl
    | serving n again =>
        obtain ⟨request, suits⟩ := suited c purpose _ (waiting_of_waits there rfl)
        cases purpose with
        | start | request => cases request <;> cases suits
        | logout hash => exact absurd rfl (logout hash _)
        | changePassword =>
            rw [losesChange, there] at kept
            cases kept
        | login username password ip =>
            exact .inr (.inr ⟨rfl, username, password, ip, n, again, rfl⟩)

theorem moves (suited : s.Suited) {a : Act} (kept : s.losesChange a = false)
    (spares : s.spares a = true) (makesNew : s.makesNew a = true)
    (taken : s.step setup a = some t) : Moves setup s t := by
  cases a with
  | reload clock =>
      simp only [step] at taken
      split at taken
      · next none_ =>
        cases taken
        exact .idles (.refl _) (.inl rfl) (fun d => .inr ⟨rfl, fun call there => .inl none_⟩)
          ⟨rfl, rfl⟩
      · next hash held =>
        obtain ⟨service, stepped, rfl⟩ := enter_cases taken
        refine .enters (c := 0) (.refl _) rfl ?_ stepped rfl rfl rfl (fun d other => .inr ?_) rfl rfl
        · rintro _ ⟨⟩
          exact held
        · cases d with
          | zero => exact absurd rfl other
          | succ d => rfl
  | begin => exact moves_begin taken
  | arrive => exact moves_arrive taken
  | service act =>
      obtain ⟨service, stepped, rfl⟩ := Option.map_eq_some_iff.mp taken
      have waits (d : Nat) : { s with service := service }.waiting d = s.waiting d := rfl
      cases act with
      | call => exact .idles (quiet_call stepped) (.inl rfl) (fun d => .inl (waits d)) ⟨rfl, rfl⟩
      | verify =>
          exact .idles (quiet_verify stepped) (.inl rfl) (fun d => .inl (waits d)) ⟨rfl, rfl⟩
      | execute =>
          exact .serves (.inl ⟨_, rfl⟩) stepped rfl rfl ⟨rfl, rfl⟩ spares makesNew
      | resume =>
          exact .serves (.inr ⟨_, _, _, rfl⟩) stepped rfl rfl ⟨rfl, rfl⟩ spares makesNew
  | prune retentionDays readings =>
      cases taken
      exact .prunes rfl
  | receive => exact moves_receive taken
  | refreshed => exact moves_refreshed taken
  | lose => exact moves_lost suited kept taken

end Console

end Zorkbot.Admin
