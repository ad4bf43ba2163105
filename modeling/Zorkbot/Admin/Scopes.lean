/-
# Scopes

A token that was obtained while the default password is in place opens the password change and
nothing else. Requests run next to each other, and one that has read the user before a password
change issues its tokens by what it has read, so the scope of a token may be less than the user
would get by now, but never more.
-/

import Zorkbot.Admin.PasswordChange
import Zorkbot.Bot.Addressing
import Zorkbot.Bot.Sanitize

namespace Zorkbot.Admin

open Zorkbot.Bot (Str lower strip)
open Transition

/-! ## What an endpoint asks for -/

/-- What `require_scope` raises, as a status and an error. -/
structure Denial where
  status : Nat
  error : Str
  deriving DecidableEq

/-- `_bearer_token`, of the `Authorization` header. `str.lower` depends on where words end. -/
def bearerToken (final : Str → Nat → Bool) (header : Str) : Except Denial Str :=
  if "bearer ".toList.isPrefixOf (lower final header) then
    let token := strip (header.drop "bearer ".toList.length)
    if token = [] then .error ⟨401, "invalid_request".toList⟩ else .ok token
  else .error ⟨401, "invalid_request".toList⟩

/-- The dependency that `require_scope` makes, with the hash of tokens. -/
def requireScope (final : Str → Nat → Bool) (sha256 : Str → Nat) (required : Scope) (clock : Clock)
    (header : Str) (s : AuthService) : Except Denial AccessToken × AuthService :=
  match bearerToken final header with
  | .error denial => (.error denial, s)
  | .ok token =>
      match s.verifyAccessToken clock (sha256 token) with
      | (none, s) => (.error ⟨401, "invalid_token".toList⟩, s)
      | (some entry, s) =>
          if required = .admin ∧ entry.scope ≠ .admin then
            (.error ⟨403, "insufficient_scope".toList⟩, s)
          else (.ok entry, s)

/-- What `create_app` serves. -/
inductive Endpoint
  | health
  /-- The files of the page. -/
  | static
  | token
  | revoke
  | me
  | changePassword
  | listSessions
  | sessionHistory
  | streamSession
  | statsSessions
  | statsMessages
  | statsDelivery
  | statsCommands
  | listPlayers
  | playerDetail
  | status
  | streamLogs
  | radio
  | contacts
  | contactMessages
  | channels
  | channelMessages
  | putChannel
  | deleteChannel
  deriving DecidableEq

/-- The scope in an endpoint's `require_scope`, if it has one. -/
def Endpoint.requires : Endpoint → Option Scope
  | .health | .static | .token => none
  | .me | .changePassword => some .passwordChange
  | _ => some .admin

/-- A request gets to the handler of its endpoint. -/
def admits (final : Str → Nat → Bool) (sha256 : Str → Nat) (clock : Clock) (header : Str)
    (s : AuthService) (endpoint : Endpoint) : Bool :=
  match endpoint.requires with
  | none => true
  | some required => (requireScope final sha256 required clock header s).1.isOk

/-! ## What holds while the default password is in place -/

/-- The tokens that are going to be answered. -/
def Wait.result : Wait → Option TokenResult
  | .passwordIssued result | .refreshIssued _ _ result | .refreshReplaced _ result => some result
  | _ => none

def Point.result : Point → Option TokenResult
  | .waiting _ wait | .replied _ wait => wait.result
  | .ended (.tokens result) => some result
  | .ended _ => none

/-- The user that was read. -/
def Point.user : Point → Option User
  | .replied (.user user) _ => some user
  | _ => none

/-- Whoever is there knows of no more than the password change, if the password must be changed. -/
structure Point.Kept (must : Bool) (point : Point) : Prop where
  result : ∀ result, point.result = some result → must = true → result.scope = .passwordChange
  user : ∀ user, point.user = some user → must = true → user.mustChangePassword = true

theorem Point.Kept.mono {must must' : Bool} {point : Point} (kept : Point.Kept must point)
    (later : must' = true → must = true) : Point.Kept must' point :=
  ⟨fun result there still => kept.result result there (later still),
    fun user there still => kept.user user there (later still)⟩

/-- Nobody learns anything at a point that holds neither tokens nor the user. -/
theorem Point.Kept.of_silent {must : Bool} {point : Point} (unanswered : point.result = none)
    (unread : point.user = none) : Point.Kept must point := by
  constructor
  · intro result there
    rw [unanswered] at there
    cases there
  · intro user there
    rw [unread] at there
    cases there

/-- Nothing is held back once the password was changed. -/
theorem Point.Kept.of_changed {point : Point} : Point.Kept false point := by
  constructor
  · intro result there still
    cases still
  · intro user there still
    cases still

namespace AuthService

variable {setup : Setup} {s t : AuthService}

structure Guarded (s : AuthService) : Prop where
  points : ∀ n request point, s.call n = some (request, point) →
    Point.Kept s.store.user.mustChangePassword point
  tokens : ∀ token entry, s.accessTokens.get token = some entry →
    s.store.user.mustChangePassword = true → entry.scope = .passwordChange

/-- A statement leaves the user as it was, or changes the password. -/
theorem user_execute (store : Store) (statement : Statement) :
    (store.execute statement).2.user = store.user ∨
      ∃ hash salt params now, statement = .updatePassword hash salt params now := by
  cases statement with
  | updatePassword hash salt params now => exact .inr ⟨hash, salt, params, now, rfl⟩
  | insertRefreshToken row =>
      simp only [Store.execute]
      split <;> exact .inl rfl
  | _ => exact .inl rfl

theorem kept_enter (must : Bool) (clock : Clock) (request : Request) :
    Point.Kept must (s.enter clock request) := by
  cases request with
  | passwordGrant =>
      simp only [enter]
      split <;> exact .of_silent rfl rfl
  | refreshGrant | changePassword | revokeRefreshToken => exact .of_silent rfl rfl

theorem kept_executed {must : Bool} {store : Store} {statement : Statement} {wait : Wait}
    (now : store.user.mustChangePassword = must)
    (kept : Point.Kept must (.waiting statement wait)) :
    Point.Kept must (.replied (store.execute statement).1 wait) := by
  refine ⟨kept.result, ?_⟩
  intro user read still
  cases statement with
  | getUser =>
      cases read
      exact now.trans still
  | insertRefreshToken row =>
      simp only [Store.execute] at read
      split at read <;> cases read
  | _ => cases read

/-- The access tokens are those that were there, or have the scope that they may have. -/
def Tokens (must : Bool) (s t : AuthService) : Prop :=
  ∀ token entry, t.accessTokens.get token = some entry →
    s.accessTokens.get token = some entry ∨ (must = true → entry.scope = .passwordChange)

theorem tokens_same {must : Bool} (same : t.accessTokens = s.accessTokens) : s.Tokens must t :=
  fun _ _ there => .inl (same ▸ there)

/-- Whichever tokens are issued have the scope that the user had when it was read. -/
theorem kept_issueTokens {must : Bool} (setup : Setup) (clock : Clock) (fresh : Nat × Nat) {user : User}
    (epoch : Nat) (s : AuthService) (wait : TokenResult → Wait)
    (carries : ∀ result other, (wait result).result = some other → other = result)
    (read : must = true → user.mustChangePassword = true) :
    Point.Kept must (s.issueTokens setup clock fresh user epoch wait).1 ∧
      s.Tokens must (s.issueTokens setup clock fresh user epoch wait).2 := by
  have scope : must = true → scopeFor user = .passwordChange :=
    fun still => if_pos (read still)
  refine ⟨⟨?_, nofun⟩, ?_⟩
  · intro result there still
    rw [carries _ result there]
    exact scope still
  · intro token entry there
    have set : (s.accessTokens.set fresh.1 _).get token = some entry := there
    rw [Table.get_set] at set
    split at set
    · cases set
      exact .inr scope
    · exact .inl set

theorem kept_lookedUp (must : Bool) (clock : Clock) (hash : Nat) (row : Option RefreshToken) :
    Point.Kept must (lookedUp clock hash row) := by
  unfold lookedUp
  split
  · exact .of_silent rfl rfl
  · split
    · exact .of_silent rfl rfl
    · split <;> exact .of_silent rfl rfl

theorem kept_checkPassword (must : Bool) (clock : Clock) (salt : Nat) (current new : Str)
    (user : User) : Point.Kept must (checkPassword setup clock salt current new user) := by
  unfold checkPassword
  split
  · exact .of_silent rfl rfl
  · split
    · exact .of_silent rfl rfl
    · split <;> exact .of_silent rfl rfl

/-- A request goes on with a reply. -/
theorem kept_resumed {clock : Clock} {fresh : Nat × Nat} {wait : Wait} {reply : Reply}
    {point : Point} {must : Bool} (kept : Point.Kept must (.replied reply wait))
    (taken : resume setup clock fresh s wait reply = some (point, t)) :
    Point.Kept must point ∧ s.Tokens must t := by
  unfold resume at taken
  split at taken <;> simp only [Option.some.injEq, reduceCtorEq] at taken
  · next username password ip user =>
      unfold comparePassword at taken
      split at taken
      · have issued : Point.Kept must _ ∧ _ := kept_issueTokens setup clock fresh user.epoch
          { s with
            throttle := s.throttle.recordSuccess ip
            attempts := ⟨true, clock.monotonic⟩ :: s.attempts } .passwordIssued
          (fun _ _ same => (Option.some.inj same).symm) (kept.user user rfl)
        rw [taken] at issued
        exact issued
      · cases taken
        exact ⟨.of_silent rfl rfl, tokens_same rfl⟩
  · cases taken
    exact ⟨⟨kept.result, nofun⟩, tokens_same rfl⟩
  · cases taken
    exact ⟨kept_lookedUp .., tokens_same rfl⟩
  · cases taken
    exact ⟨.of_silent rfl rfl, nofun⟩
  · next hash now epoch user =>
      have issued : Point.Kept must _ ∧ _ := kept_issueTokens setup clock fresh epoch s
        (.refreshIssued hash now) (fun _ _ same => (Option.some.inj same).symm)
        (kept.user user rfl)
      rw [taken] at issued
      exact issued
  · cases taken
    exact ⟨⟨kept.result, nofun⟩, tokens_same rfl⟩
  · cases taken
    exact ⟨⟨kept.result, nofun⟩, tokens_same rfl⟩
  · cases taken
    exact ⟨kept_checkPassword .., tokens_same rfl⟩
  · cases taken
    exact ⟨.of_silent rfl rfl, tokens_same rfl⟩
  · cases taken
    exact ⟨.of_silent rfl rfl, nofun⟩
  · cases taken
    exact ⟨.of_silent rfl rfl, tokens_same rfl⟩
  · cases taken
    exact ⟨.of_silent rfl rfl, tokens_same rfl⟩

theorem guarded_init : (init setup).Guarded := by
  refine ⟨?_, nofun⟩
  intro n request point there
  simp [call, init] at there

/-- A request has come to another point, and the others are where they were. -/
theorem Guarded.moveTo {n : Nat} {point : Point} {u : AuthService} (guarded : s.Guarded)
    (calls : u.calls = s.calls)
    (later : u.store.user.mustChangePassword = true → s.store.user.mustChangePassword = true)
    (kept : Point.Kept u.store.user.mustChangePassword point)
    (tokens : s.Tokens u.store.user.mustChangePassword u) : (u.moveTo n point).Guarded := by
  constructor
  · intro m request other there
    rw [call_moveTo, call, calls] at there
    split at there
    · obtain ⟨before, -, same⟩ := Option.map_eq_some_iff.mp there
      cases same
      exact kept
    · exact (guarded.points m request other there).mono later
  · intro token entry there still
    rcases tokens token entry there with before | less
    · exact guarded.tokens token entry before (later still)
    · exact less still

theorem guarded_step (guarded : s.Guarded) {a : Act} (taken : s.step setup a = some t) :
    t.Guarded := by
  cases a with
  | call request clock =>
      simp only [step] at taken
      split at taken
      · cases taken
        refine ⟨?_, guarded.tokens⟩
        intro n other point there
        change (s.calls ++ [_])[n]? = _ at there
        rw [List.getElem?_append] at there
        split at there
        · exact guarded.points n other point there
        · have newest := List.mem_singleton.mp (List.mem_of_getElem? there)
          cases newest
          exact kept_enter _ clock request
      · cases taken
  | execute n =>
      simp only [step] at taken
      split at taken
      · next request statement wait there =>
          cases taken
          have kept := guarded.points n _ _ there
          rcases user_execute s.store statement with same | ⟨hash, salt, params, now, rfl⟩
          · apply guarded.moveTo (u := { s with store := (s.store.execute statement).2 }) rfl
            · exact fun still => same ▸ still
            · change Point.Kept (s.store.execute statement).2.user.mustChangePassword _
              rw [same]
              exact kept_executed rfl kept
            · exact tokens_same rfl
          · apply guarded.moveTo
              (u := { s with store := (s.store.execute (.updatePassword hash salt params now)).2 }) rfl
            · intro still
              cases still
            · exact .of_changed
            · exact tokens_same rfl
      · cases taken
  | resume n clock fresh =>
      simp only [step] at taken
      split at taken
      · split at taken
        · next request reply wait there =>
            obtain ⟨⟨point, u⟩, resumed, rfl⟩ := Option.map_eq_some_iff.mp taken
            have store := (resumed_of_resume resumed).store
            have calls := (resumed_of_resume resumed).calls
            obtain ⟨kept, tokens⟩ := kept_resumed (guarded.points n _ _ there) resumed
            apply guarded.moveTo calls
            · exact fun still => store ▸ still
            · exact store ▸ kept
            · exact store ▸ tokens
        · cases taken
      · cases taken
  | verify token clock =>
      cases auth_steps taken with
      | verifies _ kept =>
          exact ⟨guarded.points, fun token entry there =>
            guarded.tokens token entry (kept there)⟩

theorem guarded {guard : AuthService → Act → Prop}
    (reached : (authService setup).Reachable guard s) : s.Guarded := by
  apply reached.invariant (motive := Guarded) guarded_init
  intro s a t _ guarded _ taken
  exact guarded_step guarded taken

/-! ## Who has chosen the password -/

/-- A request is one to `change_password` whose new password it accepts, and a statement for it
stores this one. -/
def Stores (setup : Setup) (request : Request) (hash salt : Nat) (params : KdfParams) : Prop :=
  ∃ current new, request = .changePassword current new ∧ minPasswordLength ≤ new.length ∧
    new ≠ current ∧ new ≠ defaultPassword ∧ hash = setup.kdf new salt params

/-- The password in place is the new one of a request to `change_password`, which has accepted it
and has had it stored. -/
def Chosen (setup : Setup) (s : AuthService) : Prop :=
  ∃ n request point, s.call n = some (request, point) ∧
    point.replaced = some s.store.user.epoch ∧
    Stores setup request s.store.user.passwordHash s.store.user.passwordSalt
      s.store.user.kdfParams

structure Changed (setup : Setup) (s : AuthService) : Prop where
  chosen : s.store.user.mustChangePassword = false → Chosen setup s
  asks : ∀ n request hash salt params now wait,
    s.call n = some (request, .waiting (.updatePassword hash salt params now) wait) →
    Stores setup request hash salt params

/-- A change that has replaced the password goes on as one that has. -/
theorem replaced_follows {request : Request} {point next : Point} (fits : Fits request point)
    (follows : Follows setup s t point next) {epoch : Nat}
    (replaced : point.replaced = some epoch) : next.replaced = some epoch := by
  cases follows with
  | rests => exact replaced
  | executes =>
      cases fits with
      | waiting asks =>
          cases asks with
          | changeRevoked => exact replaced
          | _ => cases replaced
  | resumes resumed =>
      cases fits with
      | replied asks store =>
          cases asks with
          | changeUpdated | changeRevoked =>
              cases resumed
              exact replaced
          | passwordIssued | refreshIssued =>
              simp only [Store.execute] at replaced
              split at replaced <;> cases replaced
          | _ => cases replaced

/-- A password that was chosen is there as long as the user is as it was. -/
theorem Chosen.kept (chosen : Chosen setup s)
    (fits : ∀ n request point, s.call n = some (request, point) → Fits request point) {a : Act}
    (taken : s.step setup a = some t) (same : t.store.user = s.store.user) : Chosen setup t := by
  obtain ⟨n, request, point, there, replaced, stores⟩ := chosen
  obtain ⟨next, here, went⟩ := follows taken there
  refine ⟨n, request, next, here, ?_, ?_⟩
  · rw [same]
    exact replaced_follows (fits n request point there) went replaced
  · rw [same]
    exact stores

/-- A password goes to the store when it was accepted. -/
theorem stores_of_step
    (fits : ∀ n request point, s.call n = some (request, point) → Fits request point)
    (changed : Changed setup s) {a : Act} (taken : s.step setup a = some t) {n : Nat}
    {request : Request} {hash salt : Nat} {params : KdfParams} {now : Int} {wait : Wait}
    (there : t.call n = some (request, .waiting (.updatePassword hash salt params now) wait)) :
    Stores setup request hash salt params := by
  generalize here : Point.waiting (.updatePassword hash salt params now) wait = point at there
  cases moved taken there with
  | rests before =>
      subst here
      exact changed.asks n request hash salt params now wait before
  | enters =>
      cases request with
      | passwordGrant =>
          simp only [enter] at here
          split at here <;> cases here
      | _ => cases here
  | executes => cases here
  | resumes _ before resumed =>
      obtain ⟨statement, asks⟩ := (fits n request _ before).asks
      cases resumed with
      | updates long other =>
          cases asks
          cases here
          exact ⟨_, _, rfl, long, other.1, other.2, rfl⟩
      | _ => cases here

theorem changed_step
    (fits : ∀ n request point, s.call n = some (request, point) → Fits request point)
    (changed : Changed setup s) {a : Act} (taken : s.step setup a = some t) : Changed setup t := by
  refine ⟨fun free => ?_, fun _ _ _ _ _ _ _ there => stores_of_step fits changed taken there⟩
  rcases store_of_step taken with same | ⟨n, request, statement, wait, act, there, same⟩
  · exact (changed.chosen (same ▸ free)).kept fits taken (congrArg Store.user same)
  · rcases user_execute s.store statement with user | ⟨hash, salt, params, now, rfl⟩
    · have kept : t.store.user = s.store.user := (congrArg Store.user same).trans user
      exact (changed.chosen (kept ▸ free)).kept fits taken kept
    · subst act
      cases auth_steps taken with
      | executes known =>
          rw [there] at known
          cases known
          have here : ({ s with
              store := (s.store.execute (.updatePassword hash salt params now)).2 }.moveTo n
                (.replied (.changed (s.store.user.epoch + 1)) wait)).call n =
              some (request, .replied (.changed (s.store.user.epoch + 1)) wait) := by
            rw [call_moveTo, if_pos rfl]
            change (s.call n).map _ = _
            rw [there]
            rfl
          exact ⟨n, request, _, here, rfl, changed.asks n request _ _ _ _ _ there⟩

theorem changed {guard : AuthService → Act → Prop}
    (reached : (authService setup).Reachable guard s) : Changed setup s := by
  apply reached.invariant (motive := Changed setup)
  · refine ⟨nofun, ?_⟩
    intro n request hash salt params now wait there
    simp [call, authService, init] at there
  · intro s a t prior changed _ taken
    exact changed_step (fits prior) changed taken

/-! ## What the default password opens -/

/-- Whoever passes `require_scope` with the scope of the administrator presents a token of it. -/
theorem scope_of_requireScope {final : Str → Nat → Bool} {sha256 : Str → Nat} {clock : Clock}
    {header : Str}
    (passed : (requireScope final sha256 .admin clock header s).1.isOk = true) :
    ∃ token entry, s.accessTokens.get token = some entry ∧ entry.scope = .admin := by
  unfold requireScope at passed
  split at passed
  · cases passed
  · next token _ =>
      split at passed
      · cases passed
      · next entry u verified =>
          split at passed
          · cases passed
          · next admin =>
              have scope : entry.scope = .admin := by simpa using admin
              refine ⟨sha256 token, entry, ?_, scope⟩
              unfold verifyAccessToken at verified
              split at verified
              · cases verified
              · next known =>
                  split at verified
                  · cases verified
                  · cases verified
                    exact known

/-- As long as no accepted change of the password has been stored, the only endpoints that let
anybody in are those that ask for no token and those of the password change, whatever the header
says, and nobody is given tokens with the scope of the administrator. -/
theorem default_password_opens_nothing
    (reached : (authService setup).Reachable (fun _ _ => True) s) :
    (∀ final sha256 clock header endpoint, admits final sha256 clock header s endpoint = true →
      endpoint ∈ [Endpoint.health, .static, .token, .me, .changePassword] ∨ Chosen setup s) ∧
    ∀ n request result, s.call n = some (request, .ended (.tokens result)) →
      result.scope = .admin → Chosen setup s := by
  have guarded := guarded reached
  constructor
  · intro final sha256 clock header endpoint admitted
    by_cases early : endpoint ∈ [Endpoint.health, .static, .token, .me, .changePassword]
    · exact .inl early
    · have required : endpoint.requires = some .admin := by
        revert early
        cases endpoint <;> decide
      simp only [admits, required] at admitted
      obtain ⟨token, entry, known, admin⟩ := scope_of_requireScope admitted
      right
      apply (changed reached).chosen
      by_contra still
      have less := guarded.tokens token entry known (Bool.eq_true_of_not_eq_false still)
      rw [admin] at less
      cases less
  · intro n request result there admin
    apply (changed reached).chosen
    by_contra still
    have less := (guarded.points n request _ there).result result rfl
      (Bool.eq_true_of_not_eq_false still)
    rw [admin] at less
    cases less

/-- The administrator logs in, changes the password, logs in again and asks for the status. -/
theorem default_password_opens_nothing_status :
    ∃ s : AuthService,
      admits (fun _ _ => false) (fun _ => 10) (.both 0) "Bearer t".toList s .status = true ∧
        (Endpoint.status ∈ [Endpoint.health, .static, .token, .me, .changePassword] ∨
          Chosen plain s) := by
  obtain ⟨s, reached, admitted⟩ := System.reaches (authService plain) (fun _ _ => True)
    (fun s => admits (fun _ _ => false) (fun _ => 10) (.both 0) "Bearer t".toList s .status = true)
    (logsIn 0 (20, 21) ++ changes 1 ++ asks (login newPassword) 2 0 ++ goesOn 2 (10, 11) 0)
    (fun _ _ _ => trivial) (by decide +kernel)
  exact ⟨s, admitted,
    (default_password_opens_nothing (reached.mono fun _ _ _ => trivial)).1 _ _ _ _ _ admitted⟩

end AuthService

end Zorkbot.Admin
