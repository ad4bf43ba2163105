/-
# The admin service's tokens and passwords

`admin/auth.py`. Requests run next to each other on one event loop, and each of their
statements goes to the store's own thread: a request waits for the store to execute a
statement, and again until the event loop takes it up with the reply. Between these
points anything else may happen. What a request does from one wait to the next it does
at one time.

A token stands for its hash, and what `secrets` makes up is any number. The refresh
tokens are a table with a primary key, so a token that exists is not inserted again.
-/

import Mathlib.Data.Rat.Floor
import Zorkbot.Bot.Addressing
import Zorkbot.Data.Binary64
import Zorkbot.Data.Table
import Zorkbot.Transition.System

namespace Zorkbot.Admin

open Zorkbot.Bot (Str)
open Transition

/-! ## The store -/

structure KdfParams where
  n : Nat
  r : Nat
  p : Nat
  dklen : Nat
  deriving DecidableEq

/-- `_DEFAULT_KDF_PARAMS`. -/
def defaultKdfParams : KdfParams := ⟨16384, 8, 1, 32⟩

/-- The row of `admin_user`. -/
structure User where
  username : Str
  passwordHash : Nat
  passwordSalt : Nat
  kdfParams : KdfParams
  mustChangePassword : Bool
  passwordChangedAt : Option Int
  /-- Bookkeeping: how often the password was changed. -/
  epoch : Nat
  deriving DecidableEq

/-- A row of `refresh_tokens`. -/
structure RefreshToken where
  tokenHash : Nat
  issuedAt : Int
  expiresAt : Int
  revokedAt : Option Int
  replacedBy : Option Nat
  /-- Bookkeeping: the epoch of the password that the token was obtained with, itself or
  the one it was exchanged for. -/
  epoch : Nat
  deriving DecidableEq

structure Store where
  user : User
  refreshTokens : List RefreshToken

inductive Statement
  /-- `SELECT * FROM admin_user`. -/
  | getUser
  /-- `SELECT * FROM refresh_tokens`, for one token. -/
  | getRefreshToken (hash : Nat)
  /-- `INSERT INTO refresh_tokens`. -/
  | insertRefreshToken (row : RefreshToken)
  /-- `UPDATE refresh_tokens`, for a token that was exchanged. -/
  | replaceRefreshToken (hash : Nat) (now : Int) (newHash : Nat)
  /-- `UPDATE refresh_tokens`, for all tokens that are not revoked. -/
  | revokeAll (now : Int)
  /-- `UPDATE refresh_tokens`, for one token unless it is revoked. -/
  | revoke (hash : Nat) (now : Int)
  /-- `UPDATE admin_user`. -/
  | updatePassword (hash salt : Nat) (params : KdfParams) (now : Int)
  deriving DecidableEq

inductive Reply
  | user (user : User)
  | refreshToken (row : Option RefreshToken)
  | done
  /-- The password was changed, for the given time. -/
  | changed (epoch : Nat)
  /-- The token exists already. -/
  | integrityError
  deriving DecidableEq

/-- A token ends. -/
def RefreshToken.revoke (now : Int) (row : RefreshToken) : RefreshToken :=
  { row with revokedAt := some now }

def Store.execute (store : Store) : Statement → Reply × Store
  | .getUser => (.user store.user, store)
  | .getRefreshToken hash =>
      (.refreshToken (store.refreshTokens.find? fun row => row.tokenHash = hash), store)
  | .insertRefreshToken row =>
      if store.refreshTokens.any fun other => other.tokenHash = row.tokenHash then
        (.integrityError, store)
      else (.done, { store with refreshTokens := store.refreshTokens ++ [row] })
  | .replaceRefreshToken hash now newHash =>
      (.done,
        { store with
          refreshTokens := store.refreshTokens.map fun row =>
            if row.tokenHash = hash then
              { row with
                revokedAt := some now
                replacedBy := some newHash }
            else row })
  | .revokeAll now =>
      (.done,
        { store with
          refreshTokens := store.refreshTokens.map fun row =>
            if row.revokedAt = none then row.revoke now else row })
  | .revoke hash now =>
      (.done,
        { store with
          refreshTokens := store.refreshTokens.map fun row =>
            if row.tokenHash = hash ∧ row.revokedAt = none then row.revoke now else row })
  | .updatePassword hash salt params now =>
      (.changed (store.user.epoch + 1),
        { store with
          user :=
            { store.user with
              passwordHash := hash
              passwordSalt := salt
              kdfParams := params
              mustChangePassword := false
              passwordChangedAt := some now
              epoch := store.user.epoch + 1 } })

/-! ## The login throttle -/

/-- The two clocks of the operating system. The monotonic one does not go back. What is added to
a reading, or taken from it, is rounded as with doubles. -/
structure Clock where
  /-- `time.time()`. -/
  wall : ℚ
  /-- `time.monotonic()`. -/
  monotonic : ℚ

/-- `int(time.time())`. -/
def Clock.seconds (clock : Clock) : Int := ⌊clock.wall⌋

structure Bucket where
  failures : Nat
  lockedUntil : ℚ
  deriving DecidableEq

/-- `_THROTTLE_THRESHOLD`. -/
def throttleThreshold : Nat := 5

/-- `_THROTTLE_BASE_SECONDS`. -/
def throttleBaseSeconds : ℚ := 60

/-- `_THROTTLE_MAX_SECONDS`. -/
def throttleMaxSeconds : ℚ := 900

/-- How long a bucket is locked after so many failures. -/
def backoff (failures : Nat) : ℚ :=
  min (throttleBaseSeconds * 2 ^ (failures - throttleThreshold)) throttleMaxSeconds

namespace Bucket

def init : Bucket := ⟨0, 0⟩

/-- `_locked_for` is positive. -/
def locked (now : ℚ) (bucket : Bucket) : Bool := 
  decide (0 < max 0 (Binary64.nearest (bucket.lockedUntil - now)))

def fail (now : ℚ) (bucket : Bucket) : Bucket where
  failures := bucket.failures + 1
  lockedUntil :=
    if throttleThreshold ≤ bucket.failures + 1 then
      Binary64.nearest (now + backoff (bucket.failures + 1))
    else bucket.lockedUntil

end Bucket

/-- `_LoginThrottle`. -/
structure LoginThrottle where
  byIp : Table Str Bucket
  global : Bucket

namespace LoginThrottle

def init : LoginThrottle := ⟨.empty, .init⟩

/-- `check` raises. -/
def refuses (ip : Str) (now : ℚ) (t : LoginThrottle) : Bool :=
  (t.byIp.get ip).any (Bucket.locked now) || t.global.locked now

def recordFailure (ip : Str) (now : ℚ) (t : LoginThrottle) : LoginThrottle where
  byIp := t.byIp.set ip (((t.byIp.get ip).getD .init).fail now)
  global := t.global.fail now

def recordSuccess (ip : Str) (t : LoginThrottle) : LoginThrottle where
  byIp := t.byIp.erase ip
  global := ⟨0, 0⟩

end LoginThrottle

/-! ## Requests and what they answer -/

inductive Scope
  | admin
  | passwordChange
  deriving DecidableEq

structure AuthError where
  error : Str
  description : Str
  status : Nat
  deriving DecidableEq

def invalidGrant (description : String) : AuthError :=
  ⟨"invalid_grant".toList, description.toList, 400⟩

def invalidRequest (description : String) : AuthError :=
  ⟨"invalid_request".toList, description.toList, 400⟩

structure TokenResult where
  accessToken : Nat
  refreshToken : Nat
  expiresIn : Int
  scope : Scope
  mustChangePassword : Bool
  deriving DecidableEq

inductive Request
  | passwordGrant (username password ip : Str)
  | refreshGrant (refreshToken : Nat)
  | changePassword (current new : Str)
  | revokeRefreshToken (refreshToken : Nat)
  deriving DecidableEq

inductive Outcome
  | tokens (result : TokenResult)
  | changed (epoch : Nat)
  | revoked
  | raised (error : AuthError)
  /-- The store has raised. -/
  | failed
  deriving DecidableEq

/-- Where a request goes on when the store has replied. -/
inductive Wait
  | passwordUser (username password ip : Str)
  | passwordIssued (result : TokenResult)
  | refreshRow (hash : Nat)
  | reused
  | refreshUser (hash : Nat) (now : Int) (epoch : Nat)
  | refreshIssued (hash : Nat) (now : Int) (result : TokenResult)
  | refreshReplaced (hash : Nat) (result : TokenResult)
  | changeUser (current new : Str)
  | changeUpdated
  | changeRevoked (epoch : Nat)
  | revoked
  deriving DecidableEq

/-- Where a request is. -/
inductive Point
  /-- The statement is on its way to the store. -/
  | waiting (statement : Statement) (wait : Wait)
  /-- The reply is on its way back. -/
  | replied (reply : Reply) (wait : Wait)
  | ended (outcome : Outcome)
  deriving DecidableEq

/-! ## The service -/

/-- The key derivation and what is configured. -/
structure Setup where
  /-- `hashlib.scrypt`. -/
  kdf : Str → Nat → KdfParams → Nat
  accessTtl : Int
  refreshTtl : Int
  /-- The salt that the default password was seeded with. -/
  salt : Nat

/-- `DEFAULT_PASSWORD`. -/
def defaultPassword : Str := "zorkbot-admin!".toList

/-- `MIN_PASSWORD_LENGTH`. -/
def minPasswordLength : Nat := 12

structure AccessToken where
  expiresAt : ℚ
  scope : Scope
  /-- Bookkeeping, as for the refresh tokens. -/
  epoch : Nat
  deriving DecidableEq

/-- Bookkeeping: a password grant has compared its password. -/
structure Attempt where
  accepted : Bool
  /-- What the monotonic clock showed. -/
  at_ : ℚ
  deriving DecidableEq

structure AuthService where
  store : Store
  accessTokens : Table Nat AccessToken
  throttle : LoginThrottle
  /-- The requests, each with where it is. -/
  calls : List (Request × Point)
  /-- What the monotonic clock showed last. -/
  now : ℚ
  /-- Bookkeeping, newest first. -/
  attempts : List Attempt

namespace AuthService

/-- The default password is in place and nobody has logged in. -/
def init (setup : Setup) : AuthService where
  store :=
    ⟨⟨"admin".toList, setup.kdf defaultPassword setup.salt defaultKdfParams, setup.salt,
      defaultKdfParams, true, none, 0⟩, []⟩
  accessTokens := .empty
  throttle := .init
  calls := []
  now := 0
  attempts := []

/-- A request, by its number. -/
def call (s : AuthService) (n : Nat) : Option (Request × Point) := s.calls[n]?

/-- A request has come to a point. -/
def moveTo (n : Nat) (point : Point) (s : AuthService) : AuthService :=
  { s with calls := s.calls.modify n fun call => (call.1, point) }

/-- A password is the user's. -/
def passwordMatches (setup : Setup) (user : User) (password : Str) : Bool :=
  setup.kdf password user.passwordSalt user.kdfParams = user.passwordHash

/-- `_scope_for`. -/
def scopeFor (user : User) : Scope := if user.mustChangePassword then .passwordChange else .admin

/-- `_issue_tokens`, with the access and the refresh token that `secrets` makes up, up to
where the refresh token goes to the store. -/
def issueTokens (setup : Setup) (clock : Clock) (fresh : Nat × Nat) (user : User) (epoch : Nat)
    (wait : TokenResult → Wait) (s : AuthService) : Point × AuthService :=
  let scope := scopeFor user
  let now := clock.seconds
  (.waiting
      (.insertRefreshToken ⟨fresh.2, now, now + setup.refreshTtl, none, none, epoch⟩)
      (wait ⟨fresh.1, fresh.2, setup.accessTtl, scope, user.mustChangePassword⟩),
    { s with
      accessTokens :=
        s.accessTokens.set fresh.1 ⟨Binary64.nearest (clock.wall + setup.accessTtl), scope, epoch⟩ })

/-- A request comes in and runs to its first statement. -/
def enter (clock : Clock) (s : AuthService) : Request → Point
  | .passwordGrant username password ip =>
      if s.throttle.refuses ip clock.monotonic then
        .ended (.raised (invalidGrant "invalid username or password"))
      else .waiting .getUser (.passwordUser username password ip)
  | .refreshGrant hash => .waiting (.getRefreshToken hash) (.refreshRow hash)
  | .changePassword current new => .waiting .getUser (.changeUser current new)
  | .revokeRefreshToken hash => .waiting (.revoke hash clock.seconds) .revoked

/-- `password_grant`, when the user was read. -/
def comparePassword (setup : Setup) (clock : Clock) (fresh : Nat × Nat)
    (username password ip : Str) (user : User) (s : AuthService) : Point × AuthService :=
  if username = user.username ∧ passwordMatches setup user password = true then
    { s with
      throttle := s.throttle.recordSuccess ip
      attempts := ⟨true, clock.monotonic⟩ :: s.attempts }.issueTokens setup clock fresh user
        user.epoch .passwordIssued
  else
    (.ended (.raised (invalidGrant "invalid username or password")),
      { s with
        throttle := s.throttle.recordFailure ip clock.monotonic
        attempts := ⟨false, clock.monotonic⟩ :: s.attempts })

/-- `refresh_grant`, when the token was looked up. -/
def lookedUp (clock : Clock) (hash : Nat) : Option RefreshToken → Point
  | none => .ended (.raised (invalidGrant "unknown refresh token"))
  | some row =>
      if row.revokedAt ≠ none then .waiting (.revokeAll clock.seconds) .reused
      else if row.expiresAt < clock.seconds then
        .ended (.raised (invalidGrant "refresh token expired"))
      else .waiting .getUser (.refreshUser hash clock.seconds row.epoch)

/-- `change_password`, when the user was read. -/
def checkPassword (setup : Setup) (clock : Clock) (salt : Nat) (current new : Str) (user : User) :
    Point :=
  if passwordMatches setup user current = false then
    .ended (.raised (invalidGrant "current password is incorrect"))
  else if new.length < minPasswordLength then
    .ended (.raised (invalidRequest "new password must be at least 12 characters"))
  else if new = current ∨ new = defaultPassword then
    .ended (.raised (invalidRequest "new password must differ from the current one"))
  else
    .waiting
      (.updatePassword (setup.kdf new salt defaultKdfParams) salt defaultKdfParams clock.seconds)
      .changeUpdated

/-- A request goes on with the store's reply. -/
def resume (setup : Setup) (clock : Clock) (fresh : Nat × Nat) (s : AuthService) :
    Wait → Reply → Option (Point × AuthService)
  | .passwordUser username password ip, .user user =>
      some (s.comparePassword setup clock fresh username password ip user)
  | .passwordIssued result, .done => some (.ended (.tokens result), s)
  | .refreshRow hash, .refreshToken row => some (lookedUp clock hash row, s)
  | .reused, .done =>
      some (.ended (.raised (invalidGrant "refresh token already used")),
        { s with accessTokens := .empty })
  | .refreshUser hash now epoch, .user user =>
      some (s.issueTokens setup clock fresh user epoch (.refreshIssued hash now))
  | .refreshIssued hash now result, .done =>
      some (.waiting (.replaceRefreshToken hash now result.refreshToken)
        (.refreshReplaced hash result), s)
  | .refreshReplaced _ result, .done => some (.ended (.tokens result), s)
  | .changeUser current new, .user user =>
      some (checkPassword setup clock fresh.1 current new user, s)
  | .changeUpdated, .changed epoch =>
      some (.waiting (.revokeAll clock.seconds) (.changeRevoked epoch), s)
  | .changeRevoked epoch, .done =>
      some (.ended (.changed epoch), { s with accessTokens := .empty })
  | .revoked, .done => some (.ended .revoked, s)
  | _, .integrityError => some (.ended .failed, s)
  | _, _ => none

/-- `verify_access_token`; an expired token is forgotten. -/
def verifyAccessToken (clock : Clock) (token : Nat) (s : AuthService) :
    Option AccessToken × AuthService :=
  match s.accessTokens.get token with
  | none => (none, s)
  | some entry =>
      if entry.expiresAt < clock.wall then
        (none, { s with accessTokens := s.accessTokens.erase token })
      else (some entry, s)

/-! ## The steps -/

inductive Act
  /-- A request comes in. -/
  | call (request : Request) (clock : Clock)
  /-- The store executes the statement of a request. -/
  | execute (n : Nat)
  /-- A request goes on, and `secrets` makes up two tokens for it. -/
  | resume (n : Nat) (clock : Clock) (fresh : Nat × Nat)
  /-- Somebody presents an access token. -/
  | verify (token : Nat) (clock : Clock)

def step (setup : Setup) (s : AuthService) : Act → Option AuthService
  | .call request clock =>
      if s.now ≤ clock.monotonic then
        some
          { s with
            calls := s.calls ++ [(request, s.enter clock request)]
            now := clock.monotonic }
      else none
  | .execute n =>
      match s.call n with
      | some (_, .waiting statement wait) =>
          let (reply, store) := s.store.execute statement
          some ({ s with store := store }.moveTo n (.replied reply wait))
      | _ => none
  | .resume n clock fresh =>
      if s.now ≤ clock.monotonic then
        match s.call n with
        | some (_, .replied reply wait) =>
            (resume setup clock fresh { s with now := clock.monotonic } wait reply).map
              fun (point, s) => s.moveTo n point
        | _ => none
      else none
  | .verify token clock =>
      if s.now ≤ clock.monotonic then
        some { (s.verifyAccessToken clock token).2 with now := clock.monotonic }
      else none

end AuthService

/-- The runs of the service. -/
def authService (setup : Setup) : System AuthService AuthService.Act :=
  ⟨.init setup, AuthService.step setup⟩

/-! ## Pieces of runs -/

/-- A setup as good as any other: a password is kept as it is. -/
def plain : Setup where
  kdf := fun password salt _ => password.foldl (fun n c => 0x110000 * n + c.toNat) salt
  accessTtl := 1800
  refreshTtl := 2592000
  salt := 1

/-- Both clocks show the same time. -/
def Clock.both (seconds : ℚ) : Clock := ⟨seconds, seconds⟩

namespace AuthService

/-- A request by its number, up to the point where its first statement is executed. -/
def asks (request : Request) (n : Nat) (seconds : ℚ) : List Act :=
  [.call request (.both seconds), .execute n]

/-- A request goes on, and its next statement is executed. -/
def goesOn (n : Nat) (fresh : Nat × Nat) (seconds : ℚ) : List Act :=
  [.resume n (.both seconds) fresh, .execute n]

/-- A login with a password, from `10.0.0.1`. -/
def login (password : Str) : Request :=
  .passwordGrant "admin".toList password "10.0.0.1".toList

/-- A login with the default password up to its tokens. -/
def logsIn (n : Nat) (fresh : Nat × Nat) : List Act :=
  asks (login defaultPassword) n 0 ++ goesOn n fresh 0 ++ [Act.resume n (.both 0) (0, 0)]

end AuthService

end Zorkbot.Admin
