/-
# A tab that asks one thing at a time stays signed in

A refresh token is good for one exchange, and a second one logs everybody out. The tab always
exchanges the token that it holds, so what has to be shown is that the token it holds is not
spent: that every exchange that spends it also leaves the tab with the next one, and that no two
of them are under way together. Whatever else the service is asked meanwhile, and whenever tokens
are deleted, this stays so as long as nobody else has one of the tab's tokens revoked.
-/

import Zorkbot.Admin.Console

namespace Zorkbot.Admin

open Zorkbot.Bot (Str)
open Transition

/-! ## What becomes of a refresh token -/

namespace Store

/-- A token is not revoked, and the store knows it unless it was deleted. -/
structure Lasts (store : Store) (pruned : List Nat) (hash : Nat) : Prop where
  known : store.Knows hash ∨ hash ∈ pruned
  live : ∀ row ∈ store.refreshTokens, row.tokenHash = hash → row.revokedAt = none

variable {store : Store} {pruned : List Nat} {hash : Nat}

theorem Lasts.execute (lasts : store.Lasts pruned hash) {statement : Statement}
    (spares : statement.spends hash = false)
    (inserts : ∀ row, statement = .insertRefreshToken row → row.revokedAt = none) :
    (store.execute statement).2.Lasts pruned hash := by
  refine ⟨lasts.known.imp_left fun knows => knows.execute statement, ?_⟩
  have mapped {f : RefreshToken → RefreshToken} (same : ∀ row, (f row).tokenHash = row.tokenHash)
      (kept : ∀ row, row.tokenHash = hash → f row = row) :
      ∀ row ∈ store.refreshTokens.map f, row.tokenHash = hash → row.revokedAt = none := by
    intro row there is
    obtain ⟨before, listed, rfl⟩ := List.mem_map.mp there
    rw [same] at is
    rw [kept before is]
    exact lasts.live before listed is
  cases statement with
  | getUser | getRefreshToken | updatePassword => exact lasts.live
  | revokeAll => cases spares
  | insertRefreshToken row =>
      intro other there is
      simp only [Store.execute] at there
      split at there
      · exact lasts.live other there is
      · rcases List.mem_append.mp there with old | added
        · exact lasts.live other old is
        · rw [List.mem_singleton.mp added]
          exact inserts row rfl
  | replaceRefreshToken other now new =>
      have differs : other ≠ hash := of_decide_eq_false spares
      refine mapped (fun row => by split <;> rfl) fun row is => if_neg ?_
      exact fun same => differs (same.symm.trans is)
  | revoke other now =>
      have differs : other ≠ hash := of_decide_eq_false spares
      refine mapped (fun row => by split <;> rfl) fun row is => if_neg ?_
      exact fun same => differs (same.1.symm.trans is)

/-- A token that was inserted lasts. -/
theorem lasts_insert {row : RefreshToken} (live : row.revokedAt = none)
    (inserted : (store.execute (.insertRefreshToken row)).1 = .done) :
    (store.execute (.insertRefreshToken row)).2.Lasts pruned row.tokenHash := by
  simp only [Store.execute] at inserted ⊢
  split at inserted
  · cases inserted
  · next new =>
    rw [if_neg new]
    have apart : ∀ other ∈ store.refreshTokens, other.tokenHash ≠ row.tokenHash := by
      simpa using new
    refine ⟨.inl ⟨row, List.mem_append_right _ (List.mem_singleton_self row), rfl⟩, ?_⟩
    intro other there is
    rcases List.mem_append.mp there with old | added
    · exact absurd is (apart other old)
    · rw [List.mem_singleton.mp added]
      exact live

/-- A token that is deleted before it was revoked has expired. -/
theorem expired_of_pruned {retentionDays : Int} {readings : ClockReadings}
    {rows : List RefreshToken} {row : RefreshToken} (listed : row ∈ rows)
    (live : row.revokedAt = none)
    (gone : row ∉ Vault.pruneRetention retentionDays readings rows) :
    row.expiresAt < (readings.clock 1).seconds := by
  unfold Vault.pruneRetention at gone
  split at gone
  · exact absurd listed gone
  · by_contra lives
    refine gone (List.mem_filter.mpr ⟨listed, ?_⟩)
    simpa [live] using lives

end Store

/-! ## What a request does to the tab's token -/

/-- A request for tokens by password. -/
def Request.isLogin : Request → Bool
  | .passwordGrant .. => true
  | _ => false

/-- How an exchange ends unless reuse was detected: only a token that was deleted may be
unknown. -/
def Outcome.mild (pruned : List Nat) (hash : Nat) (outcome : Outcome) : Prop :=
  (∃ result, outcome = .tokens result) ∨
    outcome = .raised (invalidGrant "refresh token expired") ∨ outcome = .failed ∨
      outcome = .raised (invalidGrant "unknown refresh token") ∧ hash ∈ pruned

theorem Outcome.mild.mono {pruned pruned' : List Nat} {hash : Nat} {outcome : Outcome}
    (mild : outcome.mild pruned hash) (more : pruned ⊆ pruned') : outcome.mild pruned' hash :=
  mild.imp_right fun rest => rest.imp_right fun rest => rest.imp_right fun gone =>
    ⟨gone.1, more gone.2⟩

namespace Console

section

variable (store : Store) (pruned : List Nat) (held : Option Nat)

/-- The token that the tab holds lasts. -/
def Keeps : Prop := ∀ hash, held = some hash → store.Lasts pruned hash

/-- The tab holds no other token. -/
def Only (hash : Nat) : Prop := ∀ other, held = some other → other = hash

/-- A new token is about to be inserted. -/
def Inserts (result : TokenResult) (statement : Statement) : Prop :=
  ∃ row, statement = .insertRefreshToken row ∧ row.tokenHash = result.refreshToken ∧
    row.revokedAt = none

def GoodWaiting (statement : Statement) : Wait → Prop
  | .passwordUser .. | .changeUser .. | .changeUpdated => Keeps store pruned held
  | .passwordIssued result => Keeps store pruned held ∧ Inserts result statement
  | .refreshRow hash | .refreshUser hash .. => Only held hash ∧ store.Lasts pruned hash
  | .refreshIssued hash _ result =>
      Only held hash ∧ store.Lasts pruned hash ∧ Inserts result statement ∧
        result.refreshToken ≠ hash
  | .refreshReplaced _ result =>
      store.Lasts pruned result.refreshToken ∧ statement.spends result.refreshToken = false
  | .changeRevoked _ | .revoked => True
  | .reused => False

def GoodReplied (reply : Reply) : Wait → Prop
  | .passwordUser .. | .changeUser .. | .changeUpdated => Keeps store pruned held
  | .passwordIssued result =>
      Keeps store pruned held ∧ (reply = .done → store.Lasts pruned result.refreshToken)
  | .refreshRow hash =>
      Only held hash ∧ store.Lasts pruned hash ∧
        ((reply = .refreshToken none ∧ hash ∈ pruned) ∨
          ∃ row, reply = .refreshToken (some row) ∧ row.revokedAt = none)
  | .refreshUser hash .. => Only held hash ∧ store.Lasts pruned hash
  | .refreshIssued hash _ result =>
      Only held hash ∧ store.Lasts pruned hash ∧ result.refreshToken ≠ hash ∧
        (reply = .done → store.Lasts pruned result.refreshToken)
  | .refreshReplaced _ result => reply = .done ∧ store.Lasts pruned result.refreshToken
  | .changeRevoked _ | .revoked => reply = .done
  | .reused => False

def GoodEnded : Outcome → Prop
  | .tokens result => store.Lasts pruned result.refreshToken
  | .changed _ | .revoked => True
  | .raised _ | .failed => Keeps store pruned held

/-- A request leaves the tab with a token that lasts, or will give it one, or is to take it
from it. -/
def Good (request : Request) : Point → Prop
  | .waiting statement wait => GoodWaiting store pruned held statement wait
  | .replied reply wait => GoodReplied store pruned held reply wait
  | .ended outcome =>
      GoodEnded store pruned held outcome ∧
        (request.isLogin = true → Keeps store pruned held) ∧
        ∀ hash, request = .refreshGrant hash → outcome.mild pruned hash

end

variable {setup : Setup} {store : Store} {pruned : List Nat} {held : Option Nat}
  {request : Request}

theorem Keeps.of_only {hash : Nat} (only : Only held hash) (lasts : store.Lasts pruned hash) :
    Keeps store pruned held := fun other is => only other is ▸ lasts

theorem Keeps.execute (keeps : Keeps store pruned held) {statement : Statement}
    (spares : ∀ hash, held = some hash → statement.spends hash = false)
    (inserts : ∀ row, statement = .insertRefreshToken row → row.revokedAt = none) :
    Keeps (store.execute statement).2 pruned held :=
  fun hash is => (keeps hash is).execute (spares hash is) inserts

/-- A tab that holds no token is content. -/
theorem Keeps.of_none : Keeps store pruned none := by
  intro hash is
  cases is

theorem Keeps.forget {held' : Option Nat} (keeps : Keeps store pruned held)
    (fewer : held' = held ∨ held' = none) : Keeps store pruned held' := by
  rcases fewer with rfl | rfl
  · exact keeps
  · exact .of_none

theorem Only.forget {held' : Option Nat} {hash : Nat} (only : Only held hash)
    (fewer : held' = held ∨ held' = none) : Only held' hash := by
  rcases fewer with rfl | rfl
  · exact only
  · exact nofun

/-- It stays so while tokens of the tab's last, whatever else is deleted or held no longer. -/
theorem Good.mono {store' : Store} {pruned' : List Nat} {held' : Option Nat} {point : Point}
    (good : Good store pruned held request point) (more : pruned ⊆ pruned')
    (lasts : ∀ hash, held = some hash ∨ hash ∈ point.tokens → store.Lasts pruned hash →
      store'.Lasts pruned' hash)
    (fewer : held' = held ∨ held' = none) : Good store' pruned' held' request point := by
  have keeps (keeps : Keeps store pruned held) : Keeps store' pruned' held' :=
    Keeps.forget (fun hash is => lasts hash (.inl is) (keeps hash is)) fewer
  have mine {hash : Nat} (mine : hash ∈ point.tokens) :
      store.Lasts pruned hash → store'.Lasts pruned' hash := lasts hash (.inr mine)
  cases point with
  | waiting own wait =>
      cases wait with
      | passwordUser | changeUser | changeUpdated => exact keeps good
      | passwordIssued => exact ⟨keeps good.1, good.2⟩
      | refreshRow | refreshUser =>
          exact ⟨good.1.forget fewer, mine (List.mem_singleton_self _) good.2⟩
      | refreshIssued =>
          exact ⟨good.1.forget fewer, mine List.mem_cons_self good.2.1, good.2.2⟩
      | refreshReplaced => exact ⟨mine (List.mem_singleton_self _) good.1, good.2⟩
      | changeRevoked | revoked | reused => exact good
  | replied reply wait =>
      cases wait with
      | passwordUser | changeUser | changeUpdated => exact keeps good
      | passwordIssued =>
          exact ⟨keeps good.1, fun done => mine (List.mem_singleton_self _) (good.2 done)⟩
      | refreshRow =>
          exact ⟨good.1.forget fewer, mine (List.mem_singleton_self _) good.2.1,
            good.2.2.imp_left fun gone => ⟨gone.1, more gone.2⟩⟩
      | refreshUser => exact ⟨good.1.forget fewer, mine (List.mem_singleton_self _) good.2⟩
      | refreshIssued hash now result =>
          have second : result.refreshToken ∈ [hash, result.refreshToken] :=
            List.mem_cons_of_mem _ (List.mem_singleton_self _)
          exact ⟨good.1.forget fewer, mine List.mem_cons_self good.2.1, good.2.2.1,
            fun done => mine second (good.2.2.2 done)⟩
      | refreshReplaced => exact ⟨good.1, mine (List.mem_singleton_self _) good.2⟩
      | changeRevoked | revoked | reused => exact good
  | ended outcome =>
      refine ⟨?_, fun login => keeps (good.2.1 login), fun hash is => (good.2.2 hash is).mono more⟩
      cases outcome with
      | tokens => exact mine (List.mem_singleton_self _) good.1
      | changed | revoked => exact good.1
      | raised | failed => exact keeps good.1

/-- A request that comes in while the tab's token lasts. -/
theorem good_enter {service : AuthService} (clock : Clock) (keeps : Keeps service.store pruned held)
    (own : ∀ hash, request = .refreshGrant hash → held = some hash) :
    Good service.store pruned held request (service.enter clock request) := by
  cases request with
  | passwordGrant username password ip =>
      simp only [AuthService.enter]
      split
      · refine ⟨keeps, fun _ => keeps, ?_⟩
        intro hash is
        cases is
      · exact keeps
  | refreshGrant hash =>
      have mine := own hash rfl
      refine ⟨fun other is => ?_, keeps hash mine⟩
      exact Option.some.inj (is.symm.trans mine)
  | changePassword => exact keeps
  | revokeRefreshToken => trivial

/-- The store executes a statement of the request. -/
theorem good_execute {statement : Statement} {wait : Wait}
    (fits : AuthService.Fits request (.waiting statement wait))
    (good : Good store pruned held request (.waiting statement wait)) :
    Good (store.execute statement).2 pruned held request
      (.replied (store.execute statement).1 wait) := by
  cases fits with
  | waiting asks =>
      cases asks with
      | passwordUser | changeUser => exact good
      | changeUpdated => exact Keeps.execute good (fun _ _ => rfl) nofun
      | passwordIssued live =>
          obtain ⟨keeps, row, ⟨⟩, same, -⟩ := good
          refine ⟨keeps.execute (fun _ _ => rfl) fun row is => ?_, fun done => ?_⟩
          · cases is
            exact live
          · exact same ▸ Store.lasts_insert live done
      | @refreshRow hash =>
          obtain ⟨only, lasts⟩ := good
          refine ⟨only, lasts, ?_⟩
          cases found : store.refreshTokens.find? fun row => row.tokenHash = hash with
          | none =>
              refine .inl ⟨congrArg Reply.refreshToken found, lasts.known.resolve_left ?_⟩
              rintro ⟨row, listed, same⟩
              exact List.find?_eq_none.mp found row listed (decide_eq_true same)
          | some first =>
              have is := List.find?_some found
              refine .inr ⟨first, congrArg Reply.refreshToken found, ?_⟩
              exact lasts.live first (List.mem_of_find?_eq_some found) (of_decide_eq_true is)
      | refreshUser => exact good
      | refreshIssued live =>
          obtain ⟨only, lasts, ⟨row, ⟨⟩, same, -⟩, other⟩ := good
          refine ⟨only, lasts.execute rfl fun row is => ?_, other, fun done => ?_⟩
          · cases is
            exact live
          · exact same ▸ Store.lasts_insert live done
      | refreshReplaced => exact ⟨rfl, good.1.execute good.2 nofun⟩
      | changeRevoked | revoked => exact rfl
      | reused => exact good

/-- A request goes on with the store's reply. -/
theorem good_resume {setup : Setup} {clock : Clock} {fresh : Nat × Nat}
    {service after : AuthService} {reply : Reply} {wait : Wait} {point : Point}
    (fits : AuthService.Fits request (.replied reply wait))
    (good : Good service.store pruned held request (.replied reply wait))
    (new : fresh.2 ∉ pruned ∧ ∀ row ∈ service.store.refreshTokens, row.tokenHash ≠ fresh.2)
    (resumed : AuthService.resume setup clock fresh service wait reply = some (point, after)) :
    Good after.store pruned held request point := by
  obtain ⟨statement, asks⟩ := fits.asks
  have store : after.store = service.store := (AuthService.resumed_of_resume resumed).store
  rw [store]
  clear store fits
  cases asks with
  | passwordUser =>
      cases reply with
      | user user =>
          have is : (service.comparePassword setup clock fresh _ _ _ user).1 = point :=
            congrArg Prod.fst (Option.some.inj resumed)
          rw [← is, AuthService.comparePassword]
          split
          · exact ⟨good, _, rfl, rfl, rfl⟩
          · exact ⟨good, fun _ => good, fun _ is => (by cases is)⟩
      | integrityError =>
          cases resumed
          exact ⟨good, fun _ => good, fun _ is => (by cases is)⟩
      | _ => cases resumed
  | passwordIssued =>
      cases reply <;> cases resumed
      · exact ⟨good.2 rfl, fun _ => good.1, fun _ is => (by cases is)⟩
      · exact ⟨good.1, fun _ => good.1, fun _ is => (by cases is)⟩
  | refreshRow =>
      obtain ⟨only, lasts, ⟨rfl, gone⟩ | ⟨row, rfl, live⟩⟩ := good
      · cases resumed
        refine ⟨.of_only only lasts, fun login => (by cases login), fun hash is => ?_⟩
        cases is
        exact .inr (.inr (.inr ⟨rfl, gone⟩))
      · cases resumed
        have alive : ¬ row.revokedAt ≠ none := fun revoked => revoked live
        rw [AuthService.lookedUp, if_neg alive]
        split
        · exact ⟨.of_only only lasts, fun login => (by cases login), fun _ _ => .inr (.inl rfl)⟩
        · exact ⟨only, lasts⟩
  | @refreshUser hash =>
      obtain ⟨only, lasts⟩ := good
      cases reply <;> cases resumed
      · refine ⟨only, lasts, ⟨_, rfl, rfl, rfl⟩, ?_⟩
        rintro rfl
        rcases lasts.known with ⟨row, listed, is⟩ | gone
        · exact new.2 row listed is
        · exact new.1 gone
      · exact ⟨.of_only only lasts, fun login => (by cases login),
          fun _ _ => .inr (.inr (.inl rfl))⟩
  | refreshIssued =>
      obtain ⟨only, lasts, other, inserted⟩ := good
      cases reply <;> cases resumed
      · exact ⟨inserted rfl, decide_eq_false other.symm⟩
      · exact ⟨.of_only only lasts, fun login => (by cases login),
          fun _ _ => .inr (.inr (.inl rfl))⟩
  | refreshReplaced =>
      obtain ⟨rfl, new⟩ := good
      cases resumed
      exact ⟨new, fun login => (by cases login), fun _ _ => .inl ⟨_, rfl⟩⟩
  | changeUser =>
      cases reply <;> cases resumed
      · rw [AuthService.checkPassword]
        split
        · exact ⟨good, fun _ => good, fun _ is => (by cases is)⟩
        · split
          · exact ⟨good, fun _ => good, fun _ is => (by cases is)⟩
          · split
            · exact ⟨good, fun _ => good, fun _ is => (by cases is)⟩
            · exact good
      · exact ⟨good, fun _ => good, fun _ is => (by cases is)⟩
  | changeUpdated =>
      cases reply <;> cases resumed
      · trivial
      · exact ⟨good, fun _ => good, fun _ is => (by cases is)⟩
  | changeRevoked =>
      obtain rfl : reply = .done := good
      cases resumed
      exact ⟨trivial, fun login => (by cases login), fun _ is => (by cases is)⟩
  | revoked =>
      obtain rfl : reply = .done := good
      cases resumed
      exact ⟨trivial, fun login => (by cases login), fun _ is => (by cases is)⟩
  | reused => exact good.elim

/-! ## Every run -/

variable {s t : Console}

/-- Of what the tab has asked of the service, at most the last is not answered. -/
structure Sole (s : Console) : Prop where
  known : ∀ n ∈ s.asked, n < s.service.calls.length
  mild : ∀ n ∈ s.asked, ∀ hash outcome,
    s.service.call n = some (.refreshGrant hash, .ended outcome) → outcome.mild s.pruned hash
  last : ∀ n ∈ s.asked, ∀ request point, s.service.call n = some (request, point) →
    point.pending = true → s.asked.head? = some n
  waits : ∀ c purpose stage, s.waiting c = some (purpose, stage) → ∃ n request point,
    stage.waitsFor = some n ∧ s.asked.head? = some n ∧
      s.service.call n = some (request, point) ∧ suits purpose stage request = true
  one : ∀ c d call call', s.waiting c = some call → s.waiting d = some call' → c = d
  good : s.busy = true → ∀ n request point, s.asked.head? = some n →
    s.service.call n = some (request, point) →
      Good s.service.store s.pruned s.refreshToken request point
  /-- If no call waits for the request, the tab has no token or it was a login. -/
  orphan : (∀ c, s.waiting c = none) → ∀ n ∈ s.asked, ∀ request point,
    s.service.call n = some (request, point) → point.pending = true →
      s.refreshToken = none ∨ request.isLogin = true
  settled : s.busy = false → Keeps s.service.store s.pruned s.refreshToken

theorem busy_iff : s.busy = true ↔
    (∃ n ∈ s.asked, ∃ request point, s.service.call n = some (request, point) ∧
      point.pending = true) ∨ ∃ c call, s.waiting c = some call := by
  rw [busy, Bool.or_eq_true, List.any_eq_true, List.any_eq_true]
  refine or_congr ?_ ?_
  · constructor
    · rintro ⟨n, mine, pending⟩
      obtain ⟨⟨request, point⟩, there, pending⟩ := (Option.any_eq_true ..).mp pending
      exact ⟨n, mine, request, point, there, pending⟩
    · rintro ⟨n, mine, request, point, there, pending⟩
      exact ⟨n, mine, (Option.any_eq_true ..).mpr ⟨_, there, pending⟩⟩
  · constructor
    · rintro ⟨call, there, waits⟩
      obtain ⟨c, at_⟩ := List.mem_iff_getElem?.mp there
      exact ⟨c, call, Option.filter_eq_some_iff.mpr ⟨at_, waits⟩⟩
    · rintro ⟨c, call, waits⟩
      obtain ⟨at_, waits⟩ := Option.filter_eq_some_iff.mp waits
      exact ⟨call, List.mem_of_getElem? at_, waits⟩

theorem not_busy (idle : s.busy = false) :
    (∀ n ∈ s.asked, ∀ request point, s.service.call n = some (request, point) →
      point.pending = false) ∧ ∀ c, s.waiting c = none := by
  constructor
  · intro n mine request point there
    by_contra pending
    rw [Bool.not_eq_false] at pending
    rw [busy_iff.mpr (.inl ⟨n, mine, request, point, there, pending⟩)] at idle
    cases idle
  · intro c
    cases waits : s.waiting c with
    | none => rfl
    | some call =>
        rw [busy_iff.mpr (.inr ⟨c, call, waits⟩)] at idle
        cases idle

theorem Sole.suited (sole : s.Sole) : s.Suited := by
  intro c purpose stage waits
  obtain ⟨n, request, point, -, -, -, suits⟩ := sole.waits c purpose stage waits
  exact ⟨request, suits⟩

/-- One request of the service has gone on. -/
structure Advances (before after : AuthService) (n : Nat) (request : Request)
    (point next : Point) : Prop where
  there : before.call n = some (request, point)
  pending : point.pending = true
  call : ∀ k, after.call k = if n = k then some (request, next) else before.call k
  length : after.calls.length = before.calls.length

theorem advances {act : AuthService.Act} {before after : AuthService} (pruned : List Nat)
    (held : Option Nat)
    (fits : ∀ n request point, before.call n = some (request, point) →
      AuthService.Fits request point)
    (goesOn : (∃ n, act = .execute n) ∨ ∃ n clock fresh, act = .resume n clock fresh)
    (new : ∀ n clock fresh, act = .resume n clock fresh →
      fresh.2 ∉ pruned ∧ ∀ row ∈ before.store.refreshTokens, row.tokenHash ≠ fresh.2)
    (stepped : before.step setup act = some after) :
    ∃ n request point next, Advances before after n request point next ∧
      (after.store = before.store ∨ ∃ statement wait, act = .execute n ∧
        point = .waiting statement wait ∧ after.store = (before.store.execute statement).2) ∧
      (Good before.store pruned held request point → Good after.store pruned held request next) := by
  rcases goesOn with ⟨n, rfl⟩ | ⟨n, clock, fresh, rfl⟩
  · simp only [AuthService.step] at stepped
    split at stepped
    · next request statement wait there =>
      cases stepped
      refine ⟨n, request, _, _, ⟨there, rfl, fun k => ?_, List.length_modify ..⟩,
        .inr ⟨statement, wait, rfl, rfl, rfl⟩, good_execute (fits n request _ there)⟩
      rw [AuthService.call_moveTo]
      split
      · next same =>
        subst same
        exact congrArg _ there
      · rfl
    · cases stepped
  · simp only [AuthService.step] at stepped
    split at stepped
    · split at stepped
      · next request reply wait there =>
        obtain ⟨⟨point, u⟩, resumed, rfl⟩ := Option.map_eq_some_iff.mp stepped
        have stays := AuthService.resumed_of_resume resumed
        have same (k : Nat) : u.call k = before.call k := by
          rw [AuthService.call, stays.calls]
          rfl
        have goes (good : Good ({ before with now := clock.monotonic } : AuthService).store pruned
            held request (.replied reply wait)) : Good u.store pruned held request point :=
          good_resume (fits n request _ there) good (new n clock fresh rfl) resumed
        refine ⟨n, request, _, point, ⟨there, rfl, fun k => ?_, ?_⟩, .inl stays.store, goes⟩
        · rw [AuthService.call_moveTo, same]
          split
          · next here =>
            subst here
            rw [there]
            rfl
          · rfl
        · exact (List.length_modify ..).trans (congrArg List.length stays.calls)
      · cases stepped
    · cases stepped

/-- A request of the tab goes on. -/
theorem Sole.serves (sole : s.Sole) {n : Nat} {request : Request} {point next : Point}
    (mine : n ∈ s.asked) (advances : Advances s.service t.service n request point next)
    (good : Good s.service.store s.pruned s.refreshToken request point →
      Good t.service.store s.pruned s.refreshToken request next)
    (held : t.refreshToken = s.refreshToken) (calls : t.calls = s.calls) (rests : Rests s t) :
    t.Sole := by
  have last := sole.last n mine request point advances.there advances.pending
  have busy : s.busy = true :=
    busy_iff.mpr (.inl ⟨n, mine, request, point, advances.there, advances.pending⟩)
  have now : Good t.service.store t.pruned t.refreshToken request next :=
    rests.pruned ▸ held ▸ good (sole.good busy n request point last advances.there)
  have waiting (c : Nat) : t.waiting c = s.waiting c := by rw [waiting, waiting, calls]
  have there' : t.service.call n = some (request, next) := by
    rw [advances.call, if_pos rfl]
  -- what was called before is where it was, or it is the one that has gone on
  have before {k : Nat} {request' : Request} {point' : Point}
      (there : t.service.call k = some (request', point')) :
      (k = n ∧ request' = request ∧ point' = next) ∨ s.service.call k = some (request', point') := by
    rw [advances.call] at there
    split at there
    · next same =>
      cases there
      exact .inl ⟨same.symm, rfl, rfl⟩
    · exact .inr there
  constructor
  · intro k mine
    rw [advances.length]
    exact sole.known k (rests.asked ▸ mine)
  · intro k mine hash outcome there
    rcases before there with ⟨rfl, rfl, is⟩ | old
    · rw [← is] at now
      exact now.2.2 hash rfl
    · exact rests.pruned ▸ sole.mild k (rests.asked ▸ mine) hash outcome old
  · intro k mine request' point' there pending
    rw [rests.asked] at mine ⊢
    rcases before there with ⟨rfl, -, -⟩ | old
    · exact last
    · exact sole.last k mine request' point' old pending
  · intro c purpose stage waits
    rw [waiting] at waits
    obtain ⟨k, request', point', for_, newest, there, suits⟩ := sole.waits c purpose stage waits
    obtain rfl : k = n := Option.some.inj (newest.symm.trans last)
    rw [advances.there, Option.some.injEq, Prod.mk.injEq] at there
    obtain ⟨rfl, rfl⟩ := there
    exact ⟨k, request, next, for_, rests.asked ▸ newest, there', suits⟩
  · intro c d call call' first second
    rw [waiting] at first second
    exact sole.one c d call call' first second
  · intro _ k request' point' newest there
    rw [rests.asked] at newest
    obtain rfl : k = n := Option.some.inj (newest.symm.trans last)
    rw [there', Option.some.injEq, Prod.mk.injEq] at there
    obtain ⟨rfl, rfl⟩ := there
    exact now
  · intro nobody k mine' request' point' there pending
    rw [held]
    have nobody (c : Nat) : s.waiting c = none := (waiting c).symm.trans (nobody c)
    rcases before there with ⟨rfl, rfl, -⟩ | old
    · exact sole.orphan nobody k mine request' point advances.there advances.pending
    · exact sole.orphan nobody k (rests.asked ▸ mine') request' point' old pending
  · intro idle
    obtain ⟨answered, nobody⟩ := not_busy idle
    have nobody (c : Nat) : s.waiting c = none := (waiting c).symm.trans (nobody c)
    rcases sole.orphan nobody n mine request point advances.there advances.pending with
      none_ | login
    · rw [held, none_]
      exact .of_none
    · cases next with
      | ended outcome => exact now.2.1 login
      | waiting | replied => cases answered n (rests.asked.symm ▸ mine) request _ there'

/-- Something is done that leaves the tab's requests where they are and its tokens lasting. -/
theorem Sole.outlasts (sole : s.Sole) (length : s.service.calls.length ≤ t.service.calls.length)
    (call : ∀ n ∈ s.asked, t.service.call n = s.service.call n)
    (held : t.refreshToken = s.refreshToken) (calls : t.calls = s.calls)
    (asked : t.asked = s.asked) (more : s.pruned ⊆ t.pruned)
    (keeps : Keeps s.service.store s.pruned s.refreshToken →
      Keeps t.service.store t.pruned t.refreshToken)
    (good : ∀ n request point, s.asked.head? = some n →
      s.service.call n = some (request, point) →
        Good s.service.store s.pruned s.refreshToken request point →
          Good t.service.store t.pruned t.refreshToken request point) : t.Sole := by
  have waiting (c : Nat) : t.waiting c = s.waiting c := by rw [waiting, waiting, calls]
  have newest {n : Nat} (first : s.asked.head? = some n) : n ∈ s.asked :=
    List.mem_of_mem_head? first
  have same : t.busy = s.busy := by
    rw [Bool.eq_iff_iff, busy_iff, busy_iff]
    simp only [waiting, asked]
    refine or_congr_left (exists_congr fun n => and_congr_right fun mine => ?_)
    rw [call n mine]
  constructor
  · intro n mine
    exact (sole.known n (asked ▸ mine)).trans_le length
  · intro n mine hash outcome there
    rw [asked] at mine
    exact (sole.mild n mine hash outcome (call n mine ▸ there)).mono more
  · intro n mine request point there pending
    rw [asked] at mine ⊢
    exact sole.last n mine request point (call n mine ▸ there) pending
  · intro c purpose stage waits
    obtain ⟨n, request, point, for_, first, there, suits⟩ :=
      sole.waits c purpose stage (waiting c ▸ waits)
    exact ⟨n, request, point, for_, asked ▸ first, (call n (newest first)).trans there, suits⟩
  · intro c d is is' first second
    exact sole.one c d is is' (waiting c ▸ first) (waiting d ▸ second)
  · intro busy n request point first there
    rw [asked] at first
    have there := call n (newest first) ▸ there
    exact good n request point first there (sole.good (same ▸ busy) n request point first there)
  · intro nobody n mine request point there pending
    rw [asked] at mine
    rw [held]
    exact sole.orphan (fun c => waiting c ▸ nobody c) n mine request point (call n mine ▸ there)
      pending
  · intro idle
    exact keeps (sole.settled (same ▸ idle))

/-- A request of somebody else goes on. -/
theorem Sole.shares (sole : s.Sole) {n : Nat} {request : Request} {point next : Point}
    (other : n ∉ s.asked) (advances : Advances s.service t.service n request point next)
    (store : t.service.store = s.service.store ∨ ∃ statement,
      (∀ hash ∈ s.claims, statement.spends hash = false) ∧
      (∀ row, statement = .insertRefreshToken row → row.revokedAt = none) ∧
      t.service.store = (s.service.store.execute statement).2)
    (held : t.refreshToken = s.refreshToken) (calls : t.calls = s.calls) (rests : Rests s t) :
    t.Sole := by
  have call (k : Nat) (mine : k ∈ s.asked) : t.service.call k = s.service.call k := by
    rw [advances.call, if_neg]
    rintro rfl
    exact other mine
  refine sole.outlasts advances.length.ge call held calls rests.asked (rests.pruned ▸ fun _ => id)
    ?_ ?_
  · intro keeps
    rw [held, rests.pruned]
    rcases store with same | ⟨statement, spares, inserts, same⟩
    · exact same ▸ keeps
    · rw [same]
      exact keeps.execute (fun hash is => spares hash (by simp [claims, is])) inserts
  · intro k request' point' first there good
    rw [held, rests.pruned]
    rcases store with same | ⟨statement, spares, inserts, same⟩
    · exact same ▸ good
    · rw [same]
      refine good.mono (List.Subset.refl _) (fun hash claimed lasts =>
        lasts.execute (spares hash ?_) inserts) (.inl rfl)
      rcases claimed with is | mine
      · simp [claims, is]
      · simp [claims, first, there, mine]

theorem prune_pruned (retentionDays : Int) (readings : ClockReadings) (s : Console) :
    s.pruned ⊆ (s.prune retentionDays readings).pruned := List.subset_append_right _ _

/-- A token lasts when tokens are deleted. -/
theorem lasts_prune (retentionDays : Int) (readings : ClockReadings) {hash : Nat}
    (lasts : s.service.store.Lasts s.pruned hash) :
    (s.prune retentionDays readings).service.store.Lasts
      (s.prune retentionDays readings).pruned hash := by
  constructor
  · rcases lasts.known with ⟨row, listed, rfl⟩ | gone
    · by_cases kept : row ∈ Vault.pruneRetention retentionDays readings s.service.store.refreshTokens
      · exact .inl ⟨row, kept, rfl⟩
      · have expired := Store.expired_of_pruned listed (lasts.live row listed rfl) kept
        refine .inr (List.mem_append_left _ (List.mem_map.mpr ⟨row, ?_, rfl⟩))
        exact List.mem_filter.mpr ⟨listed, decide_eq_true ⟨expired, kept⟩⟩
    · exact .inr (prune_pruned retentionDays readings s gone)
  · intro row listed
    exact lasts.live row ((Vault.pruneRetention_sublist ..).subset listed)

theorem Sole.prunes (sole : s.Sole) (retentionDays : Int) (readings : ClockReadings) :
    (s.prune retentionDays readings).Sole :=
  sole.outlasts le_rfl (fun _ _ => rfl) rfl rfl rfl (prune_pruned ..)
    (fun keeps hash is => lasts_prune retentionDays readings (keeps hash is))
    fun _ _ _ _ _ good =>
      good.mono (prune_pruned ..) (fun _ _ lasts => lasts_prune retentionDays readings lasts)
        (.inl rfl)

theorem entered_spec {request : Request} {clock : Clock} {before after : AuthService}
    (entered : before.step setup (.call request clock) = some after) :
    after.calls = before.calls ++ [(request, before.enter clock request)] ∧
      after.store = before.store := by
  cases AuthService.auth_steps entered with
  | calls => exact ⟨rfl, rfl⟩

theorem Sole.enters (sole : s.Sole) (idle : s.busy = false) {request : Request} {clock : Clock}
    {service : AuthService} {c : Nat} {purpose : Purpose} {stage : Stage}
    (quiet : Quiet setup s.service service) (held : t.refreshToken = s.refreshToken)
    (own : ∀ hash, request = .refreshGrant hash → s.refreshToken = some hash)
    (entered : service.step setup (.call request clock) = some t.service)
    (waits : t.waiting c = some (purpose, stage))
    (for_ : stage.waitsFor = some service.calls.length)
    (suits : suits purpose stage request = true)
    (others : ∀ d, d ≠ c → t.waiting d = s.waiting d ∨ t.waiting d = none)
    (asked : t.asked = service.calls.length :: s.asked) (pruned : t.pruned = s.pruned) :
    t.Sole := by
  obtain ⟨answered, nobody⟩ := not_busy idle
  have busy : t.busy = true := busy_iff.mpr (.inr ⟨c, _, waits⟩)
  have alone {d : Nat} {call : Purpose × Stage} (there : t.waiting d = some call) : d = c := by
    by_contra other
    rcases others d other with same | none_
    · rw [same, nobody d] at there
      cases there
    · rw [none_] at there
      cases there
  obtain ⟨calls, store⟩ := entered_spec entered
  rw [quiet.store] at store
  have newest : t.asked.head? = some service.calls.length := by rw [asked, List.head?_cons]
  have mine : t.service.call service.calls.length = some (request, service.enter clock request) := by
    rw [AuthService.call, calls, List.getElem?_concat_length]
  have before {k : Nat} (there : k ∈ t.asked) :
      k = service.calls.length ∨ k ∈ s.asked ∧ t.service.call k = s.service.call k := by
    rw [asked, List.mem_cons] at there
    refine there.imp_right fun old => ⟨old, ?_⟩
    have early := sole.known k old
    rw [← quiet.call k early, AuthService.call, calls]
    exact List.getElem?_append_left (early.trans_le quiet.length)
  have now : Good t.service.store t.pruned t.refreshToken request (service.enter clock request) := by
    rw [store, held, pruned, ← quiet.store]
    exact good_enter clock (quiet.store ▸ sole.settled idle) own
  constructor
  · intro k there
    rw [calls, List.length_append, List.length_singleton]
    rcases before there with rfl | ⟨old, -⟩
    · exact Nat.lt_succ_self _
    · exact Nat.lt_succ_of_lt ((sole.known k old).trans_le quiet.length)
  · intro k listed hash outcome there
    rcases before listed with rfl | ⟨old, same⟩
    · rw [mine, Option.some.injEq, Prod.mk.injEq] at there
      rw [there.2] at now
      exact now.2.2 hash there.1
    · exact pruned ▸ sole.mild k old hash outcome (same ▸ there)
  · intro k listed request' point' there pending
    rcases before listed with rfl | ⟨old, same⟩
    · exact newest
    · rw [answered k old request' point' (same ▸ there)] at pending
      cases pending
  · intro d purpose' stage' there
    obtain rfl := alone there
    rw [waits, Option.some.injEq, Prod.mk.injEq] at there
    obtain ⟨rfl, rfl⟩ := there
    exact ⟨_, request, _, for_, newest, mine, suits⟩
  · intro d e call call' first second
    rw [alone first, alone second]
  · intro _ k request' point' first there
    obtain rfl := Option.some.inj (newest.symm.trans first)
    rw [mine, Option.some.injEq, Prod.mk.injEq] at there
    obtain ⟨rfl, rfl⟩ := there
    exact now
  · intro none_
    rw [none_ c] at waits
    cases waits
  · intro idle
    rw [busy] at idle
    cases idle

/-- A call that stops to wait without an answer leaves the tab without a token, or was a login. -/
theorem Sole.released (sole : s.Sole) {c : Nat} {call : Purpose × Stage}
    (waits : s.waiting c = some call) (released : Released s t call) : t.refreshToken = none ∨
      ∃ n request point, s.asked.head? = some n ∧
        s.service.call n = some (request, point) ∧ request.isLogin = true := by
  rcases released with none_ | ⟨-, username, password, ip, k, again, rfl⟩
  · exact .inl none_
  · obtain ⟨n, request, point, -, newest, there, suits⟩ := sole.waits c _ _ waits
    refine .inr ⟨n, request, point, newest, there, ?_⟩
    cases request with
    | passwordGrant => rfl
    | refreshGrant | changePassword | revokeRefreshToken => cases suits

theorem Sole.idles (sole : s.Sole) (quiet : Quiet setup s.service t.service)
    (held : t.refreshToken = s.refreshToken ∨ t.refreshToken = none)
    (others : ∀ d, t.waiting d = s.waiting d ∨
      t.waiting d = none ∧ ∀ call, s.waiting d = some call → Released s t call)
    (rests : Rests s t) : t.Sole := by
  have call {n : Nat} (mine : n ∈ s.asked) : t.service.call n = s.service.call n :=
    quiet.call n (sole.known n mine)
  have newest {n : Nat} (first : s.asked.head? = some n) : n ∈ s.asked :=
    List.mem_of_mem_head? first
  have waited {c : Nat} {is : Purpose × Stage} (waits : t.waiting c = some is) :
      s.waiting c = some is := by
    rcases others c with same | ⟨none_, -⟩
    · rw [← same, waits]
    · rw [none_] at waits
      cases waits
  -- nobody waits: who waited was released
  have released (nobody : ∀ c, t.waiting c = none) {c : Nat} {is : Purpose × Stage}
      (waits : s.waiting c = some is) : t.refreshToken = none ∨
        ∃ n request point, s.asked.head? = some n ∧
          s.service.call n = some (request, point) ∧ request.isLogin = true := by
    rcases others c with same | ⟨-, released⟩
    · rw [← same, nobody c] at waits
      cases waits
    · exact sole.released waits (released is waits)
  constructor
  · intro n mine
    exact (sole.known n (rests.asked ▸ mine)).trans_le quiet.length
  · intro n mine hash outcome there
    rw [rests.asked] at mine
    rw [rests.pruned]
    exact sole.mild n mine hash outcome (call mine ▸ there)
  · intro n mine request point there pending
    rw [rests.asked] at mine ⊢
    exact sole.last n mine request point (call mine ▸ there) pending
  · intro c purpose stage waits
    obtain ⟨n, request, point, for_, first, there, suits⟩ :=
      sole.waits c purpose stage (waited waits)
    exact ⟨n, request, point, for_, rests.asked ▸ first, (call (newest first)).trans there, suits⟩
  · intro c d is is' first second
    exact sole.one c d is is' (waited first) (waited second)
  · intro busy n request point first there
    rw [rests.asked] at first
    rw [call (newest first)] at there
    rw [quiet.store, rests.pruned]
    refine (sole.good (busy_iff.mpr ?_) n request point first there).mono (List.Subset.refl _)
      (fun _ _ => id) held
    refine (busy_iff.mp busy).imp ?_ ?_
    · rintro ⟨k, mine, request', point', there', pending⟩
      rw [rests.asked] at mine
      exact ⟨k, mine, request', point', call mine ▸ there', pending⟩
    · rintro ⟨c, is, waits⟩
      exact ⟨c, is, waited waits⟩
  · intro nobody n mine request point there pending
    rw [rests.asked] at mine
    rw [call mine] at there
    by_cases before : ∀ c, s.waiting c = none
    · rcases sole.orphan before n mine request point there pending with none_ | login
      · exact .inl (held.elim (fun same => same.trans none_) id)
      · exact .inr login
    · obtain ⟨c, some_⟩ := not_forall.mp before
      obtain ⟨is, waits⟩ := Option.ne_none_iff_exists'.mp some_
      refine (released nobody waits).imp_right ?_
      rintro ⟨k, request', point', first, there', login⟩
      have last := sole.last n mine request point there pending
      obtain rfl : k = n := Option.some.inj (first.symm.trans last)
      rw [there, Option.some.injEq, Prod.mk.injEq] at there'
      exact there'.1 ▸ login
  · intro idle
    rw [quiet.store, rests.pruned]
    obtain ⟨answered, nobody⟩ := not_busy idle
    rw [rests.asked] at answered
    cases busy : s.busy with
    | false => exact (sole.settled busy).forget held
    | true =>
        rcases busy_iff.mp busy with ⟨n, mine, request, point, there, pending⟩ | ⟨c, is, waits⟩
        · rw [answered n mine request point (by rw [call mine, there])] at pending
          cases pending
        · rcases released nobody waits with none_ | ⟨n, request, point, first, there, login⟩
          · rw [none_]
            exact .of_none
          · have good := sole.good busy n request point first there
            cases point with
            | ended outcome => exact (good.2.1 login).forget held
            | waiting | replied =>
                cases answered n (newest first) request _ (by rw [call (newest first), there])

theorem Sole.settles (sole : s.Sole) {c n : Nat} {purpose : Purpose} {stage : Stage}
    {request : Request} {outcome : Outcome} (waited : s.waiting c = some (purpose, stage))
    (for_ : stage.waitsFor = some n) (answered : s.service.call n = some (request, .ended outcome))
    (service : t.service = s.service)
    (held : t.refreshToken = none ∨
      (∃ result, outcome = .tokens result ∧ t.refreshToken = some result.refreshToken) ∨
      (t.refreshToken = s.refreshToken ∧ (∀ k, stage ≠ .refreshing k) ∧
        (∀ result, outcome ≠ .tokens result) ∧ (∀ hash, purpose ≠ .logout hash) ∧
        ∀ current new, purpose = .changePassword current new → outcome.verdict = .other))
    (done : t.waiting c = none) (others : ∀ d, d ≠ c → t.waiting d = s.waiting d)
    (rests : Rests s t) : t.Sole := by
  obtain ⟨k, request', point, for', newest, there, suits⟩ := sole.waits c purpose stage waited
  obtain rfl : n = k := Option.some.inj (for_.symm.trans for')
  rw [answered, Option.some.injEq, Prod.mk.injEq] at there
  obtain ⟨rfl, rfl⟩ := there
  have nobody (d : Nat) : t.waiting d = none := by
    by_cases here : d = c
    · rw [here, done]
    · rw [others d here]
      cases waits : s.waiting d with
      | none => rfl
      | some is => exact absurd (sole.one d c _ _ waits waited) here
  have quiet (m : Nat) (mine : m ∈ t.asked) (request' : Request) (point : Point)
      (there : t.service.call m = some (request', point)) : point.pending = false := by
    by_contra pending
    rw [Bool.not_eq_false] at pending
    rw [service] at there
    have last := sole.last m (rests.asked ▸ mine) request' point there pending
    obtain rfl : m = n := Option.some.inj (last.symm.trans newest)
    rw [answered] at there
    cases there
    cases pending
  have idle : t.busy = false := by
    by_contra busy
    rw [Bool.not_eq_false] at busy
    rcases busy_iff.mp busy with ⟨m, mine, request', point, there, pending⟩ | ⟨d, is, waits⟩
    · rw [quiet m mine request' point there] at pending
      cases pending
    · rw [nobody d] at waits
      cases waits
  have good := sole.good (busy_iff.mpr (.inr ⟨c, _, waited⟩)) n request _ newest answered
  constructor
  · intro m mine
    rw [service]
    exact sole.known m (rests.asked ▸ mine)
  · intro m mine hash outcome' there
    exact rests.pruned ▸ sole.mild m (rests.asked ▸ mine) hash outcome' (service ▸ there)
  · intro m mine request' point there pending
    rw [quiet m mine request' point there] at pending
    cases pending
  · intro d purpose' stage' waits
    rw [nobody d] at waits
    cases waits
  · intro d _ is _ waits
    rw [nobody d] at waits
    cases waits
  · intro busy
    rw [idle] at busy
    cases busy
  · intro _ m mine request' point there pending
    rw [quiet m mine request' point there] at pending
    cases pending
  · intro _
    rw [service, rests.pruned]
    rcases held with none_ | ⟨result, rfl, new⟩ | ⟨same, first, other, logout, change⟩
    · rw [none_]
      exact nofun
    · intro hash is
      rw [new, Option.some.injEq] at is
      exact is ▸ good.1
    · rw [same]
      cases outcome with
      | tokens result => exact absurd rfl (other result)
      | raised | failed => exact good.1
      | changed | revoked =>
          apply good.2.1
          cases stage with
          | asked | answered | ended => cases for_
          | refreshing k => exact absurd rfl (first k)
          | serving k again =>
              cases purpose with
              | start | request => cases request <;> cases suits
              | logout hash => exact absurd rfl (logout hash)
              | changePassword current new => cases change current new rfl
              | login =>
                  cases request with
                  | passwordGrant => rfl
                  | refreshGrant | changePassword | revokeRefreshToken => cases suits

theorem sole_init : (Console.init setup).Sole := by
  have nobody (c : Nat) (call : Purpose × Stage) : (Console.init setup).waiting c ≠ some call :=
    fun there => by cases there
  have nothing (n : Nat) (request : Request) (point : Point) :
      (Console.init setup).service.call n ≠ some (request, point) := fun there => by cases there
  constructor
  · exact fun n mine => by cases mine
  · exact fun n mine => by cases mine
  · exact fun n mine => by cases mine
  · exact fun c purpose stage waits => absurd waits (nobody c _)
  · exact fun c d call _ waits => absurd waits (nobody c call)
  · exact fun _ n request point _ there => absurd there (nothing n request point)
  · exact fun _ n mine => by cases mine
  · exact fun _ hash held => by cases held

/-- The guard `apart` lets a request of the tab in only when nothing is under way. -/
theorem apart_spec {a : Act} (apart : s.apart setup a = true) (taken : s.step setup a = some t) :
    (t.asked ≠ s.asked → s.busy = false) ∧ s.losesChange a = false ∧ s.spares a = true ∧
      s.makesNew a = true := by
  simp only [Console.apart, Bool.and_eq_true, Bool.not_eq_true'] at apart
  obtain ⟨⟨⟨first, kept⟩, spares⟩, new⟩ := apart
  refine ⟨fun grows => ?_, kept, spares, new⟩
  rw [taken, Option.all_some, Bool.or_eq_true, Bool.not_eq_true'] at first
  exact first.resolve_right fun same => grows (of_decide_eq_true same)

/-- Every request is where it can be. -/
def Fitting (s : Console) : Prop :=
  ∀ n request point, s.service.call n = some (request, point) → AuthService.Fits request point

theorem Fitting.path (fitting : s.Fitting)
    (path : (authService setup).Path (fun _ _ => True) s.service t.service) : t.Fitting :=
  path.stable (motive := fun service : AuthService => ∀ (n : Nat) (request : Request)
    (point : Point), service.call n = some (request, point) → AuthService.Fits request point)
    (fun _ _ _ fits _ taken => AuthService.fits_step fits taken) fitting

theorem Moves.fitting (moves : Moves setup s t) (fitting : s.Fitting) : t.Fitting := by
  cases moves with
  | serves _ stepped => exact fitting.path (.tail (.refl _) trivial stepped)
  | @enters request clock _ _ _ _ quiet _ _ entered =>
      exact fitting.path (.tail (a := .call request clock) quiet.path trivial entered)
  | idles quiet => exact fitting.path quiet.path
  | settles _ _ _ service => exact fun n => service ▸ fitting n
  | prunes after => exact after ▸ fitting

theorem Sole.moves (sole : s.Sole) (fitting : s.Fitting)
    (first : t.asked ≠ s.asked → s.busy = false) (moves : Moves setup s t) : t.Sole := by
  cases moves with
  | @serves act goesOn stepped held calls rests spares makesNew =>
      have new (n : Nat) (clock : Clock) (fresh : Nat × Nat) (is : act = .resume n clock fresh) :
          fresh.2 ∉ s.pruned ∧
            ∀ row ∈ s.service.store.refreshTokens, row.tokenHash ≠ fresh.2 := by
        subst is
        simpa [Console.makesNew] using makesNew
      obtain ⟨n, request, point, next, advances, store, good⟩ :=
        advances s.pruned s.refreshToken fitting goesOn new stepped
      by_cases mine : n ∈ s.asked
      · exact sole.serves mine advances good held calls rests
      · refine sole.shares mine advances (store.imp_right ?_) held calls rests
        rintro ⟨statement, wait, rfl, rfl, same⟩
        have there := advances.there
        simp only [Console.spares, there, Bool.or_eq_true, decide_eq_true_eq, mine, false_or,
          List.all_eq_true, Bool.not_eq_true'] at spares
        refine ⟨statement, spares, fun row is => ?_, same⟩
        cases fitting n request _ there with
        | waiting asks => exact asks.inserts is
  | enters quiet held own entered waits for_ suits others asked pruned =>
      refine sole.enters (first ?_) quiet held own entered waits for_ suits others asked pruned
      rw [asked]
      exact fun same => absurd (congrArg List.length same) (by simp)
  | idles quiet held others rests => exact sole.idles quiet held others rests
  | settles waited for_ answered service held done others rests =>
      exact sole.settles waited for_ answered service held done others rests
  | prunes after => exact after ▸ sole.prunes _ _

/-- One at a time, in every run. -/
theorem sole (reached : (console setup).Reachable (fun s a => s.apart setup a = true) s) :
    s.Fitting ∧ s.Sole := by
  apply reached.invariant (motive := fun s => s.Fitting ∧ s.Sole)
  · exact ⟨fun n request point there => (by cases there), sole_init⟩
  · rintro s a t - ⟨fitting, sole⟩ apart taken
    obtain ⟨first, kept, spares, new⟩ := apart_spec apart taken
    have moves := Console.moves sole.suited kept spares new taken
    exact ⟨moves.fitting fitting, sole.moves fitting first moves⟩

/-! ## What the tab can count on -/

/-- While what a tab asks about tokens is asked one after another, no answer to a password change
is lost, and nobody else has a token of the tab's revoked, no exchange of its refresh token is
taken for the reuse of a stolen one: each one gives new tokens, or the token had expired (and may
be deleted by then), or the store failed. And whenever nothing is under way the tab's refresh token is not revoked, and the
store knows it unless it was deleted because it had expired. -/
theorem stays_signed_in
    (reached : (console setup).Reachable (fun s a => s.apart setup a = true) s) :
    (∀ n ∈ s.asked, ∀ hash outcome,
      s.service.call n = some (.refreshGrant hash, .ended outcome) →
        outcome.mild s.pruned hash) ∧
      (s.busy = false → ∀ hash, s.refreshToken = some hash →
        s.service.store.Lasts s.pruned hash) :=
  ⟨(sole reached).2.mild, (sole reached).2.settled⟩

/-- The tab logs in, with the tokens `10` and `11`. -/
def logsIn : List Act :=
  [.begin (.login "admin".toList defaultPassword "10.0.0.1".toList) (.both 0), .service (.execute 0),
    .service (.resume 0 (.both 0) (10, 11)), .service (.execute 0),
    .service (.resume 0 (.both 0) (0, 0)), .receive 0 (.both 0)]

/-- Somebody else logs in, and tokens are deleted that have expired. -/
def others : List Act :=
  ([AuthService.Act.call (AuthService.login defaultPassword) (.both 0), .execute 1,
    .resume 1 (.both 0) (30, 31), .execute 1, .resume 1 (.both 0) (0, 0)].map .service) ++
      [.prune 90 (.still 1000)]

/-- A call that is refused because its access token has expired. -/
def expires (c : Nat) : List Act := [.arrive c (.both 2000), .receive c (.both 2000)]

/-- The service exchanges a refresh token in one piece. -/
def exchanges (n : Nat) (fresh : Nat × Nat) : List Act :=
  [.service (.execute n), .service (.resume n (.both 2000) (0, 0)), .service (.execute n),
    .service (.resume n (.both 2000) fresh), .service (.execute n),
    .service (.resume n (.both 2000) (0, 0)), .service (.execute n),
    .service (.resume n (.both 2000) (0, 0))]

/-- A call comes too late for its access token, and its refresh token is exchanged. -/
theorem stays_signed_in_late :
    ∃ s : Console, s.refreshToken = some 21 ∧ s.service.store.Lasts s.pruned 21 := by
  obtain ⟨s, reached, held, idle⟩ := System.reaches (console plain)
    (fun s a => s.apart plain a = true)
    (fun s => s.refreshToken = some 21 ∧ s.busy = false)
    (logsIn ++ others ++ [.begin .request (.both 0)] ++ expires 1 ++ exchanges 2 (20, 21) ++
      [.refreshed 1])
    (fun _ _ _ => trivial) (by decide +kernel)
  exact ⟨s, held, (stays_signed_in (reached.mono fun _ _ both => both.1)).2 idle 21 held⟩

/-- Two calls come too late together: the second exchange logs the tab out. -/
theorem logged_out_by_two :
    ∃ s : Console, (console plain).Reachable (fun s a => s.losesChange a = false ∧
        s.spares a = true ∧ s.makesNew a = true) s ∧
      s.service.call 2 = some (.refreshGrant 11,
        .ended (.raised (invalidGrant "refresh token already used"))) ∧ s.refreshToken = none := by
  obtain ⟨s, reached, reused, held⟩ := System.reaches (console plain)
    (fun s a => s.losesChange a = false ∧ s.spares a = true ∧ s.makesNew a = true)
    (fun s => s.service.call 2 = some (.refreshGrant 11,
        .ended (.raised (invalidGrant "refresh token already used"))) ∧ s.refreshToken = none)
    (logsIn ++ [.begin .request (.both 0), .begin .request (.both 0)] ++ expires 1 ++ expires 2 ++
      exchanges 1 (20, 21) ++ [.refreshed 1, .service (.execute 2),
        .service (.resume 2 (.both 2000) (0, 0)), .service (.execute 2),
        .service (.resume 2 (.both 2000) (0, 0)), .refreshed 2])
    (fun _ _ _ => trivial) (by decide +kernel)
  exact ⟨s, reached.mono fun _ _ both => both.1, reused, held⟩

end Console

end Zorkbot.Admin
