/-
# Requests for the history

A request is refused for its player or its cursor before the table is asked, and each of its
other parameters goes into the query as it is. What a request is answered with depends on the
request alone and not on the table.
-/

import Zorkbot.Admin.HistoryPaging

namespace Zorkbot.Admin

open Zorkbot.Bot (Str truthy)

/-- A page that is no longer than was asked for, or a refusal. -/
def Answered (limit : Int) : Except HistoryError HistoryPage → Prop
  | .ok page => (page.sessions.length : Int) ≤ min limit 500
  | .error (.badRequest _) => True
  | .error .ambiguousColumn | .error .overflow | .error .index => False

namespace HistoryQuery

variable {query : HistoryQuery} {store : SessionStore}

/-- The player is no public key. -/
def BadPlayer (query : HistoryQuery) : Prop :=
  ∃ player, query.player = some player ∧ isPubkey player = false

/-- The cursor cannot be decoded. -/
def BadCursor (query : HistoryQuery) : Prop :=
  ∃ cursor, truthy query.cursor = some cursor ∧ decodeCursor cursor = none

/-- Every parameter of the query is one that SQLite takes. -/
def Bindable (query : HistoryQuery) : Prop :=
  ∃ cursor, readCursor query.cursor = .ok cursor ∧ ∀ n ∈ query.params cursor, fitsInteger n

/-- A request that is refused, or one without a player for one row or more. -/
def Harmless (query : HistoryQuery) : Prop :=
  query.BadPlayer ∨ query.BadCursor ∨ query.player = none ∧ 1 ≤ query.limit ∧ query.Bindable

theorem badPlayer_iff :
    query.BadPlayer ↔ (query.player.any fun player => !isPubkey player) = true := by
  rw [Option.any_eq_true]
  exact exists_congr fun player => and_congr_right fun _ => (Bool.not_eq_true' _).to_iff.symm

/-- What becomes of the cursor. -/
inductive Reads (query : HistoryQuery) : Except HistoryError (Option (Int × Int)) → Prop
  | refuses (bad : query.BadCursor) :
      Reads query (.error (.badRequest "invalid cursor".toList))
  | takes {cursor : Option (Int × Int)} (read : readCursor query.cursor = .ok cursor)
      (good : ¬ query.BadCursor) : Reads query (.ok cursor)

theorem reads (query : HistoryQuery) : query.Reads (readCursor query.cursor) := by
  cases is : truthy query.cursor with
  | none =>
      have read : readCursor query.cursor = .ok none := by
        rw [readCursor, is]
      rw [read]
      refine .takes read ?_
      rintro ⟨cursor, some, -⟩
      cases is.symm.trans some
  | some cursor =>
      cases decoded : decodeCursor cursor with
      | none =>
          have read : readCursor query.cursor = .error (.badRequest "invalid cursor".toList) := by
            rw [readCursor, is]
            simp only [decoded]
          rw [read]
          exact .refuses ⟨cursor, is, decoded⟩
      | some pair =>
          have read : readCursor query.cursor = .ok (some pair) := by
            rw [readCursor, is]
            simp only [decoded]
          rw [read]
          refine .takes read ?_
          rintro ⟨other, same, bad⟩
          cases is.symm.trans same
          cases decoded.symm.trans bad

theorem length_limited {α : Type} {limit : Int} (one : 0 ≤ limit) (rows : List α) :
    ((limited limit rows).length : Int) ≤ limit := by
  rw [limited, if_neg (by omega), List.length_take]
  omega

/-- Rows become a page, unless there are none because none were asked for. -/
theorem respond_answered_iff (query : HistoryQuery) (players : Table Str PlayerRow)
    (rows : List StoredSession) :
    Answered query.limit (query.respond players (limited query.limit rows)) ↔ 1 ≤ query.limit := by
  have capped := query.capped
  have length : ((limited query.limit rows).map (StoredSession.entry players)).length =
      (limited query.limit rows).length := List.length_map _
  unfold respond
  by_cases full : ((limited query.limit rows).length : Int) = query.limit
  · rw [if_pos full]
    cases ends : (limited query.limit rows).getLast? with
    | none =>
        have empty := List.getLast?_eq_none_iff.mp ends
        rw [empty, List.length_nil] at full
        exact iff_of_false id (by omega)
    | some last =>
        have some : (limited query.limit rows).length ≠ 0 := by
          intro zero
          rw [List.length_eq_zero_iff.mp zero] at ends
          cases ends
        refine iff_of_true ?_ (by omega)
        change (_ : Int) ≤ _
        rw [length]
        omega
  · rw [if_neg full]
    change (_ : Int) ≤ _ ↔ _
    rw [length]
    constructor
    · omega
    · intro one
      have short := length_limited (by omega : 0 ≤ query.limit) rows
      omega

/-- Whatever is in the tables, a request is answered with a page that is no longer than was asked
for, or refused, exactly if it is harmless. -/
theorem history_answered_iff (store : SessionStore) (query : HistoryQuery) :
    Answered query.limit (sessionHistory store query) ↔ query.Harmless := by
  unfold sessionHistory Harmless
  by_cases bad : query.BadPlayer
  · rw [if_pos (badPlayer_iff.mp bad)]
    exact iff_of_true trivial (.inl bad)
  · rw [if_neg (mt badPlayer_iff.mpr bad), or_iff_right bad]
    have reads := query.reads
    generalize result : readCursor query.cursor = outcome at reads
    cases reads with
    | refuses bad => exact iff_of_true trivial (.inl bad)
    | @takes cursor read good =>
        rw [or_iff_right good]
        have bindable : query.Bindable ↔ ∀ n ∈ query.params cursor, fitsInteger n := by
          refine ⟨?_, fun fits => ⟨cursor, read, fits⟩⟩
          rintro ⟨other, same, fits⟩
          cases read.symm.trans same
          exact fits
        change Answered _ (query.rows cursor store >>= query.respond store.players) ↔ _
        rw [bindable, rows]
        cases somebody : query.player with
        | some player => exact iff_of_false id fun harmless => Option.some_ne_none player harmless.1
        | none =>
            split
            · next there => cases there
            · split
              · next fits =>
                  refine (respond_answered_iff query store.players _).trans ?_
                  exact ⟨fun one => ⟨rfl, one, fits⟩, fun harmless => harmless.2.1⟩
              · next unfit => exact iff_of_false id fun harmless => unfit harmless.2.2

end HistoryQuery

/-- A player's public key, no rows at all, and fewer than none. -/
theorem history_unanswered :
    ¬ Answered 100 (sessionHistory oneSession
        ⟨none, none, some "a11ce0000000".toList, 100, none, by decide⟩) ∧
      ¬ Answered 0 (sessionHistory oneSession ⟨none, none, none, 0, none, by decide⟩) ∧
      ¬ Answered (-1) (sessionHistory oneSession ⟨none, none, none, -1, none, by decide⟩) := by
  have ambiguous : sessionHistory oneSession
      ⟨none, none, some "a11ce0000000".toList, 100, none, by decide⟩ = .error .ambiguousColumn := by
    decide
  have last : sessionHistory oneSession ⟨none, none, none, 0, none, by decide⟩ =
      .error .index := by decide
  have unlimited : sessionHistory oneSession ⟨none, none, none, -1, none, by decide⟩ =
      .ok ⟨[⟨1, 1, "run".toList, "a11ce0000000".toList, some "alice".toList, 0, none, none, none,
        0⟩], none⟩ := by decide
  refine ⟨?_, ?_, ?_⟩
  · rw [ambiguous]
    exact id
  · rw [last]
    exact id
  · rw [unlimited]
    change ¬ (1 : Int) ≤ min (-1) 500
    decide

end Zorkbot.Admin
