/-
# Every session is saved before it is closed

A session that leaves the table is saved with a `Manager.Command`, which is
turned away while another command is in progress, and nothing looks at what it
returned. A command that looked its session up before it left the table may
still reach it after the save. And `Close` ends the sessions it finds when it
lists the players, so it can miss a session that is inserted afterwards, or not
wait for one that another goroutine is ending.

Where none of that happens, every command is answered in time, and no reader stops
while a part of what was printed is still to come, every session that is closed was
saved after its last completed command, and a `Close` that has returned has left
none behind.
-/

import Zorkbot.Pty.Timely

namespace Zorkbot.Pty

open Go Transition Function

variable {G : Type}

namespace Thread

/-- The manager that a goroutine is about to close. -/
def shuts : Thread → Option Nat
  | .closing _ _ m => some m
  | _ => none

/-- The players that a `Close` has still to turn to. -/
def remaining : Thread → List PlayerId
  | .deleting p (.shutdown rest) => p :: rest
  | .saving _ (.shutdown rest) _ | .closing _ (.shutdown rest) _
  | .calling _ _ (.save (.shutdown rest)) _ => rest
  | _ => []

end Thread

namespace Pool

variable {I : Interpreter G} {cfg : PoolConfig} {s t : Pool G} {a : Act}

/-! ## The book of sessions -/

/-- The session was put in the table. -/
def Begun (s : Pool G) (p : PlayerId) (m : Nat) : Prop :=
  ∃ b ∈ s.begins, b.player = p ∧ b.manager = m

/-- The session was closed by who was to save it. -/
def Ended (s : Pool G) (m : Nat) : Prop := ∃ e ∈ s.endings, e.manager = m

theorem endings_step (step : Steps I cfg s a t) :
    t.endings = s.endings ∨ ∃ c p by_ m, s.threads.get c = some (.closing p by_ m) ∧
      by_.save = true ∧ t.endings = ⟨m, s.savedAt m⟩ :: s.endings := by
  cases step with
  | @closes c p q by_ m mgr mgr' at_ there closed =>
      by_cases saved : by_.save = true
      · exact .inr ⟨c, p, by_, m, at_, saved, if_pos saved⟩
      · exact .inl (if_neg saved)
  | inserts | touches | deletes => exact .inl (by simp)
  | _ => exact .inl rfl

theorem listings_step (step : Steps I cfg s a t) :
    t.listings = s.listings ∨ ∃ c, s.threads.get c = some .listing ∧
      t.listings = s.listings.set c s.listing ∧
      t.threads = s.threads.set c (firstDeletion s.entries.keys) := by
  cases step with
  | @lists c at_ => exact .inr ⟨c, at_, rfl, rfl⟩
  | inserts | touches | deletes => exact .inl (by simp)
  | _ => exact .inl rfl

theorem Begun.grow {p : PlayerId} {m : Nat} (begun : s.Begun p m) (step : Steps I cfg s a t) :
    t.Begun p m := by
  obtain ⟨b, listed, facts⟩ := begun
  rcases begins_step step with same | ⟨c, q, via, n, -, -, after⟩
  · exact ⟨b, same ▸ listed, facts⟩
  · exact ⟨b, by rw [after]; simp [listed], facts⟩

theorem Ended.grow {m : Nat} (ended : s.Ended m) (step : Steps I cfg s a t) : t.Ended m := by
  obtain ⟨e, listed, same⟩ := ended
  rcases endings_step step with kept | ⟨c, p, by_, n, -, -, added⟩
  · exact ⟨e, kept ▸ listed, same⟩
  · exact ⟨e, by rw [added]; exact List.mem_cons_of_mem _ listed, same⟩

/-- A goroutine that has returned does nothing more. -/
theorem returned_stays {c : Nat} {r : Ret} (step : Steps I cfg s a t)
    (at_ : s.threads.get c = some (.returned r)) : t.threads.get c = some (.returned r) := by
  obtain ⟨next, at', rfl | onward⟩ := thread_after step at_
  · exact at'
  · cases onward with
    | passes pass => cases pass

/-- What the steps of the pool always keep of the book: a session in the table was
put there, and who put it there has returned. -/
structure Booked (s : Pool G) : Prop where
  begun : ∀ p e, s.entries.get p = some e → s.Begun p e.manager
  listed : ∀ (c : Nat) (L : Listing) row, s.listings.get c = some L → row ∈ L.managers →
    s.Begun row.1 row.2
  returned : ∀ b ∈ s.begins, ∃ r, s.threads.get b.thread = some (.returned r)

theorem booked_init : Booked (init : Pool G) where
  begun p e listed := by simp [init] at listed
  listed c L row listed := by simp [init] at listed
  returned b listed := by simp [init] at listed

theorem booked_step (booked : Booked s) (step : Steps I cfg s a t) : Booked t where
  begun p e listed := by
    rcases entry_step step listed with ⟨e₀, old, same⟩ | ⟨c, via, -, -, -, after⟩
    · exact same ▸ (booked.begun p e₀ old).grow step
    · exact ⟨⟨p, c, e.manager, s.left p, s.stateOf e.manager⟩, by rw [after]; simp, rfl, rfl⟩
  listed c L row listed member := by
    rcases listings_step step with same | ⟨c', -, added, -⟩
    · exact (booked.listed c L row (same ▸ listed) member).grow step
    · rw [added, Table.get_set] at listed
      split at listed
      · rw [Option.some.injEq] at listed
        subst listed
        simp only [Pool.listing, List.mem_map] at member
        obtain ⟨⟨p, e⟩, bound, rfl⟩ := member
        exact (booked.begun p e (Table.mem_rows_iff.mp bound)).grow step
      · exact (booked.listed c L row listed member).grow step
  returned b listed := by
    rcases begins_step step with same | ⟨c, p, via, m, -, -, after⟩
    · obtain ⟨r, at_⟩ := booked.returned b (same ▸ listed)
      exact ⟨r, returned_stays step at_⟩
    · have rows : t.begins = ⟨p, c, m, s.left p, s.stateOf m⟩ :: s.begins := by rw [after]; simp
      rw [rows, List.mem_cons] at listed
      rcases listed with rfl | old
      · exact ⟨.started p via none, by rw [after]; simp⟩
      · obtain ⟨r, at_⟩ := booked.returned b old
        exact ⟨r, returned_stays step at_⟩

theorem booked {guard : Pool G → Act → Prop} (reached : (pool I cfg).Reachable guard s) :
    Booked s :=
  reached.invariant booked_init fun _ _ _ _ booked _ taken => booked_step booked (pool_steps taken)

/-! ## The order of the steps -/

/-- A session's save finds no command in progress, and no command enters between
the save and the close. A `Start` that a `Close` found in progress inserts no
session, and a `Close` turns to no player whose session another goroutine is
ending. -/
def SavesInOrder (cfg : PoolConfig) (s : Pool G) : Act → Prop
  | .go c =>
      match s.threads.get c with
      | some (.saving _ _ m) => ∀ row ∈ s.managers[m]?, row.2.busy = false
      | some (.commanding _ m _) => ∀ (c' : Nat) (here : Thread), s.threads.get c' = some here →
          here.shuts ≠ some m
      | some (.inserting ..) => (s.enrols cfg c).isSome → ∀ (c' : Nat) (L : Listing),
          s.listings.get c' = some L → c ∉ L.starting
      | some (.deleting p (.shutdown _)) => ∀ (c' : Nat) (here : Thread),
          s.threads.get c' = some here → here.saves.map Prod.fst ≠ some p
      | _ => True
  | _ => True

instance (cfg : PoolConfig) (s : Pool G) : (a : Act) → Decidable (SavesInOrder cfg s a)
  | .go _ => by
      unfold SavesInOrder
      dsimp only
      split <;> infer_instance
  | .call .. | .fire .. | .move .. | .wipe .. | .env .. => inferInstanceAs (Decidable True)

/-- A manager that is about to be closed was saved, and nobody is inside. -/
def Shut (s : Pool G) : Prop :=
  ∀ c p by_ m, s.threads.get c = some (.closing p by_ m) →
    (∀ c', s.callsOn m c' = none) ∧ s.savedAt m = true

/-- While a goroutine is about to close a manager, nothing but the world outside
and that goroutine changes it. -/
theorem shut_manager {c m : Nat} {p q : PlayerId} {by_ : By} {new : Manager G} (owned : Owned s)
    (shut : Shut s) (inOrder : SavesInOrder cfg s a) (step : Steps I cfg s a t)
    (at_ : s.threads.get c = some (.closing p by_ m))
    (at' : t.threads.get c = some (.closing p by_ m)) (now : t.managers[m]? = some (q, new)) :
    s.managers[m]? = some (q, new) ∨ ∃ old event d, s.managers[m]? = some (q, old) ∧
      old.env I (cfg.savePath q) event (s.disks q) = some (new, d) := by
  have nobody := (shut c p by_ m at_).1
  -- Whoever else holds the manager is the one that is about to close it.
  have alone {c' : Nat} {here : Thread} {r : PlayerId} (found : s.threads.get c' = some here)
      (owns : here.owns = some (r, m)) : here = .closing p by_ m := by
    have same := owned.alone c' c here _ r p m found at_ owns rfl
    rw [same, at_, Option.some.injEq] at found
    exact found.symm
  have untouched (managers : t.managers = s.managers) : s.managers[m]? = some (q, new) :=
    managers ▸ now
  have elsewhere {n : Nat} {r : PlayerId} {mgr mgr' : Manager G}
      (there : s.managers[n]? = some (r, mgr)) (managers : t.managers = (s.setManager n mgr').managers)
      (other : n ≠ m) : s.managers[m]? = some (q, new) := by
    rcases session_setManager there managers now with ⟨same, -⟩ | ⟨-, old⟩
    · exact absurd same.symm other
    · exact old
  cases step with
  | calls | fires | passes | lists | refuses | wipes | keeps | empties => exact .inl (untouched rfl)
  | inserts | touches | deletes => exact .inl (untouched (by simp))
  | @enters c' here r r' n text for_ mgr mgr' stage found about there entered =>
      refine .inl (elsewhere there rfl ?_)
      rintro rfl
      cases here <;> simp only [Thread.enters, Option.some.injEq, Prod.mk.injEq,
        reduceCtorEq] at about <;> obtain ⟨rfl, rfl, rfl, rfl⟩ := about
      · exact absurd (alone found rfl) (by simp)
      · simp only [SavesInOrder, found] at inOrder
        exact inOrder c _ at_ rfl
      · exact absurd (alone found rfl) (by simp)
  | @discards c' r r' via n err mgr mgr' found there closed =>
      refine .inl (elsewhere there rfl ?_)
      rintro rfl
      exact absurd (alone found rfl) (by simp)
  | @closes c' r r' by' n mgr mgr' found there closed =>
      refine .inl (elsewhere there rfl ?_)
      rintro rfl
      have same := owned.alone c' c _ _ r p n found at_ rfl rfl
      subst same
      have gone := Thread.afterEnd_hosts r none by'
      have left := (Table.get_set_self s.threads c' (Thread.afterEnd r none by')).symm.trans at'
      rw [Option.some.injEq] at left
      rw [left] at gone
      simp [Thread.hosts] at gone
  | @creates c' r via hasSave spawn mgr d i found launched =>
      obtain ⟨old, there⟩ := owned.owner c _ p m at_ rfl
      have whole : (s.managers ++ [(r, mgr)])[m]? = some (q, new) := now
      rw [List.getElem?_append_left (List.getElem?_eq_some_iff.mp there).1] at whole
      exact .inl whole
  | @boots c' r r' via hasSave n i buf poll mgr mgr' b found there round =>
      refine .inl (elsewhere there rfl ?_)
      rintro rfl
      exact absurd (alone found rfl) (by simp)
  | @advances c' r r' n for_ call call' move mgr mgr' d found there advanced =>
      refine .inl (elsewhere there rfl ?_)
      rintro rfl
      have := nobody c'
      rw [callsOn_calling found] at this
      simp at this
  | @leaves c' r r' n for_ call move mgr mgr' d res found there advanced =>
      refine .inl (elsewhere there rfl ?_)
      rintro rfl
      have := nobody c'
      rw [callsOn_calling found] at this
      simp at this
  | @envs n r event mgr mgr' d there happened =>
      rcases session_setManager there rfl now with ⟨rfl, rfl, rfl⟩ | ⟨-, old⟩
      · exact .inr ⟨mgr, event, d, there, happened⟩
      · exact .inl old

theorem savedAt_iff {m : Nat} :
    s.savedAt m = true ↔ ∃ p mgr i σ, s.managers[m]? = some (p, mgr) ∧ mgr.session = some i ∧
      mgr.sessions[i]? = some σ ∧ σ.saved = true := by
  constructor
  · intro saved
    obtain ⟨⟨p, mgr⟩, there, current⟩ := (Option.any_eq_true ..).mp saved
    obtain ⟨σ, current, isSaved⟩ := (Option.any_eq_true ..).mp current
    obtain ⟨i, session, at_⟩ := Option.bind_eq_some_iff.mp current
    exact ⟨p, mgr, i, σ, there, session, at_, isSaved⟩
  · rintro ⟨p, mgr, i, σ, there, session, at_, isSaved⟩
    refine (Option.any_eq_true ..).mpr ⟨(p, mgr), there, (Option.any_eq_true ..).mpr ⟨σ, ?_, isSaved⟩⟩
    exact Option.bind_eq_some_iff.mpr ⟨i, session, at_⟩

/-- The world outside undoes no save. -/
theorem env_saved {path : Text} {old new : Manager G} {event : Manager.Env} {d d' : Disk G}
    {i : Nat} {σ : Session G} (happened : old.env I path event d = some (new, d'))
    (at_ : old.sessions[i]? = some σ) (saved : σ.saved = true) :
    ∃ σ', new.sessions[i]? = some σ' ∧ σ'.saved = true := by
  have inside : i < new.sessions.length := by
    rw [(Manager.env_frame happened).2]
    exact (List.getElem?_eq_some_iff.mp at_).1
  have at' := List.getElem?_eq_getElem inside
  refine ⟨_, at', ?_⟩
  rcases Manager.env_cases happened at' with ⟨σ₀, before, same⟩ | ⟨ok, σ₀, -, before, read⟩
  · rw [at_, Option.some.injEq] at before
    rw [same.saved, ← before]
    exact saved
  · rw [at_, Option.some.injEq] at before
    have did : σ₀.did .save = true := before ▸ saved
    exact Session.consume_did read did

/-- A goroutine that is still about to close a manager. -/
theorem shut_stays {c m : Nat} {p : PlayerId} {by_ : By} (owned : Owned s) (owned' : Owned t)
    (shut : Shut s) (inOrder : SavesInOrder cfg s a) (step : Steps I cfg s a t)
    (at_ : s.threads.get c = some (.closing p by_ m))
    (at' : t.threads.get c = some (.closing p by_ m)) :
    (∀ c', t.callsOn m c' = none) ∧ t.savedAt m = true := by
  obtain ⟨nobody, saved⟩ := shut c p by_ m at_
  have alone {c' : Nat} {here : Thread} {r : PlayerId} (found : s.threads.get c' = some here)
      (owns : here.owns = some (r, m)) : here = .closing p by_ m := by
    have same := owned.alone c' c here _ r p m found at_ owns rfl
    rw [same, at_, Option.some.injEq] at found
    exact found.symm
  constructor
  · intro c'
    cases called : t.callsOn m c' with
    | none => rfl
    | some call =>
        obtain ⟨r, for_, now⟩ := calling_of_callsOn called
        rcases thread_before step now with same | onward
        · have := nobody c'
          rw [callsOn_calling same] at this
          simp at this
        · rcases onward.to_calling with ⟨before, action, found, about, -⟩ | ⟨call', found⟩
          · cases before <;> simp only [Thread.enters, Option.some.injEq, Prod.mk.injEq,
              reduceCtorEq] at about <;> obtain ⟨rfl, rfl, -, rfl⟩ := about
            · exact absurd (alone found rfl) (by simp)
            · subst action
              simp only [SavesInOrder, found] at inOrder
              exact absurd rfl (inOrder c _ at_)
            · exact absurd (alone found rfl) (by simp)
          · have := nobody c'
            rw [callsOn_calling found] at this
            simp at this
  · obtain ⟨q, old, i, σ, there, session, listed, isSaved⟩ := savedAt_iff.mp saved
    obtain ⟨new, now⟩ := owned'.owner c _ p m at' rfl
    rcases shut_manager owned shut inOrder step at_ at' now with
      same | ⟨old', event, d, before, happened⟩
    · rw [there, Option.some.injEq, Prod.mk.injEq] at same
      obtain ⟨rfl, rfl⟩ := same
      exact savedAt_iff.mpr ⟨q, old, i, σ, now, session, listed, isSaved⟩
    · rw [there, Option.some.injEq, Prod.mk.injEq] at before
      obtain ⟨rfl, rfl⟩ := before
      obtain ⟨σ', listed', isSaved'⟩ := env_saved happened listed isSaved
      exact savedAt_iff.mpr ⟨q, new, i, σ', now,
        (Manager.env_frame happened).1.trans session, listed', isSaved'⟩

theorem shut_step (inTime : ∀ p, InTime (· = .save) cfg p s) (owned : Owned s) (owned' : Owned t)
    (hosted : Hosted s)
    (shut : Shut s) (inOrder : SavesInOrder cfg s a) (step : Steps I cfg s a t) : Shut t := by
  intro c p by_ m at'
  rcases thread_before step at' with same | onward
  · exact shut_stays owned owned' shut inOrder step same at'
  · rcases onward.to_closing with
      ⟨at_, unsaved⟩ | ⟨action, at_, q, mgr, err, there, refused⟩ |
        ⟨call, r, at_, left, q, mgr, there, now⟩
    · cases by_ with
      | reset => exact absurd rfl ((inTime p).unreset c _ at_)
      | request | timer | shutdown => simp [By.save] at unsaved
    · obtain ⟨mgr', there'⟩ := owned.owner c _ p m at_ rfl
      rw [there, Option.some.injEq, Prod.mk.injEq] at there'
      obtain ⟨rfl, rfl⟩ := there'
      subst action
      simp only [SavesInOrder, at_] at inOrder
      exact absurd refused (let_in (inTime q) hosted (.inr ⟨c, _, at_, rfl⟩) there (inOrder _ there))
    · have called := callsOn_calling at_
      have orderly := (inTime q).orderly m q mgr there rfl
      obtain ⟨σ, listed, -⟩ := orderly.at_call called
      have text : requestOf call.text = some .save := by
        rw [show call.text = saveText from (owned.speaks c _ at_).2]
        decide
      have ok := orderly.phase c call called
      have saved := orderly.does c call .save called text rfl σ listed
      rw [left] at ok saved
      constructor
      · intro c'
        cases called' : t.callsOn m c' with
        | none => rfl
        | some call' =>
            obtain ⟨r', for_, now'⟩ := calling_of_callsOn called'
            have other : c' ≠ c := by
              rintro rfl
              rw [at'] at now'
              simp at now'
            have moved : t.threads.get c ≠ s.threads.get c := by rw [at_, at']; simp
            rw [others_stay step moved other] at now'
            exact absurd (orderly.alone c' c call' call (callsOn_calling now') called) other
      · exact savedAt_iff.mpr ⟨q, _, _, σ, now, orderly.here c call called, listed, saved⟩

/-! ## No session is left behind -/

/-- A session that was put in the table is there, is being saved and closed, or
was. -/
def Known (s : Pool G) : Prop :=
  ∀ p m, s.Begun p m →
    (∃ e, s.entries.get p = some e ∧ e.manager = m) ∨ s.Saver p m ∨ s.Ended m

theorem known_step (inTime : ∀ p, InTime (· = .save) cfg p s) (owned : Owned s) (known : Known s)
    (step : Steps I cfg s a t) : Known t := by
  intro p m begun
  have before : s.Begun p m → (∃ e, t.entries.get p = some e ∧ e.manager = m) ∨ t.Saver p m ∨
      t.Ended m := by
    intro begun
    rcases known p m begun with ⟨e, listed, rfl⟩ | saver | ended
    · rcases entry_after step listed with still | ⟨c, by_, at_, now⟩
      · exact .inl still
      · cases by_ with
        | reset => exact absurd rfl ((inTime p).unreset c _ at_)
        | request | timer | shutdown => exact .inr (.inl ⟨c, _, now, rfl⟩)
    · rcases saver_step owned step saver with still | ⟨c, by_, -, -, endings, -⟩
      · exact .inr (.inl still)
      · exact .inr (.inr ⟨_, by rw [endings]; exact List.mem_cons_self, rfl⟩)
    · exact .inr (.inr (ended.grow step))
  obtain ⟨b, listed, rfl, rfl⟩ := begun
  rcases begins_step step with same | ⟨c, q, via, n, -, -, after⟩
  · exact before ⟨b, same ▸ listed, rfl, rfl⟩
  · have begins : t.begins = ⟨q, c, n, s.left q, s.stateOf n⟩ :: s.begins := by rw [after]; simp
    rw [begins, List.mem_cons] at listed
    rcases listed with rfl | old
    · exact .inl ⟨_, by rw [after]; simp [insert_entries]; rfl, rfl⟩
    · exact before ⟨b, old, rfl, rfl⟩

/-- What a `Close` has still to do: of the sessions that it found, each has been
saved and closed, or is being so by the `Close`, or is that of a player it has
still to turn to. -/
def Closer (s : Pool G) (L : Listing) (here : Thread) : Prop :=
  ∀ row ∈ L.managers, s.Ended row.2 ∨ row.1 ∈ here.remaining ∨ here.saves = some row

theorem remaining_afterEnd (p : PlayerId) (err : Option PoolErr) (rest : List PlayerId) :
    (Thread.afterEnd p err (.shutdown rest)).remaining = rest := by
  cases rest <;> rfl

theorem remaining_firstDeletion (ps : List PlayerId) : (firstDeletion ps).remaining = ps := by
  cases ps <;> rfl

/-- When a `Close` turns to a player, the player's sessions are in the table or
were saved and closed. -/
theorem Closer.turns {c : Nat} {p q : PlayerId} {m : Nat} {rest : List PlayerId} (known : Known s)
    (inOrder : SavesInOrder cfg s (.go c)) (at_ : s.threads.get c = some (.deleting p (.shutdown rest)))
    (begun : s.Begun q m) (waits : q ∈ p :: rest) :
    q ∈ rest ∨ q = p ∧ ((∃ e, s.entries.get p = some e ∧ e.manager = m) ∨ s.Ended m) := by
  rw [List.mem_cons] at waits
  rcases waits with rfl | later
  · rcases known q m begun with listed | ⟨c', here, at', saves⟩ | ended
    · exact .inr ⟨rfl, .inl listed⟩
    · simp only [SavesInOrder, at_] at inOrder
      exact absurd (by rw [saves]; rfl) (inOrder c' here at')
    · exact .inr ⟨rfl, .inr ended⟩
  · exact .inl later

/-- A `Close` that has still to turn to a player does so later, or does so now. -/
theorem waits_step {c m : Nat} {p : PlayerId} {here next : Thread} (known : Known s)
    (inOrder : SavesInOrder cfg s a) (at_ : s.threads.get c = some here) (begun : s.Begun p m)
    (waits : p ∈ here.remaining) (onward : Onward cfg s a t c (some here) next) :
    s.Ended m ∨ p ∈ next.remaining ∨ next.saves = some (p, m) := by
  cases onward with
  | passes pass action =>
      subst action
      cases pass with
      | @gone q by_ vacant =>
          cases by_ with
          | shutdown rest =>
              rcases Closer.turns known inOrder at_ begun waits with
                later | ⟨rfl, ⟨e, listed, -⟩ | ended⟩
              · exact .inr (.inl ((remaining_afterEnd ..).symm ▸ later))
              · rw [vacant] at listed; simp at listed
              · exact .inl ended
          | request | timer | reset => simp [Thread.remaining] at waits
      | _ => simp [Thread.remaining] at waits
  | @deletes q by_ e found saved action after =>
      subst action
      cases by_ with
      | shutdown rest =>
          rcases Closer.turns known inOrder at_ begun waits with
            later | ⟨rfl, ⟨e', listed, rfl⟩ | ended⟩
          · exact .inr (.inl later)
          · rw [found, Option.some.injEq] at listed
            exact .inr (.inr (by rw [listed]; rfl))
          · exact .inl ended
      | request | timer | reset => simp [Thread.remaining] at waits
  | @drops q by_ e found unsaved =>
      cases by_ <;> simp [By.save] at unsaved
      simp [Thread.remaining] at waits
  | @saves q by_ n | @unsaved q by_ n => 
      cases by_ with
      | shutdown rest => exact .inr (.inl waits)
      | request | timer | reset => simp [Thread.remaining] at waits
  | @closes q by_ n =>
      cases by_ with
      | shutdown rest => exact .inr (.inl ((remaining_afterEnd ..).symm ▸ waits))
      | request | timer | reset => simp [Thread.remaining] at waits
  | @advances q n for_ call phase | @leaves q n for_ call r =>
      cases for_ with
      | save by_ =>
          cases by_ with
          | shutdown rest => exact .inr (.inl waits)
          | request | timer | reset => simp [Thread.remaining] at waits
      | restore | reply => simp [Thread.remaining] at waits
  | _ => simp [Thread.remaining] at waits

/-- Every `Close` that has listed the players ends what it found. -/
def Closers (s : Pool G) : Prop :=
  ∀ c L, s.listings.get c = some L → ∃ here, s.threads.get c = some here ∧ s.Closer L here

theorem closers_step (booked : Booked s) (owned : Owned s) (known : Known s)
    (inOrder : SavesInOrder cfg s a) (closers : Closers s) (step : Steps I cfg s a t) :
    Closers t := by
  intro c L listed
  have before : s.listings.get c = some L → ∃ here, t.threads.get c = some here ∧
      t.Closer L here := by
    intro listed
    obtain ⟨here, at_, closer⟩ := closers c L listed
    obtain ⟨next, at', rfl | onward⟩ := thread_after step at_
    · exact ⟨next, at', fun row member =>
        (closer row member).imp_left fun ended => ended.grow step⟩
    · refine ⟨next, at', fun row member => ?_⟩
      have begun := booked.listed c L row listed member
      rcases closer row member with ended | waits | saves
      · exact .inl (ended.grow step)
      · exact (waits_step known inOrder at_ begun waits onward).imp_left fun ended =>
          ended.grow step
      · rcases onward.keeps_saving (owned.speaks c here at_) saves with still | ⟨by_, -, -, endings, -⟩
        · exact .inr (.inr still)
        · exact .inl ⟨_, by rw [endings]; exact List.mem_cons_self, rfl⟩
  rcases listings_step step with same | ⟨c', at_, added, threads⟩
  · exact before (same ▸ listed)
  · rw [added, Table.get_set] at listed
    split at listed
    · next here =>
        subst here
        rw [Option.some.injEq] at listed
        subst listed
        refine ⟨_, by rw [threads, Table.get_set_self], fun row member => .inr (.inl ?_)⟩
        rw [remaining_firstDeletion]
        simp only [Pool.listing, List.mem_map] at member
        obtain ⟨⟨p, e⟩, bound, rfl⟩ := member
        exact Table.mem_keys_iff.mpr ⟨e, Table.mem_rows_iff.mp bound⟩
    · exact before listed

/-- A `Start` that a `Close` found in progress puts no session in the table. -/
def Refused (s : Pool G) : Prop :=
  ∀ c L, s.listings.get c = some L → ∀ b ∈ s.begins, b.thread ∉ L.starting

theorem refused_step (booked : Booked s) (inOrder : SavesInOrder cfg s a) (refused : Refused s)
    (step : Steps I cfg s a t) : Refused t := by
  intro c L listed b begun
  rcases begins_step step with same | ⟨c₀, p, via, m, rfl, enrols, after⟩
  · have old : b ∈ s.begins := same ▸ begun
    rcases listings_step step with kept | ⟨c', -, added, -⟩
    · exact refused c L (kept ▸ listed) b old
    · rw [added, Table.get_set] at listed
      split at listed
      · -- Whoever put a session in the table is not inside `Start` any more.
        rw [Option.some.injEq] at listed
        subst listed
        intro starting
        simp only [Pool.listing, List.mem_map, List.mem_filter] at starting
        obtain ⟨⟨c₁, here⟩, ⟨bound, isStart⟩, same⟩ := starting
        obtain ⟨r, returned⟩ := booked.returned b old
        rw [← same, Table.mem_rows_iff.mp bound, Option.some.injEq] at returned
        rw [returned] at isStart
        simp [Thread.isStart] at isStart
      · exact refused c L listed b old
  · have kept : t.listings = s.listings := by rw [after]; simp
    have begins : t.begins = ⟨p, c₀, m, s.left p, s.stateOf m⟩ :: s.begins := by rw [after]; simp
    rw [begins, List.mem_cons] at begun
    rcases begun with rfl | old
    · have enrols' := enrols
      unfold Pool.enrols at enrols'
      split at enrols'
      · next at_ =>
          simp only [SavesInOrder, at_] at inOrder
          exact inOrder (by rw [enrols]; rfl) c L (kept ▸ listed)
      · simp at enrols'
    · exact refused c L (kept ▸ listed) b old

/-- What is kept while everything is answered in time and the sessions are saved in
order. -/
structure Ordered (cfg : PoolConfig) (s : Pool G) : Prop where
  inTime : ∀ p, InTime (· = .save) cfg p s
  shut : Shut s
  known : Known s
  closers : Closers s
  refused : Refused s
  saved : ∀ e ∈ s.endings, e.saved = true

theorem ordered_init : Ordered cfg (init : Pool G) where
  inTime p := inTime_init
  shut c p by_ m at_ := by simp [init] at at_
  known p m begun := by
    obtain ⟨b, listed, -⟩ := begun
    simp [init] at listed
  closers c L listed := by simp [init] at listed
  refused c L listed := by simp [init] at listed
  saved e listed := by simp [init] at listed

theorem ordered_step (owned : Owned s) (owned' : Owned t) (hosted : Hosted s) (booked : Booked s)
    (ordered : Ordered cfg s) (timely : ∀ p, Timely (· = .save) p s a) (whole : s.lags a = none)
    (inOrder : SavesInOrder cfg s a) (step : Steps I cfg s a t) : Ordered cfg t where
  inTime p := inTime_step (ordered.inTime p) owned (timely p) (by rw [whole]; simp)
    (fun c by_ m at_ => (ordered.shut c p by_ m at_).1) step
  shut := shut_step ordered.inTime owned owned' hosted ordered.shut inOrder step
  known := known_step ordered.inTime owned ordered.known step
  closers := closers_step booked owned ordered.known inOrder ordered.closers step
  refused := refused_step booked inOrder ordered.refused step
  saved := by
    rcases endings_step step with same | ⟨c, p, by_, m, at_, -, added⟩
    · exact same ▸ ordered.saved
    · rw [added]
      exact List.forall_mem_cons.mpr ⟨(ordered.shut c p by_ m at_).2, ordered.saved⟩

theorem ordered (reached : (pool I cfg).Reachable (fun s a =>
      (SavesInOrder cfg.withDefaults s a ∧ s.lags a = none) ∧
        ∀ p, Timely (· = .save) p s a) s) : Ordered cfg.withDefaults s :=
  reached.invariant ordered_init fun _ _ _ reached ordered guard taken =>
    ordered_step (owned reached) (owned (reached.step guard taken)) (hosted reached)
      (booked reached) ordered guard.2 guard.1.2 guard.1.1 (pool_steps taken)

/-- Every session that was ended was saved after its last completed command, and
a `Close` that has returned ended whatever was in the table when it listed the
players, and whatever a `Start` inserted that was in progress then. -/
def NothingLost (s : Pool G) : Prop :=
  (∀ e ∈ s.endings, e.saved = true) ∧
    ∀ (c : Nat) (L : Listing), s.listings.get c = some L →
      s.threads.get c = some (.returned .closed) →
        (∀ row ∈ L.managers, s.Ended row.2) ∧
          ∀ b ∈ s.begins, b.thread ∈ L.starting → s.Ended b.manager

instance (s : Pool G) : Decidable s.NothingLost := by
  unfold NothingLost Ended
  infer_instance

end Pool

open Pool

/-- In every run in which everything is answered in time, no reader stops before the
answer is whole, and the sessions are saved in order, no progress is lost. -/
theorem nothing_is_lost {I : Interpreter G} {cfg : PoolConfig} {s : Pool G}
    (reached : (pool I cfg).Reachable (fun s a =>
      (SavesInOrder cfg.withDefaults s a ∧ s.lags a = none) ∧
        ∀ p, Timely (· = .save) p s a) s) : s.NothingLost := by
  have inv := Pool.ordered reached
  refine ⟨inv.saved, fun c L listed returned => ⟨fun row member => ?_, fun b begun starting => ?_⟩⟩
  · obtain ⟨here, at_, closer⟩ := inv.closers c L listed
    rw [returned, Option.some.injEq] at at_
    subst at_
    rcases closer row member with ended | waits | saves
    · exact ended
    · simp [Thread.remaining] at waits
    · simp [Thread.saves] at saves
  · exact absurd starting (inv.refused c L listed b begun)

namespace Pool.Script

/-- A session is played, and then the pool is closed. -/
def closingDown : List Act :=
  starts alice 0 0 ++ [Act.go 0] ++ commands alice 1 look ++ plays 1 0 0 ++
    [Act.call 2 .close, .go 2, .go 2, .go 2] ++ requests 2 0 0 true ++ [Act.go 2]

/-- A session is ended while a second command is in progress. -/
def interrupting : List Act :=
  starts alice 0 0 ++ [Act.go 0] ++ commands alice 1 look ++ plays 1 0 0 ++
    commands alice 2 look ++ [Act.move 2 .write] ++
    [Act.call 3 (.endSession alice.text), .go 3, .go 3, .go 3]

end Pool.Script

theorem nothing_is_lost_alice :
    ∃ s : Pool (List Text), (s.threads.get 2 = some (.returned .closed) ∧ s.endings.length = 1) ∧
      s.NothingLost := by
  obtain ⟨s, reached, closed⟩ := System.reaches (pool terse smallPool)
    (fun s a => SavesInOrder smallPool.withDefaults s a ∧ s.lags a = none)
    (fun s => s.threads.get 2 = some (.returned .closed) ∧ s.endings.length = 1)
    Script.closingDown
    (timely_of_script (by decide)) (by decide)
  exact ⟨s, closed, nothing_is_lost reached⟩

theorem command_in_progress_is_lost :
    ∃ s, (pool terse smallPool).Reachable (fun s a => ∀ p, Timely (· = .save) p s a) s ∧
      ¬ s.NothingLost := by
  obtain ⟨s, reached, lost⟩ := System.reaches (pool terse smallPool) (fun _ _ => True)
    (fun s => ¬ s.NothingLost) Script.interrupting
    (timely_of_script (by decide)) (by decide)
  exact ⟨s, reached.mono fun _ _ => And.right, lost⟩

end Zorkbot.Pty
