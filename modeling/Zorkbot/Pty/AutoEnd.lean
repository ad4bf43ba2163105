/-
# Sessions that a timer ends

`autoEnd` looks at its session's number, lets go of the pool's mutex and takes out whatever
session the player has when it comes back. Its own session may have been ended and the next
one started by then. Where no session of the player enters the table in between, a timer ends
none but its own.
-/

import Zorkbot.Pty.Timers

namespace Zorkbot.Pty

open Go Transition

variable {G : Type}

namespace Thread

/-- An `autoEnd` that has looked at the number and takes out a session next. -/
def aims : Thread → Option (PlayerId × Nat)
  | .deleting p (.timer num) => some (p, num)
  | _ => none

/-- An `autoEnd` that saves and closes this manager. -/
def quits : Thread → Option (Nat × Nat)
  | .saving _ (.timer num) m | .calling _ m (.save (.timer num)) _ | .closing _ (.timer num) m =>
      some (num, m)
  | _ => none

@[simp]
theorem afterEnd_aims (p : PlayerId) (err : Option PoolErr) (by_ : By) :
    (afterEnd p err by_).aims = none ∧ (afterEnd p err by_).quits = none := by
  unfold afterEnd
  split <;> exact ⟨rfl, rfl⟩

@[simp]
theorem afterCall_aims (p : PlayerId) (m : Nat) (r : Result) (for_ : For) :
    (afterCall p m r for_).aims = none := by
  unfold afterCall
  split
  · rfl
  · split <;> rfl
  · rfl

end Thread

@[simp]
theorem Op.thread_aims (op : Op) : op.thread.aims = none ∧ op.thread.quits = none := by
  cases op with
  | command id text =>
      unfold Op.thread
      simp only
      split
      · split <;> exact ⟨rfl, rfl⟩
      · exact ⟨rfl, rfl⟩
  | close => exact ⟨rfl, rfl⟩
  | start id | endSession id | reset id =>
      unfold Op.thread
      simp only
      split <;> exact ⟨rfl, rfl⟩

namespace Pool

variable {I : Interpreter G} {cfg : PoolConfig} {s t : Pool G} {a : Act} {p : PlayerId}

@[simp]
theorem firstDeletion_aims (ps : List PlayerId) :
    (firstDeletion ps).aims = none ∧ (firstDeletion ps).quits = none := by
  cases ps <;> exact ⟨rfl, rfl⟩

/-- The session that was the `num`-th to enter the table has this manager. -/
def Numbered (s : Pool G) (num m : Nat) : Prop :=
  0 < num ∧ (s.begins.reverse[num - 1]?).map Begin.manager = some m

/-- What timers take out and close is the session they were armed for. -/
structure EndsOwn (s : Pool G) : Prop where
  removes : ∀ (c : Nat) here p num e, s.threads.get c = some here → here.aims = some (p, num) →
    s.entries.get p = some e → e.num = num
  closes : ∀ (c : Nat) here num m, s.threads.get c = some here → here.quits = some (num, m) →
    s.Numbered num m

/-- A goroutine is between its look at the number of the player's session and the removal. -/
def aimedAt (p : PlayerId) (s : Pool G) : Bool :=
  s.threads.rows.any fun row => row.2.aims.any fun aim => aim.1 = p

/-- No session of a player is put in the table while an `autoEnd` is about to take one out. -/
def AwaitsTimers (cfg : PoolConfig) (s : Pool G) : Act → Prop
  | .go c =>
      match s.enrols cfg c with
      | some (p, _) => s.aimedAt p = false
      | none => True
  | _ => True

theorem awaitsTimers_go {c : Nat} :
    AwaitsTimers cfg s (.go c) ↔ ∀ row ∈ s.enrols cfg c, s.aimedAt row.1 = false := by
  unfold AwaitsTimers
  dsimp only
  cases s.enrols cfg c <;> simp

instance (cfg : PoolConfig) (s : Pool G) : (a : Act) → Decidable (AwaitsTimers cfg s a)
  | .go _ => decidable_of_iff' _ awaitsTimers_go
  | .call .. | .fire .. | .move .. | .wipe .. | .env .. => inferInstanceAs (Decidable True)

theorem aimedAt_iff :
    s.aimedAt p = true ↔ ∃ (c : Nat) (here : Thread) (num : Nat),
      s.threads.get c = some here ∧ here.aims = some (p, num) := by
  rw [aimedAt, List.any_eq_true]
  constructor
  · rintro ⟨⟨c, here⟩, listed, aims⟩
    obtain ⟨⟨q, num⟩, aim, same⟩ := (Option.any_eq_true ..).mp aims
    obtain rfl : q = p := of_decide_eq_true same
    exact ⟨c, here, num, Table.mem_rows_iff.mp listed, aim⟩
  · rintro ⟨c, here, num, at_, aim⟩
    refine ⟨⟨c, here⟩, Table.mem_rows_iff.mpr at_, (Option.any_eq_true ..).mpr ⟨_, aim, ?_⟩⟩
    exact decide_eq_true rfl

/-! ## Numbers and managers -/

/-- Numbers count the sessions that entered the table. -/
structure Tallied (s : Pool G) : Prop where
  next : s.nextNum = s.begins.length + 1
  entry : ∀ p e, s.entries.get p = some e → s.Numbered e.num e.manager
  past : ∀ (c : Nat) here p num, s.threads.get c = some here → here.aims = some (p, num) →
    num < s.nextNum

theorem Numbered.grow {num m : Nat} (numbered : s.Numbered num m) (step : Steps I cfg s a t) :
    t.Numbered num m := by
  refine ⟨numbered.1, ?_⟩
  rcases begins_step step with same | ⟨c, q, via, n, -, -, after⟩
  · rw [same]
    exact numbered.2
  · obtain ⟨b, there, is⟩ := Option.map_eq_some_iff.mp numbered.2
    have more : t.begins = ⟨q, c, n, s.left q, s.stateOf n⟩ :: s.begins := by
      rw [after]
      simp
    rw [more, List.reverse_cons, List.getElem?_append_left (List.getElem?_eq_some_iff.mp there).1,
      there, Option.map_some, is]

/-- A goroutine that is about to take a session out for a timer was so before, or it has just
found the timer's session. -/
theorem aims_before {c num : Nat} {next : Thread} (step : Steps I cfg s a t)
    (taken : s.step I cfg a = some t) (now : t.threads.get c = some next)
    (aims : next.aims = some (p, num)) :
    (∃ here, s.threads.get c = some here ∧ here.aims = some (p, num)) ∨
      t.entries = s.entries ∧ t.nextNum = s.nextNum ∧
        ∃ e, s.entries.get p = some e ∧ e.num = num := by
  rcases thread_before step now with same | onward
  · exact .inl ⟨next, same, aims⟩
  · generalize at_ : s.threads.get c = here at onward
    cases onward with
    | passes pass action =>
        cases pass with
        | @current q n =>
            obtain ⟨rfl, rfl⟩ : q = p ∧ n = num := by simpa [Thread.aims] using aims
            subst action
            obtain ⟨here, at', gone⟩ := Option.bind_eq_some_iff.mp taken
            rw [at_] at at'
            obtain rfl := Option.some.inj at'
            right
            simp only [go] at gone
            split at gone
            · next e found =>
                split at gone
                · next own =>
                    obtain rfl := Option.some.inj gone
                    exact ⟨rfl, rfl, e, found, own⟩
                · obtain rfl := Option.some.inj gone
                  simp [goes, Table.get_set_self] at now
            · obtain rfl := Option.some.inj gone
              simp [goes, Table.get_set_self] at now
        | gone => simp at aims
        | _ => simp [Thread.aims] at aims
    | calls | closes | leaves => simp at aims
    | lists => simp at aims
    | _ => simp [Thread.aims] at aims

/-- A goroutine ends a session for a timer because it did so before, or has just taken it out. -/
theorem Onward.quits_before {c num m : Nat} {here : Option Thread} {next : Thread}
    (onward : Onward cfg s a t c here next) (quits : next.quits = some (num, m)) :
    (∃ before, here = some before ∧ before.quits = some (num, m)) ∨
      ∃ p e, here = some (.deleting p (.timer num)) ∧ s.entries.get p = some e ∧
        e.manager = m := by
  cases onward with
  | calls | closes | lists => simp at quits
  | passes pass =>
      cases pass with
      | gone => simp at quits
      | _ => simp [Thread.quits] at quits
  | @deletes p by_ e found =>
      cases by_ with
      | timer n =>
          obtain ⟨rfl, rfl⟩ : n = num ∧ e.manager = m := by simpa [Thread.quits] using quits
          exact .inr ⟨p, e, rfl, found, rfl⟩
      | _ => simp [Thread.quits] at quits
  | @drops p by_ e found unsaved =>
      cases by_ with
      | timer n => cases unsaved
      | _ => simp [Thread.quits] at quits
  | @saves p by_ | @unsaved p by_ =>
      cases by_ with
      | timer n => exact .inl ⟨_, rfl, quits⟩
      | _ => simp [Thread.quits] at quits
  | @advances p n for_ =>
      cases for_ with
      | save by_ =>
          cases by_ with
          | timer n => exact .inl ⟨_, rfl, quits⟩
          | _ => simp [Thread.quits] at quits
      | _ => simp [Thread.quits] at quits
  | @leaves p n for_ call r =>
      cases for_ with
      | save by_ =>
          cases by_ with
          | timer n => exact .inl ⟨_, rfl, quits⟩
          | _ => simp [Thread.quits, Thread.afterCall] at quits
      | reply => cases r <;> simp [Thread.quits, Thread.afterCall] at quits
      | restore => simp [Thread.quits, Thread.afterCall] at quits
  | _ => simp [Thread.quits] at quits

theorem entry_numbered (tallied : Tallied s) (step : Steps I cfg s a t) {e : Entry}
    (listed : t.entries.get p = some e) : t.Numbered e.num e.manager := by
  rcases entry_num step listed with ⟨e₀, old, manager, num⟩ | ⟨vacant, num, -, -⟩
  · rw [← manager, ← num]
    exact (tallied.entry p e₀ old).grow step
  · rcases entry_step step listed with ⟨e₀, old, -⟩ | ⟨c, via, -, -, -, after⟩
    · rw [vacant] at old
      cases old
    · have more : t.begins =
          ⟨p, c, e.manager, s.left p, s.stateOf e.manager⟩ :: s.begins := by
        rw [after]
        simp
      have last : e.num - 1 = s.begins.reverse.length := by
        rw [num, tallied.next, List.length_reverse]
        rfl
      refine ⟨by rw [num, tallied.next]; omega, ?_⟩
      rw [more, List.reverse_cons, last, List.getElem?_append_right le_rfl, Nat.sub_self]
      rfl

theorem tallied_step (tallied : Tallied s) (step : Steps I cfg s a t)
    (taken : s.step I cfg a = some t) : Tallied t where
  next := by
    have next := tallied.next
    cases step with
    | inserts | touches | deletes => simpa using next
    | _ => exact next
  entry _ _ listed := entry_numbered tallied step listed
  past c here p num at_ aims := by
    have grown := nextNum_le step
    rcases aims_before step taken at_ aims with ⟨before, at', aims'⟩ | ⟨-, -, e, found, rfl⟩
    · have := tallied.past c before p num at' aims'
      omega
    · have numbered := tallied.entry p e found
      obtain ⟨b, there, -⟩ := Option.map_eq_some_iff.mp numbered.2
      have short := (List.getElem?_eq_some_iff.mp there).1
      rw [List.length_reverse] at short
      have next := tallied.next
      omega

theorem tallied {guard : Pool G → Act → Prop} (reached : (pool I cfg).Reachable guard s) :
    Tallied s := by
  refine reached.invariant ⟨rfl, fun p e listed => ?_, fun c here p num at_ => ?_⟩
    fun s a _ _ tallied _ taken => tallied_step tallied (pool_steps taken) taken
  · simp [pool, init] at listed
  · simp [pool, init] at at_

/-! ## Timers and their sessions -/

theorem endsOwn_step (tallied : Tallied s) (own : EndsOwn s) (awaits : AwaitsTimers cfg s a)
    (step : Steps I cfg s a t) (taken : s.step I cfg a = some t) : EndsOwn t where
  removes c here p num e at_ aims listed := by
    rcases aims_before step taken at_ aims with ⟨before, at', aims'⟩ | ⟨entries, -, e', found, is⟩
    · rcases entry_step step listed with ⟨e₀, old, -⟩ | ⟨c', via, action, enrols, -, -⟩
      · rcases entry_num step listed with ⟨e₁, old', -, same⟩ | ⟨vacant, -⟩
        · rw [← same]
          exact own.removes c before p num e₁ at' aims' old'
        · rw [vacant] at old
          cases old
      · have unaimed : s.aimedAt p = false := by
          subst action
          simpa only [AwaitsTimers, enrols] using awaits
        rw [aimedAt_iff.mpr ⟨c, before, num, at', aims'⟩] at unaimed
        cases unaimed
    · rw [entries, found] at listed
      obtain rfl := Option.some.inj listed
      exact is
  closes c here num m at_ quits := by
    rcases thread_before step at_ with same | onward
    · exact (own.closes c here num m same quits).grow step
    · rcases onward.quits_before quits with ⟨before, at', quits'⟩ | ⟨p, e, at', found, rfl⟩
      · exact (own.closes c before num m at' quits').grow step
      · have is := own.removes c _ p num e at' rfl found
        rw [← is]
        exact (tallied.entry p e found).grow step

theorem endsOwn (reached : (pool I cfg).Reachable (AwaitsTimers cfg.withDefaults) s) :
    EndsOwn s := by
  refine reached.invariant ⟨fun c here p num e at_ => ?_, fun c here num m at_ => ?_⟩
    fun s a _ reached own awaits taken =>
      endsOwn_step (tallied reached) own awaits (pool_steps taken) taken
  · simp [pool, init] at at_
  · simp [pool, init] at at_

theorem deleting_of_aims {here : Thread} {num : Nat} (aims : here.aims = some (p, num)) :
    here = .deleting p (.timer num) := by
  unfold Thread.aims at aims
  split at aims
  · obtain ⟨rfl, rfl⟩ : _ = p ∧ _ = num := by simpa using aims
    rfl
  · cases aims

/-- The removal does not look at the number. -/
theorem takes_out {c num : Nat} {e : Entry}
    (at_ : s.threads.get c = some (.deleting p (.timer num))) (listed : s.entries.get p = some e) :
    ∃ u, s.step I cfg (.go c) = some u ∧ u.entries.get p = none := by
  refine ⟨(s.delete p e true).goes c (.saving p (.timer num) e.manager), ?_, ?_⟩
  · rw [step, at_, Option.bind_some, go, listed]
    rfl
  · simp

/-- Where a session enters the table too early, the timer's next step takes that one out. -/
theorem takes_other (tallied : Tallied s) {c : Nat} (taken : s.step I cfg (.go c) = some t)
    (early : ¬AwaitsTimers cfg s (.go c)) :
    ∃ c' p num e u, t.threads.get c' = some (.deleting p (.timer num)) ∧
      t.entries.get p = some e ∧ e.num ≠ num ∧ t.step I cfg (.go c') = some u ∧
      u.entries.get p = none := by
  rw [AwaitsTimers] at early
  split at early
  · next p m puts =>
      obtain ⟨c', here, num, at', aims⟩ := aimedAt_iff.mp (Bool.not_eq_false _ ▸ early)
      have past := tallied.past c' here p num at' aims
      obtain rfl := deleting_of_aims aims
      -- The step is the second look of a `Start`, and it finds nothing.
      unfold enrols at puts
      split at puts
      · next q via hasSave n at_ =>
          split at puts
          · next vacant =>
              obtain ⟨rfl, rfl⟩ : q = p ∧ n = m := by simpa using puts
              have other : c' ≠ c := by
                rintro rfl
                rw [at_] at at'
                cases at'
              obtain ⟨here, at₀, gone⟩ := Option.bind_eq_some_iff.mp taken
              rw [at_] at at₀
              obtain rfl := Option.some.inj at₀
              simp only [go, vacant.1, Option.isSome_none, Bool.false_eq_true, if_false,
                if_neg (Int.not_le.mpr vacant.2), Option.some.injEq] at gone
              subst gone
              have listed : ((s.insert cfg q c n).goes c
                  (.returned (.started q via none))).entries.get q = _ :=
                (insert_entries cfg q q c n s).trans (if_pos rfl)
              have stays :
                  ((s.insert cfg q c n).goes c (.returned (.started q via none))).threads.get
                    c' = some (.deleting q (.timer num)) := by
                simp [goes, Table.get_set_of_ne other, at']
              obtain ⟨u, next, gone⟩ : ∃ u, Pool.step I cfg _ (.go c') = some u ∧ _ :=
                takes_out stays listed
              exact ⟨c', q, num, _, u, stays, listed, Nat.ne_of_gt past, next, gone⟩
          · cases puts
      · cases puts
  · exact absurd trivial early

end Pool

open Pool

/-- In every run in which no session of a player enters the table while an `autoEnd` of the
player is between its check and its removal, a timer takes out and closes its own session only.
Where one does enter, the timer takes that one out. -/
theorem timers_end_own {I : Interpreter G} {cfg : PoolConfig} :
    (∀ s, (pool I cfg).Reachable (AwaitsTimers cfg.withDefaults) s → s.EndsOwn) ∧
    ∀ s c t, (pool I cfg).Reachable (fun _ _ => True) s →
      (pool I cfg).step s (.go c) = some t → ¬AwaitsTimers cfg.withDefaults s (.go c) →
      ∃ c' p num e u, t.threads.get c' = some (.deleting p (.timer num)) ∧
        t.entries.get p = some e ∧ e.num ≠ num ∧ (pool I cfg).step t (.go c') = some u ∧
        u.entries.get p = none :=
  ⟨fun _ reached => endsOwn reached,
    fun _ _ _ reached taken early => takes_other (I := I) (tallied reached) taken early⟩

namespace Pool.Script

/-- The idle timer of a session fires and takes it out. -/
def timeout : List Act := starts alice 0 0 ++ [Act.go 0, .fire 0 1, .go 1, .go 1]

/-- Between the timer's check and its removal the player ends the session and starts another. -/
def overtaken : List Act :=
  starts alice 0 0 ++ [Act.go 0, .fire 0 1, .go 1] ++ ends alice 2 0 0 ++
    resumes alice 3 1 true ++ [Act.go 3, .go 1]

end Pool.Script

theorem timers_end_own_alice : ∃ s : Pool (List Text),
    s.threads.get 1 = some (.saving alice (.timer 1) 0) ∧ s.EndsOwn := by
  obtain ⟨s, reached, saving⟩ := System.reaches (pool terse timedPool)
    (AwaitsTimers timedPool.withDefaults)
    (fun s => s.threads.get 1 = some (.saving alice (.timer 1) 0)) Script.timeout
    (fun _ _ _ => trivial) (by decide)
  exact ⟨s, saving, timers_end_own.1 s (reached.mono fun _ _ => And.left)⟩

/-- The timer of the first session closes the second. -/
theorem timer_ends_next_session :
    ∃ s, (pool terse timedPool).Reachable (fun _ _ => True) s ∧ ¬s.EndsOwn := by
  obtain ⟨s, reached, saving, numbers⟩ := System.reaches (pool terse timedPool)
    (fun _ _ => True)
    (fun s => s.threads.get 1 = some (.saving alice (.timer 1) 1) ∧
      s.begins.map Begin.manager = [1, 0]) Script.overtaken
    (fun _ _ _ => trivial) (by decide)
  refine ⟨s, reached.mono fun _ _ _ => trivial, fun own => ?_⟩
  have first := (own.closes 1 _ 1 1 saving rfl).2
  rw [← List.getElem?_map, List.map_reverse, numbers] at first
  cases first

end Zorkbot.Pty
