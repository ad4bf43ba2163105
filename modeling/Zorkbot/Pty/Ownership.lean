/-
# Who holds a manager

A manager is created by a `Start`, which alone holds it until it inserts it in
the table or discards it; the table holds it until `endInternal` takes it out,
and from then on that goroutine alone holds it until it has closed it. Only
`Command` uses a manager that it does not hold.

Lines that reach an interpreter are accounted for too: a player's command is one
line and no request about the save file, and only who restores or saves sends
such a request.
-/

import Zorkbot.Pty.PoolSteps

namespace Zorkbot.Pty

open Go Transition

variable {G : Type}

namespace Thread

/-- The manager of a session that `Start` has not inserted. -/
def starts : Thread → Option (PlayerId × Nat)
  | .booting p _ _ m _ _ | .restoring p _ m | .inserting p _ _ m | .discarding p _ m _ => some (p, m)
  | .calling p m (.restore _) _ => some (p, m)
  | _ => none

/-- The manager of a session that `Start` may still insert. -/
def brings : Thread → Option (PlayerId × Nat)
  | .booting p _ _ m _ _ | .restoring p _ m | .inserting p _ _ m => some (p, m)
  | .calling p m (.restore _) _ => some (p, m)
  | _ => none

/-- The manager of a session that left the table to be saved. -/
def saves : Thread → Option (PlayerId × Nat)
  | .saving p _ m => some (p, m)
  | .calling p m (.save _) _ => some (p, m)
  | .closing p by_ m => if by_.save then some (p, m) else none
  | _ => none

/-- The manager that this goroutine alone holds. -/
def owns : Thread → Option (PlayerId × Nat)
  | .booting p _ _ m _ _ | .restoring p _ m | .inserting p _ _ m | .discarding p _ m _ => some (p, m)
  | .saving p _ m | .closing p _ m => some (p, m)
  | .calling p m (.restore _) _ | .calling p m (.save _) _ => some (p, m)
  | _ => none

/-- The manager that this goroutine sends a player's command to. -/
def uses : Thread → Option (PlayerId × Nat)
  | .commanding p m _ => some (p, m)
  | .calling p m .reply _ => some (p, m)
  | _ => none

theorem owns_of_starts {t : Thread} {p : PlayerId} {m : Nat} (starts : t.starts = some (p, m)) :
    t.owns = some (p, m) := by
  unfold Thread.starts at starts
  unfold owns
  split at starts <;> simp_all

theorem starts_of_brings {t : Thread} {p : PlayerId} {m : Nat} (brings : t.brings = some (p, m)) :
    t.starts = some (p, m) := by
  unfold Thread.brings at brings
  unfold starts
  split at brings <;> simp_all

theorem owns_of_saves {t : Thread} {p : PlayerId} {m : Nat} (saves : t.saves = some (p, m)) :
    t.owns = some (p, m) := by
  unfold Thread.saves at saves
  unfold owns
  split at saves <;> simp_all

/-- What a goroutine has to say to an interpreter. -/
def Speaks : Thread → Prop
  | .lookup _ text | .commanding _ _ text => Sanitize.Playable text
  | .saving _ by_ _ => by_.save = true
  | .calling _ _ (.restore _) call => call.text = restoreText
  | .calling _ _ (.save by_) call => by_.save = true ∧ call.text = saveText
  | .calling _ _ .reply call => Sanitize.Playable call.text
  | _ => True

theorem afterEnd_owns (p : PlayerId) (err : Option PoolErr) (by_ : By) :
    (afterEnd p err by_).owns = none ∧ (afterEnd p err by_).uses = none ∧
      (afterEnd p err by_).Speaks := by
  unfold afterEnd
  split <;> exact ⟨rfl, rfl, trivial⟩

theorem afterCall_owns (p : PlayerId) (m : Nat) (r : Result) (for_ : For) :
    (afterCall p m r for_).uses = none ∧ (afterCall p m r for_).Speaks ∧
      ((afterCall p m r for_).owns = if for_ = .reply then none else some (p, m)) := by
  unfold afterCall
  split
  · exact ⟨rfl, trivial, rfl⟩
  · split <;> exact ⟨rfl, trivial, rfl⟩
  · exact ⟨rfl, trivial, rfl⟩

end Thread

theorem Op.thread_owns (op : Op) :
    op.thread.owns = none ∧ op.thread.uses = none ∧ op.thread.Speaks := by
  cases op with
  | command id text =>
      unfold Op.thread
      simp only
      split
      · split
        · next valid => exact ⟨rfl, rfl, Sanitize.playable_of_validate valid⟩
        · exact ⟨rfl, rfl, trivial⟩
      · exact ⟨rfl, rfl, trivial⟩
  | close => exact ⟨rfl, rfl, trivial⟩
  | start id | endSession id | reset id =>
      unfold Op.thread
      simp only
      split <;> exact ⟨rfl, rfl, trivial⟩

/-! Where an operation begins, and where it goes on without a session, nothing is
held or used. -/

@[simp]
theorem Op.thread_owns_eq (op : Op) : op.thread.owns = none := op.thread_owns.1

@[simp]
theorem Op.thread_uses_eq (op : Op) : op.thread.uses = none := op.thread_owns.2.1

@[simp]
theorem Thread.afterEnd_owns_eq (p : PlayerId) (err : Option PoolErr) (by_ : By) :
    (Thread.afterEnd p err by_).owns = none := (Thread.afterEnd_owns p err by_).1

@[simp]
theorem Thread.afterEnd_uses_eq (p : PlayerId) (err : Option PoolErr) (by_ : By) :
    (Thread.afterEnd p err by_).uses = none := (Thread.afterEnd_owns p err by_).2.1

namespace Pool

variable {I : Interpreter G} {cfg : PoolConfig} {s t : Pool G} {a : Act}

@[simp]
theorem firstDeletion_owns (ps : List PlayerId) : (firstDeletion ps).owns = none := by
  cases ps <;> rfl

@[simp]
theorem firstDeletion_uses (ps : List PlayerId) : (firstDeletion ps).uses = none := by
  cases ps <;> rfl

/-- Every manager is held by the table, by one goroutine, or by nobody. -/
structure Owned (s : Pool G) : Prop where
  entry : ∀ p e, s.entries.get p = some e → ∃ mgr, s.managers[e.manager]? = some (p, mgr)
  owner : ∀ (c : Nat) (here : Thread) p m, s.threads.get c = some here →
    here.owns = some (p, m) → ∃ mgr, s.managers[m]? = some (p, mgr)
  user : ∀ (c : Nat) (here : Thread) p m, s.threads.get c = some here →
    here.uses = some (p, m) → ∃ mgr, s.managers[m]? = some (p, mgr)
  /-- What a goroutine holds is not in the table. -/
  apart : ∀ (c : Nat) (here : Thread) p m e, s.threads.get c = some here →
    here.owns = some (p, m) → s.entries.get p = some e → e.manager ≠ m
  alone : ∀ (c c' : Nat) (here here' : Thread) p p' m, s.threads.get c = some here →
    s.threads.get c' = some here' → here.owns = some (p, m) → here'.owns = some (p', m) → c = c'
  /-- Nobody uses a session before it is in the table. -/
  fresh : ∀ (c c' : Nat) (here here' : Thread) p p' m, s.threads.get c = some here →
    s.threads.get c' = some here' → here.starts = some (p, m) → here'.uses ≠ some (p', m)
  speaks : ∀ (c : Nat) (here : Thread), s.threads.get c = some here → here.Speaks

theorem owned_init : Owned (init : Pool G) where
  entry p e found := by simp [init] at found
  owner c here p m found := by simp [init] at found
  user c here p m found := by simp [init] at found
  apart c here p m e found := by simp [init] at found
  alone c c' here here' p p' m found := by simp [init] at found
  fresh c c' here here' p p' m found := by simp [init] at found
  speaks c here found := by simp [init] at found

/-- Every manager is still that of its player. -/
def Players (s t : Pool G) : Prop :=
  ∀ (m : Nat) (p : PlayerId) (mgr : Manager G), s.managers[m]? = some (p, mgr) →
    ∃ mgr', t.managers[m]? = some (p, mgr')

theorem Players.refl (s : Pool G) : Players s s := fun _ _ mgr there => ⟨mgr, there⟩

theorem Players.setManager (m : Nat) (mgr : Manager G) (s : Pool G)
    (managers : t.managers = (s.setManager m mgr).managers) : Players s t := by
  intro n p old there
  rw [managers, setManager_get]
  split
  · exact ⟨mgr, by rw [there]; rfl⟩
  · exact ⟨old, there⟩

/-- A goroutine that holds no more than before, and uses nothing but what it used
or what is in the table, keeps everything owned. -/
theorem Owned.goes (owned : Owned s) (c : Nat) (next : Thread) (players : Players s t)
    (threads : t.threads = s.threads.set c next)
    (entries : ∀ p e, t.entries.get p = some e →
      ∃ e₀, s.entries.get p = some e₀ ∧ e₀.manager = e.manager)
    (owns : ∀ p m, next.owns = some (p, m) →
      ∃ here, s.threads.get c = some here ∧ here.owns = some (p, m))
    (starts : ∀ p m, next.starts = some (p, m) →
      ∃ here, s.threads.get c = some here ∧ here.starts = some (p, m))
    (uses : ∀ p m, next.uses = some (p, m) →
      (∃ here, s.threads.get c = some here ∧ here.uses = some (p, m)) ∨
        ∃ e, s.entries.get p = some e ∧ e.manager = m)
    (speaks : next.Speaks) : Owned t := by
  -- Whoever holds something in the new state held it in the old one.
  have before (proj : Thread → Option (PlayerId × Nat))
      (kept : ∀ p m, proj next = some (p, m) →
        ∃ here, s.threads.get c = some here ∧ proj here = some (p, m))
      {c' : Nat} {here : Thread} {p : PlayerId} {m : Nat} (found : t.threads.get c' = some here)
      (holds : proj here = some (p, m)) :
      ∃ here₀, s.threads.get c' = some here₀ ∧ proj here₀ = some (p, m) := by
    rw [threads, Table.get_set] at found
    split at found
    · next same =>
        simp only [Option.some.injEq] at found
        subst same found
        exact kept p m holds
    · exact ⟨here, found, holds⟩
  have used {c' : Nat} {here : Thread} {p : PlayerId} {m : Nat}
      (found : t.threads.get c' = some here) (holds : here.uses = some (p, m)) :
      (∃ here₀, s.threads.get c' = some here₀ ∧ here₀.uses = some (p, m)) ∨
        ∃ e, s.entries.get p = some e ∧ e.manager = m := by
    rw [threads, Table.get_set] at found
    split at found
    · next same =>
        simp only [Option.some.injEq] at found
        subst same found
        exact uses p m holds
    · exact .inl ⟨here, found, holds⟩
  constructor
  · intro p e found
    obtain ⟨e₀, found₀, same⟩ := entries p e found
    obtain ⟨mgr, there⟩ := owned.entry p e₀ found₀
    exact players _ _ _ (same ▸ there)
  · intro c' here p m found holds
    obtain ⟨here₀, found₀, holds₀⟩ := before Thread.owns owns found holds
    obtain ⟨mgr, there⟩ := owned.owner c' here₀ p m found₀ holds₀
    exact players _ _ _ there
  · intro c' here p m found holds
    obtain ⟨here₀, found₀, holds₀⟩ | ⟨e, present, rfl⟩ := used found holds
    · obtain ⟨mgr, there⟩ := owned.user c' here₀ p m found₀ holds₀
      exact players _ _ _ there
    · obtain ⟨mgr, there⟩ := owned.entry p e present
      exact players _ _ _ there
  · intro c' here p m e found holds entry
    obtain ⟨here₀, found₀, holds₀⟩ := before Thread.owns owns found holds
    obtain ⟨e₀, entry₀, same⟩ := entries p e entry
    exact same ▸ owned.apart c' here₀ p m e₀ found₀ holds₀ entry₀
  · intro c₁ c₂ here₁ here₂ p₁ p₂ m found₁ found₂ holds₁ holds₂
    obtain ⟨old₁, was₁, held₁⟩ := before Thread.owns owns found₁ holds₁
    obtain ⟨old₂, was₂, held₂⟩ := before Thread.owns owns found₂ holds₂
    exact owned.alone c₁ c₂ old₁ old₂ p₁ p₂ m was₁ was₂ held₁ held₂
  · intro c₁ c₂ here₁ here₂ p₁ p₂ m found₁ found₂ holds₁ holds₂
    obtain ⟨old₁, was₁, held₁⟩ := before Thread.starts starts found₁ holds₁
    obtain ⟨old₂, was₂, held₂⟩ | ⟨e, present, rfl⟩ := used found₂ holds₂
    · exact owned.fresh c₁ c₂ old₁ old₂ p₁ p₂ m was₁ was₂ held₁ held₂
    · have owns₁ := Thread.owns_of_starts held₁
      obtain ⟨mgr₁, there₁⟩ := owned.owner c₁ old₁ p₁ _ was₁ owns₁
      obtain ⟨mgr₂, there₂⟩ := owned.entry p₂ e present
      rw [there₁, Option.some.injEq, Prod.mk.injEq] at there₂
      exact owned.apart c₁ old₁ p₁ _ e was₁ owns₁ (there₂.1 ▸ present) rfl
  · intro c' here found
    rw [threads, Table.get_set] at found
    split at found
    · simp only [Option.some.injEq] at found
      exact found ▸ speaks
    · exact owned.speaks c' here found

/-- A goroutine takes over no manager and starts no use of one. -/
structure Keeps (here next : Thread) : Prop where
  owns : ∀ p m, next.owns = some (p, m) → here.owns = some (p, m)
  starts : ∀ p m, next.starts = some (p, m) → here.starts = some (p, m)
  uses : ∀ p m, next.uses = some (p, m) → here.uses = some (p, m)
  speaks : here.Speaks → next.Speaks

theorem Keeps.nothing {here next : Thread} (owns : next.owns = none) (uses : next.uses = none)
    (speaks : next.Speaks) : Keeps here next where
  owns p m held := by rw [owns] at held; simp at held
  starts p m held := by
    have := Thread.owns_of_starts held
    rw [owns] at this
    simp at this
  uses p m held := by rw [uses] at held; simp at held
  speaks _ := speaks

theorem Passes.keeps {here next : Thread} (pass : Passes s here next) : Keeps here next := by
  cases pass with
  | gone vacant =>
      obtain ⟨owns, uses, speaks⟩ := Thread.afterEnd_owns _ _ _
      exact .nothing owns uses speaks
  | raced | crowded =>
      exact ⟨fun _ _ => id, fun _ _ => id, fun _ _ held => by simp [Thread.uses] at held,
        fun _ => trivial⟩
  | idempotent | full | checked | probed | missing | current | stale =>
      exact .nothing rfl rfl trivial

theorem keeps_enters {here : Thread} {p : PlayerId} {m : Nat} {text : Text} {for_ : For}
    {mgr mgr' : Manager G} {stage : Stage} (about : here.enters = some (p, m, text, for_))
    (entered : mgr.enter text = some (mgr', stage)) : Keeps here (stage.thread p m for_) := by
  obtain ⟨-, ⟨err, -, rfl, -⟩ | ⟨i, -, -, -, rfl⟩⟩ := Manager.enter_cases entered
  · obtain ⟨uses, speaks, owns⟩ := Thread.afterCall_owns p m (.err err) for_
    cases here <;> simp only [Thread.enters, Option.some.injEq, Prod.mk.injEq,
      reduceCtorEq] at about <;> obtain ⟨rfl, rfl, rfl, rfl⟩ := about
    · exact ⟨fun _ _ => id, fun _ _ => id, fun _ _ => id, fun _ => trivial⟩
    · exact .nothing rfl rfl trivial
    · exact ⟨fun _ _ => id, fun _ _ held => by simp [Stage.thread, Thread.afterCall,
        Thread.starts] at held, fun _ _ => id, fun _ => trivial⟩
  · cases here <;> simp only [Thread.enters, Option.some.injEq, Prod.mk.injEq,
      reduceCtorEq] at about <;> obtain ⟨rfl, rfl, rfl, rfl⟩ := about
    · exact ⟨fun _ _ => id, fun _ _ => id, fun _ _ => id, fun _ => rfl⟩
    · exact ⟨fun _ _ => id, fun _ _ => id, fun _ _ => id, id⟩
    · exact ⟨fun _ _ => id, fun _ _ => id, fun _ _ => id, fun saves => ⟨saves, rfl⟩⟩

theorem keeps_boot (p : PlayerId) (via : Via) (hasSave : Bool) (m i : Nat) (buf : Text)
    (b : Manager.Boot) :
    Keeps (.booting p via hasSave m i buf) (b.thread p via hasSave m i) := by
  cases b with
  | waiting buf' => exact ⟨fun _ _ => id, fun _ _ => id, fun _ _ => id, id⟩
  | started => cases hasSave <;> exact ⟨fun _ _ => id, fun _ _ => id, fun _ _ => id, id⟩
  | failed => exact .nothing rfl rfl trivial

theorem keeps_advance {p : PlayerId} {path : Text} {c m : Nat} {for_ : For} {call call' : Call}
    {move : Manager.Move} {mgr mgr' : Manager G} {d d' : Disk G}
    (step : Manager.Advances I path c call move mgr d mgr' d' (.inside call')) :
    Keeps (.calling p m for_ call) (.calling p m for_ call') := by
  have same := Manager.advances_text step
  cases for_ <;> exact ⟨fun _ _ => id, fun _ _ => id, fun _ _ => id, fun speaks => by
    simpa [Thread.Speaks, same] using speaks⟩

theorem keeps_leave (p : PlayerId) (m : Nat) (for_ : For) (call : Call) (r : Result) :
    Keeps (.calling p m for_ call) (Thread.afterCall p m r for_) := by
  obtain ⟨uses, speaks, owns⟩ := Thread.afterCall_owns p m r for_
  cases for_ with
  | restore via => exact ⟨fun _ _ => id, fun _ _ => id, fun _ _ => id, fun _ => trivial⟩
  | reply => exact .nothing owns uses speaks
  | save by_ =>
      exact ⟨fun _ _ => id, fun _ _ held => by simp [Thread.afterCall, Thread.starts] at held,
        fun _ _ => id, fun _ => trivial⟩

/-- A goroutine's step that takes over nothing keeps everything owned. -/
theorem Owned.keeps {c : Nat} {here : Thread} (owned : Owned s) (next : Thread)
    (at_ : s.threads.get c = some here) (keeps : Keeps here next) (players : Players s t)
    (threads : t.threads = s.threads.set c next) (entries : t.entries = s.entries) :
    Owned t :=
  owned.goes c next players threads (fun _ e found => ⟨e, entries ▸ found, rfl⟩)
    (fun p m held => ⟨here, at_, keeps.owns p m held⟩)
    (fun p m held => ⟨here, at_, keeps.starts p m held⟩)
    (fun p m held => .inl ⟨here, at_, keeps.uses p m held⟩)
    (keeps.speaks (owned.speaks c here at_))

/-- Start creates a manager of its own. -/
theorem Owned.create {p : PlayerId} {mgr : Manager G} (owned : Owned s) (c : Nat)
    (next : Thread)
    (managers : t.managers = s.managers ++ [(p, mgr)])
    (threads : t.threads = s.threads.set c next) (entries : t.entries = s.entries)
    (owns : next.owns = some (p, s.managers.length)) (uses : next.uses = none)
    (speaks : next.Speaks) : Owned t := by
  have players : Players s t := by
    intro m q old there
    refine ⟨old, ?_⟩
    rw [managers, List.getElem?_append_left (List.getElem?_eq_some_iff.mp there).1, there]
  have inside {m : Nat} {q : PlayerId} {old : Manager G} (there : s.managers[m]? = some (q, old)) :
      m ≠ s.managers.length :=
    Nat.ne_of_lt (List.getElem?_eq_some_iff.mp there).1
  have before {c' : Nat} {here : Thread} (found : t.threads.get c' = some here) :
      (c' = c ∧ here = next) ∨ s.threads.get c' = some here := by
    rw [threads, Table.get_set] at found
    split at found
    · next same => exact .inl ⟨same, by simpa using found.symm⟩
    · exact .inr found
  constructor
  · intro q e found
    obtain ⟨old, there⟩ := owned.entry q e (entries ▸ found)
    exact players _ _ _ there
  · intro c' here q m found holds
    rcases before found with ⟨-, rfl⟩ | found
    · rw [owns, Option.some.injEq, Prod.mk.injEq] at holds
      obtain ⟨rfl, rfl⟩ := holds
      exact ⟨mgr, by rw [managers]; simp⟩
    · obtain ⟨old, there⟩ := owned.owner c' here q m found holds
      exact players _ _ _ there
  · intro c' here q m found holds
    rcases before found with ⟨-, rfl⟩ | found
    · rw [uses] at holds; simp at holds
    · obtain ⟨old, there⟩ := owned.user c' here q m found holds
      exact players _ _ _ there
  · intro c' here q m e found holds entry
    rw [entries] at entry
    rcases before found with ⟨-, rfl⟩ | found
    · rw [owns, Option.some.injEq, Prod.mk.injEq] at holds
      obtain ⟨old, there⟩ := owned.entry q e entry
      exact holds.2 ▸ inside there
    · exact owned.apart c' here q m e found holds entry
  · intro c₁ c₂ here₁ here₂ p₁ p₂ m found₁ found₂ holds₁ holds₂
    rcases before found₁ with ⟨rfl, rfl⟩ | found₁
    · rcases before found₂ with ⟨rfl, rfl⟩ | found₂
      · rfl
      · rw [owns, Option.some.injEq, Prod.mk.injEq] at holds₁
        obtain ⟨old, there⟩ := owned.owner c₂ here₂ p₂ m found₂ holds₂
        exact absurd holds₁.2.symm (inside there)
    · rcases before found₂ with ⟨rfl, rfl⟩ | found₂
      · rw [owns, Option.some.injEq, Prod.mk.injEq] at holds₂
        obtain ⟨old, there⟩ := owned.owner c₁ here₁ p₁ m found₁ holds₁
        exact absurd holds₂.2.symm (inside there)
      · exact owned.alone c₁ c₂ here₁ here₂ p₁ p₂ m found₁ found₂ holds₁ holds₂
  · intro c₁ c₂ here₁ here₂ p₁ p₂ m found₁ found₂ holds₁ holds₂
    rcases before found₂ with ⟨rfl, rfl⟩ | found₂
    · rw [uses] at holds₂; simp at holds₂
    · rcases before found₁ with ⟨rfl, rfl⟩ | found₁
      · have holds := Thread.owns_of_starts holds₁
        rw [owns, Option.some.injEq, Prod.mk.injEq] at holds
        obtain ⟨old, there⟩ := owned.user c₂ here₂ p₂ m found₂ holds₂
        exact inside there holds.2.symm
      · exact owned.fresh c₁ c₂ here₁ here₂ p₁ p₂ m found₁ found₂ holds₁ holds₂
  · intro c' here found
    rcases before found with ⟨-, rfl⟩ | found
    · exact speaks
    · exact owned.speaks c' here found

/-- A goroutine hands its manager to the table. -/
theorem Owned.give {c : Nat} {p : PlayerId} {e : Entry} {here : Thread} (owned : Owned s)
    (next : Thread)
    (at_ : s.threads.get c = some here) (held : here.owns = some (p, e.manager))
    (managers : t.managers = s.managers) (threads : t.threads = s.threads.set c next)
    (entries : ∀ q, t.entries.get q = if q = p then some e else s.entries.get q)
    (owns : next.owns = none) (uses : next.uses = none) (speaks : next.Speaks) : Owned t := by
  have before {c' : Nat} {here' : Thread} (found : t.threads.get c' = some here') :
      here' = next ∨ c' ≠ c ∧ s.threads.get c' = some here' := by
    rw [threads, Table.get_set] at found
    split at found
    · exact .inl (by simpa using found.symm)
    · next other => exact .inr ⟨other, found⟩
  have owner {c' : Nat} {here' : Thread} {q : PlayerId} {n : Nat}
      (found : t.threads.get c' = some here') (holds : here'.owns = some (q, n)) :
      c' ≠ c ∧ s.threads.get c' = some here' := by
    rcases before found with rfl | kept
    · rw [owns] at holds; simp at holds
    · exact kept
  have user {c' : Nat} {here' : Thread} {q : PlayerId} {n : Nat}
      (found : t.threads.get c' = some here') (holds : here'.uses = some (q, n)) :
      s.threads.get c' = some here' := by
    rcases before found with rfl | ⟨-, kept⟩
    · rw [uses] at holds; simp at holds
    · exact kept
  constructor
  · intro q e' found
    rw [managers]
    rw [entries] at found
    split at found
    · next same =>
        simp only [Option.some.injEq] at found
        subst same found
        exact owned.owner c here q e.manager at_ held
    · exact owned.entry q e' found
  · intro c' here' q n found holds
    rw [managers]
    exact owned.owner c' here' q n (owner found holds).2 holds
  · intro c' here' q n found holds
    rw [managers]
    exact owned.user c' here' q n (user found holds) holds
  · intro c' here' q n e' found holds entry
    obtain ⟨other, found⟩ := owner found holds
    rw [entries] at entry
    split at entry
    · simp only [Option.some.injEq] at entry
      subst entry
      rintro rfl
      exact other (owned.alone c' c here' here q p e.manager found at_ holds held)
    · exact owned.apart c' here' q n e' found holds entry
  · intro c₁ c₂ here₁ here₂ p₁ p₂ n found₁ found₂ holds₁ holds₂
    exact owned.alone c₁ c₂ here₁ here₂ p₁ p₂ n (owner found₁ holds₁).2 (owner found₂ holds₂).2
      holds₁ holds₂
  · intro c₁ c₂ here₁ here₂ p₁ p₂ n found₁ found₂ holds₁ holds₂
    exact owned.fresh c₁ c₂ here₁ here₂ p₁ p₂ n
      (owner found₁ (Thread.owns_of_starts holds₁)).2 (user found₂ holds₂) holds₁ holds₂
  · intro c' here' found
    rcases before found with rfl | ⟨-, found⟩
    · exact speaks
    · exact owned.speaks c' here' found

/-- A goroutine takes a manager out of the table. -/
theorem Owned.take {p : PlayerId} {e : Entry} (owned : Owned s) (c : Nat) (next : Thread)
    (present : s.entries.get p = some e) (managers : t.managers = s.managers)
    (threads : t.threads = s.threads.set c next)
    (entries : ∀ q, t.entries.get q = if q = p then none else s.entries.get q)
    (owns : next.owns = some (p, e.manager)) (starts : next.starts = none)
    (uses : next.uses = none) (speaks : next.Speaks) : Owned t := by
  have before {c' : Nat} {here' : Thread} (found : t.threads.get c' = some here') :
      (c' = c ∧ here' = next) ∨ s.threads.get c' = some here' := by
    rw [threads, Table.get_set] at found
    split at found
    · next same => exact .inl ⟨same, by simpa using found.symm⟩
    · exact .inr found
  have listed {q : PlayerId} {e' : Entry} (found : t.entries.get q = some e') :
      q ≠ p ∧ s.entries.get q = some e' := by
    rw [entries] at found
    split at found
    · simp at found
    · next other => exact ⟨other, found⟩
  have user {c' : Nat} {here' : Thread} {q : PlayerId} {n : Nat}
      (found : t.threads.get c' = some here') (holds : here'.uses = some (q, n)) :
      s.threads.get c' = some here' := by
    rcases before found with ⟨-, rfl⟩ | kept
    · rw [uses] at holds; simp at holds
    · exact kept
  obtain ⟨mgr, there⟩ := owned.entry p e present
  constructor
  · intro q e' found
    rw [managers]
    exact owned.entry q e' (listed found).2
  · intro c' here' q n found holds
    rw [managers]
    rcases before found with ⟨-, rfl⟩ | found
    · rw [owns, Option.some.injEq, Prod.mk.injEq] at holds
      obtain ⟨rfl, rfl⟩ := holds
      exact ⟨mgr, there⟩
    · exact owned.owner c' here' q n found holds
  · intro c' here' q n found holds
    rw [managers]
    exact owned.user c' here' q n (user found holds) holds
  · intro c' here' q n e' found holds entry
    obtain ⟨other, entry⟩ := listed entry
    rcases before found with ⟨-, rfl⟩ | found
    · rw [owns, Option.some.injEq, Prod.mk.injEq] at holds
      exact absurd holds.1.symm other
    · exact owned.apart c' here' q n e' found holds entry
  · intro c₁ c₂ here₁ here₂ p₁ p₂ n found₁ found₂ holds₁ holds₂
    rcases before found₁ with ⟨rfl, rfl⟩ | found₁
    · rcases before found₂ with ⟨rfl, rfl⟩ | found₂
      · rfl
      · rw [owns, Option.some.injEq, Prod.mk.injEq] at holds₁
        obtain ⟨rfl, rfl⟩ := holds₁
        obtain ⟨mgr', there'⟩ := owned.owner c₂ here₂ p₂ _ found₂ holds₂
        rw [there, Option.some.injEq, Prod.mk.injEq] at there'
        exact absurd rfl (owned.apart c₂ here₂ p₂ _ e found₂ holds₂ (there'.1 ▸ present))
    · rcases before found₂ with ⟨rfl, rfl⟩ | found₂
      · rw [owns, Option.some.injEq, Prod.mk.injEq] at holds₂
        obtain ⟨rfl, rfl⟩ := holds₂
        obtain ⟨mgr', there'⟩ := owned.owner c₁ here₁ p₁ _ found₁ holds₁
        rw [there, Option.some.injEq, Prod.mk.injEq] at there'
        exact absurd rfl (owned.apart c₁ here₁ p₁ _ e found₁ holds₁ (there'.1 ▸ present))
      · exact owned.alone c₁ c₂ here₁ here₂ p₁ p₂ n found₁ found₂ holds₁ holds₂
  · intro c₁ c₂ here₁ here₂ p₁ p₂ n found₁ found₂ holds₁ holds₂
    rcases before found₁ with ⟨-, rfl⟩ | found₁
    · rw [starts] at holds₁; simp at holds₁
    · exact owned.fresh c₁ c₂ here₁ here₂ p₁ p₂ n found₁ (user found₂ holds₂) holds₁ holds₂
  · intro c' here' found
    rcases before found with ⟨-, rfl⟩ | found
    · exact speaks
    · exact owned.speaks c' here' found

theorem owned_step (owned : Owned s) (step : Steps I cfg s a t) : Owned t := by
  cases step with
  | @calls c op new =>
      obtain ⟨owns, uses, speaks⟩ := op.thread_owns
      have nothing : Keeps .listing op.thread := .nothing owns uses speaks
      exact owned.goes c op.thread (.refl s) rfl (fun p e found => ⟨e, found, rfl⟩)
        (fun p m held => by rw [owns] at held; simp at held)
        (fun p m held => by simpa [Thread.starts] using nothing.starts p m held)
        (fun p m held => by rw [uses] at held; simp at held) speaks
  | @fires timer c p num armed new =>
      exact owned.goes c (.autoEnding p num) (.refl s) rfl (fun p e found => ⟨e, found, rfl⟩)
        (fun p m held => by simp [Thread.owns] at held)
        (fun p m held => by simp [Thread.starts] at held)
        (fun p m held => by simp [Thread.uses] at held) trivial
  | @passes c here next at_ pass => exact owned.keeps next at_ pass.keeps (.refl s) rfl rfl
  | @inserts c p via hasSave m at_ vacant room =>
      exact owned.give (e := ⟨m, _, false, _, none⟩) (.returned (.started p via none)) at_ rfl
        (by simp) (by simp) (fun q => insert_entries cfg p q c m s) rfl rfl trivial
  | @touches c p text e at_ found =>
      obtain ⟨e', same, -, entries⟩ := touch_entries cfg p e s
      refine owned.goes c (.commanding p e.manager text)
        (fun m q mgr there => ⟨mgr, by simpa using there⟩) (by simp) ?_
        (fun q m held => by simp [Thread.owns] at held)
        (fun q m held => by simp [Thread.starts] at held) ?_ ?_
      · intro q e₀ present
        simp only [goes_frame, entries] at present
        split at present
        · next here =>
            simp only [Option.some.injEq] at present
            subst here present
            exact ⟨e, found, same.symm⟩
        · exact ⟨e₀, present, rfl⟩
      · intro q m held
        simp only [Thread.uses, Option.some.injEq, Prod.mk.injEq] at held
        obtain ⟨rfl, rfl⟩ := held
        exact .inr ⟨e, found, rfl⟩
      · have speaks := owned.speaks c _ at_
        exact speaks
  | @deletes c p by_ e at_ found =>
      have erased (q : PlayerId) : (s.entries.erase p).get q =
          if q = p then none else s.entries.get q := Table.get_erase ..
      cases saves : by_.save with
      | true =>
          exact owned.take c (.saving p by_ e.manager) found (by simp) (by simp)
            (by simpa using erased) rfl rfl rfl saves
      | false =>
          exact owned.take c (.closing p by_ e.manager) found (by simp) (by simp)
            (by simpa using erased) rfl rfl rfl trivial
  | enters at_ about there entered =>
      exact owned.keeps _ at_ (keeps_enters about entered) (.setManager _ _ s rfl) rfl rfl
  | @discards c p q via m err mgr mgr' at_ there closed =>
      exact owned.keeps (.returned (.started p via err)) at_ (.nothing rfl rfl trivial)
        (.setManager _ _ s rfl) rfl rfl
  | closes at_ there closed =>
      obtain ⟨owns, uses, speaks⟩ := Thread.afterEnd_owns _ none _
      exact owned.keeps _ at_ (.nothing owns uses speaks) (.setManager _ _ s rfl) rfl rfl
  | @lists c at_ =>
      refine owned.keeps (firstDeletion s.entries.keys) at_ ?_ (.refl s) rfl rfl
      unfold firstDeletion
      split <;> exact .nothing rfl rfl trivial
  | @creates c p via hasSave spawn mgr d i at_ launched =>
      exact owned.create (p := p) c (.booting p via hasSave s.managers.length i []) rfl rfl rfl rfl
        rfl trivial
  | @refuses c p via hasSave spawn mgr d at_ launched =>
      exact owned.keeps (.returned (.started p via (some .start))) at_ (.nothing rfl rfl trivial)
        (.refl s) rfl rfl
  | boots at_ there round =>
      exact owned.keeps _ at_ (keeps_boot ..) (.setManager _ _ s rfl) rfl rfl
  | advances at_ there advanced =>
      exact owned.keeps _ at_ (keeps_advance (Manager.advances advanced))
        (.setManager _ _ s rfl) rfl rfl
  | leaves at_ there advanced =>
      exact owned.keeps _ at_ (keeps_leave ..) (.setManager _ _ s rfl) rfl rfl
  | @wipes c p at_ =>
      exact owned.keeps (.checking p _) at_ (.nothing rfl rfl trivial) (.refl s) rfl rfl
  | @keeps c p at_ =>
      exact owned.keeps (.returned _) at_ (.nothing rfl rfl trivial) (.refl s) rfl rfl
  | @empties c p at_ =>
      exact owned.keeps (.returned _) at_ (.nothing rfl rfl trivial) (.refl s) rfl rfl
  | @envs m p event mgr mgr' d there happened =>
      have players : Players s ((s.setManager m mgr').setDisk p d) := .setManager _ _ s rfl
      exact ⟨fun q e found => players _ _ _ (owned.entry q e found).choose_spec,
        fun c here q n found held => players _ _ _ (owned.owner c here q n found held).choose_spec,
        fun c here q n found held => players _ _ _ (owned.user c here q n found held).choose_spec,
        owned.apart, owned.alone, owned.fresh, owned.speaks⟩

/-- In every run, whatever happens, every manager is owned as it should be. -/
theorem owned {guard : Pool G → Act → Prop} (reached : (pool I cfg).Reachable guard s) :
    Owned s :=
  reached.invariant owned_init fun _ _ _ _ owned _ taken => owned_step owned (pool_steps taken)

/-! ## Where a holder comes from -/

variable {p : PlayerId}

/-- A goroutine saves a session because it did so before, or has just taken it out
of the table. -/
theorem Onward.saves_before {c m : Nat} {here : Option Thread} {next : Thread}
    (onward : Onward cfg s a t c here next) (saves : next.saves = some (p, m)) :
    (∃ before, here = some before ∧ before.saves = some (p, m)) ∨
      ∃ by_ e, here = some (.deleting p by_) ∧ s.entries.get p = some e ∧ e.manager = m ∧
        a = .go c := by
  have owns := Thread.owns_of_saves saves
  cases onward with
  | calls | closes | lists => simp at owns
  | passes pass =>
      cases pass with
      | gone => simp at owns
      | _ => simp [Thread.saves] at saves
  | deletes found saved action =>
      simp only [Thread.saves, Option.some.injEq, Prod.mk.injEq] at saves
      obtain ⟨rfl, rfl⟩ := saves
      exact .inr ⟨_, _, rfl, found, rfl, action⟩
  | drops found unsaved => simp [Thread.saves, unsaved] at saves
  | saves => exact .inl ⟨_, rfl, saves⟩
  | unsaved =>
      simp only [Thread.saves, Option.ite_none_right_eq_some] at saves
      exact .inl ⟨_, rfl, saves.2⟩
  | @advances q n for_ call phase past =>
      cases for_ with
      | save by_ => exact .inl ⟨_, rfl, saves⟩
      | restore | reply => simp [Thread.saves] at saves
  | @leaves q n for_ call r =>
      cases for_ with
      | save by_ =>
          simp only [Thread.afterCall, Thread.saves, Option.ite_none_right_eq_some] at saves
          exact .inl ⟨_, rfl, saves.2⟩
      | restore => simp [Thread.afterCall, Thread.saves] at saves
      | reply => cases r <;> simp [Thread.afterCall, Thread.saves] at saves
  | _ => simp [Thread.saves] at saves

/-- A goroutine uses a session because it did so before, or has just found it in
the table. -/
theorem Onward.uses_before {c m : Nat} {here : Option Thread} {next : Thread}
    (onward : Onward cfg s a t c here next) (uses : next.uses = some (p, m)) :
    (∃ before, here = some before ∧ before.uses = some (p, m)) ∨
      ∃ e, s.entries.get p = some e ∧ e.manager = m := by
  cases onward with
  | calls | closes | lists => simp at uses
  | passes pass =>
      cases pass with
      | gone => simp at uses
      | _ => simp [Thread.uses] at uses
  | touches found =>
      simp only [Thread.uses, Option.some.injEq, Prod.mk.injEq] at uses
      obtain ⟨rfl, rfl⟩ := uses
      exact .inr ⟨_, found, rfl⟩
  | commands => exact .inl ⟨_, rfl, uses⟩
  | @advances q n for_ =>
      cases for_ with
      | reply => exact .inl ⟨_, rfl, uses⟩
      | restore | save => simp [Thread.uses] at uses
  | leaves => rw [(Thread.afterCall_owns ..).1] at uses; simp at uses
  | _ => simp [Thread.uses] at uses

/-- A goroutine starts a session because it did so before, or has just created its
manager. -/
theorem Onward.starts_before {c m : Nat} {here : Option Thread} {next : Thread}
    (onward : Onward cfg s a t c here next) (starts : next.starts = some (p, m)) :
    (∃ before, here = some before ∧ before.starts = some (p, m)) ∨ m = s.managers.length := by
  have owns := Thread.owns_of_starts starts
  cases onward with
  | calls | closes | lists => simp at owns
  | passes pass =>
      cases pass with
      | gone => simp at owns
      | raced | crowded => exact .inl ⟨_, rfl, starts⟩
      | _ => simp [Thread.starts] at starts
  | creates =>
      simp only [Thread.starts, Option.some.injEq, Prod.mk.injEq] at starts
      exact .inr starts.2.symm
  | restores | unrestored | waits | started | startedNew => exact .inl ⟨_, rfl, starts⟩
  | @advances q n for_ =>
      cases for_ with
      | restore => exact .inl ⟨_, rfl, starts⟩
      | reply | save => simp [Thread.starts] at starts
  | @leaves q n for_ call r =>
      cases for_ with
      | restore => exact .inl ⟨_, rfl, starts⟩
      | save => simp [Thread.afterCall, Thread.starts] at starts
      | reply => cases r <;> simp [Thread.afterCall, Thread.starts] at starts
  | _ => simp [Thread.starts] at starts

/-- A goroutine may insert a session because it might before, or because it has just
created its manager. -/
theorem Onward.brings_before {c m : Nat} {here : Option Thread} {next : Thread}
    (onward : Onward cfg s a t c here next) (brings : next.brings = some (p, m)) :
    (∃ before, here = some before ∧ before.brings = some (p, m)) ∨ m = s.managers.length := by
  have starts := Thread.starts_of_brings brings
  rcases onward.starts_before starts with ⟨before, rfl, started⟩ | new
  · refine .inl ⟨before, rfl, ?_⟩
    unfold Thread.starts at started
    split at started
    · exact started
    · exact started
    · exact started
    · -- Whoever discards a session returns next.
      cases onward with
      | passes pass => cases pass
      | discards => simp [Thread.brings] at brings
    · exact started
    · simp at started
  · exact .inr new

/-- A goroutine ends a session because it did so before, or has just taken it out
of the table. -/
theorem Onward.ends_before {c m : Nat} {here : Option Thread} {next : Thread}
    (onward : Onward cfg s a t c here next) (owns : next.owns = some (p, m))
    (ends : next.starts = none) :
    (∃ before, here = some before ∧ before.owns = some (p, m) ∧ before.starts = none) ∨
      ∃ e, s.entries.get p = some e ∧ e.manager = m := by
  cases onward with
  | calls | closes | lists => simp at owns
  | passes pass =>
      cases pass with
      | gone => simp at owns
      | raced | crowded => simp [Thread.starts] at ends
      | _ => simp [Thread.owns] at owns
  | deletes found | drops found =>
      simp only [Thread.owns, Option.some.injEq, Prod.mk.injEq] at owns
      obtain ⟨rfl, rfl⟩ := owns
      exact .inr ⟨_, found, rfl⟩
  | saves | unsaved => exact .inl ⟨_, rfl, owns, rfl⟩
  | restores | unrestored | creates | waits | started | startedNew =>
      simp [Thread.starts] at ends
  | @advances q n for_ =>
      cases for_ with
      | restore => simp [Thread.starts] at ends
      | reply => simp [Thread.owns] at owns
      | save => exact .inl ⟨_, rfl, owns, rfl⟩
  | @leaves q n for_ call r =>
      cases for_ with
      | restore => simp [Thread.afterCall, Thread.starts] at ends
      | save => exact .inl ⟨_, rfl, owns, rfl⟩
      | reply => cases r <;> simp [Thread.afterCall, Thread.owns] at owns
  | _ => simp [Thread.owns] at owns

end Pool

end Zorkbot.Pty
