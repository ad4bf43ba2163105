/-
# The state in which a session resumes

A session that leaves the table is saved after it has left, and `Start` looks for
the save file, restores it and inserts what it has restored without knowing
whether a save is still to come. It may find no file, or the file of the session
before the last.

A `Start` has made up its mind when it has found that there is no save file, or when
its interpreter has loaded it. Where no save is to come at that moment, and no
session leaves the table between it and the insertion, the new session is in the
state in which the last one left.
-/

import Zorkbot.Pty.Lineage
import Zorkbot.Pty.Numbers
import Zorkbot.Pty.Timely

namespace Zorkbot.Pty

open Go Transition Function

variable {G : Type}

theorem Thread.uses_of_saves {t : Thread} {row : PlayerId × Nat} (saves : t.saves = some row) :
    t.uses = none := by
  unfold Thread.saves at saves
  split at saves <;> first | rfl | simp at saves

namespace Thread

/-- The player for whom this goroutine's `Start` has found no save file. -/
def misses : Thread → Option PlayerId
  | .launching p _ false | .booting p _ false _ _ _ | .inserting p _ false _ => some p
  | _ => none

theorem afterEnd_misses (p : PlayerId) (err : Option PoolErr) (by_ : By) :
    (afterEnd p err by_).misses = none := by
  unfold afterEnd
  split <;> rfl

theorem afterCall_misses (p : PlayerId) (m : Nat) (r : Result) (for_ : For) :
    (afterCall p m r for_).misses = none := by
  unfold afterCall
  split
  · rfl
  · split <;> rfl
  · rfl

end Thread

theorem Op.thread_misses (op : Op) : op.thread.misses = none := by
  cases op with
  | command id text =>
      unfold Op.thread
      simp only
      split
      · split <;> rfl
      · rfl
  | close => rfl
  | start id | endSession id | reset id =>
      unfold Op.thread
      simp only
      split <;> rfl

namespace Pool

variable {I : Interpreter G} {cfg : PoolConfig} {s t : Pool G} {a : Act} {p : PlayerId}
  {carried : Request → Prop}

/-- When a session leaves the table to be saved, no command of its player is in
flight. -/
def Unhurried (p : PlayerId) (s : Pool G) : Act → Prop
  | .go c =>
      match s.threads.get c with
      | some (.deleting q _) => q = p → ∀ e ∈ s.entries.get p, ∀ (c' : Nat) (here : Thread),
          s.threads.get c' = some here → here.uses ≠ some (p, e.manager)
      | _ => True
  | _ => True

theorem unhurried_go {c : Nat} :
    Unhurried p s (.go c) ↔ s.removes p (.go c) = true → ∀ e ∈ s.entries.get p,
      ∀ (c' : Nat) (here : Thread), s.threads.get c' = some here →
        here.uses ≠ some (p, e.manager) := by
  by_cases leaving : ∃ q by_, s.threads.get c = some (.deleting q by_)
  · obtain ⟨q, by_, at_⟩ := leaving
    simp only [Unhurried, removes, at_, Bool.and_eq_true, beq_iff_eq]
    refine ⟨fun apart out => apart out.1, fun apart same e listed => ?_⟩
    exact apart ⟨same, Option.isSome_iff_exists.mpr ⟨e, listed⟩⟩ e listed
  · have fine : Unhurried p s (.go c) := by
      unfold Unhurried
      dsimp only
      split
      · next q by_ at_ => exact absurd ⟨q, by_, at_⟩ leaving
      · trivial
    have stays : s.removes p (.go c) = false := by
      unfold removes
      dsimp only
      split
      · next q by_ at_ => exact absurd ⟨q, by_, at_⟩ leaving
      · rfl
    exact iff_of_true fine fun out => absurd (stays.symm.trans out) Bool.false_ne_true

instance (p : PlayerId) (s : Pool G) : (a : Act) → Decidable (Unhurried p s a)
  | .go _ => decidable_of_iff' _ unhurried_go
  | .call .. | .fire .. | .move .. | .wipe .. | .env .. => inferInstanceAs (Decidable True)

/-- In this step a `Start` of the player finds that there is no save file, or its
interpreter is told the file's name. -/
def decides (p : PlayerId) (s : Pool G) : Act → Bool
  | .go c =>
      match s.threads.get c with
      | some (.probing q _) => q == p && !(s.disks p).hasSaveFile
      | _ => false
  | .env m (.consume i _) =>
      (s.managers[m]?).any fun row => row.1 == p &&
        (row.2.sessions[i]?).any fun σ => σ.asking == some .restore
  | _ => false

/-- No session that a `Start` may still insert has loaded the player's save file, or
was started because there was none. -/
def Undecided (s : Pool G) (p : PlayerId) : Prop :=
  ∀ (c : Nat) (here : Thread), s.threads.get c = some here →
    here.misses ≠ some p ∧
      ∀ row ∈ here.brings, row.1 = p → ∀ σ ∈ s.sessionsOf row.2, σ.restored = false

instance (s : Pool G) (p : PlayerId) : Decidable (s.Undecided p) := by
  unfold Undecided
  infer_instance

/-- A `Start` of the player makes up its mind only while no save is to come, and
between that and its insertion no session of the player leaves the table. -/
def SavedFirst (p : PlayerId) (s : Pool G) (a : Act) : Prop :=
  (s.decides p a = true → s.Settled p) ∧ (s.removes p a = true → s.Undecided p)

instance (p : PlayerId) (s : Pool G) (a : Act) : Decidable (SavedFirst p s a) :=
  inferInstanceAs (Decidable (_ ∧ _))

/-! ## Sessions that are saved -/

/-- No command of a player uses a session that is being saved. -/
def Unused (p : PlayerId) (s : Pool G) : Prop :=
  ∀ m, s.Saver p m → ∀ (c : Nat) (here : Thread), s.threads.get c = some here →
    here.uses ≠ some (p, m)

theorem unused_step (owned : Owned s) (unused : Unused p s) (unhurried : Unhurried p s a)
    (step : Steps I cfg s a t) : Unused p t := by
  rintro m ⟨c, here, at_, saves⟩ c' here' at' uses
  have used : (∃ before, s.threads.get c' = some before ∧ before.uses = some (p, m)) ∨
      ∃ e, s.entries.get p = some e ∧ e.manager = m := by
    rcases thread_before step at' with same | onward
    · exact .inl ⟨here', same, uses⟩
    · exact onward.uses_before uses
  have saved : s.Saver p m ∨ ∃ by_ e, s.threads.get c = some (.deleting p by_) ∧
      s.entries.get p = some e ∧ e.manager = m ∧ a = .go c ∧
      t.threads.get c ≠ s.threads.get c := by
    rcases thread_before step at_ with same | onward
    · exact .inl ⟨c, here, same, saves⟩
    · rcases onward.saves_before saves with ⟨before, at'', saves'⟩ | ⟨by_, e, at'', rest⟩
      · exact .inl ⟨c, before, at'', saves'⟩
      · refine .inr ⟨by_, e, at'', rest.1, rest.2.1, rest.2.2, ?_⟩
        rw [at_, at'']
        rintro ⟨⟩
        simp [Thread.saves] at saves
  rcases saved with saver | ⟨by_, e, deleting, listed, rfl, rfl, moved⟩
  · rcases used with ⟨before, at'', uses'⟩ | ⟨e, listed, same⟩
    · exact unused m saver c' before at'' uses'
    · obtain ⟨c₀, here₀, at₀, saves₀⟩ := saver
      exact owned.apart c₀ here₀ p m e at₀ (Thread.owns_of_saves saves₀) listed same
  · by_cases same : c' = c
    · subst same
      rw [at_, Option.some.injEq] at at'
      subst at'
      rw [Thread.uses_of_saves saves] at uses
      simp at uses
    · rw [others_stay step moved same] at at'
      simp only [Unhurried, deleting] at unhurried
      exact unhurried trivial e listed c' here' at' uses

/-- Nobody but who saves it is inside the manager of a session that is saved. -/
theorem Unused.inside {c c' m : Nat} {here : Thread} {call : Call} (unused : Unused p s)
    (owned : Owned s) (at_ : s.threads.get c = some here) (saves : here.saves = some (p, m))
    (called : s.callsOn m c' = some call) :
    c' = c ∧ ∃ by_, here = .calling p m (.save by_) call := by
  obtain ⟨q, for_, at'⟩ := calling_of_callsOn called
  have owns := Thread.owns_of_saves saves
  have player : q = p := by
    obtain ⟨mgr, there⟩ := owned.owner c here p m at_ owns
    exact (owned.caller at' there).symm
  subst player
  have mine (owned' : (Thread.calling q m for_ call).owns = some (q, m)) : c' = c :=
    owned.alone c' c _ here q q m at' at_ owned' owns
  cases for_ with
  | reply => exact absurd rfl (unused m ⟨c, here, at_, saves⟩ c' _ at')
  | restore via =>
      obtain rfl := mine rfl
      rw [at_, Option.some.injEq] at at'
      subst at'
      simp [Thread.saves] at saves
  | save by_ =>
      obtain rfl := mine rfl
      rw [at_, Option.some.injEq] at at'
      exact ⟨rfl, by_, at'⟩

/-- Nobody is inside a manager while it is closed. -/
theorem Unused.shut {c m : Nat} {by_ : By} (unused : Unused p s) (owned : Owned s)
    (unreset : ∀ (c : Nat) (here : Thread), s.threads.get c = some here → here.resets ≠ some p)
    (at_ : s.threads.get c = some (.closing p by_ m)) (c' : Nat) : s.callsOn m c' = none := by
  have saves : (Thread.closing p by_ m).saves = some (p, m) := by
    cases by_ with
    | reset => exact absurd rfl (unreset c _ at_)
    | request | timer | shutdown => rfl
  cases called : s.callsOn m c' with
  | none => rfl
  | some call =>
      obtain ⟨-, by', same⟩ := unused.inside owned at_ saves called
      simp at same

/-! ## Sessions that have been started -/

/-- A session that has been started has a current interpreter that is up. -/
theorem InTime.current {m : Nat} {mgr : Manager G} (inTime : InTime carried cfg p s)
    (there : s.managers[m]? = some (p, mgr)) (live : s.Live p m) :
    ∃ i σ, mgr.session = some i ∧ mgr.sessions[i]? = some σ ∧ σ.Up := by
  cases current : mgr.session with
  | none => exact absurd current (inTime.live m mgr there live)
  | some i =>
      obtain ⟨σ, listed, up⟩ := (inTime.orderly m p mgr there rfl).up i current
      exact ⟨i, σ, rfl, listed, up⟩

theorem stateOf_current {m i : Nat} {mgr : Manager G} {σ : Session G}
    (there : s.managers[m]? = some (p, mgr)) (current : mgr.session = some i)
    (listed : mgr.sessions[i]? = some σ) : s.stateOf m = some σ.play.state := by
  simp [Pool.stateOf, there, Manager.current, current, listed]

/-- The one interpreter that runs is the current one. -/
theorem InTime.running {m j : Nat} {mgr : Manager G} {τ : Session G} (inTime : InTime carried cfg p s)
    (hosted : Hosted s) (there : s.managers[m]? = some (p, mgr)) (live : s.Live p m)
    (now : s.At p m j τ) (running : τ.running = true) :
    mgr.session = some j ∧ mgr.sessions[j]? = some τ ∧ τ.Up := by
  obtain ⟨i, σ, current, listed, up⟩ := inTime.current there live
  have here : s.At p m i σ := ⟨mgr, there, listed⟩
  obtain rfl := here.sole hosted up.running now running
  obtain rfl := here.unique now
  exact ⟨current, listed, up⟩

theorem Saver.live {m : Nat} (saver : s.Saver p m) : s.Live p m := by
  obtain ⟨c, here, at_, saves⟩ := saver
  refine .inr ⟨c, here, at_, ?_⟩
  unfold Thread.saves at saves
  split at saves
  · exact saves
  · exact saves
  · exact (Option.ite_none_right_eq_some.mp saves).2
  · simp at saves

/-- A session that is being saved is on its way to a save only during the save
command. -/
theorem InTime.saving_call {m i : Nat} {σ : Session G} (inTime : InTime carried cfg p s)
    (hosted : Hosted s) (saver : s.Saver p m) (now : s.At p m i σ) (running : σ.running = true)
    (saving : σ.Saving) :
    ∃ c call, s.callsOn m c = some call ∧ call.phase.reads = true := by
  obtain ⟨mgr, there, listed⟩ := now
  obtain ⟨current, -, -⟩ := inTime.running hosted there saver.live ⟨mgr, there, listed⟩ running
  rcases (inTime.orderly m p mgr there rfl).reader current listed with
    quiet | ⟨c, call, asked, line, called, reads, -⟩
  · rcases saving with asked | ⟨line, pending, -⟩
    · rw [quiet.asking] at asked; simp at asked
    · rw [quiet.input] at pending; simp at pending
  · exact ⟨c, call, called, reads⟩

/-- An interpreter reads the line of the command that is in progress. -/
theorem InTime.reads_line {m i : Nat} {σ : Session G} {row : Nat × Text} {rest : List (Nat × Text)}
    (inTime : InTime carried cfg p s) (hosted : Hosted s) (live : s.Live p m) (now : s.At p m i σ)
    (running : σ.running = true) (input : σ.input = row :: rest) :
    ∃ c call, s.callsOn m c = some call ∧ rest = [] ∧
      Turn (cfg.savePath p) call.text σ.asking row.2 := by
  obtain ⟨mgr, there, listed⟩ := now
  obtain ⟨current, -, -⟩ := inTime.running hosted there live ⟨mgr, there, listed⟩ running
  rcases (inTime.orderly m p mgr there rfl).reader current listed with
    quiet | ⟨c, call, asked, line, called, -, turn, ⟨empty, -⟩ | ⟨pending, asking⟩⟩
  · rw [quiet.input] at input; simp at input
  · rw [empty] at input; simp at input
  · rw [pending, List.cons.injEq] at input
    obtain ⟨rfl, rfl⟩ := input
    exact ⟨c, call, called, rfl, asking ▸ turn⟩

/-- A save or restore command is no move of the game. -/
theorem asks_of_turn {path text line : Text} {asked : Option Request} {request : Request}
    (turn : Turn path text asked line) (requests : requestOf text = some request) :
    (asked = none ∧ requestOf line = some request) ∨ asked = some request ∧ line = path := by
  cases turn with
  | command => exact .inl ⟨rfl, requests⟩
  | name requested =>
      rw [requests, Option.some.injEq] at requested
      exact .inr ⟨requested ▸ rfl, rfl⟩

/-- Who is inside a command moves by a step of the command. -/
theorem calling_moves {c m : Nat} {for_ : For} {call : Call} (step : Steps I cfg s a t)
    (at_ : s.threads.get c = some (.calling p m for_ call))
    (moved : t.threads.get c ≠ s.threads.get c) :
    (∃ r, call.phase = .leaving r) ∨ ∃ q mgr move mgr' d next, s.managers[m]? = some (q, mgr) ∧
      Manager.Advances I (cfg.savePath p) c call move mgr (s.disks p) mgr' d (.inside next) ∧
      t.managers = (s.setManager m mgr').managers := by
  have mover {c' : Nat} {before : Option Thread} {next : Thread}
      (at' : s.threads.get c' = before) (threads : t.threads = s.threads.set c' next) :
      c' = c ∧ before = some (.calling p m for_ call) := by
    rw [threads, Table.get_set] at moved
    split at moved
    · next here =>
        subst here
        exact ⟨rfl, at'.symm.trans at_⟩
    · exact absurd rfl moved
  cases step with
  | calls new | fires armed new => exact absurd (mover new rfl).2 (by simp)
  | passes at' pass =>
      have here := (mover at' rfl).2
      rw [Option.some.injEq] at here
      subst here
      cases pass
  | inserts at' | touches at' | deletes at' => exact absurd (mover at' (by simp; rfl)).2 (by simp)
  | enters at' about =>
      have here := (mover at' rfl).2
      rw [Option.some.injEq] at here
      subst here
      simp [Thread.enters] at about
  | discards at' | closes at' | lists at' | creates at' | refuses at' | boots at' | wipes at'
  | keeps at' | empties at' => exact absurd (mover at' rfl).2 (by simp)
  | advances at' there advanced =>
      obtain ⟨rfl, same⟩ := mover at' rfl
      simp only [Option.some.injEq, Thread.calling.injEq] at same
      obtain ⟨rfl, rfl, rfl, rfl⟩ := same
      exact .inr ⟨_, _, _, _, _, _, there, Manager.advances advanced, rfl⟩
  | leaves at' there advanced =>
      obtain ⟨rfl, same⟩ := mover at' rfl
      simp only [Option.some.injEq, Thread.calling.injEq] at same
      obtain ⟨rfl, rfl, rfl, rfl⟩ := same
      exact .inl ⟨_, (Manager.left_cases (Manager.advances advanced)).1⟩
  | envs => exact absurd rfl moved

/-! ## A session that is being saved -/

/-- What a session that is being saved reads is its save command. -/
theorem InTime.reads_save {m i : Nat} {σ : Session G} {row : Nat × Text}
    {rest : List (Nat × Text)} (inTime : InTime carried cfg p s) (hosted : Hosted s) (owned : Owned s)
    (unused : Unused p s) (saver : s.Saver p m) (now : s.At p m i σ) (running : σ.running = true)
    (input : σ.input = row :: rest) :
    rest = [] ∧ ((σ.asking = none ∧ requestOf row.2 = some .save) ∨
      σ.asking = some .save ∧ row.2 = cfg.savePath p) := by
  obtain ⟨c, call, called, empty, turn⟩ :=
    inTime.reads_line hosted saver.live now running input
  obtain ⟨c₀, here, at_, saves⟩ := saver
  obtain ⟨rfl, by_, rfl⟩ := unused.inside owned at_ saves called
  have text : call.text = saveText := (owned.speaks c _ at_).2
  exact ⟨empty, asks_of_turn turn (by rw [text]; decide)⟩

/-- A session that is being saved stays in its state. -/
theorem saver_state {m : Nat} (inTime : InTime carried cfg p s) (inTime' : InTime carried cfg p t)
    (owned : Owned s) (owned' : Owned t) (hosted : Hosted s) (unused : Unused p s)
    (step : Steps I cfg s a t) (saver : s.Saver p m) (saver' : t.Saver p m) :
    t.stateOf m = s.stateOf m := by
  have player (u : Pool G) (owned : Owned u) (saver : u.Saver p m) :
      ∃ mgr, u.managers[m]? = some (p, mgr) := by
    obtain ⟨c, here, at_, saves⟩ := saver
    exact owned.owner c here p m at_ (Thread.owns_of_saves saves)
  obtain ⟨mgr, there⟩ := player s owned saver
  obtain ⟨mgr', there'⟩ := player t owned' saver'
  obtain ⟨i, σ', current', listed', up'⟩ := inTime'.current there' saver'.live
  rw [stateOf_current there' current' listed']
  have before {σ : Session G} (was : s.At p m i σ) (running : σ.running = true)
      (state : σ'.play.state = σ.play.state) : some σ'.play.state = s.stateOf m := by
    obtain ⟨current, listed, -⟩ := inTime.running hosted there saver.live was running
    rw [stateOf_current there current listed, state]
  cases touched owned step ⟨mgr', there', listed'⟩ with
  | same was same => exact before was (same.running up'.running) (by rw [same.play])
  | completed was at_ =>
      exact absurd rfl (unused m saver _ _ at_)
  | wrote was at_ here phase same | named was at_ here phase same =>
      exact before was (same.running up'.running) (by rw [same.play]; rfl)
  | launched at_ new =>
      have := (List.getElem?_eq_some_iff.mp there).1
      omega
  | relaunched action at_ phase =>
      have orderly := inTime.orderly m p mgr there rfl
      have inTime := orderly.phase _ _ (callsOn_calling at_)
      rw [phase] at inTime
      simp [Phase.inTime] at inTime
  | @consumed ok σ action was read =>
      generalize t.disks p = d' at read
      obtain ⟨running, c, line, rest, τ, input, obeys, same⟩ := Session.consume_obeys read
      obtain ⟨-, turn⟩ := inTime.reads_save hosted owned unused saver was running input
      refine before was running ?_
      rw [same.play]
      cases obeys with
      | plays idle plain =>
          rcases turn with ⟨-, requested⟩ | ⟨asked, -⟩
          · rw [plain] at requested; simp at requested
          · rw [idle] at asked; simp at asked
      | asks | fails => rfl
      | saves asked named able written => rw [(Disk.write_eq_some written).1]
      | loads asked =>
          rcases turn with ⟨idle, -⟩ | ⟨asked', -⟩
          · rw [asked] at idle; simp at idle
          · rw [asked] at asked'; simp at asked'

/-- A session of which a save is to come is with a goroutine that has not got its
answer yet. -/
theorem Pending.speaking {m : Nat} (pending : s.Pending p m) (inTime : InTime carried cfg p s)
    (owned : Owned s) (hosted : Hosted s) (only : SavesOnly s) (unused : Unused p s) :
    ∃ c by_, s.threads.get c = some (.saving p by_ m) ∨
      ∃ call, s.threads.get c = some (.calling p m (.save by_) call) := by
  have saver := pending.saver only
  rcases pending with ⟨c, here, at_, toSave⟩ | ⟨i, σ, now, running, saving⟩
  · unfold Thread.toSave at toSave
    split at toSave
    · next q by_ n =>
        simp only [Option.some.injEq, Prod.mk.injEq] at toSave
        obtain ⟨rfl, rfl⟩ := toSave
        exact ⟨c, by_, .inl at_⟩
    · next q n by_ call =>
        simp only [Option.ite_none_right_eq_some, Option.some.injEq, Prod.mk.injEq] at toSave
        obtain ⟨-, rfl, rfl⟩ := toSave
        exact ⟨c, by_, .inr ⟨call, at_⟩⟩
    · simp at toSave
  · obtain ⟨c', call, called, -⟩ := inTime.saving_call hosted saver now running saving
    obtain ⟨c, here, at_, saves⟩ := saver
    obtain ⟨rfl, by_, rfl⟩ := unused.inside owned at_ saves called
    exact ⟨c', by_, .inr ⟨call, at_⟩⟩

/-- The goroutine goes on with it. -/
theorem Pending.goes_on {m : Nat} (pending : s.Pending p m) (inTime : InTime carried cfg p s)
    (owned : Owned s) (hosted : Hosted s) (only : SavesOnly s) (unused : Unused p s)
    (step : Steps I cfg s a t) : t.Saver p m := by
  obtain ⟨c, by_, at_ | ⟨call, at_⟩⟩ := pending.speaking inTime owned hosted only unused
  all_goals
    obtain ⟨next, at', rfl | onward⟩ := thread_after step at_
    · exact ⟨c, _, at', rfl⟩
    · rcases onward.keeps_saving (owned.speaks c _ at_) rfl with still | ⟨by', same, -⟩
      · exact ⟨c, next, at', still⟩
      · simp at same

/-- A save command that is about to be written is written. -/
theorem entered_writes {c m : Nat} {by_ : By} {call : Call} (inTime : InTime carried cfg p s)
    (owned : Owned s) (step : Steps I cfg s a t)
    (at_ : s.threads.get c = some (.calling p m (.save by_) call)) (phase : call.phase = .entered)
    (moved : t.threads.get c ≠ s.threads.get c) : t.Pending p m := by
  rcases calling_moves step at_ moved with
    ⟨r, left⟩ | ⟨q, mgr, move, mgr', d, next, there, advanced, managers⟩
  · rw [phase] at left; simp at left
  · obtain rfl := owned.caller at_ there
    have orderly := inTime.orderly m q mgr there rfl
    obtain ⟨σ, listed, up⟩ := orderly.at_call (callsOn_calling at_)
    cases advanced with
    | notReady _ found unready =>
        rw [listed, Option.some.injEq] at found
        subst found
        rw [up.ready] at unready; simp at unready
    | unwritten _ found closed =>
        rw [listed, Option.some.injEq] at found
        subst found
        rw [up.opened] at closed; simp at closed
    | wrote =>
        have now : t.managers[m]? = some (q, mgr.onSession call.session fun σ =>
            { σ.writeLines c call.text with mu := some c }) := by
          rw [managers, setManager_get, if_pos rfl, there]
          rfl
        have saving : (σ.writeLines c call.text).Saving := by
          have text : call.text = saveText := (owned.speaks c _ at_).2
          have single : splitLines saveText = [saveText] := by decide
          have request : requestOf saveText = some .save := by decide
          exact .inr ⟨(c, saveText), by simp [Session.writeLines, text, single], request⟩
        exact .inr ⟨call.session, _, ⟨_, now, Manager.onSession_there listed _⟩, up.running, saving⟩
    | read before | settled before | gaveUp before | answered before | unnamed before
    | named before | relaunched before | unlaunched before | booting before | booted before =>
        rw [phase] at before; simp at before

/-- A goroutine that is to save a session does so, or its save is on its way. -/
theorem pending_of_toSave {c m : Nat} {here : Thread} (inTime : InTime carried cfg p s)
    (owned : Owned s) (hosted : Hosted s) (unused : Unused p s) (step : Steps I cfg s a t)
    (at_ : s.threads.get c = some here) (toSave : here.toSave = some (p, m)) :
    t.Pending p m := by
  obtain ⟨next, at', rfl | onward⟩ := thread_after step at_
  · exact .inl ⟨c, next, at', toSave⟩
  · cases onward with
    | saves =>
        exact .inl ⟨c, _, at', by simpa [Thread.toSave] using toSave⟩
    | @unsaved q by_ n action refused =>
        simp only [Thread.toSave, Option.some.injEq, Prod.mk.injEq] at toSave
        obtain ⟨rfl, rfl⟩ := toSave
        obtain ⟨r, mgr, err, there, refused⟩ := refused
        obtain ⟨mgr', there'⟩ := owned.owner c _ q n at_ rfl
        rw [there, Option.some.injEq, Prod.mk.injEq] at there'
        obtain ⟨rfl, rfl⟩ := there'
        refine absurd refused (let_in inTime hosted (.inr ⟨c, _, at_, rfl⟩) there
          (Bool.eq_false_iff.mpr ?_))
        intro busy
        obtain ⟨c', call, called⟩ := (inTime.orderly n r mgr there rfl).busy.mp busy
        obtain ⟨-, by', same⟩ :=
          unused.inside owned at_ (Thread.saves_of_toSave (by rfl)) called
        simp at same
    | @advances q n for_ call phase past =>
        cases for_ with
        | save by_ =>
            simp only [Thread.toSave, Option.ite_none_right_eq_some, Option.some.injEq,
              Prod.mk.injEq] at toSave
            obtain ⟨entered, rfl, rfl⟩ := toSave
            refine entered_writes inTime owned step at_ entered ?_
            rw [at_, at']
            intro same
            simp only [Option.some.injEq, Thread.calling.injEq, true_and] at same
            exact past (by rw [← entered, ← same]; rfl)
        | restore | reply => simp [Thread.toSave] at toSave
    | leaves left =>
        unfold Thread.toSave at toSave
        split at toSave
        · simp at *
        · next same =>
            simp only [Thread.calling.injEq] at same
            obtain ⟨-, -, -, rfl⟩ := same
            rw [left] at toSave
            simp at toSave
        · simp at toSave
    | passes pass => cases pass <;> simp [Thread.toSave] at toSave
    | _ => simp [Thread.toSave] at toSave

/-- An interpreter that is going to read a save command reads it, or has written the file. -/
theorem pending_of_saving {i m : Nat} {σ : Session G} (inTime : InTime carried cfg p s)
    (inTime' : InTime carried cfg p t) (owned : Owned s) (owned' : Owned t) (hosted : Hosted s)
    (unused : Unused p s) (timely : Timely carried p s a) (sure : carried .save)
    (step : Steps I cfg s a t) (saver : s.Saver p m) (saver' : t.Saver p m)
    (now : s.At p m i σ) (running : σ.running = true) (saving : σ.Saving) :
    t.Pending p m ∨ ∃ f, (t.disks p).save = some f ∧ s.stateOf m = some f.state := by
  obtain ⟨mgr', there'⟩ : ∃ mgr', t.managers[m]? = some (p, mgr') := by
    obtain ⟨c, here, at_, saves⟩ := saver'
    exact owned'.owner c here p m at_ (Thread.owns_of_saves saves)
  obtain ⟨i', σ', current', listed', up'⟩ := inTime'.current there' saver'.live
  have now' : t.At p m i' σ' := ⟨mgr', there', listed'⟩
  -- The current interpreter is the one that was on its way to the save.
  have before {τ : Session G} (was : s.At p m i' τ) (runs : τ.running = true) : τ = σ := by
    obtain rfl := now.sole hosted running was runs
    exact was.unique now
  have still (saving' : σ'.Saving) : t.Pending p m := .inr ⟨i', σ', now', up'.running, saving'⟩
  cases touched owned step now' with
  | same was same =>
      obtain rfl := before was (same.running up'.running)
      exact .inl (still (by unfold Session.Saving; rwa [same.asking, same.input]))
  | completed was at_ => exact absurd rfl (unused m saver _ _ at_)
  | @wrote c for_ call τ was at_ here phase same
  | @named c for_ call raw τ was at_ here phase same =>
      obtain rfl := before was (same.running up'.running)
      refine .inl (still ?_)
      unfold Session.Saving
      rw [same.asking, same.input]
      rcases saving with asked | ⟨line, listed, requested⟩
      · exact .inl asked
      · exact .inr ⟨line, List.mem_append_left _ listed, requested⟩
  | launched at_ new =>
      obtain ⟨mgr, there, -⟩ := now
      have := (List.getElem?_eq_some_iff.mp there).1
      omega
  | relaunched action at_ phase =>
      obtain ⟨mgr, there, -⟩ := now
      have inTime := (inTime.orderly m p mgr there rfl).phase _ _ (callsOn_calling at_)
      rw [phase] at inTime
      simp [Phase.inTime] at inTime
  | @consumed ok τ action was read =>
      generalize disk : t.disks p = d' at read ⊢
      obtain ⟨runs, c, line, rest, υ, input, obeys, same⟩ := Session.consume_obeys read
      obtain rfl := before was runs
      obtain ⟨-, turn⟩ := inTime.reads_save hosted owned unused saver was runs input
      cases obeys with
      | plays idle plain =>
          rcases turn with ⟨-, requested⟩ | ⟨asked, -⟩
          · rw [plain] at requested; simp at requested
          · rw [idle] at asked; simp at asked
      | asks idle requested =>
          rcases turn with ⟨-, save⟩ | ⟨asked, -⟩
          · rw [requested, Option.some.injEq] at save
            exact .inl (still (.inl (by rw [same.asking, save])))
          · rw [idle] at asked; simp at asked
      | saves asked named able written =>
          obtain ⟨play, save, -⟩ := Disk.write_eq_some written
          obtain ⟨mgr, there, -⟩ := was
          obtain ⟨current, listed, -⟩ := inTime.running hosted there saver.live now runs
          exact .inr ⟨_, save, by rw [stateOf_current there current listed, play]⟩
      | loads asked =>
          rcases turn with ⟨idle, -⟩ | ⟨asked', -⟩
          · rw [asked] at idle; simp at idle
          · rw [asked] at asked'; simp at asked'
      | fails asked cause =>
          rcases turn with ⟨idle, -⟩ | ⟨asked', named⟩
          · rw [asked] at idle; simp at idle
          · rw [asked, Option.some.injEq] at asked'
            subst asked' action
            rcases cause with other | unable | ⟨-, unwritten⟩ | ⟨other, -⟩
            · exact absurd named other
            · subst unable
              exact absurd asked (timely τ was .save sure)
            · obtain ⟨mgr, there, -⟩ := was
              unfold Disk.write at unwritten
              split at unwritten
              · next absent => exact absurd absent (inTime.present m mgr there)
              · simp at unwritten
            · simp at other

/-- A save that was to come is still to come, or has just been made. -/
theorem pending_kept {m : Nat} (inTime : InTime carried cfg p s) (inTime' : InTime carried cfg p t)
    (owned : Owned s) (owned' : Owned t) (hosted : Hosted s) (only : SavesOnly s)
    (unused : Unused p s) (timely : Timely carried p s a) (sure : carried .save)
    (step : Steps I cfg s a t) (pending : s.Pending p m) :
    t.Pending p m ∨ ∃ f, (t.disks p).save = some f ∧ s.stateOf m = some f.state := by
  have saver := pending.saver only
  have saver' := pending.goes_on inTime owned hosted only unused step
  rcases pending with ⟨c, here, at_, toSave⟩ | ⟨i, σ, now, running, saving⟩
  · exact .inl (pending_of_toSave inTime owned hosted unused step at_ toSave)
  · exact pending_of_saving inTime inTime' owned owned' hosted unused timely sure step saver saver'
      now running saving

/-! ## Sessions that are being started -/

/-- A session that is being started reads nothing, or its restore command. -/
theorem InTime.reads_restore {c m i : Nat} {here : Thread} {σ : Session G} {row : Nat × Text}
    {rest : List (Nat × Text)} (inTime : InTime carried cfg p s) (hosted : Hosted s) (owned : Owned s)
    (at_ : s.threads.get c = some here) (starts : here.starts = some (p, m)) (now : s.At p m i σ)
    (running : σ.running = true) (input : σ.input = row :: rest) :
    (σ.asking = none ∧ requestOf row.2 = some .restore) ∨
      σ.asking = some .restore ∧ row.2 = cfg.savePath p := by
  -- A session that has been started is read by whoever starts it.
  have live (hosts : here.hosts = some (p, m)) : (σ.asking = none ∧ requestOf row.2 =
      some .restore) ∨ σ.asking = some .restore ∧ row.2 = cfg.savePath p := by
    obtain ⟨c', call, called, -, turn⟩ :=
      inTime.reads_line hosted (.inr ⟨c, here, at_, hosts⟩) now running input
    obtain ⟨q, for_, at'⟩ := calling_of_callsOn called
    obtain ⟨mgr, there, -⟩ := now
    obtain rfl := owned.caller at' there
    have owns := Thread.owns_of_starts starts
    have mine (owned' : (Thread.calling p m for_ call).owns = some (p, m)) :
        here = .calling p m for_ call := by
      obtain rfl := owned.alone c' c _ here p p m at' at_ owned' owns
      rw [at_, Option.some.injEq] at at'
      exact at'
    cases for_ with
    | reply => exact absurd rfl (owned.fresh c c' here _ p p m at_ at' starts)
    | save by_ => rw [mine rfl] at starts; simp [Thread.starts] at starts
    | restore via =>
        have text : call.text = restoreText := owned.speaks c' _ at'
        exact asks_of_turn turn (by rw [text]; decide)
  unfold Thread.starts at starts
  split at starts
  · next q via hasSave n j buf =>
      -- Nothing has been written to it yet.
      simp only [Option.some.injEq, Prod.mk.injEq] at starts
      obtain ⟨rfl, rfl⟩ := starts
      obtain ⟨mgr, there, listed⟩ := now
      have orderly := inTime.orderly n q mgr there rfl
      have boots := bootsOn_booting at_
      obtain ⟨⟨τ, listed', -, running', -⟩, -⟩ := orderly.starting c j buf boots
      obtain ⟨-, υ, listed'', booting⟩ := orderly.serving.booting c j buf boots
      have same := At.sole hosted ⟨mgr, there, listed⟩ running ⟨mgr, there, listed'⟩ running'
      subst same
      rw [listed, Option.some.injEq] at listed''
      subst listed''
      rw [booting.input] at input
      simp at input
  · exact live starts
  · exact live starts
  · exact live starts
  · exact live starts
  · simp at starts

/-! ## What a `Start` has found -/

/-- A goroutine's `Start` has found no save file because it had not before, or because
it has just looked. -/
theorem Onward.misses {c : Nat} {here : Option Thread} {next : Thread}
    (onward : Onward cfg s a t c here next) (misses : next.misses = some p) :
    (∃ before, here = some before ∧ before.misses = some p) ∨
      ∃ via, here = some (.probing p via) ∧ a = .go c ∧ (s.disks p).hasSaveFile = false := by
  cases onward with
  | calls => rw [Op.thread_misses] at misses; simp at misses
  | passes pass action =>
      cases pass with
      | @probed q via =>
          cases saved : (s.disks q).hasSaveFile with
          | true => simp [saved, Thread.misses] at misses
          | false =>
              simp only [saved, Thread.misses, Option.some.injEq] at misses
              subst misses
              exact .inr ⟨via, rfl, action, saved⟩
      | gone => rw [Thread.afterEnd_misses] at misses; simp at misses
      | _ => simp [Thread.misses] at misses
  | closes => rw [Thread.afterEnd_misses] at misses; simp at misses
  | leaves => rw [Thread.afterCall_misses] at misses; simp at misses
  | lists =>
      unfold firstDeletion at misses
      split at misses <;> simp [Thread.misses] at misses
  | startedNew => exact .inl ⟨_, rfl, misses⟩
  | @creates q via hasSave | @waits q via hasSave =>
      cases hasSave with
      | true => simp [Thread.misses] at misses
      | false => exact .inl ⟨_, rfl, misses⟩
  | _ => simp [Thread.misses] at misses

/-- A `Start` that loads the save file is about to insert its session because it was
before, because the restore command was turned away, or because it has returned. -/
theorem Onward.to_inserting {c m : Nat} {via : Via} {here : Option Thread}
    (onward : Onward cfg s a t c here (.inserting p via true m)) :
    (here = some (.restoring p via m) ∧ ∃ q mgr err, s.managers[m]? = some (q, mgr) ∧
        mgr.enter restoreText = some (mgr, .outside (.err err))) ∨
      ∃ call r, here = some (.calling p m (.restore via) call) ∧ call.phase = .leaving r := by
  generalize next : Thread.inserting p via true m = now at onward
  cases onward with
  | calls =>
      have nothing := Op.thread_owns_eq ‹_›
      rw [← next] at nothing
      simp [Thread.owns] at nothing
  | passes pass =>
      cases pass with
      | @gone q by_ =>
          unfold Thread.afterEnd at next
          split at next <;> simp at next
      | _ => simp at next
  | closes =>
      unfold Thread.afterEnd at next
      split at next <;> simp at next
  | lists =>
      unfold firstDeletion at next
      split at next <;> simp at next
  | unrestored refused =>
      simp only [Thread.inserting.injEq, true_and] at next
      obtain ⟨rfl, rfl, rfl⟩ := next
      exact .inl ⟨rfl, refused⟩
  | @leaves q n for_ call r left =>
      cases for_ with
      | restore via' =>
          simp only [Thread.afterCall, Thread.inserting.injEq, true_and] at next
          obtain ⟨rfl, rfl, rfl⟩ := next
          exact .inr ⟨call, r, rfl, left⟩
      | reply => cases r <;> simp [Thread.afterCall] at next
      | save => simp [Thread.afterCall] at next
  | _ => simp at next

/-- While no session of the player leaves the table, no save gets to come and the save
file stays. -/
theorem settled_step (owned : Owned s)
    (unreset : ∀ (c : Nat) (here : Thread), s.threads.get c = some here → here.resets ≠ some p)
    (settled : s.Settled p) (stays : s.removes p a = false) (step : Steps I cfg s a t) :
    t.Settled p ∧ (t.disks p).save = (s.disks p).save := by
  constructor
  · refine settled_iff.mpr fun m pending => ?_
    rcases pending_step owned step pending with before | ⟨c, by_, e, rfl, at_, -, listed, -⟩
    · exact settled.not_pending m before
    · simp [removes, at_, listed] at stays
  · cases disk_step step p with
    | kept save => exact save
    | @consumed m i ok σ σ' action was read =>
        rcases Session.consume_play read with ⟨-, -, same⟩ | ⟨-, same⟩ | ⟨saving, -⟩
        · rw [same]
        · rw [same]
        · have runs := (Session.consume_obeys read).1
          exact absurd (.inr ⟨i, σ, was, runs, saving⟩) (settled.not_pending m)
    | wiped action at_ => exact absurd rfl (unreset _ _ at_)
    | emptied action at_ => exact absurd rfl (unreset _ _ at_)

/-- What a `Start` has made up its mind about is still so: there is no save file, or
its interpreter has the file's game, and no save is to come. -/
structure Caught (p : PlayerId) (s : Pool G) : Prop where
  missed : ∀ (c : Nat) (here : Thread), s.threads.get c = some here → here.misses = some p →
    (s.disks p).save = none ∧ s.Settled p
  loaded : ∀ (c : Nat) (here : Thread) m i σ, s.threads.get c = some here →
    here.brings = some (p, m) → s.At p m i σ → σ.running = true → σ.restored = true →
      (s.disks p).save = some σ.play ∧ s.Settled p
  restored : ∀ (c : Nat) via m i σ, s.threads.get c = some (.inserting p via true m) →
    s.At p m i σ → σ.running = true → σ.restored = true

theorem caught_init : Caught p (init : Pool G) where
  missed c here at_ := by simp [init] at at_
  loaded c here m i σ at_ := by simp [init] at at_
  restored c via m i σ at_ := by simp [init] at at_

theorem missed_step (owned : Owned s) (inTime : InTime carried cfg p s) (caught : Caught p s)
    (first : SavedFirst p s a) (step : Steps I cfg s a t) {c : Nat} {here : Thread}
    (at_ : t.threads.get c = some here) (misses : here.misses = some p) :
    (t.disks p).save = none ∧ t.Settled p := by
  have keeps (none_ : (s.disks p).save = none) (settled : s.Settled p)
      (stays : s.removes p a = false) : (t.disks p).save = none ∧ t.Settled p := by
    obtain ⟨still, same⟩ := settled_step owned inTime.unreset settled stays step
    exact ⟨same.trans none_, still⟩
  -- A `Start` that had missed the file before keeps the sessions in the table.
  have before {c : Nat} {here : Thread} (at_ : s.threads.get c = some here)
      (misses : here.misses = some p) : (t.disks p).save = none ∧ t.Settled p := by
    obtain ⟨none_, settled⟩ := caught.missed c here at_ misses
    exact keeps none_ settled (Bool.eq_false_iff.mpr fun out => (first.2 out c here at_).1 misses)
  rcases thread_before step at_ with same | onward
  · exact before same misses
  · rcases onward.misses misses with ⟨old, at', same⟩ | ⟨via, at', rfl, missing⟩
    · exact before at' same
    · refine keeps ?_ (first.1 (by simp [decides, at', missing])) (by simp [removes, at'])
      simpa [Disk.hasSaveFile] using missing

theorem loaded_step (owned : Owned s) (hosted : Hosted s) (inTime : InTime carried cfg p s)
    (caught : Caught p s) (first : SavedFirst p s a) (step : Steps I cfg s a t) {c m i : Nat}
    {here : Thread} {σ' : Session G} (at_ : t.threads.get c = some here)
    (brings : here.brings = some (p, m)) (now : t.At p m i σ') (running : σ'.running = true)
    (restored : σ'.restored = true) : (t.disks p).save = some σ'.play ∧ t.Settled p := by
  have before : (∃ c before, s.threads.get c = some before ∧ before.brings = some (p, m)) ∨
      m = s.managers.length := by
    rcases thread_before step at_ with same | onward
    · exact .inl ⟨c, here, same, brings⟩
    · exact (onward.brings_before brings).imp_left fun ⟨before, at', same⟩ => ⟨c, before, at', same⟩
  have old {σ : Session G} (was : s.At p m i σ) :
      ∃ c before, s.threads.get c = some before ∧ before.brings = some (p, m) := by
    refine before.resolve_right fun new => ?_
    obtain ⟨mgr, there, -⟩ := was
    have := (List.getElem?_eq_some_iff.mp there).1
    omega
  have kept {σ : Session G} (was : s.At p m i σ) (runs : σ.running = true)
      (loaded : σ.restored = true) (play : σ'.play = σ.play) :
      (t.disks p).save = some σ'.play ∧ t.Settled p := by
    obtain ⟨c, before, at', brings'⟩ := old was
    obtain ⟨saved, settled⟩ := caught.loaded c before m i σ at' brings' was runs loaded
    have stays : s.removes p a = false := Bool.eq_false_iff.mpr fun out => by
      have unloaded := (first.2 out c before at').2 _ brings' rfl σ was.mem_sessionsOf
      rw [loaded] at unloaded
      simp at unloaded
    obtain ⟨still, same⟩ := settled_step owned inTime.unreset settled stays step
    exact ⟨by rw [same, saved, play], still⟩
  cases touched owned step now with
  | same was same => exact kept was (same.running running) (same.restored ▸ restored) same.play
  | completed was at_ here phase same =>
      subst same
      exact kept was running restored rfl
  | wrote was at_ here phase same | named was at_ here phase same =>
      exact kept was (same.running running) (same.restored ▸ restored) same.play
  | launched at_ new after fresh => simp [fresh, Session.spawn] at restored
  | relaunched action at_ phase fresh => simp [fresh, Session.spawn] at restored
  | @consumed ok σ action was read =>
      have settles : σ.asking = some .restore → s.Settled p := fun asked => by
        obtain ⟨mgr, there, listed⟩ := was
        exact first.1 (by simp [decides, action, there, listed, asked])
      have fine : s.removes p a = false := by simp [action, removes]
      generalize disk : t.disks p = d' at read
      obtain ⟨runs, c', line, rest, τ, input, obeys, same⟩ := Session.consume_obeys read
      obtain ⟨c, before, at', brings'⟩ := old was
      have turn := inTime.reads_restore hosted owned at' (Thread.starts_of_brings brings') was runs
        input
      cases obeys with
      | plays idle plain =>
          rcases turn with ⟨-, requested⟩ | ⟨asked, -⟩
          · rw [plain] at requested; simp at requested
          · rw [idle] at asked; simp at asked
      | asks | fails => exact disk ▸ kept was runs (same.restored ▸ restored) same.play
      | saves asked =>
          rcases turn with ⟨idle, -⟩ | ⟨asked', -⟩
          · rw [asked] at idle; simp at idle
          · rw [asked] at asked'; simp at asked'
      | loads asked named able there =>
          obtain ⟨still, -⟩ := settled_step owned inTime.unreset (settles asked) fine step
          exact ⟨by rw [there, same.play], still⟩

/-- A session whose interpreter runs had one before, which has loaded no less now. -/
theorem InTime.restored_kept {m i : Nat} {σ' : Session G} (inTime : InTime carried cfg p s)
    (owned : Owned s) (step : Steps I cfg s a t) (old : ∃ mgr, s.managers[m]? = some (p, mgr))
    (now : t.At p m i σ') (running : σ'.running = true) :
    ∃ σ, s.At p m i σ ∧ σ.running = true ∧ (σ.restored = true → σ'.restored = true) := by
  obtain ⟨mgr, there⟩ := old
  cases touched owned step now with
  | same was same =>
      exact ⟨_, was, same.running running, fun restored => same.restored.trans restored⟩
  | completed was at_ here phase same =>
      subst same
      exact ⟨_, was, running, id⟩
  | wrote was at_ here phase same | named was at_ here phase same =>
      exact ⟨_, was, same.running running, fun restored => same.restored.trans restored⟩
  | launched at_ new =>
      have := (List.getElem?_eq_some_iff.mp there).1
      omega
  | relaunched action at_ phase =>
      have inTime := (inTime.orderly m p mgr there rfl).phase _ _ (callsOn_calling at_)
      rw [phase] at inTime
      simp [Phase.inTime] at inTime
  | @consumed ok σ action was read =>
      have kept (restored : σ.did .restore = true) : σ'.did .restore = true :=
        Session.consume_did read restored
      exact ⟨σ, was, (Session.consume_obeys read).1, kept⟩

/-- A `Start` is let into the manager of its session. -/
theorem InTime.restore_enters {c m : Nat} {via : Via} (inTime : InTime carried cfg p s)
    (owned : Owned s) (hosted : Hosted s) (at_ : s.threads.get c = some (.restoring p via m)) :
    ¬ ∃ q mgr err, s.managers[m]? = some (q, mgr) ∧
      mgr.enter restoreText = some (mgr, .outside (.err err)) := by
  rintro ⟨q, mgr, err, there, refused⟩
  obtain ⟨mgr', there'⟩ := owned.owner c _ p m at_ rfl
  rw [there, Option.some.injEq, Prod.mk.injEq] at there'
  obtain ⟨rfl, rfl⟩ := there'
  refine absurd refused (let_in inTime hosted (.inr ⟨c, _, at_, rfl⟩) there
    (Bool.eq_false_iff.mpr fun busy => ?_))
  obtain ⟨c', call, called⟩ := (inTime.orderly m q mgr there rfl).busy.mp busy
  obtain ⟨r, for_, at'⟩ := calling_of_callsOn called
  have other (owns : (Thread.calling r m for_ call).owns = some (r, m)) : False := by
    obtain rfl := owned.alone c c' _ _ q r m at_ at' rfl owns
    rw [at_] at at'
    simp at at'
  cases for_ with
  | restore via' => exact other rfl
  | save by_ => exact other rfl
  | reply => exact absurd rfl (owned.fresh c c' _ _ q r m at_ at' rfl)

theorem restored_step (inTime : InTime carried cfg p s) (owned : Owned s) (hosted : Hosted s)
    (sure : carried .restore) (caught : Caught p s) (step : Steps I cfg s a t) {c m i : Nat}
    {via : Via} {σ' : Session G} (at_ : t.threads.get c = some (.inserting p via true m))
    (now : t.At p m i σ') (running : σ'.running = true) : σ'.restored = true := by
  rcases thread_before step at_ with same | onward
  · obtain ⟨σ, was, runs, kept⟩ :=
      inTime.restored_kept owned step (owned.owner c _ p m same rfl) now running
    exact kept (caught.restored c via m i σ same was runs)
  · rcases onward.to_inserting with ⟨at', refused⟩ | ⟨call, r, at', left⟩
    · exact absurd refused (inTime.restore_enters owned hosted at')
    · obtain ⟨mgr, there⟩ := owned.owner c _ p m at' rfl
      obtain ⟨σ, was, runs, kept⟩ := inTime.restored_kept owned step ⟨mgr, there⟩ now running
      -- The command has returned with its answer, and by then it was carried out.
      have called := callsOn_calling at'
      have orderly := inTime.orderly m p mgr there rfl
      have asks : requestOf call.text = some .restore := by
        rw [show call.text = restoreText from owned.speaks c _ at']
        decide
      obtain ⟨current, listed, -⟩ := inTime.running hosted there (.inr ⟨c, _, at', rfl⟩) was runs
      rw [orderly.here c call called, Option.some.injEq] at current
      have does := orderly.does c call .restore called asks sure σ (current ▸ listed)
      rw [left] at does
      exact kept does

theorem caught_step (owned : Owned s) (hosted : Hosted s) (inTime : InTime carried cfg p s)
    (sure : carried .restore) (caught : Caught p s) (first : SavedFirst p s a)
    (step : Steps I cfg s a t) : Caught p t where
  missed _ _ at_ misses := missed_step owned inTime caught first step at_ misses
  loaded _ _ _ _ _ at_ brings now running restored :=
    loaded_step owned hosted inTime caught first step at_ brings now running restored
  restored _ _ _ _ _ at_ now running :=
    restored_step inTime owned hosted sure caught step at_ now running

/-- What is put in the table has the game of the save file, if there is one, and no
save is to come. -/
theorem Caught.enrols {c m : Nat} (caught : Caught p s) (enrols : s.enrols cfg c = some (p, m)) :
    s.entries.get p = none ∧ (∃ here, s.threads.get c = some here ∧ here.brings = some (p, m) ∧
      here.hosts = some (p, m)) ∧
    ((s.disks p).save = none ∧ s.Settled p ∨ ∀ i σ, s.At p m i σ → σ.running = true →
      (s.disks p).save = some σ.play ∧ s.Settled p) := by
  unfold Pool.enrols at enrols
  split at enrols
  · next q via hasSave n at_ =>
      simp only [Option.ite_none_right_eq_some, Option.some.injEq, Prod.mk.injEq] at enrols
      obtain ⟨⟨vacant, -⟩, rfl, rfl⟩ := enrols
      refine ⟨vacant, ⟨_, at_, rfl, rfl⟩, ?_⟩
      cases hasSave with
      | false => exact .inl (caught.missed c _ at_ rfl)
      | true =>
          exact .inr fun i σ now runs =>
            caught.loaded c _ n i σ at_ rfl now runs (caught.restored c via n i σ at_ now runs)
  · simp at enrols
/-! ## The state in which a session left -/

/-- A session leaves the table only when a goroutine takes it out. -/
theorem left_step (step : Steps I cfg s a t) (p : PlayerId) :
    t.left p = s.left p ∨ ∃ c by_ e, s.threads.get c = some (.deleting p by_) ∧
      s.entries.get p = some e ∧ t.left p = s.stateOf e.manager ∧ t.managers = s.managers ∧
      t.threads.get c = some (.saving p by_ e.manager) := by
  cases step with
  | inserts | touches => exact .inl (by simp)
  | @deletes c q by_ e at_ found =>
      by_cases here : p = q ∧ by_.save = true
      · obtain ⟨rfl, saved⟩ := here
        exact .inr ⟨c, by_, e, at_, found, by simp [saved], by simp, by simp [saved]⟩
      · refine .inl ?_
        simp only [goes_frame, delete_frame]
        split
        · next saved =>
            rw [update_of_ne fun same => here ⟨same, saved⟩]
        · rfl
  | _ => exact .inl rfl

/-- Every session that entered the table was in the state in which the last one
left it. -/
def Resumed (p : PlayerId) (s : Pool G) : Prop :=
  ∀ b ∈ s.begins, b.player = p → ∀ g ∈ b.left, b.state = some g

instance [DecidableEq G] (p : PlayerId) (s : Pool G) : Decidable (s.Resumed p) := by
  unfold Resumed
  infer_instance

/-- The state in which the last session left is the state of a session still to be
saved, or of the save file. -/
structure Remembers (p : PlayerId) (s : Pool G) : Prop where
  pending : ∀ m g, s.Pending p m → s.left p = some g → s.stateOf m = some g
  file : ∀ g, s.left p = some g → s.entries.get p = none →
    (∃ m, s.Pending p m) ∨ ∃ f, (s.disks p).save = some f ∧ f.state = g
  resumed : s.Resumed p

/-- What is kept of a player whose sessions are resumed as they should be. -/
structure Resuming (cfg : PoolConfig) (p : PlayerId) (s : Pool G) : Prop where
  inTime : InTime (fun _ => True) cfg p s
  lined : Lined p s
  unused : Unused p s
  caught : Caught p s
  remembers : Remembers p s

theorem resuming_init : Resuming cfg p (init : Pool G) where
  inTime := inTime_init
  lined := lined_init
  unused m saver := by
    obtain ⟨c, here, at_, -⟩ := saver
    simp [init] at at_
  caught := caught_init
  remembers := by
    refine ⟨fun m g pending left => ?_, fun g left => ?_, fun b listed => ?_⟩
    · simp [init] at left
    · simp [init] at left
    · simp [init] at listed

/-- Whatever enters the table has an interpreter that runs. -/
theorem Resuming.enrolled {c m : Nat} (resuming : Resuming cfg p s) (owned : Owned s)
    (enrols : s.enrols cfg c = some (p, m)) :
    ∃ i σ, s.At p m i σ ∧ σ.running = true ∧ s.stateOf m = some σ.play.state := by
  obtain ⟨-, ⟨here, at_, brings, hosts⟩, -⟩ := resuming.caught.enrols enrols
  obtain ⟨mgr, there⟩ :=
    owned.owner c here p m at_ (Thread.owns_of_starts (Thread.starts_of_brings brings))
  obtain ⟨i, σ, current, listed, up⟩ := resuming.inTime.current there (.inr ⟨c, here, at_, hosts⟩)
  exact ⟨i, σ, ⟨mgr, there, listed⟩, up.running, stateOf_current there current listed⟩

/-- It is in the state in which the last one left. -/
theorem Resuming.resumes {c m : Nat} {g : G} (resuming : Resuming cfg p s) (owned : Owned s)
    (enrols : s.enrols cfg c = some (p, m)) (left : s.left p = some g) :
    s.stateOf m = some g := by
  obtain ⟨i, σ, now, runs, state⟩ := resuming.enrolled owned enrols
  obtain ⟨vacant, -, found⟩ := resuming.caught.enrols enrols
  have settled : s.Settled p := found.elim And.right fun loaded => (loaded i σ now runs).2
  rcases resuming.remembers.file g left vacant with ⟨n, pending⟩ | ⟨f, saved, same⟩
  · exact absurd pending (settled.not_pending n)
  · rcases found with ⟨none_, -⟩ | loaded
    · rw [none_] at saved; simp at saved
    · rw [(loaded i σ now runs).1, Option.some.injEq] at saved
      rw [state, saved, same]

/-- It is in line with the save file. -/
theorem Resuming.inLine {c m : Nat} (resuming : Resuming cfg p s) (owned : Owned s)
    (enrols : s.enrols cfg c = some (p, m)) : s.Settled p ∧ s.UpToDate p m := by
  obtain ⟨i, σ, now, runs, -⟩ := resuming.enrolled owned enrols
  obtain ⟨-, -, found⟩ := resuming.caught.enrols enrols
  refine ⟨found.elim And.right fun loaded => (loaded i σ now runs).2, fun f saved τ listed runs' => ?_⟩
  rcases found with ⟨none_, -⟩ | loaded
  · rw [none_] at saved; simp at saved
  · obtain ⟨mgr, there, -⟩ := now
    rw [sessionsOf, there] at listed
    obtain ⟨j, at_⟩ := List.mem_iff_getElem?.mp listed
    rw [(loaded j τ ⟨mgr, there, at_⟩ runs').1] at saved
    simp only [Option.mem_def, Option.some.injEq] at saved
    rw [saved]

theorem remembers_step (resuming : Resuming cfg p s) (inTime' : InTime (fun _ => True) cfg p t)
    (owned : Owned s) (owned' : Owned t) (hosted : Hosted s) (only : SavesOnly s)
    (timely : Timely (fun _ => True) p s a) (step : Steps I cfg s a t) : Remembers p t := by
  have ⟨inTime, lined, unused, _, remembers⟩ := resuming
  refine ⟨fun m g pending left => ?_, fun g left vacant => ?_, fun b listed mine g left => ?_⟩
  · rcases pending_step owned step pending with before | ⟨c, by_, e, -, -, -, listed, rfl, after⟩
    · have saver' := before.goes_on inTime owned hosted only unused step
      rw [saver_state inTime inTime' owned owned' hosted unused step (before.saver only) saver']
      rcases left_step step p with same | ⟨c, by_, e, -, listed, -⟩
      · exact remembers.pending m g before (same ▸ left)
      · rw [lined.vacant m before] at listed; simp at listed
    · rw [after] at left ⊢
      simpa [Pool.stateOf] using left
  · rcases left_step step p with same | ⟨c, by_, e, at_, -, -, -, saving⟩
    · rw [same] at left
      cases listed : s.entries.get p with
      | some e =>
          rcases entry_after step listed with ⟨e', still, -⟩ | ⟨c, by_, at_, saving⟩
          · rw [vacant] at still; simp at still
          · cases by_ with
            | reset => exact absurd rfl (inTime.unreset c _ at_)
            | request | timer | shutdown => exact .inl ⟨_, .inl ⟨c, _, saving, rfl⟩⟩
      | none =>
          by_cases open_ : ∃ m, s.Pending p m
          · obtain ⟨m, pending⟩ := open_
            rcases pending_kept inTime inTime' owned owned' hosted only unused timely trivial step
                pending
              with still | ⟨f, saved, state⟩
            · exact .inl ⟨m, still⟩
            · rw [remembers.pending m g pending left, Option.some.injEq] at state
              exact .inr ⟨f, saved, state.symm⟩
          · obtain ⟨f, saved, state⟩ := (remembers.file g left listed).resolve_left open_
            refine .inr ⟨f, ?_, state⟩
            cases disk_step step p with
            | kept save => exact save.trans saved
            | @consumed m i ok σ σ' action was read =>
                rcases Session.consume_play read with ⟨-, -, same⟩ | ⟨-, same⟩ | ⟨saving, -⟩
                · rw [same]; exact saved
                · rw [same]; exact saved
                · have runs := (Session.consume_obeys read).1
                  exact absurd ⟨m, .inr ⟨i, σ, was, runs, saving⟩⟩ open_
            | wiped action at_ => exact absurd rfl (inTime.unreset _ _ at_)
            | emptied action at_ => exact absurd rfl (inTime.unreset _ _ at_)
    · exact .inl ⟨e.manager, .inl ⟨c, _, saving, rfl⟩⟩
  · rcases begins_step step with same | ⟨c, q, via, m, rfl, enrols, after⟩
    · exact remembers.resumed b (same ▸ listed) mine g left
    · have begins : t.begins = ⟨q, c, m, s.left q, s.stateOf m⟩ :: s.begins := by rw [after]; simp
      rw [begins, List.mem_cons] at listed
      rcases listed with rfl | old
      · obtain rfl := mine
        exact resuming.resumes owned enrols left
      · exact remembers.resumed b old mine g left

/-- What is put in the table is in line with the save file, and nothing is restarted. -/
theorem Resuming.lines_up (resuming : Resuming cfg p s) (owned : Owned s) (a : Act) :
    InLine cfg p s a := by
  unfold InLine
  split
  · rintro ⟨q, m⟩ enrols rfl
    exact resuming.inLine owned enrols
  · next c =>
      intro row restarts mine
      unfold Pool.restarts at restarts
      split at restarts
      · next q m call at_ =>
          simp only [Option.mem_def, Option.ite_none_right_eq_some, Option.some.injEq] at restarts
          obtain ⟨phase, rfl⟩ := restarts
          obtain rfl := mine
          obtain ⟨mgr, there⟩ := owned.user c _ q m at_ rfl
          have inTime :=
            (resuming.inTime.orderly m q mgr there rfl).phase _ _ (callsOn_calling at_)
          rw [phase] at inTime
          simp [Phase.inTime] at inTime
      · simp at restarts
  · trivial

theorem resuming_step (resuming : Resuming cfg p s) (owned : Owned s) (owned' : Owned t)
    (hosted : Hosted s) (hosted' : Hosted t) (only : SavesOnly s)
    (timely : Timely (fun _ => True) p s a) (whole : s.lags a ≠ some p)
    (unhurried : Unhurried p s a) (first : SavedFirst p s a) (step : Steps I cfg s a t) :
    Resuming cfg p t := by
  have inTime' := inTime_step resuming.inTime owned timely whole
    (fun c by_ m at_ => resuming.unused.shut owned resuming.inTime.unreset at_) step
  exact ⟨inTime', lined_step resuming.lined owned owned' hosted' (resuming.lines_up owned a) step,
    unused_step owned resuming.unused unhurried step,
    caught_step owned hosted resuming.inTime trivial resuming.caught first step,
    remembers_step resuming inTime' owned owned' hosted only timely step⟩

theorem resuming (reached : (pool I cfg).Reachable (fun s a =>
      ((SavedFirst p s a ∧ Unhurried p s a) ∧ s.lags a ≠ some p) ∧
        Timely (fun _ => True) p s a) s) : Resuming cfg.withDefaults p s :=
  reached.invariant resuming_init fun _ _ _ reached resuming guard taken =>
    resuming_step resuming (owned reached) (owned (reached.step guard taken)) (hosted reached)
      (hosted (reached.step guard taken)) (savesOnly reached) guard.2 guard.1.2 guard.1.1.2
      guard.1.1.1 (pool_steps taken)

end Pool

open Pool

/-- In every run in which the player's commands are answered in time and none is in
flight at an end, in which no reader stops before an answer is whole, and in which the
player's sessions are saved before a `Start` makes up its mind, each session of the
player is in the state in which the last one left. -/
theorem resumes_last_state {I : Interpreter G} {cfg : PoolConfig} {p : PlayerId} {s : Pool G}
    (reached : (pool I cfg).Reachable (fun s a =>
      ((SavedFirst p s a ∧ Unhurried p s a) ∧ s.lags a ≠ some p) ∧
        Timely (fun _ => True) p s a) s) : s.Resumed p :=
  (Pool.resuming reached).remembers.resumed

namespace Pool.Script

/-- A session is played, ended and resumed. -/
def returning : List Act :=
  starts alice 0 0 ++ [Act.go 0] ++ commands alice 1 look ++ plays 1 0 0 ++ ends alice 2 0 0 ++
    resumes alice 3 1 true ++ [Act.go 3]

/-- A session that was played leaves the table, and before it has been saved the
next one is started. -/
def hastening : List Act :=
  starts alice 0 0 ++ [Act.go 0] ++ commands alice 1 look ++ plays 1 0 0 ++
    [Act.call 2 (.endSession alice.text), .go 2] ++ starts alice 3 1 ++ [Act.go 3]

end Pool.Script

theorem resumes_last_state_alice :
    ∃ s : Pool (List Text), s.begins.map (·.state) = [some [Script.look], some []] ∧
      s.Resumed alice := by
  obtain ⟨s, reached, twice⟩ := System.reaches (pool terse smallPool)
    (fun s a => (SavedFirst alice s a ∧ Unhurried alice s a) ∧ s.lags a ≠ some alice)
    (fun s => s.begins.map (·.state) = [some [Script.look], some []])
    Script.returning (timely_of_script (by decide)) (by decide)
  exact ⟨s, twice, resumes_last_state (reached.mono fun _ _ guard => ⟨guard.1, guard.2 alice⟩)⟩

theorem start_overtakes_save :
    ∃ s, (pool terse smallPool).Reachable (fun s a => (Unhurried alice s a ∧ s.lags a = none) ∧
        ∀ q, Timely (fun _ => True) q s a) s ∧ ¬ s.Resumed alice := by
  obtain ⟨s, reached, overtaken⟩ := System.reaches (pool terse smallPool)
    (fun s a => Unhurried alice s a ∧ s.lags a = none) (fun s => ¬ s.Resumed alice)
    Script.hastening (timely_of_script (by decide)) (by decide)
  exact ⟨s, reached, overtaken⟩

end Zorkbot.Pty
