/-
# How many interpreters there are

`Start` compares the limit with the number of entries in the table, before it
creates its process and again before it inserts it. A process that another
`Start` is waiting for is in no entry yet, and one that is being saved and closed
is in none any more, so neither is counted.

Where `Start` creates a process only while entries and sessions outside the table
together leave room for it, and restarts find their sessions held, the number of
open processes never exceeds the limit.
-/

import Mathlib.Algebra.BigOperators.Fin
import Mathlib.Algebra.Order.BigOperators.Group.Finset
import Zorkbot.Pty.Orphans

namespace Zorkbot.Pty

open Go Transition

variable {G : Type}

/-- What is counted in places that are all held is at most the number of holders. -/
theorem sum_map_le_of_held {α : Type*} (l : List α) (f : α → Nat) (held : List Nat)
    (one : ∀ x ∈ l, f x ≤ 1) (mem : ∀ i x, l[i]? = some x → f x ≠ 0 → i ∈ held) :
    (l.map f).sum ≤ held.length := by
  have each (i : Fin (l.map f).length) :
      (l.map f)[i.1] ≤ if i.1 ∈ held then 1 else 0 := by
    have inside : i.1 < l.length := by simpa using i.2
    have value : (l.map f)[i.1] = f l[i.1] := List.getElem_map ..
    rw [value]
    split
    · exact one _ (List.getElem_mem inside)
    · next free =>
        by_contra more
        exact free (mem i.1 l[i.1] (List.getElem?_eq_getElem inside) (by omega))
  calc (l.map f).sum = ∑ i : Fin (l.map f).length, (l.map f)[i.1] :=
        (Fin.sum_univ_getElem _).symm
    _ ≤ ∑ i : Fin (l.map f).length, if i.1 ∈ held then 1 else 0 :=
        Finset.sum_le_sum fun i _ => each i
    _ = (Finset.univ.filter fun i : Fin (l.map f).length => i.1 ∈ held).card :=
        (Finset.card_filter ..).symm
    _ ≤ held.toFinset.card := by
        apply Finset.card_le_card_of_injOn (fun i => i.1)
        · intro i listed
          simpa using listed
        · intro i _ j _ same
          exact Fin.ext same
    _ ≤ held.length := List.toFinset_card_le held

/-- Of what is found in one place only there is at most one. -/
theorem countP_le_one {α : Type*} {l : List α} {q : α → Bool}
    (sole : ∀ (i j : Nat) (x y : α), l[i]? = some x → q x = true → l[j]? = some y →
      q y = true → i = j) :
    l.countP q ≤ 1 := by
  induction l with
  | nil => exact Nat.zero_le 1
  | cons x l ih =>
      have rest (i j : Nat) (y z : α) (there : l[i]? = some y) (first : q y = true)
          (there' : l[j]? = some z) (second : q z = true) : i = j :=
        Nat.succ.inj (sole (i + 1) (j + 1) y z there first there' second)
      rw [List.countP_cons]
      split
      · next here =>
          have none_ : l.countP q = 0 := by
            rw [List.countP_eq_zero]
            intro y listed other
            obtain ⟨j, there⟩ := List.mem_iff_getElem?.mp listed
            exact absurd (sole 0 (j + 1) x y rfl here there other) (by simp)
          omega
      · exact ih rest

namespace Pool

variable {I : Interpreter G} {cfg : PoolConfig} {s t : Pool G} {a : Act} {p : PlayerId}

/-- How many processes were started and not closed. -/
def processes (s : Pool G) : Nat :=
  (s.managers.map fun row => row.2.sessions.countP Session.isOpen).sum

/-- How many goroutines hold a session that is not in the table. -/
def owners (s : Pool G) : Nat := s.threads.count fun here => here.owns.isSome

/-- `Start` is about to create a process. -/
def launches (s : Pool G) (c : Nat) : Bool :=
  match s.threads.get c with
  | some (.launching ..) => true
  | _ => false

/-- `Start` creates a process only while the sessions in the table and those that
are being started, or saved and closed, are fewer than the limit. -/
def StartsWithin (cfg : PoolConfig) (s : Pool G) : Act → Prop
  | .move c (.relaunch .ok) =>
      s.launches c = true → (s.entries.size + s.owners : Int) < cfg.maxActiveSessions
  | _ => True

instance (cfg : PoolConfig) (s : Pool G) : (a : Act) → Decidable (StartsWithin cfg s a)
  | .move c (.relaunch .ok) => inferInstanceAs (Decidable (s.launches c = true → _ < _))
  | .move _ .write | .move _ (.poll _) | .move _ .drained | .move _ .leave |
    .move _ (.relaunch .noDir) | .move _ (.relaunch .noProcess) => inferInstanceAs (Decidable True)
  | .call .. | .fire .. | .go _ | .wipe .. | .env .. => inferInstanceAs (Decidable True)

/-! ## Counting the holders -/

/-- A goroutine that goes on is counted in its new place. -/
theorem owners_set (c : Nat) (next : Thread) (threads : t.threads = s.threads.set c next) :
    t.owners + ((s.threads.get c).map fun here => here.owns.isSome).elim 0 Bool.toNat =
      s.owners + next.owns.isSome.toNat := by
  rw [owners, owners, threads]
  exact Table.count_set ..

/-- A goroutine that takes over nothing adds no holder. -/
theorem Keeps.owners_le {c : Nat} {here next : Thread} (keeps : Keeps here next)
    (at_ : s.threads.get c = some here) (threads : t.threads = s.threads.set c next) :
    t.owners ≤ s.owners := by
  have counted := owners_set _ next threads
  have kept : next.owns.isSome.toNat ≤ here.owns.isSome.toNat := by
    cases owns : next.owns with
    | none => exact Nat.zero_le _
    | some row => rw [keeps.owns row.1 row.2 owns]
  rw [at_, Option.map_some, Option.elim_some] at counted
  omega

/-- A goroutine that takes a manager over adds one holder at most. -/
theorem owners_le_succ (c : Nat) (next : Thread) (threads : t.threads = s.threads.set c next) :
    t.owners ≤ s.owners + 1 := by
  have counted := owners_set _ next threads
  have one := Bool.toNat_le next.owns.isSome
  omega

/-- A goroutine that holds nothing afterwards adds no holder. -/
theorem owners_le (c : Nat) (next : Thread) (threads : t.threads = s.threads.set c next)
    (nothing : next.owns = none) : t.owners ≤ s.owners := by
  have counted := owners_set _ next threads
  rw [nothing] at counted
  simp only [Option.isSome_none, Bool.toNat_false] at counted
  omega

/-- A goroutine that gives its manager away is one holder less. -/
theorem owners_lt (c : Nat) {here : Thread} (next : Thread)
    (threads : t.threads = s.threads.set c next) (nothing : next.owns = none)
    (at_ : s.threads.get c = some here) (some_ : here.owns.isSome = true) :
    t.owners < s.owners := by
  have counted := owners_set _ next threads
  rw [at_, Option.map_some, Option.elim_some, nothing, some_] at counted
  simp only [Option.isSome_none, Bool.toNat_false, Bool.toNat_true] at counted
  omega

theorem touch_size {e : Entry} (found : s.entries.get p = some e) :
    (s.touch cfg p e).entries.size = s.entries.size := by
  unfold touch
  exact Table.size_set_bound found _

theorem insert_size {c m : Nat} (vacant : s.entries.get p = none) :
    (s.insert cfg p c m).entries.size = s.entries.size + 1 := by
  unfold Pool.insert
  exact Table.size_set_vacant vacant _

/-- Only `Start` adds a session, by creating its manager. -/
theorem holders_step (within : StartsWithin cfg s a)
    (room : (s.entries.size + s.owners : Int) ≤ cfg.maxActiveSessions)
    (step : Steps I cfg s a t) :
    (t.entries.size + t.owners : Int) ≤ cfg.maxActiveSessions := by
  -- The table is the same, and the goroutine takes over nothing.
  have same (entries : t.entries = s.entries) (fewer : t.owners ≤ s.owners) :
      (t.entries.size + t.owners : Int) ≤ cfg.maxActiveSessions := by
    rw [entries]
    omega
  have keeps {c : Nat} {here : Thread} (next : Thread) (at_ : s.threads.get c = some here)
      (kept : Keeps here next) (entries : t.entries = s.entries)
      (threads : t.threads = s.threads.set c next) :
      (t.entries.size + t.owners : Int) ≤ cfg.maxActiveSessions :=
    same entries (kept.owners_le at_ threads)
  cases step with
  | @calls c op new =>
      exact same rfl (owners_le c op.thread rfl op.thread_owns.1)
  | @fires timer c q num armed new =>
      exact same rfl (owners_le c (.autoEnding q num) rfl rfl)
  | passes at_ pass => exact keeps _ at_ pass.keeps rfl rfl
  | @inserts c q via hasSave m at_ vacant below =>
      have fewer : ((s.insert cfg q c m).goes c (.returned (.started q via none))).owners <
          s.owners := owners_lt c (.returned (.started q via none)) (by simp) rfl at_ rfl
      have size : ((s.insert cfg q c m).goes c (.returned (.started q via none))).entries.size =
          s.entries.size + 1 :=
        insert_size (c := c) vacant
      rw [size]
      omega
  | @touches c q text e at_ found =>
      have fewer : ((s.touch cfg q e).goes c (.commanding q e.manager text)).owners ≤ s.owners :=
        owners_le c (.commanding q e.manager text) (by simp) rfl
      have size : ((s.touch cfg q e).goes c (.commanding q e.manager text)).entries.size =
          s.entries.size := touch_size found
      rw [size]
      omega
  | @deletes c q by_ e at_ found =>
      generalize next_ : (if by_.save then Thread.saving q by_ e.manager
        else .closing q by_ e.manager) = next
      have more : ((s.delete q e by_.save).goes c next).owners ≤ s.owners + 1 :=
        owners_le_succ c next (by simp)
      have size : ((s.delete q e by_.save).goes c next).entries.size + 1 = s.entries.size :=
        Table.size_erase_bound found
      omega
  | enters at_ about there entered => exact keeps _ at_ (keeps_enters about entered) rfl rfl
  | @discards c q r via m err mgr mgr' at_ =>
      exact keeps (.returned (.started q via err)) at_ (.nothing rfl rfl trivial) rfl rfl
  | @wipes c q at_ => exact keeps (.checking q _) at_ (.nothing rfl rfl trivial) rfl rfl
  | keeps at_ | empties at_ | refuses at_ =>
      exact keeps (.returned _) at_ (.nothing rfl rfl trivial) rfl rfl
  | closes at_ =>
      obtain ⟨owns, uses, speaks⟩ := Thread.afterEnd_owns _ none _
      exact keeps _ at_ (.nothing owns uses speaks) rfl rfl
  | @lists c at_ =>
      refine keeps (firstDeletion s.entries.keys) at_ ?_ rfl rfl
      unfold firstDeletion
      split <;> exact .nothing rfl rfl trivial
  | @creates c q via hasSave spawn mgr d i at_ launched =>
      have more : ({ s.setDisk q d with managers := s.managers ++ [(q, mgr)] }.goes c
          (.booting q via hasSave s.managers.length i [])).owners ≤ s.owners + 1 :=
        owners_le_succ c (.booting q via hasSave s.managers.length i []) rfl
      have spawned : spawn = .ok := by
        cases spawn with
        | ok => rfl
        | noDir | noProcess => simp [Manager.launch, Manager.new] at launched
      subst spawned
      have below : (s.entries.size + s.owners : Int) < cfg.maxActiveSessions :=
        within (by simp [launches, at_])
      have size : ({ s.setDisk q d with managers := s.managers ++ [(q, mgr)] }.goes c
          (.booting q via hasSave s.managers.length i [])).entries.size = s.entries.size := rfl
      rw [size]
      omega
  | boots at_ there round => exact keeps _ at_ (keeps_boot ..) rfl rfl
  | advances at_ there advanced =>
      exact keeps _ at_ (keeps_advance (Manager.advances advanced)) rfl rfl
  | leaves at_ there advanced => exact keeps _ at_ (keeps_leave ..) rfl rfl
  | envs there happened => exact room

theorem holders {guard : Pool G → Act → Prop}
    (within : ∀ s a, guard s a → StartsWithin cfg.withDefaults s a)
    (reached : (pool I cfg).Reachable guard s) :
    (s.entries.size + s.owners : Int) ≤ cfg.withDefaults.maxActiveSessions := by
  refine reached.invariant ?_ fun s a _ _ room allowed taken =>
    holders_step (within s a allowed) room (pool_steps taken)
  exact cfg.maxActiveSessions_pos.le

/-! ## Counting the processes -/

/-- The managers that are held, each as often as it is. -/
def held (s : Pool G) : List Nat :=
  s.entries.rows.map (·.2.manager) ++
    (s.threads.rows.filterMap fun row => row.2.owns).map Prod.snd

theorem held_length (s : Pool G) : s.held.length = s.entries.size + s.owners := by
  simp only [held, List.length_append, List.length_map, List.length_filterMap_eq_countP]
  rfl

theorem Holds.mem_held {m : Nat} (holds : s.Holds p m) : m ∈ s.held := by
  rw [held, List.mem_append]
  rcases holds with ⟨e, listed, rfl⟩ | ⟨c, here, at_, owns⟩
  · exact .inl (List.mem_map.mpr ⟨⟨p, e⟩, Table.mem_rows_iff.mpr listed, rfl⟩)
  · refine .inr (List.mem_map.mpr ⟨(p, m), List.mem_filterMap.mpr ⟨⟨c, here⟩, ?_, owns⟩, rfl⟩)
    exact Table.mem_rows_iff.mpr at_

/-- Where every open process is cared for, there are no more of them than holders. -/
theorem processes_le (hosted : Hosted s) (opened : Opened s) (cared : Cared s) :
    s.processes ≤ s.held.length := by
  apply sum_map_le_of_held
  · rintro ⟨p, mgr⟩ listed
    obtain ⟨m, there⟩ := List.mem_iff_getElem?.mp listed
    exact countP_le_one fun i j σ τ first openFirst second openSecond =>
      (opened m p mgr there).sole (hosted m p mgr there) first openFirst second openSecond
  · rintro m ⟨p, mgr⟩ there some_
    obtain ⟨σ, listed, isOpen⟩ := List.countP_pos_iff.mp (Nat.pos_of_ne_zero some_)
    obtain ⟨i, found⟩ := List.mem_iff_getElem?.mp listed
    exact (cared p m i σ ⟨mgr, there, found⟩ isOpen).mem_held

end Pool

open Pool

/-- In every run in which `Start` creates a process only while the sessions in and
outside the table leave room, and restarts find their sessions held, there are
never more open processes than the limit. -/
theorem processes_bounded {I : Interpreter G} {cfg : PoolConfig} {s : Pool G}
    (reached : (pool I cfg).Reachable
      (fun s a => StartsWithin cfg.withDefaults s a ∧ RestartsHeld s a) s) :
    (s.processes : Int) ≤ cfg.withDefaults.maxActiveSessions := by
  have counted : s.processes ≤ s.held.length :=
    processes_le (hosted reached) (opened reached) (cared (fun _ _ => And.right) reached)
  have room : (s.entries.size + s.owners : Int) ≤ cfg.withDefaults.maxActiveSessions :=
    holders (fun _ _ => And.left) reached
  have length := held_length s
  omega

/-- A pool with room for one session. -/
def singlePool : PoolConfig := { smallPool with maxActiveSessions := 1 }

namespace Pool.Script

/-- Two sessions are started at once. -/
def crowding : List Act := starts alice 0 0 ++ starts bob 1 1

/-- A session is ended, and the next one started when its process is closed. -/
def succeeding : List Act :=
  starts alice 0 0 ++ [Act.go 0] ++ ends alice 1 0 0 ++ starts bob 2 1 ++ [Act.go 2]

end Pool.Script

theorem processes_bounded_alice :
    ∃ s : Pool (List Text), (s.managers.length = 2 ∧ s.processes = 1) ∧
      (s.processes : Int) ≤ singlePool.withDefaults.maxActiveSessions := by
  obtain ⟨s, reached, full⟩ := System.reaches (pool terse singlePool)
    (fun s a => StartsWithin singlePool.withDefaults s a ∧ RestartsHeld s a)
    (fun s => s.managers.length = 2 ∧ s.processes = 1) Script.succeeding
    (fun _ _ _ => trivial) (by decide)
  exact ⟨s, full, processes_bounded (reached.mono fun _ _ => And.left)⟩

theorem concurrent_starts_exceed_limit :
    ∃ s, (pool terse singlePool).Reachable (fun _ _ => True) s ∧
      ¬ (s.processes : Int) ≤ singlePool.withDefaults.maxActiveSessions := by
  obtain ⟨s, reached, both⟩ := System.reaches (pool terse singlePool) (fun _ _ => True)
    (fun s => ¬ (s.processes : Int) ≤ singlePool.withDefaults.maxActiveSessions)
    Script.crowding (fun _ _ _ => trivial) (by decide)
  exact ⟨s, reached.mono fun _ _ => And.left, both⟩

end Zorkbot.Pty
