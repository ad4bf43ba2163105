/-
# No fan-out is lost

What ties a session's queue, its worker and the two maps together: as long as the
queue holds a coroutine or the worker is at work, both are in their maps, and the
worker holds the very queue that the map has. A callback that runs late finds
either another worker in the map or nothing left to do.
-/

import Zorkbot.Bot.Fanout

namespace Zorkbot.Bot

open Transition

universe u

namespace Fanout

variable {γ : Type u} {s t : Fanout γ}

/-! ## What the operations do to the queues -/

/-- What waits for a session. -/
def waiting (s : Fanout γ) (k : Int) : List (Job γ) :=
  match s.queues.get k with
  | some q => s.contents q
  | none => []

/-- The map of queues gives each session a queue of its own, and whatever is in a
queue waits for a session. -/
structure Housed (s : Fanout γ) : Prop where
  known : ∀ {k q}, s.queues.get k = some q → q < s.objects.length
  apart : ∀ {k k' q}, s.queues.get k = some q → s.queues.get k' = some q → k = k'
  kept : ∀ {q}, s.contents q ≠ [] → ∃ k, s.queues.get k = some q

theorem waiting_of_get {k : Int} {q : Nat} (known : s.queues.get k = some q) :
    s.waiting k = s.contents q := by
  simp [waiting, known]

/-- A step that gives the queue of one session other contents and leaves the map
of queues alone. -/
structure Refills (s : Fanout γ) (k : Int) (q : Nat) (new : List (Job γ)) (t : Fanout γ) :
    Prop where
  known : s.queues.get k = some q
  queues : t.queues = s.queues
  objects : t.objects.length = s.objects.length
  contents : ∀ q', t.contents q' = if q = q' then new else s.contents q'

theorem refills_put (housed : s.Housed) {k : Int} {q : Nat} (known : s.queues.get k = some q)
    (j : Job γ) : s.Refills k q (s.contents q ++ [j]) (s.put q j) := by
  refine ⟨known, rfl, by simp [put], fun q' => ?_⟩
  simp only [contents, put, List.getElem?_modify]
  split
  · next same =>
      subst same
      simp [List.getElem?_eq_getElem (housed.known known)]
  · simp

theorem refills_take (housed : s.Housed) {k : Int} {q : Nat} (known : s.queues.get k = some q)
    (n : Nat) (j : Job γ) (rest : List (Job γ)) : s.Refills k q rest (s.take n q j rest) := by
  refine ⟨known, rfl, by simp [take, setTask], fun q' => ?_⟩
  simp only [contents, take, setTask, List.getElem?_set, housed.known known, if_true]
  split <;> rfl

theorem Housed.refill (housed : s.Housed) {k : Int} {q : Nat} {new : List (Job γ)}
    (refills : s.Refills k q new t) : t.Housed := by
  constructor
  · intro k' q' found
    rw [refills.objects]
    exact housed.known (refills.queues ▸ found)
  · rw [refills.queues]
    exact housed.apart
  · intro q' filled
    rw [refills.contents] at filled
    rw [refills.queues]
    split at filled
    · next same => exact ⟨k, same ▸ refills.known⟩
    · exact housed.kept filled

theorem waiting_refill (housed : s.Housed) {k : Int} {q : Nat} {new : List (Job γ)}
    (refills : s.Refills k q new t) (k' : Int) :
    t.waiting k' = if k' = k then new else s.waiting k' := by
  have known := refills.known
  unfold waiting
  rw [refills.queues]
  split
  · next q' found =>
      rw [refills.contents]
      by_cases same : k' = k
      · subst same
        have one : q = q' := by simpa [known] using found
        rw [if_pos one, if_pos rfl]
      · have other : q ≠ q' := fun one => same (housed.apart found (one ▸ known))
        rw [if_neg other, if_neg same]
  · next missing =>
      have other : k' ≠ k := by
        rintro rfl
        rw [known] at missing
        cases missing
      rw [if_neg other]

theorem contents_open (k : Int) (q : Nat) (s : Fanout γ) :
    (s.open_ k).contents q = s.contents q := by
  simp only [contents, open_, List.getElem?_append]
  split
  · rfl
  · next beyond =>
      rw [List.getElem?_eq_none (Nat.le_of_not_lt beyond)]
      cases q - s.objects.length <;> rfl

theorem Housed.open_ (housed : s.Housed) {k : Int} (missing : s.queues.get k = none) :
    (s.open_ k).Housed := by
  constructor
  · intro k' q found
    simp only [Fanout.open_, Table.get_set, List.length_append, List.length_singleton] at found ⊢
    split at found
    · simp only [Option.some.injEq] at found
      omega
    · have bound := housed.known found
      omega
  · intro k₁ k₂ q first second
    simp only [Fanout.open_, Table.get_set] at first second
    split at first <;> split at second
    · next one two => rw [one, two]
    · have bound := housed.known second
      simp only [Option.some.injEq] at first
      omega
    · have bound := housed.known first
      simp only [Option.some.injEq] at second
      omega
    · exact housed.apart first second
  · intro q filled
    rw [contents_open] at filled
    obtain ⟨k', found⟩ := housed.kept filled
    have other : k' ≠ k := by
      rintro rfl
      rw [missing] at found
      cases found
    exact ⟨k', by simp [Fanout.open_, Table.get_set, other, found]⟩

theorem waiting_open {k : Int} (missing : s.queues.get k = none) (k' : Int) :
    (s.open_ k).waiting k' = s.waiting k' := by
  unfold waiting
  have found : (s.open_ k).queues.get k' =
      if k' = k then some s.objects.length else s.queues.get k' := Table.get_set _ _ _ _
  rw [found]
  by_cases same : k' = k
  · subst same
    simp only [if_true, contents_open, missing]
    simp [contents]
  · simp only [if_neg same, contents_open]

theorem Housed.forget (housed : s.Housed) {k : Int} (empty : s.waiting k = []) :
    (s.forget k).Housed := by
  constructor
  · intro k' q found
    simp only [Fanout.forget, Table.get_erase] at found
    split at found
    · cases found
    · exact housed.known found
  · intro k₁ k₂ q first second
    simp only [Fanout.forget, Table.get_erase] at first second
    split at first <;> split at second
    · cases first
    · cases first
    · cases second
    · exact housed.apart first second
  · intro q filled
    obtain ⟨k', found⟩ := housed.kept filled
    have other : k' ≠ k := by
      rintro rfl
      rw [waiting_of_get found] at empty
      exact filled empty
    exact ⟨k', by simp [Fanout.forget, Table.get_erase, other, found]⟩

theorem waiting_forget {k : Int} (empty : s.waiting k = []) (k' : Int) :
    (s.forget k).waiting k' = s.waiting k' := by
  by_cases same : k' = k
  · subst same
    rw [empty]
    simp [waiting, Fanout.forget]
  · have found : (s.forget k).queues.get k' = s.queues.get k' := by
      simp [Fanout.forget, Table.get_erase, same]
    unfold waiting
    rw [found]
    rfl

/-! ## The four situations -/

/-- What the worker, the registered queue and its contents look like together. -/
inductive Desk : Option (Consumer γ) → Option Nat → List (Job γ) → Prop
  | unknown : Desk none none []
  | fresh {q : Nat} {line : List (Job γ)} (filled : line ≠ []) : Desk (some .created) (some q) line
  | busy {q : Nat} {j : Job γ} {line : List (Job γ)} : Desk (some (.running q j)) (some q) line
  /-- The callback of the worker is scheduled. -/
  | past {q : Nat} : Desk (some .done) (some q) []

structure Sound (s : Fanout γ) : Prop where
  staffed : s.workers.Staffed fun w => w.live = true
  housed : s.Housed
  desk : ∀ k, Desk (s.worker k) (s.queues.get k) (s.waiting k)
  /-- What waits for a session or is awaited for it was queued for it. -/
  own : ∀ k j, (j ∈ s.waiting k ∨ (s.worker k).bind Consumer.job = some j) → j.session = k

section Situations

variable {w : Option (Consumer γ)} {queue : Option Nat} {line : List (Job γ)}

theorem Desk.unknown_of_missing (desk : Desk w none line) : w = none := by
  cases desk
  rfl

theorem Desk.filled (desk : Desk (some .created) queue line) :
    ∃ q, queue = some q ∧ line ≠ [] := by
  cases desk with
  | fresh filled => exact ⟨_, rfl, filled⟩

theorem Desk.holds {q : Nat} {j : Job γ} (desk : Desk (some (.running q j)) queue line) :
    queue = some q := by
  cases desk
  rfl

theorem Desk.idle {q : Nat} (desk : Desk w (some q) line) (free : w.any Consumer.live = false) :
    w = some .done ∧ line = [] := by
  cases desk with
  | fresh | busy => simp [Consumer.live] at free
  | past => exact ⟨rfl, rfl⟩

theorem Desk.served (desk : Desk w queue line) (filled : line ≠ []) :
    w.any Consumer.live = true := by
  cases desk with
  | unknown | past => exact absurd rfl filled
  | fresh | busy => rfl

theorem Desk.empty_of_done (desk : Desk (some .done) queue line) : line = [] := by
  cases desk
  rfl

end Situations

/-! ## The steps -/

/-- The coroutine a call of `_fanout` queues. -/
def arriving (s : Fanout γ) (k : Int) (coro : γ) : Job γ := ⟨k, coro, s.accepted.length⟩

/-- What one step of the fan-out can do. -/
inductive Steps (s : Fanout γ) : Act γ → Fanout γ → Prop
  | opens {k : Int} {coro : γ} (missing : s.queues.get k = none) (unknown : s.worker k = none) :
      Steps s (.fanout k coro)
        (((s.open_ k).put s.objects.length (s.arriving k coro)).employ k)
  | queues {k : Int} {coro : γ} {q : Nat} (known : s.queues.get k = some q)
      (busy : s.busy k = true) : Steps s (.fanout k coro) (s.put q (s.arriving k coro))
  | restarts {k : Int} {coro : γ} {q : Nat} (known : s.queues.get k = some q)
      (past : s.worker k = some .done) :
      Steps s (.fanout k coro) ((s.put q (s.arriving k coro)).employ k)
  | begins {k : Int} {n q : Nat} {j : Job γ} {rest : List (Job γ)}
      (there : s.workers.task n = some (k, .created)) (known : s.queues.get k = some q)
      (line : s.contents q = j :: rest) : Steps s (.begin n) (s.take n q j rest)
  | rests {k : Int} {n q : Nat} {j : Job γ} {outcome : Outcome}
      (there : s.workers.task n = some (k, .running q j)) (known : s.queues.get k = some q)
      (line : s.contents q = []) : Steps s (.finish n outcome) ((s.ended j).setTask n .done)
  | continues {k : Int} {n q : Nat} {i j : Job γ} {rest : List (Job γ)} {outcome : Outcome}
      (there : s.workers.task n = some (k, .running q i)) (known : s.queues.get k = some q)
      (line : s.contents q = j :: rest) :
      Steps s (.finish n outcome) ((s.ended i).take n q j rest)
  | closes {k : Int} {n : Nat} (there : s.workers.task n = some (k, .done))
      (current : s.workers.registered.get k = some n) :
      Steps s (.callback n) ((s.setTask n .settled).forget k)
  | ignores {k : Int} {n : Nat} (there : s.workers.task n = some (k, .done))
      (replaced : s.workers.registered.get k ≠ some n) :
      Steps s (.callback n) (s.setTask n .settled)

theorem fanout_cases (sound : s.Sound) (k : Int) (coro : γ) :
    Steps s (.fanout k coro) (s.fanout k coro) := by
  have desk := sound.desk k
  cases known : s.queues.get k with
  | none =>
      rw [known] at desk
      have unknown := desk.unknown_of_missing
      have opened : s.fanout k coro =
          ((s.open_ k).put s.objects.length (s.arriving k coro)).employ k := by
        simp only [Fanout.fanout, known]
        apply if_neg
        change ¬ (s.worker k).any _ = true
        simp [unknown]
      rw [opened]
      exact .opens known unknown
  | some q =>
      have unfolded : s.fanout k coro = if s.busy k then s.put q (s.arriving k coro)
          else (s.put q (s.arriving k coro)).employ k := by
        simp only [Fanout.fanout, known]
        rfl
      rw [unfolded]
      split
      · next busy => exact .queues known busy
      · next free =>
          rw [known] at desk
          exact .restarts known (desk.idle (by simpa [busy] using free)).1

theorem fanout_steps (sound : s.Sound) {a : Act γ} (taken : s.step a = some t) :
    Steps s a t := by
  cases a with
  | fanout k coro =>
      simp only [step, Option.some.injEq] at taken
      exact taken ▸ fanout_cases sound k coro
  | begin n =>
      simp only [step] at taken
      split at taken
      · next k there =>
          have desk := sound.desk k
          rw [worker, sound.staffed.current there rfl] at desk
          obtain ⟨q, known, filled⟩ := desk.filled
          rw [waiting_of_get known] at filled
          simp only [known, Option.some.injEq, turn] at taken
          split at taken
          · next empty => exact absurd empty filled
          · next j rest line => exact taken ▸ .begins there known line
      · simp at taken
  | finish n outcome =>
      simp only [step] at taken
      split at taken
      · next k q j there =>
          have desk := sound.desk k
          rw [worker, sound.staffed.current there rfl] at desk
          have known := desk.holds
          have same : (s.ended j).contents q = s.contents q := rfl
          simp only [Option.some.injEq, turn, same] at taken
          split at taken
          · next empty => exact taken ▸ .rests there known empty
          · next j rest line => exact taken ▸ .continues there known line
      · simp at taken
  | callback n =>
      simp only [step] at taken
      split at taken
      · next k there =>
          simp only [Option.some.injEq, onFanoutDone] at taken
          have registered : (s.setTask n .settled).workers.registered = s.workers.registered := rfl
          rw [registered] at taken
          split at taken
          · next replaced => exact taken ▸ .ignores there replaced
          · next current =>
              have current := not_not.mp current
              have desk := sound.desk k
              have past : s.worker k = some .done := by
                simp [worker, Roster.current, current, there]
              rw [past] at desk
              have empty := desk.empty_of_done
              have nothing : ((s.setTask n .settled).queues.get k).any
                  (fun q => (s.setTask n .settled).contents q ≠ []) = false := by
                change (s.queues.get k).any (fun q => s.contents q ≠ []) = false
                cases known : s.queues.get k with
                | none => rfl
                | some q => simpa [waiting_of_get known] using empty
              rw [nothing] at taken
              exact taken ▸ .closes there current
      · simp at taken

/-! ## The invariant -/

/-- What is kept at one session's desk. -/
structure Keeps (s : Fanout γ) (k : Int) : Prop where
  desk : Desk (s.worker k) (s.queues.get k) (s.waiting k)
  own : ∀ j, (j ∈ s.waiting k ∨ (s.worker k).bind Consumer.job = some j) → j.session = k

theorem Sound.keeps (sound : s.Sound) (k : Int) : s.Keeps k := ⟨sound.desk k, sound.own k⟩

theorem Sound.of_keeps (staffed : s.workers.Staffed fun w => w.live = true) (housed : s.Housed)
    (keeps : ∀ k, s.Keeps k) : s.Sound :=
  ⟨staffed, housed, fun k => (keeps k).desk, fun k => (keeps k).own⟩

/-- A session whose worker, queue and waiting coroutines stay the same. -/
theorem Keeps.same {k : Int} (keeps : s.Keeps k) (worker : t.worker k = s.worker k)
    (queue : t.queues.get k = s.queues.get k) (waiting : t.waiting k = s.waiting k) :
    t.Keeps k := by
  constructor
  · rw [worker, queue, waiting]
    exact keeps.desk
  · rw [worker, waiting]
    exact keeps.own

theorem busy_eq_false_of {k : Int} {w : Option (Consumer γ)} (now : s.worker k = w)
    (idle : w.any Consumer.live = false) :
    ∀ v, s.workers.current k = some v → ¬ v.live = true := by
  intro v found
  have same : w = some v := now.symm.trans found
  simpa [same] using idle

/-- A worker is created for a session that has something in its queue. -/
theorem sound_employ {k : Int} {q : Nat} (staffed : s.workers.Staffed fun w => w.live = true)
    (housed : s.Housed) (keeps : ∀ k', k' ≠ k → s.Keeps k') (known : s.queues.get k = some q)
    (filled : s.waiting k ≠ []) (own : ∀ j ∈ s.waiting k, j.session = k)
    (idle : ∀ v, s.workers.current k = some v → ¬ v.live = true) : (s.employ k).Sound := by
  apply Sound.of_keeps
  · exact staffed.hire _ idle
  · exact ⟨housed.known, housed.apart, housed.kept⟩
  · intro k'
    have worker : (s.employ k).worker k' = if k' = k then some .created else s.worker k' :=
      Roster.current_hire staffed k k' _
    by_cases same : k' = k
    · subst same
      rw [if_pos rfl] at worker
      constructor
      · rw [worker]
        change Desk _ (s.queues.get k') (s.waiting k')
        rw [known]
        exact .fresh filled
      · intro j placed
        rw [worker] at placed
        rcases placed with waits | runs
        · exact own j waits
        · simp [Consumer.job] at runs
    · rw [if_neg same] at worker
      exact (keeps k' same).same worker rfl rfl

theorem sound_take {k : Int} {n q : Nat} {w : Consumer γ} {j : Job γ} {rest : List (Job γ)}
    (sound : s.Sound) (there : s.workers.task n = some (k, w)) (live : w.live = true)
    (known : s.queues.get k = some q) (line : s.contents q = j :: rest) :
    (s.take n q j rest).Sound := by
  have refills := refills_take sound.housed known n j rest
  apply Sound.of_keeps
  · exact sound.staffed.move _ there live
  · exact sound.housed.refill refills
  · intro k'
    have worker : (s.take n q j rest).worker k' =
        if k' = k then some (.running q j) else s.worker k' :=
      Roster.current_move sound.staffed _ there live k'
    have waiting := waiting_refill sound.housed refills k'
    by_cases same : k' = k
    · subst same
      have all : s.waiting k' = j :: rest := (waiting_of_get known).trans line
      rw [if_pos rfl] at worker waiting
      constructor
      · rw [worker, waiting, refills.queues, known]
        exact .busy
      · intro i placed
        apply sound.own k' i
        rw [worker, waiting] at placed
        rw [all]
        rcases placed with waits | runs
        · exact .inl (List.mem_cons_of_mem _ waits)
        · have one : j = i := by simpa [Consumer.job] using runs
          exact .inl (one ▸ List.mem_cons_self)
    · rw [if_neg same] at worker waiting
      exact (sound.keeps k').same worker (by rw [refills.queues]) waiting

theorem sound_put {k : Int} {q : Nat} {j : Job γ} (sound : s.Sound)
    (known : s.queues.get k = some q) (mine : j.session = k) (busy : s.busy k = true) :
    (s.put q j).Sound := by
  have refills := refills_put sound.housed known j
  apply Sound.of_keeps
  · exact sound.staffed
  · exact sound.housed.refill refills
  · intro k'
    have waiting := waiting_refill sound.housed refills k'
    by_cases same : k' = k
    · subst same
      rw [if_pos rfl] at waiting
      have desk := sound.desk k'
      have all := waiting_of_get known
      constructor
      · change Desk (s.worker k') (s.queues.get k') _
        unfold Fanout.busy at busy
        rw [waiting, known]
        rw [known, all] at desk
        generalize s.worker k' = w at desk busy
        generalize s.contents q = line at desk
        cases desk with
        | fresh => exact .fresh (by simp)
        | busy => exact .busy
        | past => simp [Consumer.live] at busy
      · intro i placed
        rw [waiting] at placed
        rcases placed with waits | runs
        · rcases List.mem_append.mp waits with before | new
          · exact sound.own k' i (.inl (all ▸ before))
          · rw [List.mem_singleton.mp new]
            exact mine
        · exact sound.own k' i (.inr runs)
    · rw [if_neg same] at waiting
      exact (sound.keeps k').same rfl rfl waiting

theorem sound_ended (sound : s.Sound) (j : Job γ) : (s.ended j).Sound :=
  ⟨sound.staffed, ⟨sound.housed.known, sound.housed.apart, sound.housed.kept⟩, sound.desk,
    sound.own⟩

theorem sound_rest {k : Int} {n q : Nat} {j : Job γ} (sound : s.Sound)
    (there : s.workers.task n = some (k, .running q j)) (known : s.queues.get k = some q)
    (line : s.contents q = []) : (s.setTask n .done).Sound := by
  apply Sound.of_keeps
  · exact sound.staffed.move _ there rfl
  · exact ⟨sound.housed.known, sound.housed.apart, sound.housed.kept⟩
  · intro k'
    have worker : (s.setTask n .done).worker k' = if k' = k then some .done else s.worker k' :=
      Roster.current_move sound.staffed _ there rfl k'
    by_cases same : k' = k
    · subst same
      have empty : s.waiting k' = [] := (waiting_of_get known).trans line
      rw [if_pos rfl] at worker
      constructor
      · rw [worker]
        change Desk _ (s.queues.get k') (s.waiting k')
        rw [known, empty]
        exact .past
      · intro i placed
        rw [worker] at placed
        rcases placed with waits | runs
        · exact sound.own k' i (.inl waits)
        · simp [Consumer.job] at runs
    · rw [if_neg same] at worker
      exact (sound.keeps k').same worker rfl rfl

theorem sound_close {k : Int} {n : Nat} (sound : s.Sound)
    (there : s.workers.task n = some (k, .done))
    (current : s.workers.registered.get k = some n) :
    ((s.setTask n .settled).forget k).Sound := by
  have past : s.worker k = some .done := by simp [worker, Roster.current, current, there]
  have desk := sound.desk k
  rw [past] at desk
  have empty : (s.setTask n .settled).waiting k = [] := desk.empty_of_done
  have housed : (s.setTask n .settled).Housed :=
    ⟨sound.housed.known, sound.housed.apart, sound.housed.kept⟩
  have retired := sound.staffed.retire n (w := .settled) (by simp [Consumer.live])
  apply Sound.of_keeps
  · apply retired.dismiss
    intro v now
    change (s.workers.registered.get k).bind
      (fun m => ((s.workers.move n .settled).task m).map (·.2)) = some v at now
    rw [current, Option.bind_some, Roster.task_move, if_pos rfl, there] at now
    cases now
    simp [Consumer.live]
  · exact housed.forget empty
  · intro k'
    have waiting := waiting_forget empty k'
    have worker : ((s.setTask n .settled).forget k).worker k' =
        if k' = k then none else (s.setTask n .settled).worker k' :=
      Roster.current_dismiss _ k k'
    have queue : ((s.setTask n .settled).forget k).queues.get k' =
        if k' = k then none else s.queues.get k' := Table.get_erase _ _ _
    by_cases same : k' = k
    · subst same
      rw [if_pos rfl] at worker queue
      constructor
      · rw [worker, queue, waiting, empty]
        exact .unknown
      · intro j placed
        rw [worker, waiting, empty] at placed
        simp at placed
    · rw [if_neg same] at worker queue
      have before : (s.setTask n .settled).worker k' = s.worker k' :=
        Roster.current_move_of_ne sound.staffed _ there same
      exact (sound.keeps k').same (worker.trans before) queue waiting

theorem sound_ignore {k : Int} {n : Nat} (sound : s.Sound)
    (there : s.workers.task n = some (k, .done))
    (replaced : s.workers.registered.get k ≠ some n) : (s.setTask n .settled).Sound := by
  apply Sound.of_keeps
  · exact sound.staffed.retire n (by simp [Consumer.live])
  · exact ⟨sound.housed.known, sound.housed.apart, sound.housed.kept⟩
  · intro k'
    have worker : (s.setTask n .settled).worker k' = s.worker k' :=
      Roster.current_move_replaced sound.staffed _ there replaced k'
    exact (sound.keeps k').same worker rfl rfl

/-- A coroutine arrives at a queue whose session has no live worker. -/
theorem sound_restart {k : Int} {q : Nat} {j : Job γ}
    (staffed : s.workers.Staffed fun w => w.live = true) (housed : s.Housed)
    (keeps : ∀ k', k' ≠ k → s.Keeps k') (known : s.queues.get k = some q)
    (own : ∀ i ∈ s.waiting k, i.session = k) (mine : j.session = k)
    (idle : ∀ v, s.workers.current k = some v → ¬ v.live = true) :
    ((s.put q j).employ k).Sound := by
  have refills := refills_put housed known j
  have waiting := waiting_refill housed refills
  have here : (s.put q j).waiting k = s.waiting k ++ [j] := by
    rw [waiting, if_pos rfl, waiting_of_get known]
  apply sound_employ (q := q)
  · exact staffed
  · exact housed.refill refills
  · intro k' other
    exact (keeps k' other).same rfl rfl (by rw [waiting, if_neg other])
  · exact known
  · rw [here]
    simp
  · intro i placed
    rw [here] at placed
    rcases List.mem_append.mp placed with before | new
    · exact own i before
    · rw [List.mem_singleton.mp new]
      exact mine
  · exact idle

theorem sound_step (sound : s.Sound) {a : Act γ} (taken : s.step a = some t) : t.Sound := by
  cases fanout_steps sound taken with
  | @opens k coro missing unknown =>
      have housed := sound.housed.open_ missing
      have waiting := waiting_open missing
      apply sound_restart
      · exact sound.staffed
      · exact housed
      · intro k' other
        have queue : (s.open_ k).queues.get k' = s.queues.get k' := by
          simp [open_, Table.get_set, other]
        exact (sound.keeps k').same rfl queue (waiting k')
      · exact Table.get_set_self _ _ _
      · intro i placed
        rw [waiting] at placed
        exact sound.own k i (.inl placed)
      · rfl
      · exact busy_eq_false_of unknown rfl
  | queues known busy => exact sound_put sound known rfl busy
  | restarts known past =>
      apply sound_restart
      · exact sound.staffed
      · exact sound.housed
      · exact fun k' _ => sound.keeps k'
      · exact known
      · exact fun i placed => sound.own _ i (.inl placed)
      · rfl
      · exact busy_eq_false_of past rfl
  | begins there known line => exact sound_take sound there rfl known line
  | rests there known line => exact sound_rest (sound_ended sound _) there known line
  | continues there known line => exact sound_take (sound_ended sound _) there rfl known line
  | closes there current => exact sound_close sound there current
  | ignores there replaced => exact sound_ignore sound there replaced

theorem sound_init : (init : Fanout γ).Sound := by
  apply Sound.of_keeps
  · exact Roster.staffed_empty
  · constructor
    · intro k q found
      simp [init] at found
    · intro k k' q found
      simp [init] at found
    · intro q filled
      simp [contents, init] at filled
  · intro k
    constructor
    · exact .unknown
    · intro j placed
      rcases placed with waits | runs
      · simp [waiting, init] at waits
      · simp [worker, init, Roster.current, Roster.empty] at runs

/-- Every state of every run is sound. -/
theorem sound (reached : (fanouts γ).Reachable (fun _ _ => True) s) : s.Sound := by
  apply reached.invariant (motive := Sound)
  · exact sound_init
  · intro s a t _ sound _ taken
    exact sound_step sound taken

end Fanout

end Zorkbot.Bot
