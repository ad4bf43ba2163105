/-
# Buckets of time

The buckets of one width start at the multiples of the width, and a time falls into the one
that starts last before it. When a dictionary binds the start of every bucket that is needed,
counting into it changes no more than the counts.
-/

import Mathlib.Algebra.BigOperators.Group.List.Basic
import Mathlib.Algebra.Order.Group.Int
import Mathlib.Algebra.Ring.Int.Defs
import Zorkbot.Data.OrderedDict

universe u v

namespace Buckets

/-- How long a bucket is. -/
structure Width where
  seconds : Int
  positive : 0 < seconds

variable {ρ : Type u} {β : Type v} {w : Width} {s t to_ : Int}

/-! ## Starts -/

/-- The start of the bucket that a time falls into. -/
def floor (w : Width) (t : Int) : Int := t - t % w.seconds

theorem floor_eq_mul (w : Width) (t : Int) : floor w t = w.seconds * (t / w.seconds) := by
  rw [floor, Int.emod_def]
  omega

theorem floor_le (w : Width) (t : Int) : floor w t ≤ t := by
  have remainder := Int.emod_nonneg t w.positive.ne'
  unfold floor
  omega

theorem lt_floor_add (w : Width) (t : Int) : t < floor w t + w.seconds := by
  have remainder := Int.emod_lt_of_pos t w.positive
  unfold floor
  omega

theorem dvd_floor (w : Width) (t : Int) : w.seconds ∣ floor w t := Int.dvd_self_sub_emod

/-- A time falls into the bucket that starts at a multiple and lasts until after it. -/
theorem floor_eq_iff : floor w t = s ↔ w.seconds ∣ s ∧ s ≤ t ∧ t < s + w.seconds := by
  constructor
  · rintro rfl
    exact ⟨dvd_floor w t, floor_le w t, lt_floor_add w t⟩
  · rintro ⟨⟨n, rfl⟩, starts, lasts⟩
    have split : t / w.seconds = n ∧ t % w.seconds = t - w.seconds * n :=
      (Int.ediv_emod_unique w.positive).mpr ⟨by omega, by omega, by omega⟩
    rw [floor, split.2]
    omega

/-- A later time falls into no earlier bucket. -/
theorem floor_mono (le : s ≤ t) : floor w s ≤ floor w t := by
  rw [floor_eq_mul, floor_eq_mul]
  exact Int.mul_le_mul_of_nonneg_left (Int.ediv_le_ediv w.positive le) w.positive.le

/-- Times a width apart, from one on and up to another. -/
def steps (w : Width) (to_ t : Int) : List Int :=
  if t ≤ to_ then t :: steps w to_ (t + w.seconds) else []
termination_by (to_ + 1 - t).toNat
decreasing_by
  have positive := w.positive
  omega

theorem mem_steps : s ∈ steps w to_ t ↔ w.seconds ∣ s - t ∧ t ≤ s ∧ s ≤ to_ := by
  fun_induction steps w to_ t with
  | case1 t within ih =>
      rw [List.mem_cons, ih]
      constructor
      · rintro (rfl | ⟨multiple, after, before⟩)
        · exact ⟨by simp, le_rfl, within⟩
        · have positive := w.positive
          refine ⟨?_, by omega, before⟩
          rw [show s - t = s - (t + w.seconds) + w.seconds by omega]
          exact Int.dvd_add multiple (Int.dvd_refl _)
      · rintro ⟨multiple, after, before⟩
        rcases after.eq_or_lt with same | later
        · exact .inl same.symm
        · have far := Int.le_of_dvd (by omega) multiple
          refine .inr ⟨?_, by omega, before⟩
          rw [show s - (t + w.seconds) = s - t - w.seconds by omega]
          exact Int.dvd_sub multiple (Int.dvd_refl _)
  | case2 t beyond =>
      refine iff_of_false List.not_mem_nil ?_
      rintro ⟨-, after, before⟩
      exact beyond (after.trans before)

theorem ascending_steps (w : Width) (to_ t : Int) : (steps w to_ t).Pairwise (· < ·) := by
  fun_induction steps w to_ t with
  | case1 t within ih =>
      refine List.pairwise_cons.mpr ⟨fun s there => ?_, ih⟩
      have positive := w.positive
      have after := (mem_steps.mp there).2.1
      omega
  | case2 => exact List.Pairwise.nil

theorem length_steps (le : t ≤ to_ + w.seconds) :
    ((steps w to_ t).length : Int) = (to_ - t) / w.seconds + 1 := by
  fun_induction steps w to_ t with
  | case1 t within ih =>
      rw [List.length_cons, Int.natCast_add_one, ih (by omega)]
      have shift : to_ - t = to_ - (t + w.seconds) + w.seconds * 1 := by omega
      rw [shift, Int.add_mul_ediv_left _ _ w.positive.ne']
  | case2 t beyond =>
      have positive := w.positive
      have last : (to_ - t) / w.seconds = -1 := by
        rw [Int.ediv_eq_iff_of_pos positive]
        omega
      rw [last]
      rfl

/-! ## Counts -/

/-- Every start from one on is bound, up to a time. -/
def fill (w : Width) (zero : β) (to_ t : Int) (d : OrderedDict Int β) : OrderedDict Int β :=
  if t ≤ to_ then fill w zero to_ (t + w.seconds) (d.set t zero) else d
termination_by (to_ + 1 - t).toNat
decreasing_by
  have positive := w.positive
  omega

theorem items_fill {zero : β} {d : OrderedDict Int β} (below : ∀ s ∈ d.keys, s < t) :
    (fill w zero to_ t d).items = d.items ++ (steps w to_ t).map fun s => (s, zero) := by
  fun_induction fill w zero to_ t d with
  | case1 t d within ih =>
      have new : t ∉ d.keys := fun there => lt_irrefl t (below t there)
      have items := OrderedDict.items_set_new new zero
      rw [ih, items, steps.eq_def w to_ t, if_pos within, List.map_cons, List.append_assoc,
        List.singleton_append]
      intro s there
      rw [OrderedDict.keys, items, List.map_append, List.mem_append] at there
      have positive := w.positive
      rcases there with before | now
      · have earlier := below s before
        omega
      · have same : s = t := by simpa using now
        omega
  | case2 t d beyond => rw [steps, if_neg beyond, List.map_nil, List.append_nil]

/-- Each row is counted where its time falls. -/
def tally (w : Width) (zero : β) (time : ρ → Int) (add : ρ → β → β) (rows : List ρ)
    (d : OrderedDict Int β) : OrderedDict Int β :=
  rows.foldl
    (fun d row => d.set (floor w (time row)) (add row ((d.get (floor w (time row))).getD zero))) d

section

variable {zero : β} {time : ρ → Int} {add : ρ → β → β} {rows : List ρ} {d : OrderedDict Int β}

theorem keys_set_bound (bound : s ∈ d.keys) (count : β) : (d.set s count).keys = d.keys := by
  rw [OrderedDict.set, dif_pos bound]
  exact OrderedDict.keys_replace d.items s count

/-- Each count is the count of the rows that fall there. -/
theorem items_tally (bound : ∀ row ∈ rows, floor w (time row) ∈ d.keys) :
    (tally w zero time add rows d).items = d.items.map fun item =>
      (item.1, (rows.filter fun row => floor w (time row) = item.1).foldl
        (fun count row => add row count) item.2) := by
  induction rows generalizing d with
  | nil => simp [tally]
  | cons row rows ih =>
      obtain ⟨first, rest⟩ := List.forall_mem_cons.mp bound
      have same (count : β) := keys_set_bound first count
      have here (count : β) : (d.set (floor w (time row)) count).items = d.items.map fun item =>
          if item.1 = floor w (time row) then (floor w (time row), count) else item := by
        rw [OrderedDict.set, dif_pos first]
      rw [tally, List.foldl_cons, ← tally, ih, here, List.map_map]
      · refine List.map_congr_left fun item there => ?_
        rw [Function.comp_apply]
        split
        · next is =>
            have found : d.get item.1 = some item.2 := OrderedDict.get_eq_some_iff.mpr there
            have kept : (row :: rows).filter (fun row => floor w (time row) = item.1) =
                row :: rows.filter fun row => floor w (time row) = item.1 :=
              List.filter_cons_of_pos (decide_eq_true is.symm)
            rw [kept, List.foldl_cons, ← is, found, Option.getD_some]
        · next is =>
            rw [List.filter_cons_of_neg]
            simpa using Ne.symm is
      · intro row there
        rw [same]
        exact rest row there

end

/-! ## Charts -/

/-- The starts of the buckets from the one that a time falls into up to another time. -/
structure Grid (w : Width) (from_ to_ : Int) (times : List Int) : Prop where
  ascending : times.Pairwise (· < ·)
  mem_iff : ∀ s, s ∈ times ↔ w.seconds ∣ s ∧ floor w from_ ≤ s ∧ s ≤ to_

/-- A row is within the times of a chart. -/
def Within (from_ to_ : Int) (time : ρ → Int) (row : ρ) : Prop := from_ ≤ time row ∧ time row ≤ to_

/-- A row falls into the bucket that starts at a time. -/
def Falls (w : Width) (time : ρ → Int) (start : Int) (row : ρ) : Prop :=
  start ≤ time row ∧ time row < start + w.seconds

instance (from_ to_ : Int) (time : ρ → Int) : DecidablePred (Within from_ to_ time) :=
  fun _ => inferInstanceAs (Decidable (_ ∧ _))

instance (w : Width) (time : ρ → Int) (start : Int) : DecidablePred (Falls w time start) :=
  fun _ => inferInstanceAs (Decidable (_ ∧ _))

/-- The weights of the rows within the times of a chart, each in one point. -/
structure Counted (w : Width) (from_ to_ : Int) (time weight : ρ → Int) (rows : List ρ)
    (points : List (Int × Int)) : Prop where
  point : ∀ p ∈ points, p.2 =
    ((rows.filter fun row => Within from_ to_ time row ∧ Falls w time p.1 row).map weight).sum
  once : ∀ row ∈ rows, Within from_ to_ time row →
    (points.countP fun p => Falls w time p.1 row) = 1
  total : (points.map Prod.snd).sum =
    ((rows.filter fun row => Within from_ to_ time row).map weight).sum

section

variable {from_ : Int} {time weight : ρ → Int} {rows : List ρ} {times : List Int}

theorem grid_steps (w : Width) (from_ to_ : Int) :
    Grid w from_ to_ (steps w to_ (floor w from_)) where
  ascending := ascending_steps w to_ _
  mem_iff s := by
    rw [mem_steps]
    refine and_congr_left fun _ => ⟨fun apart => ?_, fun multiple => ?_⟩
    · rw [← Int.sub_add_cancel s (floor w from_)]
      exact Int.dvd_add apart (dvd_floor w from_)
    · exact Int.dvd_sub multiple (dvd_floor w from_)

theorem Grid.falls_iff (grid : Grid w from_ to_ times) (start : s ∈ times) (row : ρ) :
    Falls w time s row ↔ floor w (time row) = s := by
  rw [floor_eq_iff]
  exact (and_iff_right ((grid.mem_iff s).mp start).1).symm

theorem Grid.mem_of_within (grid : Grid w from_ to_ times) {row : ρ}
    (within : Within from_ to_ time row) : floor w (time row) ∈ times :=
  (grid.mem_iff _).mpr
    ⟨dvd_floor w _, floor_mono within.1, (floor_le w _).trans within.2⟩

theorem Grid.nodup (grid : Grid w from_ to_ times) : times.Nodup :=
  grid.ascending.imp fun less => less.ne

/-- What falls into the buckets of a grid is everything within its times. -/
theorem Grid.total (grid : Grid w from_ to_ times)
    (within : ∀ row ∈ rows, Within from_ to_ time row) :
    (times.map fun s => ((rows.filter fun row => floor w (time row) = s).map weight).sum).sum =
      (rows.map weight).sum := by
  induction rows with
  | nil => simp
  | cons row rows ih =>
      obtain ⟨first, rest⟩ := List.forall_mem_cons.mp within
      have each (s : Int) : ((row :: rows).filter fun row => floor w (time row) = s) =
          if s = floor w (time row) then row :: rows.filter fun row => floor w (time row) = s
          else rows.filter fun row => floor w (time row) = s := by
        rw [List.filter_cons]
        exact if_congr (decide_eq_true_iff.trans eq_comm) rfl rfl
      have once := List.count_eq_one_of_mem grid.nodup (grid.mem_of_within first)
      simp only [each, apply_ite (List.map weight), apply_ite List.sum, List.map_cons,
        List.sum_cons]
      rw [List.sum_map_ite_eq, once, ih rest]
      simp

theorem Grid.counted (grid : Grid w from_ to_ times) {value : Int → Int}
    (values : ∀ s ∈ times, value s = ((rows.filter fun row =>
      Within from_ to_ time row ∧ floor w (time row) = s).map weight).sum) :
    Counted w from_ to_ time weight rows (times.map fun s => (s, value s)) where
  point p there := by
    obtain ⟨s, start, rfl⟩ := List.mem_map.mp there
    simp only [values s start, grid.falls_iff start]
  once row there within := by
    rw [List.countP_map]
    refine Eq.trans ?_ (List.count_eq_one_of_mem grid.nodup (grid.mem_of_within within))
    refine List.countP_congr fun s start => ?_
    rw [Function.comp_apply, decide_eq_true_eq, grid.falls_iff start, beq_iff_eq]
    exact eq_comm
  total := by
    have inside : ∀ row ∈ rows.filter fun row => Within from_ to_ time row,
        Within from_ to_ time row := fun row there => of_decide_eq_true (List.mem_filter.mp there).2
    rw [List.map_map, ← grid.total inside]
    refine congrArg List.sum (List.map_congr_left fun s start => ?_)
    rw [Function.comp_apply, values s start, List.filter_filter]
    simp only [Bool.decide_and, Bool.and_comm]

end

end Buckets
