import CompositionGen.Proofs.Pool.Accounting
import Mathlib.Order.Bounds.Basic

/-!
# Counting running programs

The count of a gauge is the number of the workers that run a program, and its peak is the highest
count so far, except while a worker has raised the count without having recorded it. Both follow
from what a move does to the gauge and to the worker that makes it.
-/

namespace CompositionGen

/-- Whether a worker has raised the count and not recorded it yet. -/
def Worker.isCounting : Worker → Bool
  | counting _ _ => true
  | _ => false

/-! ## Counting workers -/

theorem countP_set_add (f : Worker → Bool) {ws : List Worker} {i : Nat} {w : Worker} (w' : Worker)
    (h : ws[i]? = some w) :
    (ws.set i w').countP f + (f w).toNat = ws.countP f + (f w').toNat := by
  have hcount : ∀ vs : List Worker, vs.countP f = (vs.map fun v => (f v).toNat).sum := by
    intro vs
    induction vs with
    | nil => rfl
    | cons v vs ih =>
      rw [List.countP_cons, List.map_cons, List.sum_cons, ih]
      cases f v <;> simp [Nat.add_comm]
  rw [hcount, hcount]
  exact sum_map_set (fun v => (f v).toNat) w' h

theorem countP_isActive_le (ws : List Worker) :
    ws.countP Worker.isActive ≤ (ws.filterMap Worker.unit?).length := by
  rw [List.length_filterMap_eq_countP]
  refine List.countP_mono_left fun w _ hw => ?_
  cases w with
  | counting unit seen => rfl
  | compiling unit => rfl
  | _ => cases hw

/-! ## What a gauge shows -/

/-- What a gauge shows, among workers and after counts: the count is that of the active workers,
and the peak is a count that there was. A count that is higher than the peak was seen by a worker
that has not recorded it yet. -/
structure Gauge.Shows (g : Gauge) (counts : List Nat) (ws : List Worker) : Prop where
  active : g.active = ws.countP Worker.isActive
  current : g.active ∈ counts
  peak : g.peak ∈ counts
  seen : ∀ (i : Nat) (unit : BuildUnit) (seen : Nat),
    ws[i]? = some (.counting unit seen) → seen ∈ counts
  covered : ∀ n ∈ counts, n ≤ g.peak ∨
    ∃ (i : Nat) (unit : BuildUnit) (seen : Nat),
      ws[i]? = some (.counting unit seen) ∧ n ≤ seen

namespace Gauge.Shows

variable {g : Gauge} {counts : List Nat} {ws : List Worker} {i : Nat} {w w' : Worker}

theorem not_counting (hw : w.isActive = false) (unit : BuildUnit) (seen : Nat) :
    w ≠ .counting unit seen := by
  rintro rfl
  cases hw

/-- Where no worker is active, it does not matter which workers there are. -/
theorem of_inactive {vs : List Worker} (h : g.Shows counts ws)
    (hws : ∀ w ∈ ws, w.isActive = false) (hvs : ∀ w ∈ vs, w.isActive = false) :
    g.Shows counts vs where
  active := by
    rw [h.active, List.countP_eq_zero.mpr (by simpa using hws),
      List.countP_eq_zero.mpr (by simpa using hvs)]
  current := h.current
  peak := h.peak
  seen i unit seen hi := absurd rfl (not_counting (hvs _ (List.mem_of_getElem? hi)) unit seen)
  covered n hn := by
    rcases h.covered n hn with hle | ⟨i, unit, seen, hi, -⟩
    · exact Or.inl hle
    · exact absurd rfl (not_counting (hws _ (List.mem_of_getElem? hi)) unit seen)

theorem again (h : g.Shows counts ws) : g.Shows (g.active :: counts) ws where
  active := h.active
  current := List.mem_cons_self
  peak := List.mem_cons_of_mem _ h.peak
  seen i unit seen hi := List.mem_cons_of_mem _ (h.seen i unit seen hi)
  covered n hn := by
    rcases List.mem_cons.mp hn with rfl | hn
    · exact h.covered _ h.current
    · exact h.covered n hn

/-- A worker that is not counting is none of those whose counts are not recorded. -/
theorem covered_set (w' : Worker) (h : g.Shows counts ws) (hi : ws[i]? = some w)
    (hw : ∀ unit seen, w ≠ .counting unit seen) {n : Nat} (hn : n ∈ counts) :
    n ≤ g.peak ∨ ∃ (j : Nat) (unit : BuildUnit) (seen : Nat),
      (ws.set i w')[j]? = some (.counting unit seen) ∧ n ≤ seen := by
  rcases h.covered n hn with hle | ⟨j, unit, seen, hj, hle⟩
  · exact Or.inl hle
  · have hne : i ≠ j := by
      rintro rfl
      exact hw unit seen (Option.some.inj (hi.symm.trans hj))
    exact Or.inr ⟨j, unit, seen, (List.getElem?_set_ne hne).trans hj, hle⟩

theorem seen_set (h : g.Shows counts ws) (hi : ws[i]? = some w) {j : Nat} {unit : BuildUnit}
    {seen : Nat} (hj : (ws.set i w')[j]? = some (.counting unit seen)) :
    w' = .counting unit seen ∨ seen ∈ counts := by
  by_cases hij : i = j
  · subst hij
    have hlt : i < ws.length := (List.getElem?_eq_some_iff.mp hi).1
    rw [List.getElem?_set_self hlt] at hj
    exact Or.inl (Option.some.inj hj)
  · rw [List.getElem?_set_ne hij] at hj
    exact Or.inr (h.seen j unit seen hj)

/-- A worker that goes from one thing to another without a program leaves the gauge as it is. -/
theorem set_inactive (h : g.Shows counts ws) (hi : ws[i]? = some w) (hw : w.isActive = false)
    (hw' : w'.isActive = false) : g.Shows counts (ws.set i w') where
  active := by
    have hcount := countP_set_add Worker.isActive w' hi
    have hactive := h.active
    rw [hw, hw'] at hcount
    omega
  current := h.current
  peak := h.peak
  seen j unit seen hj := (h.seen_set hi hj).resolve_left (not_counting hw' unit seen)
  covered n hn := h.covered_set _ hi (not_counting hw) hn

/-- A worker raises the count, and keeps what it has seen. -/
theorem enter {unit : BuildUnit} (h : g.Shows counts ws)
    (hi : ws[i]? = some (.preparing unit)) :
    Shows { g with active := g.active + 1 } ((g.active + 1) :: counts)
      (ws.set i (.counting unit (g.active + 1))) where
  active := by
    have hcount := countP_set_add Worker.isActive (.counting unit (g.active + 1)) hi
    have hactive := h.active
    simp only [Worker.isActive, Bool.toNat_true, Bool.toNat_false] at hcount
    show g.active + 1 = _
    omega
  current := List.mem_cons_self
  peak := List.mem_cons_of_mem _ h.peak
  seen j other seen hj := by
    rcases h.seen_set hi hj with heq | hseen
    · cases heq
      exact List.mem_cons_self
    · exact List.mem_cons_of_mem _ hseen
  covered n hn := by
    have hlt : i < ws.length := (List.getElem?_eq_some_iff.mp hi).1
    rcases List.mem_cons.mp hn with rfl | hn
    · exact Or.inr ⟨i, unit, g.active + 1, List.getElem?_set_self hlt, Nat.le_refl _⟩
    · exact h.covered_set _ hi (fun _ _ => nofun) hn

/-- A worker records what it has seen, if that is more than the peak. -/
theorem record {unit : BuildUnit} {seen : Nat} (h : g.Shows counts ws)
    (hi : ws[i]? = some (.counting unit seen)) :
    Shows { g with peak := max g.peak seen } counts (ws.set i (.compiling unit)) where
  active := by
    have hcount := countP_set_add Worker.isActive (.compiling unit) hi
    have hactive := h.active
    simp only [Worker.isActive] at hcount
    show g.active = _
    omega
  current := h.current
  peak := by
    have hseen := h.seen i unit seen hi
    show max g.peak seen ∈ counts
    rcases Nat.le_total g.peak seen with hle | hle
    · rwa [Nat.max_eq_right hle]
    · rw [Nat.max_eq_left hle]
      exact h.peak
  seen j other count hj := (h.seen_set hi hj).resolve_left nofun
  covered n hn := by
    show n ≤ max g.peak seen ∨ _
    rcases h.covered n hn with hle | ⟨j, other, count, hj, hle⟩
    · exact Or.inl (Nat.le_trans hle (Nat.le_max_left _ _))
    · by_cases hij : i = j
      · -- what the worker has seen is in the peak from now on
        subst hij
        cases hi.symm.trans hj
        exact Or.inl (Nat.le_trans hle (Nat.le_max_right _ _))
      · exact Or.inr ⟨j, other, count, (List.getElem?_set_ne hij).trans hj, hle⟩

/-- Whoever runs a program finds a count that can be lowered. -/
theorem active_pos {unit : BuildUnit} (h : g.Shows counts ws)
    (hi : ws[i]? = some (.compiling unit)) : 0 < g.active := by
  rw [h.active, List.countP_pos_iff]
  exact ⟨.compiling unit, List.mem_of_getElem? hi, rfl⟩

/-- A worker whose program is over lowers the count. -/
theorem finish {unit : BuildUnit} {result : CompileResult} (h : g.Shows counts ws)
    (hi : ws[i]? = some (.compiling unit)) :
    Shows { g with active := g.active - 1 } ((g.active - 1) :: counts)
      (ws.set i (.finished result)) where
  active := by
    have hcount := countP_set_add Worker.isActive (.finished result) hi
    have hactive := h.active
    have hpos := h.active_pos hi
    simp only [Worker.isActive, Bool.toNat_true, Bool.toNat_false] at hcount
    show g.active - 1 = _
    omega
  current := List.mem_cons_self
  peak := List.mem_cons_of_mem _ h.peak
  seen j other seen hj :=
    List.mem_cons_of_mem _ ((h.seen_set hi hj).resolve_left nofun)
  covered n hn := by
    have hw : ∀ other seen, Worker.compiling unit ≠ .counting other seen := fun _ _ => nofun
    rcases List.mem_cons.mp hn with rfl | hn
    · -- the count was one more before, and that was covered
      rcases h.covered_set (.finished result) hi hw h.current with
        hle | ⟨j, other, seen, hj, hle⟩
      · exact Or.inl (Nat.le_trans (Nat.sub_le _ _) hle)
      · exact Or.inr ⟨j, other, seen, hj, Nat.le_trans (Nat.sub_le _ _) hle⟩
    · exact h.covered_set _ hi hw hn

/-- Every move of a pool keeps the gauge right. -/
theorem effect {p q : Pool} {move : Pool.Move} (h : p.gauge.Shows counts p.workers)
    (e : Pool.Effect p move q) : q.gauge.Shows (q.gauge.active :: counts) q.workers := by
  cases e with
  | acquire hw free => exact (h.set_inactive hw rfl rfl).again
  | take hw hq => exact (h.set_inactive hw rfl rfl).again
  | enter hw => exact h.enter hw
  | record hw => exact (h.record hw).again
  | giveUp hw => exact (h.set_inactive hw rfl rfl).again
  | finish hw => exact h.finish hw
  | abandon hw closed => exact (h.set_inactive hw rfl rfl).again
  | deliver hw opened room => exact (h.set_inactive hw rfl rfl).again
  | quit hw may =>
    rcases Pool.idle_of_mayQuit may with rfl | rfl
    · exact (h.set_inactive hw rfl rfl).again
    · exact (h.set_inactive hw rfl rfl).again
  | _ => exact h.again

/-- The peak lags behind the highest count only while a worker has a count to record. -/
theorem isGreatest (h : g.Shows counts ws) :
    ∃ most, IsGreatest {n | n ∈ counts} most ∧ g.peak ≤ most ∧
      ((∀ w ∈ ws, w.isCounting = false) → g.peak = most) := by
  have hne : counts ≠ [] := List.ne_nil_of_mem h.peak
  have hmost : counts.max hne ∈ counts := List.max_mem hne
  have hupper : ∀ n ∈ counts, n ≤ counts.max hne := fun n hn => List.le_max_of_mem hn
  refine ⟨counts.max hne, ⟨hmost, hupper⟩, hupper _ h.peak, fun hrecorded => ?_⟩
  refine Nat.le_antisymm (hupper _ h.peak) ?_
  rcases h.covered _ hmost with hle | ⟨i, unit, seen, hi, -⟩
  · exact hle
  · have hcounting := hrecorded _ (List.mem_of_getElem? hi)
    cases hcounting

end Gauge.Shows

end CompositionGen
