import Mathlib.Data.List.Forall2
import Mathlib.Data.List.Nodup

/-!
# Sequences of steps

What a sequence of calls leaves on the state that they are made on, read off the calls: a list that
calls append to, a value that calls overwrite. Where calls of different keys commute, only the order
of calls of the same key counts. And where a sequence of items that may each fail stops: at the
first that does.
-/

namespace CompositionGen

/-! ## What calls leave -/

section Fold

variable {σ γ α : Type} {step : σ → γ → σ}

/-- A part of a state that no call changes is the same after any sequence of calls. -/
theorem foldl_keeps {part : σ → α} (h : ∀ s c, part (step s c) = part s) (calls : List γ) (s : σ) :
    part (calls.foldl step s) = part s := by
  induction calls generalizing s with
  | nil => rfl
  | cons call rest ih => rw [List.foldl_cons, ih, h]

/-- A list to which every call appends something holds what the calls append, in their order. -/
theorem foldl_appends {part : σ → List α} {added : γ → List α}
    (h : ∀ s c, part (step s c) = part s ++ added c) (calls : List γ) (s : σ) :
    part (calls.foldl step s) = part s ++ calls.flatMap added := by
  induction calls generalizing s with
  | nil => simp
  | cons call rest ih => rw [List.foldl_cons, ih, h, List.flatMap_cons, List.append_assoc]

/-- A value that calls overwrite is the last that a call gives, or else the value before. -/
theorem foldl_last (part : σ → Option α) {given : γ → Option α}
    (h : ∀ s c, part (step s c) = (given c).or (part s)) (calls : List γ) (s : σ) :
    part (calls.foldl step s) = (calls.filterMap given).getLast?.or (part s) := by
  induction calls generalizing s with
  | nil => rfl
  | cons call rest ih =>
    rw [List.foldl_cons, ih, h]
    cases hc : given call with
    | none => simp [hc]
    | some value => cases hr : (rest.filterMap given).getLast? <;> simp [hc, hr, List.getLast?_cons]

/-- A part that every call folds something into is the fold of what the calls give, in their
order. -/
theorem foldl_merges {β : Type} {part : σ → β} {merge : β → α → β} {given : γ → List α}
    (h : ∀ s c, part (step s c) = (given c).foldl merge (part s)) (calls : List γ) (s : σ) :
    part (calls.foldl step s) = (calls.flatMap given).foldl merge (part s) := by
  induction calls generalizing s with
  | nil => rfl
  | cons call rest ih => rw [List.foldl_cons, ih, h, List.flatMap_cons, List.foldl_append]

end Fold

/-! ## The order of calls -/

section Reordering

variable {σ γ κ : Type} [DecidableEq κ] {step : σ → γ → σ}

/-- A call that commutes with all calls before it may be made first. -/
theorem foldl_append_cons_comm {call : γ} {before : List γ}
    (comm : ∀ c ∈ before, ∀ s, step (step s c) call = step (step s call) c) (after : List γ)
    (s : σ) :
    (before ++ call :: after).foldl step s = (before ++ after).foldl step (step s call) := by
  induction before generalizing s with
  | nil => rfl
  | cons c rest ih =>
    obtain ⟨hc, hrest⟩ := List.forall_mem_cons.mp comm
    rw [List.cons_append, List.foldl_cons, ih hrest, hc, List.cons_append, List.foldl_cons]

/-- Calls of different keys commute, so a sequence of calls leaves what is left by any other one
that makes related calls of every key in the same order. -/
theorem foldl_eq_of_forall₂_filter (key : γ → κ) (R : γ → γ → Prop)
    (comm : ∀ s c c', key c ≠ key c' → step (step s c) c' = step (step s c') c)
    (alike : ∀ s c c', R c c' → step s c = step s c') {calls calls' : List γ}
    (h : ∀ k, List.Forall₂ R (calls.filter (key · = k)) (calls'.filter (key · = k))) (s : σ) :
    calls.foldl step s = calls'.foldl step s := by
  induction calls generalizing calls' s with
  | nil =>
    cases calls' with
    | nil => rfl
    | cons c' rest' =>
      have hkey := h (key c')
      rw [List.filter_nil, List.filter_cons_of_pos (by simp)] at hkey
      cases hkey
  | cons c rest ih =>
    have hkey := h (key c)
    rw [List.filter_cons_of_pos (by simp)] at hkey
    -- The first call of the same key in the other sequence is the one that corresponds to `c`.
    obtain ⟨c', later, hc, hlater, heq⟩ := List.forall₂_cons_left_iff.mp hkey
    obtain ⟨before, after, rfl, hbefore, hc', hafter⟩ := List.filter_eq_cons_iff.mp heq
    have hc'key : key c' = key c := of_decide_eq_true hc'
    have hmove : ∀ b ∈ before, ∀ s, step (step s b) c' = step (step s c') b := by
      intro b hb s
      refine comm s b c' fun he => hbefore b hb ?_
      exact decide_eq_true (he.trans hc'key)
    rw [foldl_append_cons_comm hmove, List.foldl_cons, alike s c c' hc]
    refine ih (fun k => ?_) (step s c')
    by_cases hk : key c = k
    · subst hk
      have hnone : before.filter (key · = key c) = [] := List.filter_eq_nil_iff.mpr hbefore
      rw [List.filter_append, hnone, List.nil_append, hafter]
      exact hlater
    · have hother := h k
      rw [List.filter_cons_of_neg (by simpa using hk), List.filter_append,
        List.filter_cons_of_neg (by simpa [hc'key] using hk), ← List.filter_append] at hother
      exact hother

theorem foldl_eq_of_filter_eq (key : γ → κ)
    (comm : ∀ s c c', key c ≠ key c' → step (step s c) c' = step (step s c') c)
    {calls calls' : List γ}
    (h : ∀ k, calls.filter (key · = k) = calls'.filter (key · = k)) (s : σ) :
    calls.foldl step s = calls'.foldl step s := by
  refine foldl_eq_of_forall₂_filter key (· = ·) comm (fun s c c' hc => ?_) (fun k => ?_) s
  · rw [hc]
  · rw [List.forall₂_eq_eq_eq]
    exact h k

/-- Two neighbours of different keys may change places. -/
theorem filter_swap (key : γ → κ) {a b : γ} (h : key a ≠ key b) (before after : List γ) (k : κ) :
    (before ++ a :: b :: after).filter (key · = k) =
      (before ++ b :: a :: after).filter (key · = k) := by
  rw [List.filter_append, List.filter_append]
  congr 1
  by_cases ha : key a = k
  · have hb : key b ≠ k := fun hb => h (ha.trans hb.symm)
    simp [ha, hb]
  · by_cases hb : key b = k
    · simp [ha, hb]
    · simp [ha, hb]

end Reordering

/-! ## Every item and what stands before it -/

theorem forall_split_cons {α : Type} {P : List α → α → Prop} {a : α} {items : List α} :
    (∀ before item later, a :: items = before ++ item :: later → P before item) ↔
      P [] a ∧ ∀ before item later, items = before ++ item :: later → P (a :: before) item := by
  constructor
  · intro h
    exact ⟨h [] a items rfl, fun before item later hs =>
      h (a :: before) item later (congrArg _ hs)⟩
  · rintro ⟨first, others⟩ before item later hs
    cases before with
    | nil =>
      cases hs
      exact first
    | cons _ before =>
      cases hs
      exact others before item later rfl

/-- Where keys differ, an item is the one that is found by its key. -/
theorem find?_of_nodup_map {α κ : Type} [DecidableEq κ] (key : α → κ) {items : List α} {a : α}
    (nodup : (items.map key).Nodup) (ha : a ∈ items) :
    items.find? (fun b => key b == key a) = some a := by
  obtain ⟨found, hfound⟩ : ∃ found, items.find? (fun b => key b == key a) = some found :=
    Option.isSome_iff_exists.mp (List.find?_isSome.mpr ⟨a, ha, beq_self_eq_true _⟩)
  have hkey : key found = key a := by simpa using List.find?_some hfound
  rw [hfound, List.inj_on_of_nodup_map nodup (List.mem_of_find?_eq_some hfound) ha hkey]

/-- In a list that a relation orders, what is found comes before all else that could be. -/
theorem rel_of_find? {α : Type} {R : α → α → Prop} {l : List α} {p : α → Bool} {a b : α}
    (hl : l.Pairwise R) (ha : l.find? p = some a) (hb : b ∈ l) (hp : p b = true) :
    b = a ∨ R a b := by
  obtain ⟨-, front, back, rfl, hfront⟩ := List.find?_eq_some_iff_append.mp ha
  rcases List.mem_append.mp hb with hb | hb
  · have hnot := hfront b hb
    rw [hp] at hnot
    cases hnot
  · rcases List.mem_cons.mp hb with rfl | hb
    · exact .inl rfl
    · exact .inr ((List.pairwise_cons.mp (List.pairwise_append.mp hl).2.1).1 b hb)

theorem forall₂_modify {α : Type} {R : α → α → Prop} {f : α → α} (same : ∀ a, R a a)
    (changed : ∀ a, R a (f a)) (items : List α) (i : Nat) :
    List.Forall₂ R items (items.modify i f) := by
  induction items generalizing i with
  | nil =>
    rw [List.modify_nil]
    exact .nil
  | cons a rest ih =>
    cases i with
    | zero =>
      rw [List.modify_zero_cons]
      exact .cons (changed a) (List.forall₂_same.mpr fun b _ => same b)
    | succ i =>
      rw [List.modify_succ_cons]
      exact .cons (same a) (ih i)

/-! ## What items give -/

theorem getLast?_filterMap_eq_some_iff {α β : Type} {f : α → Option β} {items : List α} {b : β} :
    (items.filterMap f).getLast? = some b ↔ ∃ before a after, items = before ++ a :: after ∧
      f a = some b ∧ ∀ c ∈ after, f c = none := by
  rw [List.getLast?_filterMap, List.findSome?_eq_some_iff]
  simp only [List.reverse_eq_append_iff, List.reverse_cons, List.append_assoc,
    List.singleton_append]
  constructor
  · rintro ⟨after, a, before, hsplit, ha, hafter⟩
    exact ⟨before.reverse, a, after.reverse, hsplit, ha, by simpa using hafter⟩
  · rintro ⟨before, a, after, hsplit, ha, hafter⟩
    exact ⟨after.reverse, a, before.reverse, by simpa using hsplit, ha, by simpa using hafter⟩

theorem forall₂_filter_filterMap {α β : Type} {f : α → Option β} {p : α → Prop} [DecidablePred p]
    (h : ∀ a, p a ↔ (f a).isSome = true) (items : List α) :
    List.Forall₂ (fun a b => f a = some b) (items.filter p) (items.filterMap f) := by
  induction items with
  | nil => exact .nil
  | cons a rest ih =>
    rcases ha : f a with _ | b
    · rw [List.filterMap_cons_none ha, List.filter_cons_of_neg (by simp [h, ha])]
      exact ih
    · rw [List.filterMap_cons_some ha, List.filter_cons_of_pos (by simp [h, ha])]
      exact .cons ha ih

/-! ## The first that fails -/

section First

variable {α ε δ β : Type} {fails : α → ε → Prop} {items rest : List α} {a x : α} {i j : Nat} {e : ε}

/-- The item at a position fails, and none before it does. -/
structure First (fails : α → ε → Prop) (items : List α) (i : Nat) (a : α) (e : ε) : Prop where
  get : items[i]? = some a
  fault : fails a e
  before : ∀ b ∈ items.take i, ∀ e, ¬ fails b e

namespace First

theorem cons_iff :
    First fails (x :: rest) i a e ↔ (i = 0 ∧ a = x ∧ fails x e) ∨
      ∃ j, i = j + 1 ∧ (∀ e, ¬ fails x e) ∧ First fails rest j a e := by
  constructor
  · rintro ⟨hget, hfails, hbefore⟩
    cases i with
    | zero =>
      obtain rfl : x = a := by simpa using hget
      exact Or.inl ⟨rfl, rfl, hfails⟩
    | succ j =>
      rw [List.take_succ_cons, List.forall_mem_cons] at hbefore
      exact Or.inr ⟨j, rfl, hbefore.1, by simpa using hget, hfails, hbefore.2⟩
  · rintro (⟨rfl, rfl, hfails⟩ | ⟨j, rfl, hx, hget, hfails, hbefore⟩)
    · exact ⟨rfl, hfails, by simp⟩
    · refine ⟨by simpa using hget, hfails, ?_⟩
      rw [List.take_succ_cons, List.forall_mem_cons]
      exact ⟨hx, hbefore⟩

theorem singleton_iff : First fails [x] i a e ↔ i = 0 ∧ a = x ∧ fails x e := by
  rw [cons_iff]
  refine or_iff_left ?_
  rintro ⟨j, -, -, h⟩
  exact nomatch h.get

theorem congr {fails' : α → ε → Prop} (h : First fails items i a e)
    (hf : ∀ a e, fails a e ↔ fails' a e) : First fails' items i a e :=
  ⟨h.get, (hf a e).mp h.fault, fun b hb e hb' => h.before b hb e ((hf b e).mpr hb')⟩

/-- Where every item that passes in one list passes in another, the first that fails in the other
stands no earlier. -/
theorem le_of_passing {β : Type} {fails' : β → ε → Prop} {items' : List β} {b : β} {e' : ε}
    (h : First fails items i a e) (h' : First fails' items' j b e')
    (passing : ∀ (k : Nat) x y, items[k]? = some x → items'[k]? = some y → (∀ e, ¬ fails x e) →
      ∀ e, ¬ fails' y e) : i ≤ j := by
  by_contra hlt
  have hj : j < i := Nat.not_le.mp hlt
  obtain ⟨hi, -⟩ := List.getElem?_eq_some_iff.mp h.get
  have hx : items[j]? = some items[j] := List.getElem?_eq_getElem (Nat.lt_trans hj hi)
  have hmem : items[j] ∈ items.take i :=
    List.mem_of_getElem? ((List.getElem?_take_of_lt hj).trans hx)
  exact passing j _ b hx h'.get (h.before _ hmem) e' h'.fault

/-- Items that cannot fail may be left out at the end. -/
theorem append_iff {back : List α} (h : ∀ b ∈ back, ∀ e, ¬ fails b e) :
    First fails (items ++ back) i a e ↔ First fails items i a e := by
  induction items generalizing i with
  | nil =>
    refine iff_of_false (fun hf => ?_) (fun hf => nomatch hf.get)
    exact h a (List.mem_of_getElem? hf.get) e hf.fault
  | cons x rest ih => simp only [List.cons_append, cons_iff, ih]

/-- A loop over items that counts its position, stops where an item fails and otherwise goes on,
in whatever state, ends with the report of the first item that fails. -/
theorem loop_error_iff {σ : Type} (fails : α → ε → Prop)
    (loop : σ → Nat → List α → Except δ β) (report : Nat → α → ε → δ)
    (nil : ∀ s n d, loop s n [] ≠ .error d)
    (stop : ∀ s n a rest e, fails a e → loop s n (a :: rest) = .error (report n a e))
    (next : ∀ s n a rest, (∀ e, ¬ fails a e) → ∃ s', ∀ d,
      loop s n (a :: rest) = .error d ↔ loop s' (n + 1) rest = .error d)
    {s : σ} {n : Nat} {d : δ} :
    loop s n items = .error d ↔ ∃ i a e, First fails items i a e ∧ d = report (n + i) a e := by
  -- The state is whatever the items passed so far have left, so it is general like the position.
  induction items generalizing s n with
  | nil =>
    refine iff_of_false (nil s n d) ?_
    rintro ⟨i, a, e, h, -⟩
    exact nomatch h.get
  | cons x rest ih =>
    simp only [cons_iff]
    by_cases hx : ∃ e, fails x e
    · obtain ⟨e, he⟩ := hx
      rw [stop s n x rest e he]
      constructor
      · rintro ⟨⟩
        exact ⟨0, x, e, Or.inl ⟨rfl, rfl, he⟩, rfl⟩
      · rintro ⟨i, a, e', ⟨rfl, rfl, he'⟩ | ⟨j, rfl, hx, -⟩, rfl⟩
        · exact (stop s n _ rest e he).symm.trans (stop s n _ rest e' he')
        · exact absurd he (hx e)
    · rw [not_exists] at hx
      obtain ⟨s', hs'⟩ := next s n x rest hx
      rw [hs', ih]
      constructor
      · rintro ⟨j, a, e, h, rfl⟩
        exact ⟨j + 1, a, e, Or.inr ⟨j, rfl, hx, h⟩, by rw [Nat.add_assoc, Nat.add_comm 1 j]⟩
      · rintro ⟨i, a, e, ⟨rfl, rfl, he⟩ | ⟨j, rfl, -, h⟩, rfl⟩
        · exact absurd he (hx e)
        · exact ⟨j, a, e, h, by rw [Nat.add_assoc, Nat.add_comm 1 j]⟩

end First

end First

end CompositionGen
