import CompositionGen.Compile.Job
import CompositionGen.Proofs.Compile.Course

/-!
# Waiting for an artifact

Each attempt to find an artifact sees the files twice, before and after a library is copied into
place, and how the copying goes. Whatever the attempts of a poll see, the first that is conclusive
decides: it finds the artifact, or it cannot copy. There is a pause after every attempt that is
followed by another one, and no attempt is made that the budget does not allow.
-/

namespace CompositionGen

/-- What an attempt is answered: the files at first, how copying a library goes, and the files
after that. -/
structure Attempt where
  earlier : FileSystem
  copied : Except FileError Unit
  later : FileSystem
  deriving Inhabited

section

variable (config : CompileConfig) (artifact : Path) (announced : Option Path)

namespace Attempt

variable (a : Attempt)

/-- A library other than the artifact is announced and is there. -/
def Offers (library : Path) : Prop :=
  announced = some library ∧ library.same artifact = false ∧ a.earlier.hasNode library = true

/-- A library has to be copied and cannot be. -/
def Fails (cause : FileError) : Prop :=
  (∃ library, a.Offers artifact announced library) ∧ a.copied = .error cause

/-- The artifact is a regular file after the copying. -/
def Finds : Prop := a.later.hasFile artifact = true

/-- Nothing fails, and the artifact is not there. -/
def Inconclusive : Prop := (∀ cause, ¬a.Fails artifact announced cause) ∧ ¬a.Finds artifact

/-- What is asked for to place an announced library, and how placing it goes. -/
def placing : List Exchange × Except FileError Unit :=
  match announced.filter fun p => !p.same artifact with
  | none => ([], .ok ())
  | some library =>
    if a.earlier.hasNode library then
      ([.looked a.earlier, .copied library artifact a.copied], a.copied)
    else ([.looked a.earlier], .ok ())

/-- What an attempt asks for, with the answers. -/
def exchanges : List Exchange :=
  match a.placing artifact announced with
  | (asked, .error _) => asked
  | (asked, .ok ()) => asked ++ [.looked a.later]

/-- What an attempt decides, if it is conclusive. -/
def verdict? : Option (Except CompileError Path) :=
  match (a.placing artifact announced).2 with
  | .error cause => some (.error (.io artifact cause))
  | .ok () => if a.later.hasFile artifact then some (.ok artifact) else none

/-- How a poll goes on after an attempt, when `left` more may be made. -/
def goOn (left : Nat) : Activity (Except CompileError Path) :=
  match a.verdict? artifact announced with
  | some outcome => .done outcome
  | none =>
    let again := awaitArtifact config artifact announced left
    if left = 0 then again else .pause config.pollDelay again

end Attempt

/-! ## Polls -/

/-- What is asked for in a number of attempts that are all followed by another one. -/
def opening (attempts : Nat → Attempt) (made : Nat) : List Exchange :=
  (List.range made).flatMap fun i =>
    (attempts i).exchanges artifact announced ++ [.paused config.pollDelay]

/-- What is asked for in a number of attempts, the last of which is not followed by another one. -/
def polling (attempts : Nat → Attempt) : (made : Nat) → List Exchange
  | 0 => []
  | earlier + 1 => opening config artifact announced attempts earlier
      ++ (attempts earlier).exchanges artifact announced

/-- How many attempts a poll makes and what it comes to, when up to `left` may be made. -/
inductive Decided (attempts : Nat → Attempt) (left : Nat) : Nat → Except CompileError Path → Prop
  | conclusive (i : Nat) (outcome : Except CompileError Path) :
    i < left → (∀ j < i, (attempts j).Inconclusive artifact announced) →
    (attempts i).verdict? artifact announced = some outcome →
    Decided attempts left (i + 1) outcome
  | exhausted :
    (∀ i < left, (attempts i).Inconclusive artifact announced) →
    Decided attempts left left (.error (.artifactMissing artifact config.pollAttempts))

end

section

variable {config : CompileConfig} {artifact : Path} {announced : Option Path} {a : Attempt}
  {attempts : Nat → Attempt} {left made : Nat} {es : List Exchange}
  {outcome : Except CompileError Path}

namespace Attempt

/-! ## Placing a library -/

theorem placing_of_offers {library : Path} (h : a.Offers artifact announced library) :
    a.placing artifact announced =
      ([.looked a.earlier, .copied library artifact a.copied], a.copied) := by
  obtain ⟨rfl, hsame, hnode⟩ := h
  simp [placing, Option.filter, hsame, hnode]

theorem placing_of_not_offers (h : ∀ library, ¬a.Offers artifact announced library) :
    (a.placing artifact announced).2 = .ok () ∧
      ∀ e ∈ (a.placing artifact announced).1, e = .looked a.earlier := by
  unfold placing
  split
  · exact ⟨rfl, nofun⟩
  · next library hlibrary =>
    obtain ⟨rfl, hsame⟩ := Option.filter_eq_some_iff.mp hlibrary
    rw [if_neg fun hnode => h library ⟨rfl, by simpa using hsame, hnode⟩]
    exact ⟨rfl, fun e he => List.mem_singleton.mp he⟩

theorem placing_error_iff {cause : FileError} :
    (a.placing artifact announced).2 = .error cause ↔ a.Fails artifact announced cause := by
  by_cases h : ∃ library, a.Offers artifact announced library
  · obtain ⟨library, hoffers⟩ := h
    rw [placing_of_offers hoffers]
    exact ⟨fun hcopied => ⟨⟨library, hoffers⟩, hcopied⟩, fun hfails => hfails.2⟩
  · rw [(placing_of_not_offers (not_exists.mp h)).1]
    exact iff_of_false nofun fun hfails => h hfails.1

theorem placing_ok_iff :
    (a.placing artifact announced).2 = .ok () ↔ ∀ cause, ¬a.Fails artifact announced cause := by
  simp only [← placing_error_iff]
  cases (a.placing artifact announced).2 with
  | ok => simp
  | error cause => simp

/-- Placing a library goes as it is answered. -/
theorem course_placeLibrary_iff {placed : Except FileError Unit} :
    (placeLibrary artifact announced).Course es placed ↔
      ∃ a : Attempt, a.placing artifact announced = (es, placed) := by
  unfold placeLibrary placing
  cases announced.filter fun p => !p.same artifact with
  | none =>
    rw [Activity.course_done_iff]
    exact ⟨fun ⟨hes, hplaced⟩ => ⟨default, by rw [hes, hplaced]⟩, fun ⟨_, h⟩ =>
      ⟨(Prod.ext_iff.mp h).1.symm, (Prod.ext_iff.mp h).2⟩⟩
  | some library =>
    rw [Activity.course_look_iff]
    constructor
    · rintro ⟨files, later, rfl, h⟩
      split at h
      · next hnode =>
        obtain ⟨copied, rest, rfl, hrest⟩ := Activity.course_copy_iff.mp h
        obtain ⟨rfl, rfl⟩ := Activity.course_done_iff.mp hrest
        exact ⟨⟨files, copied, files⟩, if_pos hnode⟩
      · next hnode =>
        obtain ⟨rfl, rfl⟩ := Activity.course_done_iff.mp h
        exact ⟨⟨files, .ok (), files⟩, if_neg hnode⟩
    · rintro ⟨a, h⟩
      simp only at h
      split at h
      · next hnode =>
        cases h
        refine ⟨a.earlier, _, rfl, ?_⟩
        rw [if_pos hnode]
        exact Activity.course_copy_iff.mpr ⟨a.copied, [], rfl, .refl _⟩
      · next hnode =>
        cases h
        refine ⟨a.earlier, _, rfl, ?_⟩
        rw [if_neg hnode]
        exact .refl _

/-! ## One attempt -/

theorem verdict?_eq_none_iff :
    a.verdict? artifact announced = none ↔ a.Inconclusive artifact announced := by
  unfold verdict? Inconclusive
  rw [← placing_ok_iff]
  cases (a.placing artifact announced).2 with
  | ok => simp [Finds]
  | error cause => simp

theorem verdict?_eq_some_iff : a.verdict? artifact announced = some outcome ↔
    (∃ cause, a.Fails artifact announced cause ∧ .error (.io artifact cause) = outcome) ∨
      (∀ cause, ¬a.Fails artifact announced cause) ∧ a.Finds artifact ∧
        .ok artifact = outcome := by
  unfold verdict?
  rw [← placing_ok_iff]
  simp only [← placing_error_iff]
  cases (a.placing artifact announced).2 with
  | ok => simp [Finds]
  | error cause => simp

theorem goOn_of_error {cause : FileError} (h : (a.placing artifact announced).2 = .error cause) :
    a.goOn config artifact announced left = .done (.error (.io artifact cause)) := by
  unfold goOn verdict?
  rw [h]

theorem goOn_of_ok (h : (a.placing artifact announced).2 = .ok ()) :
    a.goOn config artifact announced left =
      if a.later.hasFile artifact then .done (.ok artifact)
      else if left = 0 then awaitArtifact config artifact announced left
      else .pause config.pollDelay (awaitArtifact config artifact announced left) := by
  unfold goOn verdict?
  rw [h]
  by_cases hfile : a.later.hasFile artifact = true
  · simp only [if_pos hfile]
  · simp only [if_neg hfile]

/-- An attempt goes as it is answered, and then the poll goes on. -/
theorem steps_awaitArtifact_succ (config : CompileConfig) (artifact : Path)
    (announced : Option Path) (a : Attempt) (left : Nat) :
    (awaitArtifact config artifact announced (left + 1)).Steps (a.exchanges artifact announced)
      (a.goOn config artifact announced left) := by
  have hplace := course_placeLibrary_iff.mpr ⟨a, (Prod.eta (a.placing artifact announced)).symm⟩
  unfold exchanges
  split
  · next asked cause h =>
    rw [h] at hplace
    rw [goOn_of_error (congrArg Prod.snd h), ← List.append_nil asked]
    exact hplace.andThen (.refl _)
  · next asked h =>
    rw [h] at hplace
    rw [goOn_of_ok (congrArg Prod.snd h)]
    exact hplace.andThen (.single (.look _ a.later))

/-- Every course of a poll begins with an attempt, if one may be made. -/
theorem exists_of_course_awaitArtifact_succ
    (h : (awaitArtifact config artifact announced (left + 1)).Course es outcome) :
    ∃ (a : Attempt) (more : List Exchange), es = a.exchanges artifact announced ++ more ∧
      (a.goOn config artifact announced left).Course more outcome := by
  obtain ⟨asked, more, placed, rfl, hplace, hmore⟩ := Activity.course_andThen_iff.mp h
  obtain ⟨a, ha⟩ := course_placeLibrary_iff.mp hplace
  cases placed with
  | error cause =>
    refine ⟨a, more, by rw [exchanges, ha], ?_⟩
    rw [goOn_of_error (congrArg Prod.snd ha)]
    exact hmore
  | ok =>
    obtain ⟨files, later, rfl, hlater⟩ := Activity.course_look_iff.mp hmore
    -- What is seen at the end does not matter for the library.
    have hplacing : (Attempt.mk a.earlier a.copied files).placing artifact announced =
        (asked, .ok ()) := ha
    refine ⟨⟨a.earlier, a.copied, files⟩, later, by rw [exchanges, hplacing]; simp, ?_⟩
    rw [goOn_of_ok (congrArg Prod.snd hplacing)]
    exact hlater

/-- A copy is tried exactly if there is a library to copy, and only to the artifact. -/
theorem copied_mem_exchanges_iff {source target : Path} {copied : Except FileError Unit} :
    .copied source target copied ∈ a.exchanges artifact announced ↔
      a.Offers artifact announced source ∧ target = artifact ∧ copied = a.copied := by
  have hplaced : .copied source target copied ∈ a.exchanges artifact announced ↔
      .copied source target copied ∈ (a.placing artifact announced).1 := by
    unfold exchanges
    split <;> next h => simp [h]
  rw [hplaced]
  by_cases h : ∃ library, a.Offers artifact announced library
  · obtain ⟨library, hoffers⟩ := h
    rw [placing_of_offers hoffers]
    constructor
    · intro hmem
      obtain ⟨rfl, rfl, rfl⟩ : source = library ∧ target = artifact ∧ copied = a.copied := by
        simpa using hmem
      exact ⟨hoffers, rfl, rfl⟩
    · rintro ⟨hsource, rfl, rfl⟩
      obtain rfl := Option.some.inj (hsource.1.symm.trans hoffers.1)
      exact List.mem_cons_of_mem _ List.mem_cons_self
  · refine iff_of_false (fun hmem => ?_) fun hoffers => h ⟨source, hoffers.1⟩
    cases (placing_of_not_offers (not_exists.mp h)).2 _ hmem

theorem paused_not_mem_exchanges (span : Duration) :
    .paused span ∉ a.exchanges artifact announced := by
  have hplacing : .paused span ∉ (a.placing artifact announced).1 := by
    by_cases h : ∃ library, a.Offers artifact announced library
    · obtain ⟨library, hoffers⟩ := h
      rw [placing_of_offers hoffers]
      simp
    · intro hmem
      cases (placing_of_not_offers (not_exists.mp h)).2 _ hmem
  unfold exchanges
  split <;> next h => simpa [h] using hplacing

end Attempt

/-! ## The course of a poll -/

namespace Attempt

theorem goOn_of_verdict {verdict : Except CompileError Path}
    (h : a.verdict? artifact announced = some verdict) :
    a.goOn config artifact announced left = .done verdict := by
  rw [goOn, h]

theorem goOn_last (h : a.Inconclusive artifact announced) :
    a.goOn config artifact announced 0 =
      .done (.error (.artifactMissing artifact config.pollAttempts)) := by
  rw [goOn, verdict?_eq_none_iff.mpr h]
  rfl

theorem goOn_again (h : a.Inconclusive artifact announced) :
    a.goOn config artifact announced (left + 1) =
      .pause config.pollDelay (awaitArtifact config artifact announced (left + 1)) := by
  rw [goOn, verdict?_eq_none_iff.mpr h]
  rfl

theorem course_of_verdict (config : CompileConfig) (left : Nat)
    {verdict : Except CompileError Path} (h : a.verdict? artifact announced = some verdict) :
    (awaitArtifact config artifact announced (left + 1)).Course
      (a.exchanges artifact announced) verdict := by
  have hattempt := steps_awaitArtifact_succ config artifact announced a left
  rwa [goOn_of_verdict h] at hattempt

theorem course_last (config : CompileConfig) (h : a.Inconclusive artifact announced) :
    (awaitArtifact config artifact announced 1).Course (a.exchanges artifact announced)
      (.error (.artifactMissing artifact config.pollAttempts)) := by
  have hattempt := steps_awaitArtifact_succ config artifact announced a 0
  rwa [goOn_last h] at hattempt

theorem steps_again (config : CompileConfig) (left : Nat) (h : a.Inconclusive artifact announced) :
    (awaitArtifact config artifact announced (left + 2)).Steps
      (a.exchanges artifact announced ++ [.paused config.pollDelay])
      (awaitArtifact config artifact announced (left + 1)) := by
  have hattempt := steps_awaitArtifact_succ config artifact announced a (left + 1)
  rw [goOn_again h] at hattempt
  exact hattempt.append (.single (.pause _ _))

end Attempt

/-- As long as no attempt is conclusive, each is followed by a pause and by the next one. -/
theorem steps_opening (config : CompileConfig)
    (h : ∀ i < made, (attempts i).Inconclusive artifact announced) :
    (awaitArtifact config artifact announced (made + (left + 1))).Steps
      (opening config artifact announced attempts made)
      (awaitArtifact config artifact announced (left + 1)) := by
  induction made generalizing left with
  | zero => rw [Nat.zero_add]; exact .refl _
  | succ made ih =>
    have hopening : opening config artifact announced attempts (made + 1) =
        opening config artifact announced attempts made ++
          ((attempts made).exchanges artifact announced ++ [.paused config.pollDelay]) := by
      simp [opening, List.range_succ]
    rw [hopening, Nat.add_right_comm made 1 (left + 1)]
    exact (ih fun i hi => h i (Nat.lt_succ_of_lt hi)).append
      (Attempt.steps_again config left (h made (Nat.lt_succ_self made)))

namespace Decided

theorem first (h : (attempts 0).verdict? artifact announced = some outcome) :
    Decided config artifact announced attempts (left + 1) 1 outcome :=
  .conclusive 0 outcome (Nat.succ_pos left) nofun h

theorem later (h : (attempts 0).Inconclusive artifact announced)
    (hrest : Decided config artifact announced (fun i => attempts (i + 1)) left made outcome) :
    Decided config artifact announced attempts (left + 1) (made + 1) outcome := by
  cases hrest with
  | conclusive i outcome hi hbefore hverdict =>
    exact .conclusive (i + 1) outcome (Nat.succ_lt_succ hi)
      (Nat.forall_lt_succ_left.mpr ⟨h, hbefore⟩) hverdict
  | exhausted hall => exact .exhausted (Nat.forall_lt_succ_left.mpr ⟨h, hall⟩)

theorem exists_made_eq_succ
    (h : Decided config artifact announced attempts (left + 1) made outcome) :
    ∃ earlier, made = earlier + 1 := by
  cases h with
  | conclusive i => exact ⟨i, rfl⟩
  | exhausted => exact ⟨left, rfl⟩

/-- A poll goes as its attempts are answered. -/
theorem course (h : Decided config artifact announced attempts left made outcome) :
    (awaitArtifact config artifact announced left).Course
      (polling config artifact announced attempts made) outcome := by
  cases h with
  | conclusive i outcome hi hbefore hverdict =>
    obtain ⟨left, rfl⟩ := Nat.exists_eq_add_of_lt hi
    exact (steps_opening config hbefore).append (Attempt.course_of_verdict config left hverdict)
  | exhausted hall =>
    cases left with
    | zero => exact .refl _
    | succ left =>
      exact (steps_opening config fun i hi => hall i (Nat.lt_succ_of_lt hi)).append
        (Attempt.course_last config (hall left (Nat.lt_succ_self left)))

end Decided

/-- Some attempt decides, or the budget is exhausted. -/
theorem exists_decided (config : CompileConfig) (artifact : Path) (announced : Option Path)
    (attempts : Nat → Attempt) (left : Nat) :
    ∃ made outcome, Decided config artifact announced attempts left made outcome := by
  induction left generalizing attempts with
  | zero => exact ⟨0, _, .exhausted nofun⟩
  | succ left ih =>
    cases hverdict : (attempts 0).verdict? artifact announced with
    | some outcome => exact ⟨1, outcome, .first hverdict⟩
    | none =>
      obtain ⟨made, outcome, hrest⟩ := ih fun i => attempts (i + 1)
      exact ⟨made + 1, outcome, .later (Attempt.verdict?_eq_none_iff.mp hverdict) hrest⟩

theorem polling_succ_shift (attempts : Nat → Attempt) (n : Nat) :
    polling config artifact announced attempts (n + 2) =
      (attempts 0).exchanges artifact announced ++ .paused config.pollDelay ::
        polling config artifact announced (fun i => attempts (i + 1)) (n + 1) := by
  simp [polling, opening, List.range_succ_eq_map, List.flatMap_map]

/-- Every course of a poll is that of attempts, the first conclusive one of which decides. -/
theorem exists_decided_of_course
    (h : (awaitArtifact config artifact announced left).Course es outcome) :
    ∃ attempts made, Decided config artifact announced attempts left made outcome ∧
      polling config artifact announced attempts made = es := by
  induction left generalizing es with
  | zero =>
    obtain ⟨rfl, rfl⟩ := Activity.course_done_iff.mp h
    exact ⟨fun _ => default, 0, .exhausted nofun, rfl⟩
  | succ left ih =>
    obtain ⟨a, more, rfl, hmore⟩ := Attempt.exists_of_course_awaitArtifact_succ h
    cases hverdict : a.verdict? artifact announced with
    | some verdict =>
      rw [Attempt.goOn_of_verdict hverdict] at hmore
      obtain ⟨rfl, rfl⟩ := Activity.course_done_iff.mp hmore
      exact ⟨fun _ => a, 1, .first hverdict, by simp [polling, opening]⟩
    | none =>
      have hinconclusive := Attempt.verdict?_eq_none_iff.mp hverdict
      cases left with
      | zero =>
        rw [Attempt.goOn_last hinconclusive] at hmore
        obtain ⟨rfl, rfl⟩ := Activity.course_done_iff.mp hmore
        exact ⟨fun _ => a, 1, .exhausted fun _ _ => hinconclusive, by simp [polling, opening]⟩
      | succ left =>
        rw [Attempt.goOn_again hinconclusive] at hmore
        obtain ⟨later, rfl, hlater⟩ := Activity.course_pause_iff.mp hmore
        obtain ⟨attempts, made, hrest, rfl⟩ := ih hlater
        obtain ⟨earlier, rfl⟩ := hrest.exists_made_eq_succ
        -- The attempts that the rest of the course shows come one place later in the whole of it.
        refine ⟨fun | 0 => a | i + 1 => attempts i, earlier + 2, .later hinconclusive hrest, ?_⟩
        exact polling_succ_shift _ earlier

/-! ## What decides -/

/-- Some attempt finds the artifact, and neither it nor an earlier one fails to copy. -/
def Found (artifact : Path) (announced : Option Path) (budget : Nat) (attempts : Nat → Attempt) :
    Prop :=
  ∃ i < budget, (attempts i).Finds artifact ∧
    ∀ j ≤ i, ∀ cause, ¬(attempts j).Fails artifact announced cause

/-- Some attempt fails to copy, and no earlier one fails or finds the artifact. -/
def CopyFailed (artifact : Path) (announced : Option Path) (budget : Nat)
    (attempts : Nat → Attempt) (cause : FileError) : Prop :=
  ∃ i < budget, (attempts i).Fails artifact announced cause ∧
    ∀ j < i, (attempts j).Inconclusive artifact announced

/-- How a poll ends that makes at most as many attempts as its budget allows: it stops at the first
that is conclusive, and what it comes to depends on the attempts up to there. -/
structure PollEnds (artifact : Path) (announced : Option Path) (budget : Nat)
    (attempts : Nat → Attempt) (made : Nat) (outcome : Except CompileError Path) : Prop where
  made_le : made ≤ budget
  /-- No attempt is followed by another one but those that decide nothing. -/
  inconclusive : ∀ i, i + 1 < made → (attempts i).Inconclusive artifact announced
  /-- Attempts are left over only if the last one that is made decides. -/
  conclusive : made < budget → ∃ i, made = i + 1 ∧ ¬(attempts i).Inconclusive artifact announced
  ok_iff : outcome = .ok artifact ↔ Found artifact announced budget attempts
  io_iff : ∀ cause, outcome = .error (.io artifact cause) ↔
    CopyFailed artifact announced budget attempts cause
  /-- Otherwise the artifact is missing, after as many attempts as are reported. -/
  missing_iff : outcome = .error (.artifactMissing artifact budget) ∧ made = budget ↔
    ¬Found artifact announced budget attempts ∧
      ∀ cause, ¬CopyFailed artifact announced budget attempts cause

namespace Decided

theorem ok_iff (h : Decided config artifact announced attempts left made outcome) :
    outcome = .ok artifact ↔ Found artifact announced left attempts := by
  cases h with
  | conclusive i outcome hi hbefore hverdict =>
    have hcase := Attempt.verdict?_eq_some_iff.mp hverdict
    constructor
    · rintro rfl
      obtain ⟨cause, -, houtcome⟩ | ⟨hcopied, hfinds, -⟩ := hcase
      · cases houtcome
      · refine ⟨i, hi, hfinds, fun j hj => ?_⟩
        obtain hj | rfl := Nat.lt_or_eq_of_le hj
        · exact (hbefore j hj).1
        · exact hcopied
    · rintro ⟨k, -, hfinds, hcopied⟩
      have hk : i ≤ k := Nat.le_of_not_lt fun hk => (hbefore k hk).2 hfinds
      obtain ⟨cause, hfails, -⟩ | ⟨-, -, houtcome⟩ := hcase
      · exact absurd hfails (hcopied i hk cause)
      · exact houtcome.symm
  | exhausted hall => exact iff_of_false nofun fun ⟨k, hk, hfinds, _⟩ => (hall k hk).2 hfinds

theorem io_iff (h : Decided config artifact announced attempts left made outcome)
    {cause : FileError} : outcome = .error (.io artifact cause) ↔
      CopyFailed artifact announced left attempts cause := by
  cases h with
  | conclusive i outcome hi hbefore hverdict =>
    constructor
    · rintro rfl
      obtain ⟨cause', hfails, houtcome⟩ | ⟨-, -, houtcome⟩ :=
        Attempt.verdict?_eq_some_iff.mp hverdict
      · cases houtcome
        exact ⟨i, hi, hfails, hbefore⟩
      · cases houtcome
    · rintro ⟨k, -, hfails, hbefore'⟩
      -- Both attempts are conclusive, and neither has a conclusive one before it.
      have hik : i ≤ k := Nat.le_of_not_lt fun hk => (hbefore k hk).1 cause hfails
      have hki : k ≤ i := Nat.le_of_not_lt fun hi =>
        nomatch hverdict.symm.trans (Attempt.verdict?_eq_none_iff.mpr (hbefore' i hi))
      obtain rfl := Nat.le_antisymm hik hki
      exact Option.some.inj (hverdict.symm.trans
        (Attempt.verdict?_eq_some_iff.mpr (Or.inl ⟨cause, hfails, rfl⟩)))
  | exhausted hall =>
    exact iff_of_false nofun fun ⟨k, hk, hfails, _⟩ => (hall k hk).1 cause hfails

/-- A poll whose budget is what it reports ends as it should. -/
theorem pollEnds
    (h : Decided config artifact announced attempts config.pollAttempts made outcome) :
    PollEnds artifact announced config.pollAttempts attempts made outcome where
  made_le := by
    cases h with
    | conclusive i outcome hi => exact hi
    | exhausted => exact Nat.le_refl _
  inconclusive := by
    intro j hj
    cases h with
    | conclusive i outcome hi hbefore => exact hbefore j (Nat.lt_of_succ_lt_succ hj)
    | exhausted hall => exact hall j (Nat.lt_of_succ_lt hj)
  conclusive := by
    intro hmade
    cases h with
    | conclusive i outcome hi hbefore hverdict =>
      exact ⟨i, rfl, fun hinconclusive =>
        nomatch hverdict.symm.trans (Attempt.verdict?_eq_none_iff.mpr hinconclusive)⟩
    | exhausted => exact absurd hmade (Nat.lt_irrefl _)
  ok_iff := h.ok_iff
  io_iff := fun _ => h.io_iff
  missing_iff := by
    rw [← h.ok_iff]
    simp only [← h.io_iff]
    constructor
    · rintro ⟨rfl, -⟩
      exact ⟨nofun, nofun⟩
    · rintro ⟨hok, hio⟩
      cases h with
      | conclusive i outcome hi hbefore hverdict =>
        obtain ⟨cause, -, houtcome⟩ | ⟨-, -, houtcome⟩ :=
          Attempt.verdict?_eq_some_iff.mp hverdict
        · exact absurd houtcome.symm (hio cause)
        · exact absurd houtcome.symm hok
      | exhausted => exact ⟨rfl, rfl⟩

end Decided

/-- The first conclusive attempt decides a poll. Whatever its attempts are answered, a poll makes
some of them and ends as they decide, and as each one begins there is just as much of the budget
left as has not been used. However far a poll has come, it is on the way to such an end. A copy is
tried in the attempts that offer a library and in no others, and all pauses are between attempts. -/
theorem awaitArtifact_decided (config : CompileConfig) (artifact : Path)
    (announced : Option Path) :
    let poll := awaitArtifact config artifact announced config.pollAttempts
    let Ends := PollEnds artifact announced config.pollAttempts
    (∀ attempts, ∃ made outcome, Ends attempts made outcome ∧
      poll.Course (polling config artifact announced attempts made) outcome ∧
      ∀ i < made, ∃ left, i + (left + 1) = config.pollAttempts ∧
        poll.Steps (opening config artifact announced attempts i)
          (awaitArtifact config artifact announced (left + 1))) ∧
    (∀ exchanges rest, poll.Steps exchanges rest → ∃ attempts made outcome more,
      Ends attempts made outcome ∧
      polling config artifact announced attempts made = exchanges ++ more ∧
      rest.Course more outcome) ∧
    (∀ (a : Attempt) source target copied,
      .copied source target copied ∈ a.exchanges artifact announced ↔
        a.Offers artifact announced source ∧ target = artifact ∧ copied = a.copied) ∧
    ∀ (a : Attempt) span, .paused span ∉ a.exchanges artifact announced := by
  refine ⟨fun attempts => ?_, fun exchanges rest h => ?_,
    fun _ _ _ _ => Attempt.copied_mem_exchanges_iff, fun _ => Attempt.paused_not_mem_exchanges⟩
  · obtain ⟨made, outcome, h⟩ :=
      exists_decided config artifact announced attempts config.pollAttempts
    have hends := h.pollEnds
    refine ⟨made, outcome, hends, h.course, fun i hi => ?_⟩
    obtain ⟨left, hleft⟩ := Nat.exists_eq_add_of_lt (Nat.lt_of_lt_of_le hi hends.made_le)
    refine ⟨left, hleft.symm, ?_⟩
    rw [show config.pollAttempts = i + (left + 1) from hleft]
    exact steps_opening config fun j hj =>
      hends.inconclusive j (Nat.lt_of_le_of_lt (Nat.succ_le_of_lt hj) hi)
  -- Whatever has been asked so far can be carried on to an end, and that end is decided by its
  -- attempts.
  · obtain ⟨more, outcome, hmore⟩ := rest.exists_course
    obtain ⟨attempts, made, hdecided, hpolling⟩ := exists_decided_of_course (h.append hmore)
    exact ⟨attempts, made, outcome, more, hdecided.pollEnds, hpolling, hmore⟩

end

/-- Files in which there are empty files of some names, and nothing else. -/
def filesNamed (names : List String) : FileSystem :=
  ⟨.directory (names.map fun name => (name, .file [] false)), []⟩

/-- A library that is there from the second attempt on. -/
def lateLibrary : Nat → Attempt
  | 0 => ⟨filesNamed [], .ok (), filesNamed []⟩
  | _ + 1 => ⟨filesNamed ["libdemo.so"], .ok (), filesNamed ["demo.so", "libdemo.so"]⟩

theorem awaitArtifact_decided_lateLibrary :
    (awaitArtifact {} ⟨"demo.so"⟩ (some ⟨"libdemo.so"⟩) 3).Course
      (polling {} ⟨"demo.so"⟩ (some ⟨"libdemo.so"⟩) lateLibrary 2) (.ok ⟨"demo.so"⟩) := by
  have hcopied (i : Nat) (cause : FileError) :
      ¬(lateLibrary i).Fails ⟨"demo.so"⟩ (some ⟨"libdemo.so"⟩) cause := by
    rintro ⟨-, hcopied⟩
    cases i <;> cases hcopied
  have hearly : ¬(lateLibrary 0).Finds ⟨"demo.so"⟩ := by
    unfold Attempt.Finds
    decide +kernel
  have hlate : (lateLibrary 1).Finds ⟨"demo.so"⟩ := by
    unfold Attempt.Finds
    decide +kernel
  obtain ⟨made, outcome, ends, hcourse, -⟩ :=
    (awaitArtifact_decided {} ⟨"demo.so"⟩ (some ⟨"libdemo.so"⟩)).1 lateLibrary
  obtain rfl := ends.ok_iff.mpr ⟨1, by decide, hlate, fun j _ => hcopied j⟩
  have hmade : made = 2 := by
    have hnotmore : ¬2 < made := fun h => (ends.inconclusive 1 h).2 hlate
    have hmore : ¬made < 2 := by
      intro h
      obtain ⟨i, rfl, hconclusive⟩ := ends.conclusive (Nat.lt_trans h (by decide))
      obtain rfl : i = 0 := by omega
      exact hconclusive ⟨hcopied 0, hearly⟩
    omega
  exact hmade ▸ hcourse

end CompositionGen
