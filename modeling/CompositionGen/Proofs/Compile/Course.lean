import CompositionGen.Compile.Activity

/-!
# Courses of activities

What an activity does depends on what its host answers, and answers may be whatever they are: other
jobs and other programs change the files in between. A course is one way in which an activity may
go: the things that are asked for with their answers, one after another, and the result. Every
activity ends, and a host that carries one out takes it through one of its courses.
-/

namespace CompositionGen

/-- Something that an activity asks of its host, with the answer. -/
inductive Exchange where
  | looked (files : FileSystem)
  | createdDirectories (path : Path) (made : Except FileError Unit)
  | watched (command : Command) (directory : Path) (child : Except FileError Child)
  | copied (source target : Path) (copied : Except FileError Unit)
  | paused (span : Duration)

namespace Activity

variable {α β : Type}

/-- An activity goes on as another one after one exchange, whatever the answer is. -/
inductive Step : Activity α → Exchange → Activity α → Prop where
  | look (next : FileSystem → Activity α) (files : FileSystem) :
    Step (.look next) (.looked files) (next files)
  | createDirectories (path : Path) (next : Except FileError Unit → Activity α)
      (made : Except FileError Unit) :
    Step (.createDirectories path next) (.createdDirectories path made) (next made)
  | watch (command : Command) (directory : Path) (next : Except FileError Child → Activity α)
      (child : Except FileError Child) :
    Step (.watch command directory next) (.watched command directory child) (next child)
  | copy (source target : Path) (next : Except FileError Unit → Activity α)
      (copied : Except FileError Unit) :
    Step (.copy source target next) (.copied source target copied) (next copied)
  | pause (span : Duration) (next : Activity α) : Step (.pause span next) (.paused span) next

/-- An activity goes on as another one after exchanges, one after another. -/
inductive Steps : Activity α → List Exchange → Activity α → Prop where
  | refl (a : Activity α) : Steps a [] a
  | step {a b c : Activity α} {e : Exchange} {es : List Exchange} :
    Step a e b → Steps b es c → Steps a (e :: es) c

/-- One way in which an activity may go, up to its result. -/
def Course (a : Activity α) (exchanges : List Exchange) (result : α) : Prop :=
  a.Steps exchanges (.done result)

variable {a b c : Activity α} {f : α → Activity β} {e : Exchange} {es es' : List Exchange}
  {x : α} {y : β}

theorem Steps.append (h : a.Steps es b) (h' : b.Steps es' c) : a.Steps (es ++ es') c := by
  induction h with
  | refl => exact h'
  | step hstep _ ih => exact .step hstep (ih h')

theorem Steps.single (h : a.Step e b) : a.Steps [e] b := .step h (.refl b)

/-! ## One activity after another -/

theorem Step.andThen (h : a.Step e b) (f : α → Activity β) :
    (a.andThen f).Step e (b.andThen f) := by
  cases h with
  | look next files => exact .look _ files
  | createDirectories path next made => exact .createDirectories path _ made
  | watch command directory next child => exact .watch command directory _ child
  | copy source target next copied => exact .copy source target _ copied
  | pause span next => exact .pause span _

theorem Steps.andThen (h : a.Steps es b) (f : α → Activity β) :
    (a.andThen f).Steps es (b.andThen f) := by
  induction h with
  | refl => exact .refl _
  | step hstep _ ih => exact .step (hstep.andThen f) ih

theorem Course.andThen {d : Activity β} (h : a.Course es x) (h' : (f x).Steps es' d) :
    (a.andThen f).Steps (es ++ es') d :=
  (Steps.andThen h f).append h'

/-- While the first of two activities is not done, it is the one that goes on. -/
theorem Step.of_andThen {d : Activity β} (h : (a.andThen f).Step e d) :
    (∃ x, a = .done x) ∨ ∃ b, a.Step e b ∧ d = b.andThen f := by
  cases a with
  | done x => exact Or.inl ⟨x, rfl⟩
  | look next =>
    cases h with
    | look _ files => exact Or.inr ⟨_, .look next files, rfl⟩
  | createDirectories path next =>
    cases h with
    | createDirectories _ _ made => exact Or.inr ⟨_, .createDirectories path next made, rfl⟩
  | watch command directory next =>
    cases h with
    | watch _ _ _ child => exact Or.inr ⟨_, .watch command directory next child, rfl⟩
  | copy source target next =>
    cases h with
    | copy _ _ _ copied => exact Or.inr ⟨_, .copy source target next copied, rfl⟩
  | pause span next =>
    cases h with
    | pause => exact Or.inr ⟨_, .pause span next, rfl⟩

theorem exists_done_of_andThen (h : a.andThen f = .done y) : ∃ x, a = .done x := by
  cases a with
  | done x => exact ⟨x, rfl⟩
  | _ => cases h

/-- What two activities do one after the other, up to wherever they have come, is a course of the
first and then something of the second, or something of the first alone. -/
theorem Steps.of_andThen {d : Activity β} (h : (a.andThen f).Steps es d) :
    (∃ first later x, es = first ++ later ∧ a.Course first x ∧ (f x).Steps later d) ∨
      ∃ b, a.Steps es b ∧ d = b.andThen f := by
  induction es generalizing a with
  | nil =>
    cases h
    exact Or.inr ⟨a, .refl a, rfl⟩
  | cons e es ih =>
    cases h with
    | step hstep hrest =>
      rcases hstep.of_andThen with ⟨x, rfl⟩ | ⟨b, hb, rfl⟩
      · exact Or.inl ⟨[], _, x, rfl, .refl _, .step hstep hrest⟩
      · rcases ih hrest with ⟨first, later, x, rfl, hfirst, hlater⟩ | ⟨c, hc, rfl⟩
        · exact Or.inl ⟨e :: first, later, x, rfl, .step hb hfirst, hlater⟩
        · exact Or.inr ⟨c, .step hb hc, rfl⟩

/-- A course of one activity after another is a course of the first and then one of the second. -/
theorem course_andThen_iff : (a.andThen f).Course es y ↔
    ∃ first later x, es = first ++ later ∧ a.Course first x ∧ (f x).Course later y := by
  constructor
  · intro h
    rcases h.of_andThen with hboth | ⟨b, hb, hdone⟩
    · exact hboth
    · obtain ⟨x, rfl⟩ := exists_done_of_andThen hdone.symm
      have hresult : f x = .done y := hdone.symm
      exact ⟨es, [], x, (List.append_nil es).symm, hb, hresult ▸ .refl _⟩
  · rintro ⟨first, later, x, rfl, h, h'⟩
    exact h.andThen h'

/-! ## Courses in general -/

theorem course_done_iff {x' : α} : (done x).Course es x' ↔ es = [] ∧ x = x' := by
  constructor
  · intro h
    cases h with
    | refl => exact ⟨rfl, rfl⟩
    | step hstep => cases hstep
  · rintro ⟨rfl, rfl⟩
    exact .refl _

theorem course_look_iff {next : FileSystem → Activity α} :
    (look next).Course es x ↔
      ∃ files later, es = .looked files :: later ∧ (next files).Course later x := by
  constructor
  · intro h
    cases h with
    | step hstep hrest =>
      cases hstep with
      | look _ files => exact ⟨files, _, rfl, hrest⟩
  · rintro ⟨files, later, rfl, h⟩
    exact .step (.look next files) h

theorem course_createDirectories_iff {path : Path} {next : Except FileError Unit → Activity α} :
    (createDirectories path next).Course es x ↔
      ∃ made later, es = .createdDirectories path made :: later ∧ (next made).Course later x := by
  constructor
  · intro h
    cases h with
    | step hstep hrest =>
      cases hstep with
      | createDirectories _ _ made => exact ⟨made, _, rfl, hrest⟩
  · rintro ⟨made, later, rfl, h⟩
    exact .step (.createDirectories path next made) h

theorem course_watch_iff {command : Command} {directory : Path}
    {next : Except FileError Child → Activity α} :
    (watch command directory next).Course es x ↔
      ∃ child later, es = .watched command directory child :: later ∧
        (next child).Course later x := by
  constructor
  · intro h
    cases h with
    | step hstep hrest =>
      cases hstep with
      | watch _ _ _ child => exact ⟨child, _, rfl, hrest⟩
  · rintro ⟨child, later, rfl, h⟩
    exact .step (.watch command directory next child) h

theorem course_copy_iff {source target : Path} {next : Except FileError Unit → Activity α} :
    (copy source target next).Course es x ↔
      ∃ copied later, es = .copied source target copied :: later ∧
        (next copied).Course later x := by
  constructor
  · intro h
    cases h with
    | step hstep hrest =>
      cases hstep with
      | copy _ _ _ copied => exact ⟨copied, _, rfl, hrest⟩
  · rintro ⟨copied, later, rfl, h⟩
    exact .step (.copy source target next copied) h

theorem course_pause_iff {span : Duration} {next : Activity α} :
    (pause span next).Course es x ↔ ∃ later, es = .paused span :: later ∧ next.Course later x := by
  constructor
  · intro h
    cases h with
    | step hstep hrest =>
      cases hstep with
      | pause => exact ⟨_, rfl, hrest⟩
  · rintro ⟨later, rfl, h⟩
    exact .step (.pause span next) h

theorem Step.unique (h : a.Step e b) (h' : a.Step e c) : b = c := by
  cases h <;> cases h' <;> rfl

/-- What an activity is answered leaves no choice. -/
theorem Course.unique {x' : α} (h : a.Course es x) (h' : a.Course es x') : x = x' := by
  induction es generalizing a with
  | nil =>
    cases h
    cases h'
    rfl
  | cons e es ih =>
    cases h with
    | step hstep hrest =>
      cases h' with
      | step hstep' hrest' =>
        obtain rfl := hstep.unique hstep'
        exact ih hrest hrest'

/-- Whatever has been answered so far, there is a way to the result. -/
theorem exists_course (a : Activity α) : ∃ es x, a.Course es x := by
  induction a with
  | done x => exact ⟨[], x, .refl _⟩
  | look next ih =>
    obtain ⟨es, x, h⟩ := ih default
    exact ⟨_, x, .step (.look next default) h⟩
  | createDirectories path next ih =>
    obtain ⟨es, x, h⟩ := ih (.ok ())
    exact ⟨_, x, .step (.createDirectories path next (.ok ())) h⟩
  | watch command directory next ih =>
    obtain ⟨es, x, h⟩ := ih (.ok {})
    exact ⟨_, x, .step (.watch command directory next (.ok {})) h⟩
  | copy source target next ih =>
    obtain ⟨es, x, h⟩ := ih (.ok ())
    exact ⟨_, x, .step (.copy source target next (.ok ())) h⟩
  | pause span next ih =>
    obtain ⟨es, x, h⟩ := ih
    exact ⟨_, x, .step (.pause span next) h⟩

/-- A host that carries an activity out takes it through one of its courses. -/
theorem exists_course_carryOut {σ : Type} (host : Host σ) (a : Activity α) (s : σ) :
    ∃ es, a.Course es (a.carryOut host s).1 := by
  induction a generalizing s with
  | done x => exact ⟨[], .refl _⟩
  | look next ih =>
    obtain ⟨es, h⟩ := ih (host.files s) s
    exact ⟨_, .step (.look next _) h⟩
  | createDirectories path next ih =>
    obtain ⟨es, h⟩ := ih (host.createDirectories s path).1 (host.createDirectories s path).2
    exact ⟨_, .step (.createDirectories path next _) h⟩
  | watch command directory next ih =>
    obtain ⟨es, h⟩ := ih (host.watch s command directory).1 (host.watch s command directory).2
    exact ⟨_, .step (.watch command directory next _) h⟩
  | copy source target next ih =>
    obtain ⟨es, h⟩ := ih (host.copy s source target).1 (host.copy s source target).2
    exact ⟨_, .step (.copy source target next _) h⟩
  | pause span next ih =>
    obtain ⟨es, h⟩ := ih (host.pause s span)
    exact ⟨_, .step (.pause span next) h⟩

end Activity

end CompositionGen
