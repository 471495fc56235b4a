import CompositionGen.Process.Builtin
import CompositionGen.Proofs.Process.Turns

/-!
# What commands of the shell do to a machine

The commands that the shell carries out itself are chains of things that a process does at its turn.
A command that goes through its arguments one by one keeps what holds after each of them.
-/

namespace CompositionGen

@[simp] theorem Turn.id_leaveLoops (again : Bool) (count : Nat) (p : Process) :
    (Turn.leaveLoops again count p).id = p.id := by
  induction count generalizing p with
  | zero => rfl
  | succ count ih =>
    unfold Turn.leaveLoops
    dsimp only
    split
    · split
      · exact Process.id_unwind _ p
      · split
        · split
          · exact Process.id_unwind _ p
          · exact Process.id_unwind _ p
        · rw [ih]
          exact Process.id_unwind _ p
    · exact Process.id_unwind _ p

namespace Machine.Evolves

variable {m : Machine} {u v : Turn}

theorem refuse (h : m.Evolves u.whole) (endsShell : Bool) (message : String) :
    m.Evolves (u.refuse endsShell message).whole := by
  unfold Turn.refuse
  split
  · exact h.fail message
  · exact (h.warn message).withStatus 2

theorem answer (h : m.Evolves u.whole) (status : Nat) (text : String) :
    m.Evolves (u.answer status text).whole := by
  have hsaid := h.sayAll [.output text.toList]
  unfold Turn.answer
  dsimp only
  split
  · exact hsaid.withStatus status
  · exact (hsaid.warn _).withStatus 1

theorem withOptions {letters : String} {args : List String} {act : List Char → List String → Turn}
    (h : m.Evolves u.whole) (endsShell : Bool)
    (hact : ∀ given operands, m.Evolves (act given operands).whole) :
    m.Evolves (u.withOptions endsShell letters args act).whole := by
  unfold Turn.withOptions
  split
  · exact h.refuse endsShell _
  · exact hact _ _

/-! ## Signals -/

theorem send (h : m.Evolves u.whole) (id signal : Nat) : m.Evolves (u.send id signal).whole := by
  unfold Turn.send
  split
  · exact h
  · split
    · exact h.receive signal
    · have hsent := h.onMachine (evolves_signal u.machine id signal)
      dsimp only
      split
      · exact hsent.receive Signal.child
      · exact hsent

theorem killEach (h : m.Evolves u.whole) (signal : Nat) (targets : List String) :
    m.Evolves (Turn.killEach signal u targets).whole := by
  induction targets generalizing u with
  | nil => exact h
  | cons target rest ih =>
    unfold Turn.killEach
    split
    · exact h
    · split
      · exact h.refuse false _
      · exact ih ((h.warn _).withStatus 1)
      · exact ih (h.foldl (fun v id hv => hv.send id signal) _)

theorem kill (h : m.Evolves u.whole) (args : List String) : m.Evolves (u.kill args).whole := by
  unfold Turn.kill
  split
  · exact h.refuse false _
  · exact h.answer 0 _
  · split
    · exact h.refuse false _
    · rename_i n _
      dsimp only
      generalize (if 128 < n then n - 128 else n) = code
      split
      · exact h.answer 0 _
      · exact h.refuse false _
  · exact h.refuse false _
  · exact (h.withStatus 0).killEach _ _

theorem trapEach (h : m.Evolves u.whole) (action : Option String) (names : List String) :
    m.Evolves (Turn.trapEach action u names).whole := by
  induction names generalizing u with
  | nil => exact h
  | cons name rest ih =>
    unfold Turn.trapEach
    split
    · exact (h.complain _).withStatus 1
    · refine ih (h.map ?_)
      unfold Turn.setTrap
      split <;> rfl

theorem trap (h : m.Evolves u.whole) (args : List String) : m.Evolves (u.trap args).whole := by
  have hcleared := h.withStatus 0
  unfold Turn.trap
  refine hcleared.withOptions true fun given operands => ?_
  dsimp only
  split
  · exact hcleared.answer 0 _
  · exact hcleared.trapEach none _
  · split
    · exact hcleared.trapEach none _
    · exact hcleared.trapEach _ _

/-! ## Variables -/

theorem assign (h : m.Evolves u.whole) (name value : String) :
    m.Evolves (u.assign name value).whole := by
  unfold Turn.assign
  split
  · exact h.fail _
  · exact h.map rfl

theorem assignGiven (h : m.Evolves u.whole) (name : String) (value : Option String) :
    m.Evolves (value.elim u (u.assign name)).whole := by
  cases value with
  | none => exact h
  | some text => exact h.assign name text

theorem markEach (h : m.Evolves u.whole)
    (mark : Script.Variables → String → Script.Variables) (args : List String) :
    m.Evolves (Turn.markEach mark u args).whole := by
  induction args generalizing u with
  | nil => exact h
  | cons arg rest ih =>
    unfold Turn.markEach
    dsimp only
    split
    · exact h.fail _
    · split
      · exact h.fail _
      · exact ih ((h.assignGiven _ _).map rfl)

theorem mark (h : m.Evolves u.whole) (command : String) (has : Script.Variable → Bool)
    (set : Script.Variables → String → Script.Variables) (args : List String) :
    m.Evolves (u.mark command has set args).whole := by
  unfold Turn.mark
  refine h.withOptions true fun given operands => ?_
  split
  · exact h.answer 0 _
  · exact (h.withStatus 0).markEach set operands

theorem forgetEach (h : m.Evolves u.whole) (names : List String) :
    m.Evolves (Turn.unset.forgetEach u names).whole := by
  induction names generalizing u with
  | nil => exact h
  | cons name rest ih =>
    unfold Turn.unset.forgetEach
    split
    · exact h.fail _
    · split
      · exact h.fail _
      · exact ih (h.map rfl)

theorem unset (h : m.Evolves u.whole) (args : List String) : m.Evolves (u.unset args).whole := by
  have hcleared := h.withStatus 0
  unfold Turn.unset
  refine hcleared.withOptions true fun given names => ?_
  split
  · exact hcleared.map rfl
  · exact hcleared.forgetEach names

theorem localEach (h : m.Evolves u.whole) (args : List String) :
    m.Evolves (u.localEach args).whole := by
  induction args generalizing u with
  | nil => exact h
  | cons arg rest ih =>
    unfold Turn.localEach
    dsimp only
    split
    · refine ih (assignGiven ?_ _ _)
      exact h.map rfl
    · exact h.fail _

theorem set (h : m.Evolves u.whole) (args : List String) : m.Evolves (u.set args).whole := by
  unfold Turn.set
  split
  · exact h.answer 0 _
  · split
    · exact h.fail _
    · exact (h.withStatus 0).map rfl

theorem shift (h : m.Evolves u.whole) (args : List String) : m.Evolves (u.shift args).whole := by
  unfold Turn.shift
  split
  · exact h.fail _
  · split
    · exact h.fail _
    · exact (h.withStatus 0).map rfl

/-! ## Directories -/

theorem goTo (h : m.Evolves u.whole) (physical shows : Bool) (target : String) :
    m.Evolves (u.goTo physical shows target).whole := by
  have hmoved : ∀ location name,
      m.Evolves (u.map fun _ => (Turn.moved u.process location name).1).whole := by
    intro location name
    refine h.map ?_
    unfold Turn.moved
    dsimp only
    split
    · rfl
    · split <;> rfl
  unfold Turn.goTo
  dsimp only
  split
  · split
    · exact (hmoved _ _).refuse false _
    · split
      · exact (hmoved _ _).answer 0 _
      · exact (hmoved _ _).withStatus 0
  · exact h.refuse false _

theorem cd (h : m.Evolves u.whole) (args : List String) : m.Evolves (u.cd args).whole := by
  unfold Turn.cd
  refine h.withOptions false fun given operands => ?_
  dsimp only
  split
  · split
    · exact h.goTo _ _ _
    · exact h.withStatus 0
  · exact h.goTo _ _ _
  · exact h.goTo _ _ _

theorem pwd (h : m.Evolves u.whole) (args : List String) : m.Evolves (u.pwd args).whole := by
  unfold Turn.pwd
  refine h.withOptions false fun given operands => ?_
  split <;> exact h.answer 0 _

/-! ## Loops, functions and children -/

theorem breakOut (h : m.Evolves u.whole) (again : Bool) (args : List String) :
    m.Evolves (u.breakOut again args).whole := by
  unfold Turn.breakOut
  split
  · exact h.fail _
  · dsimp only
    split
    · exact (h.withStatus 0).map (Turn.id_leaveLoops again _ _)
    · exact h.withStatus 0

theorem exit (h : m.Evolves u.whole) (args : List String) : m.Evolves (u.exit args).whole := by
  unfold Turn.exit
  dsimp only
  split
  · exact h.leave _
  · exact h.fail _

theorem comeBack (h : m.Evolves u.whole) (args : List String) :
    m.Evolves (u.comeBack args).whole := by
  unfold Turn.comeBack
  split
  · exact h.fail _
  · exact h.map (Process.id_unwind _ _)

theorem wait (h : m.Evolves u.whole) (args : List String) : m.Evolves (u.wait args).whole := by
  unfold Turn.wait
  refine h.withOptions false fun given names => ?_
  split
  · exact (h.withStatus 0).push _
  · exact (h.withStatus 127).push _

theorem read (h : m.Evolves u.whole) (args : List String) : m.Evolves (u.read args).whole := by
  unfold Turn.read
  split
  · exact h.refuse false _
  · exact h.refuse false _
  · exact h.push _

end Machine.Evolves

end CompositionGen
