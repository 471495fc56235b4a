import CompositionGen.Proofs.Files.Growing
import CompositionGen.Utility

/-!
# What utilities do to files

No utility takes anything away. Only those that make files and directories change the files at all,
and what they have made stays made when a later operand cannot be.
-/

namespace CompositionGen.Utility

variable {c : Call} {files : FileSystem}

/-! ## Utilities that leave the files -/

@[simp] theorem files_writes (c : Call) (chars : List Char) :
    (c.writes chars).files = c.files := rfl

@[simp] theorem files_ends (c : Call) (status : Nat) : (c.ends status).files = c.files := rfl

@[simp] theorem files_complains (c : Call) (lines : List String) (status : Nat) :
    (c.complains lines status).files = c.files := rfl

@[simp] theorem files_refuses (c : Call) (problems : List String) :
    (c.refuses problems).files = c.files := rfl

@[simp] theorem files_tells (c : Call) (e : Effect) : (c.tells e).files = e.files := rfl

@[simp] theorem files_echo (c : Call) : (echo c).files = c.files := rfl

@[simp] theorem files_shellEcho (c : Call) : (shellEcho c).files = c.files := by
  unfold shellEcho
  split <;> rfl

@[simp] theorem files_printf (c : Call) : (printf c).files = c.files := by
  unfold printf
  split <;> rfl

@[simp] theorem files_shellPrintf (c : Call) : (shellPrintf c).files = c.files := by
  unfold shellPrintf
  dsimp only
  split
  · rfl
  · split <;> rfl

@[simp] theorem files_pwd (c : Call) : (pwd c).files = c.files := by
  unfold pwd
  split
  · rfl
  · dsimp only
    split <;> rfl

@[simp] theorem files_test (c : Call) : (test c).files = c.files := by
  unfold test
  split <;> rfl

@[simp] theorem files_bracket (c : Call) : (bracket c).files = c.files := by
  unfold bracket
  split
  · rw [files_test]
  · rfl

/-! ## Making files and directories -/

theorem grows_forEach {act : FileSystem → String → FileSystem × List Saying × Bool}
    (h : ∀ (files : FileSystem) name, files.Grows (act files name).1) (start : Effect)
    (names : List String) : start.files.Grows (forEach start names act).files := by
  unfold forEach
  refine List.foldlRecOn (motive := fun e : Effect => start.files.Grows e.files) names _
    (.refl start.files) fun e he name _ => ?_
  exact he.trans (h e.files name)

theorem grows_touchOne (c : Call) (g : Given) (files : FileSystem) (name : String) :
    files.Grows (touchOne c g files name).1 := by
  unfold touchOne
  dsimp only
  split
  · exact .refl files
  · split
    · split
      · exact .refl files
      · split <;> exact .refl files
      · exact .refl files
    · split
      · exact .refl files
      · split
        · exact .refl files
        · split
          · rename_i hwritten
            exact FileSystem.grows_write hwritten
          · exact .refl files

theorem grows_touch (c : Call) : c.files.Grows (touch c).files := by
  have hrun : ∀ g, c.files.Grows (touch.run c g).files := by
    intro g
    unfold touch.run
    split
    · exact .refl c.files
    · exact grows_forEach (grows_touchOne c g) (c.ends 0) g.operands
  unfold touch
  split
  · exact .refl c.files
  · split
    · exact .refl c.files
    · split
      · exact .refl c.files
      · split
        · split
          · exact hrun _
          · exact .refl c.files
        · exact hrun _

theorem grows_makeAbove (c : Call) (verbose : Bool) (names : List String) (files : FileSystem) :
    files.Grows (makeAbove c verbose files names).1 := by
  induction names generalizing files with
  | nil => exact .refl files
  | cons name rest ih =>
    unfold makeAbove
    split
    · rename_i made hmade
      exact (FileSystem.grows_createDirectory hmade).trans (ih made)
    · split
      · exact ih files
      · exact .refl files
      · exact .refl files
    · exact .refl files

theorem grows_mkdirOne (c : Call) (g : Given) (files : FileSystem) (name : String) :
    files.Grows (mkdirOne c g files name).1 := by
  unfold mkdirOne
  dsimp only
  generalize (if g.has 'p' = true then namesAbove name else []) = names
  have habove := grows_makeAbove c (g.has 'v') names files
  split
  · exact habove
  · split
    · rename_i hmade
      exact habove.trans (FileSystem.grows_createDirectory hmade)
    · split <;> exact habove

theorem grows_mkdir (c : Call) : c.files.Grows (mkdir c).files := by
  unfold mkdir
  split
  · exact .refl c.files
  · split
    · exact .refl c.files
    · split
      · exact .refl c.files
      · split
        · exact .refl c.files
        · exact grows_forEach (grows_mkdirOne c _) (c.ends 0) _

/-! ## By name -/

theorem grows_programs {program : String} {act : Call → Effect}
    (h : lookup? program programs = some act) (c : Call) : c.files.Grows (act c).files := by
  have hmem := mem_of_lookup? h
  simp only [programs, List.mem_cons, Prod.mk.injEq, List.not_mem_nil, or_false] at hmem
  rcases hmem with ⟨-, rfl⟩ | ⟨-, rfl⟩ | ⟨-, rfl⟩ | ⟨-, rfl⟩ | ⟨-, rfl⟩ | ⟨-, rfl⟩ | ⟨-, rfl⟩ |
    ⟨-, rfl⟩ | ⟨-, rfl⟩
  case inr.inr.inr.inl => exact grows_mkdir c
  case inr.inr.inr.inr.inr.inr.inr.inl => exact grows_touch c
  all_goals simp [FileSystem.Grows.refl]

/-- What a shell does by itself leaves the files as they are. -/
theorem files_shellUtilities {name : String} {act : Call → Effect}
    (h : lookup? name shellUtilities = some act) (c : Call) : (act c).files = c.files := by
  have hmem := mem_of_lookup? h
  simp only [shellUtilities, List.mem_cons, Prod.mk.injEq, List.not_mem_nil, or_false] at hmem
  rcases hmem with ⟨-, rfl⟩ | ⟨-, rfl⟩ | ⟨-, rfl⟩ | ⟨-, rfl⟩ | ⟨-, rfl⟩ | ⟨-, rfl⟩ | ⟨-, rfl⟩ <;>
    simp

end CompositionGen.Utility
