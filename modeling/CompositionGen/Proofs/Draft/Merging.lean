import CompositionGen.Proofs.Draft.Faithfulness

/-!
# What merging changes

The patches of a step are appended to the entries of its input name by name, each time in the entry
that is found first. Seen from the entries this is one change of each: an entry takes the patches of
its own name, unless an entry of that name stands before it. So it does not matter in which order
the names are taken, and all that no name is found for stays as it was given.
-/

namespace CompositionGen

/-! ## Changing one member -/

/-- Members with a value under a name, and with the members of all other names and their order as
they were. -/
structure Json.Sets (name : String) (value : Json) (members changed : List (String × Json)) : Prop
  where
  value : lookup? name changed = some value
  others : changed.filter (·.1 ≠ name) = members.filter (·.1 ≠ name)
  sorted : (members.Pairwise fun a b => a.1 < b.1) → changed.Pairwise fun a b => a.1 < b.1

theorem Json.sets_setMember (name : String) (value : Json) (members : List (String × Json)) :
    Sets name value members (setMember name value members) where
  value := by simp [lookup?_setMember]
  others := filter_setMember (fun key => decide (key ≠ name)) (by simp)
  sorted := sorted_setMember

/-- A member that is found has members of other names before it, and is the one that is replaced. -/
theorem Json.exists_split_of_lookup? {name : String} {value : Json} {members : List (String × Json)}
    (h : lookup? name members = some value) :
    ∃ before after, (∀ member ∈ before, member.1 ≠ name) ∧
      members = before ++ (name, value) :: after ∧
      ∀ other, replaceMember name other members = before ++ (name, other) :: after := by
  induction members with
  | nil => cases h
  | cons member rest ih =>
    obtain ⟨key, old⟩ := member
    rw [lookup?] at h
    by_cases hk : key = name
    · subst hk
      rw [if_pos rfl] at h
      cases h
      exact ⟨[], rest, by simp, rfl, fun other => by simp [replaceMember]⟩
    · rw [if_neg hk] at h
      obtain ⟨before, after, hbefore, rfl, hreplace⟩ := ih h
      refine ⟨(key, old) :: before, after, ?_, rfl, fun other => ?_⟩
      · exact List.forall_mem_cons.mpr ⟨hk, hbefore⟩
      · rw [replaceMember, if_neg hk, hreplace, List.cons_append]

/-! ## Filling in the type -/

/-- Members with a value put under a name if there was none. -/
def Json.FillsAbsent (name : String) (value : Json) (members filled : List (String × Json)) :
    Prop :=
  if (lookup? name members).isSome then filled = members else Sets name value members filled

/-- A value with the type of an object filled in: it stays as it is if the object has no kind, or
is not an object at all. -/
def ObjectRef.FillsIn (o : ObjectRef) (value : Json) : Prop :=
  match o.value with
  | .object members => ∃ versioned filled, value = .object filled ∧
      if o.kind.kind = "" then filled = members
      else
        Json.FillsAbsent "apiVersion" (.string o.kind.apiVersion) members versioned ∧
          Json.FillsAbsent "kind" (.string o.kind.kind) versioned filled
  | other => value = other

namespace ObjectRef

theorem fillsAbsent_fillMember (name : String) (value : Json) (members : List (String × Json)) :
    Json.FillsAbsent name value members (fillMember name value members) := by
  unfold Json.FillsAbsent fillMember
  by_cases h : (lookup? name members).isSome = true
  · rw [if_pos h, if_pos h]
  · rw [if_neg h, if_neg h]
    exact Json.sets_setMember name value members

theorem fillsIn_withTypeMeta (o : ObjectRef) : o.FillsIn o.withTypeMeta := by
  unfold FillsIn withTypeMeta
  by_cases hk : o.kind.kind = ""
  · rw [if_pos (String.isEmpty_iff.mpr hk)]
    cases o.value with
    | object members => exact ⟨members, members, rfl, by rw [if_pos hk]⟩
    | _ => rfl
  · rw [if_neg (fun he => hk (String.isEmpty_iff.mp he))]
    cases o.value with
    | object members =>
      have hversion := fillsAbsent_fillMember "apiVersion" (.string o.kind.apiVersion) members
      have hkind := fillsAbsent_fillMember "kind" (.string o.kind.kind)
        (fillMember "apiVersion" (.string o.kind.apiVersion) members)
      exact ⟨_, _, rfl, (if_neg hk).mpr ⟨hversion, hkind⟩⟩
    | _ => rfl

end ObjectRef

/-! ## The patches of a step -/

namespace StepCall

/-- The patches that a call gives for the entry of a name, if it gives any. -/
def patches? (name : String) : StepCall → Option (List Patch)
  | .withPatch resource patch => if resource = name then some [patch] else none
  | .withPatches resource patches => if resource = name then some patches else none
  | _ => none

/-- The patches that are given for the entry of a name, in the order of the calls; the list may be
empty, but there is none if no call is about that name. -/
def given? (calls : List StepCall) (name : String) : Option (List Patch) :=
  let lists := calls.filterMap (patches? name)
  if lists = [] then none else some lists.flatten

end StepCall

namespace StepDraft

theorem get?_addPatches (s : StepDraft) (resource : String) (patches : List Patch)
    (name : String) :
    (s.addPatches resource patches).patches.get? name =
      if resource = name then some ((s.patches.get? name).getD [] ++ patches)
      else s.patches.get? name := by
  rw [addPatches, Dictionary.get?_alter]
  by_cases h : resource = name
  · simp [h]
  · simp [h, Ne.symm h]

/-- A call that is about a name appends to the patches of that name, and any other leaves them. -/
theorem get?_patches_apply (s : StepDraft) (call : StepCall) (name : String) :
    (s.apply call).patches.get? name = (StepCall.patches? name call).elim (s.patches.get? name)
      fun patches => some ((s.patches.get? name).getD [] ++ patches) := by
  cases call with
  | withPatch resource patch =>
    rw [apply, get?_addPatches, StepCall.patches?]
    split
    · rfl
    · rfl
  | withPatches resource patches =>
    rw [apply, get?_addPatches, StepCall.patches?]
    split
    · rfl
    · rfl
  | _ => rfl

theorem get?_patches_applyAll (s : StepDraft) (calls : List StepCall) (name : String) :
    (s.applyAll calls).patches.get? name =
      if calls.filterMap (StepCall.patches? name) = [] then s.patches.get? name
      else some ((s.patches.get? name).getD [] ++
        (calls.filterMap (StepCall.patches? name)).flatten) := by
  induction calls generalizing s with
  | nil => rfl
  | cons call rest ih =>
    rw [applyAll, List.foldl_cons, ← applyAll, ih, get?_patches_apply]
    cases hp : StepCall.patches? name call with
    | none => rw [List.filterMap_cons_none hp, Option.elim_none]
    | some patches =>
      rw [List.filterMap_cons_some hp, if_neg (List.cons_ne_nil _ _), List.flatten_cons,
        Option.elim_some]
      split
      · rename_i hnil
        rw [hnil, List.flatten_nil, List.append_nil]
      · rw [Option.getD_some, List.append_assoc]

theorem get?_patches_stepDraft (step : String) (calls : List StepCall) (name : String) :
    (CompositionDraft.stepDraft (step, calls)).patches.get? name = StepCall.given? calls name :=
  get?_patches_applyAll { step } calls name

end StepDraft

/-! ## One change of each entry -/

namespace Json

/-- The name of an entry in a list of resources. -/
def entryName? (entry : Json) : Option String := (entry.member? "name").bind string?

/-- The patches for an entry: those that are given for its name, unless the name is that of an
entry before it. -/
def entryPatches? (given : String → Option (List Patch)) (named : List String) (entry : Json) :
    Option (List Patch) :=
  (entry.entryName?.filter (· ∉ named)).bind given

/-- An entry that takes patches: they are appended to the list of those that it has, and nothing
else of it changes. An entry that there are no patches for stays as it is, and so does one that has
something else in the place of that list. -/
inductive EntryMerges (patches? : Option (List Patch)) : Json → Json → Prop where
  | appended {patches : List Patch} {old : List Json} {members merged : List (String × Json)}
      (given : patches? = some patches)
      (list : lookup? "patches" members = some (.array old) ∨
        lookup? "patches" members = none ∧ old = [])
      (sets : Sets "patches" (.array (old ++ patches.map (·.toJson.normalize))) members merged) :
    EntryMerges patches? (.object members) (.object merged)
  | noPatches {entry : Json} (given : patches? = none) : EntryMerges patches? entry entry
  | noList {other : Json} {members : List (String × Json)}
      (found : lookup? "patches" members = some other) (list : ∀ old, other ≠ .array old) :
    EntryMerges patches? (.object members) (.object members)

/-- Entries that take the patches given for their names, of several entries of one name the first:
there are as many of them as before, each in its place. -/
structure EntriesMerge (given : String → Option (List Patch)) (entries merged : List Json) : Prop
  where
  length : merged.length = entries.length
  entry : ∀ i entry, entries[i]? = some entry → ∃ taken, merged[i]? = some taken ∧
    EntryMerges (entryPatches? given ((entries.take i).filterMap entryName?) entry) entry taken

/-- An input that patches are merged into: the entries of its resources take them, and nothing else
of it changes. An input without a list of resources stays as it is. -/
inductive InputMerges (given : String → Option (List Patch)) : Json → Json → Prop where
  | entries {before after : List (String × Json)} {entries merged : List Json}
      (first : ∀ member ∈ before, member.1 ≠ "resources")
      (merges : EntriesMerge given entries merged) :
    InputMerges given (.object (before ++ ("resources", .array entries) :: after))
      (.object (before ++ ("resources", .array merged) :: after))
  | noList {input : Json} (list : ∀ entries, input.member? "resources" ≠ some (.array entries)) :
    InputMerges given input input

end Json

/-! ## One entry after another instead of one name after another -/

namespace StepDraft

/-- An entry with patches appended where they can be. -/
def mergedEntry (patches? : Option (List Patch)) (entry : Json) : Json :=
  match patches?, entry with
  | some patches, .object members =>
    match appendPatches (patches.map fun p => p.toJson.normalize) members with
    | .ok merged => .object merged
    | .error _ => .object members
  | _, _ => entry

/-- The entries with the patches given for their names, when entries of some names stand before
them. -/
def mergedEntries (given : String → Option (List Patch)) : List String → List Json → List Json
  | _, [] => []
  | named, entry :: rest =>
    mergedEntry (entry.entryPatches? given named) entry ::
      mergedEntries given (named ++ entry.entryName?.toList) rest

theorem entryName?_mergedEntry (patches? : Option (List Patch)) (entry : Json) :
    (mergedEntry patches? entry).entryName? = entry.entryName? := by
  unfold mergedEntry
  split
  · rename_i patches members
    unfold appendPatches
    split
    · rename_i merged hm
      have hname : lookup? "name" merged = lookup? "name" members := by
        split at hm
        · cases hm
          rw [Json.lookup?_setMember, if_neg (by decide)]
        · cases hm
          rw [Json.lookup?_setMember, if_neg (by decide)]
        · cases hm
      exact congrArg (·.bind Json.string?) hname
    · rfl
  · rfl

section Single

/-! Going over the names for one name is one pass over the entries for that name alone. -/

variable {name : String} {patches : List Patch} {named : List String}

theorem entryPatches?_single_ne {entry : Json} (h : entry.entryName? ≠ some name ∨ name ∈ named) :
    entry.entryPatches? (lookup? · [(name, patches)]) named = none := by
  unfold Json.entryPatches?
  cases he : entry.entryName? with
  | none => rfl
  | some other =>
    by_cases hn : other ∈ named
    · simp [hn]
    · have hne : name ≠ other := by
        rintro rfl
        exact h.elim (fun h => h he) hn
      simp [hn, lookup?, hne]

theorem mergedEntries_single_named (h : name ∈ named) (entries : List Json) :
    mergedEntries (lookup? · [(name, patches)]) named entries = entries := by
  induction entries generalizing named with
  | nil => rfl
  | cons entry rest ih =>
    rw [mergedEntries, entryPatches?_single_ne (.inr h), ih (List.mem_append_left _ h)]
    rfl

theorem entryPatches?_single_eq {entry : Json} (h : entry.entryName? = some name)
    (hn : name ∉ named) :
    entry.entryPatches? (lookup? · [(name, patches)]) named = some patches := by
  simp [Json.entryPatches?, h, Option.filter_some, hn, lookup?]

theorem exists_of_entryName? {entry : Json} (h : entry.entryName? = some name) :
    ∃ members, entry = .object members ∧ lookup? "name" members = some (.string name) := by
  obtain ⟨value, hvalue, hstring⟩ := Option.bind_eq_some_iff.mp h
  cases value with
  | string text =>
    cases hstring
    cases entry with
    | object members => exact ⟨members, rfl, hvalue⟩
    | _ => cases hvalue
  | _ => cases hstring

theorem mergeInto_cons_of_ne {entry : Json} (h : entry.entryName? ≠ some name)
    (written rest : List Json) :
    mergeInto name written (entry :: rest) = (mergeInto name written rest).map (entry :: ·) := by
  cases entry with
  | object members =>
    rw [mergeInto, if_neg]
    intro hname
    exact h (by simp [Json.entryName?, Json.member?, hname, Json.string?])
  | _ => rfl

theorem mergeInto_eq (h : name ∉ named) (entries : List Json) :
    (mergeInto name (patches.map fun p => p.toJson.normalize) entries).toOption.getD entries =
      mergedEntries (lookup? · [(name, patches)]) named entries := by
  induction entries generalizing named with
  | nil => rfl
  | cons entry rest ih =>
    rw [mergedEntries]
    by_cases hname : entry.entryName? = some name
    · have hlater : name ∈ named ++ entry.entryName?.toList := by simp [hname]
      rw [entryPatches?_single_eq hname h, mergedEntries_single_named hlater]
      obtain ⟨members, rfl, hm⟩ := exists_of_entryName? hname
      rw [mergeInto, if_pos hm, mergedEntry]
      cases appendPatches (patches.map fun p => p.toJson.normalize) members <;> rfl
    · have hlater : name ∉ named ++ entry.entryName?.toList := by
        simpa [h] using hname
      rw [entryPatches?_single_ne (.inl hname), mergeInto_cons_of_ne hname, ← ih hlater]
      cases mergeInto name (patches.map fun p => p.toJson.normalize) rest <;> rfl

end Single

section Order

/-! Two passes that are about different names are one pass, and so every order of the names is. -/

variable {given later : String → Option (List Patch)}

theorem mergedEntry_none (entry : Json) : mergedEntry none entry = entry := rfl

theorem mergedEntries_nothing (named : List String) (entries : List Json) :
    mergedEntries (fun _ => none) named entries = entries := by
  induction entries generalizing named with
  | nil => rfl
  | cons entry rest ih =>
    have hnone : entry.entryPatches? (fun _ => none) named = none := by
      simp [Json.entryPatches?]
    rw [mergedEntries, hnone, mergedEntry_none, ih]

theorem entryPatches?_mergedEntry (patches? : Option (List Patch)) (named : List String)
    (entry : Json) :
    (mergedEntry patches? entry).entryPatches? given named = entry.entryPatches? given named := by
  rw [Json.entryPatches?, entryName?_mergedEntry, Json.entryPatches?]

theorem mergedEntries_or (apart : ∀ name, given name = none ∨ later name = none)
    (named : List String) (entries : List Json) :
    mergedEntries later named (mergedEntries given named entries) =
      mergedEntries (fun name => (given name).or (later name)) named entries := by
  induction entries generalizing named with
  | nil => rfl
  | cons entry rest ih =>
    -- The first pass leaves the name alone, so that the second takes the patches of the same one.
    rw [mergedEntries, mergedEntries, mergedEntries, entryName?_mergedEntry, ih,
      entryPatches?_mergedEntry]
    congr 1
    unfold Json.entryPatches?
    cases entry.entryName?.filter (· ∉ named) with
    | none => rfl
    | some name =>
      rcases apart name with hnone | hnone
      · simp [hnone, mergedEntry_none]
      · simp [hnone, mergedEntry_none]

theorem mergeEach_eq (step : String) {order : List (String × List Patch)}
    (nodup : (order.map (·.1)).Nodup) (entries : List Json) :
    (mergeEach step order entries).2 = mergedEntries (lookup? · order) [] entries := by
  induction order generalizing entries with
  | nil => exact (mergedEntries_nothing [] entries).symm
  | cons first rest ih =>
    obtain ⟨name, patches⟩ := first
    obtain ⟨hfresh, hrest⟩ := List.nodup_cons.mp nodup
    have hhead : (mergeEach step ((name, patches) :: rest) entries).2 =
        (mergeEach step rest ((mergeInto name (patches.map fun p => p.toJson.normalize)
          entries).toOption.getD entries)).2 := by
      rw [mergeEach]
      cases mergeInto name (patches.map fun p => p.toJson.normalize) entries <;> rfl
    have hapart : ∀ key, lookup? key [(name, patches)] = none ∨ lookup? key rest = none := by
      intro key
      by_cases hk : name = key
      · refine .inr (Option.eq_none_iff_forall_ne_some.mpr fun other hother => ?_)
        exact hfresh (List.mem_map.mpr ⟨(key, other), mem_of_lookup? hother, hk.symm⟩)
      · exact .inl (by simp [lookup?, hk])
    have hcons : ∀ key, (lookup? key [(name, patches)]).or (lookup? key rest) =
        lookup? key ((name, patches) :: rest) := by
      intro key
      by_cases hk : name = key
      · simp [lookup?, hk]
      · simp [lookup?, hk]
    rw [hhead, ih hrest, mergeInto_eq List.not_mem_nil, mergedEntries_or hapart]
    simp only [hcons]

/-- The order in which the names are taken does not matter. -/
theorem mergeEach_perm (step : String) {order order' : List (String × List Patch)}
    (nodup : (order.map (·.1)).Nodup) (h : order'.Perm order) (entries : List Json) :
    (mergeEach step order' entries).2 = (mergeEach step order entries).2 := by
  have nodup' : (order'.map (·.1)).Nodup := (h.map _).nodup_iff.mpr nodup
  rw [mergeEach_eq step nodup, mergeEach_eq step nodup']
  simp only [lookup?_perm nodup h]

end Order

/-! ## The finished input -/

section Input

variable {given : String → Option (List Patch)}

theorem entryMerges_mergedEntry (named : List String) (entry : Json) :
    Json.EntryMerges (entry.entryPatches? given named) entry
      (mergedEntry (entry.entryPatches? given named) entry) := by
  cases hp : entry.entryPatches? given named with
  | none => exact .noPatches rfl
  | some patches =>
    obtain ⟨name, hname, -⟩ := Option.bind_eq_some_iff.mp hp
    obtain ⟨members, rfl, -⟩ := exists_of_entryName? (Option.mem_filter_iff.mp hname).1
    rw [mergedEntry, appendPatches]
    cases hl : lookup? "patches" members with
    | none => exact .appended rfl (.inr ⟨hl, rfl⟩) (Json.sets_setMember _ _ _)
    | some value =>
      cases value with
      | array old => exact .appended rfl (.inl hl) (Json.sets_setMember _ _ _)
      | _ => exact .noList hl (fun old => Json.noConfusion)

theorem length_mergedEntries (named : List String) (entries : List Json) :
    (mergedEntries given named entries).length = entries.length := by
  induction entries generalizing named with
  | nil => rfl
  | cons entry rest ih => rw [mergedEntries, List.length_cons, ih, List.length_cons]

theorem getElem?_mergedEntries (named : List String) (entries : List Json) (i : Nat) :
    (mergedEntries given named entries)[i]? = entries[i]?.map fun entry =>
      mergedEntry (entry.entryPatches? given
        (named ++ (entries.take i).filterMap Json.entryName?)) entry := by
  induction entries generalizing named i with
  | nil => rfl
  | cons entry rest ih =>
    cases i with
    | zero => simp [mergedEntries]
    | succ i =>
      have hnames : named ++ ((entry :: rest).take (i + 1)).filterMap Json.entryName? =
          named ++ entry.entryName?.toList ++ (rest.take i).filterMap Json.entryName? := by
        rw [List.take_succ_cons, List.append_assoc]
        cases hn : entry.entryName? <;> simp [hn]
      rw [mergedEntries, List.getElem?_cons_succ, ih, hnames, List.getElem?_cons_succ]

theorem entriesMerge_mergedEntries (entries : List Json) :
    Json.EntriesMerge given entries (mergedEntries given [] entries) where
  length := length_mergedEntries [] entries
  entry i entry h := by
    refine ⟨_, by rw [getElem?_mergedEntries, h]; rfl, ?_⟩
    exact entryMerges_mergedEntry _ entry

theorem inputMerges_mergeInput (s : StepDraft) (input : Json) :
    Json.InputMerges s.patches.get? input (s.mergeInput input).2 := by
  have hnone (h : ∀ entries, input.member? "resources" ≠ some (.array entries)) :
      Json.InputMerges s.patches.get? input (mergeInput.noResources s input).2 := .noList h
  cases input with
  | object members =>
    cases hr : lookup? "resources" members with
    | none => simpa [mergeInput, hr] using hnone (by simp [Json.member?, hr])
    | some value =>
      cases value with
      | array entries =>
        obtain ⟨before, after, hbefore, rfl, hreplace⟩ := Json.exists_split_of_lookup? hr
        have heach := mergeEach_eq s.step s.patches.nodup_names entries
        simp only [mergeInput, hr, hreplace]
        rw [heach]
        exact .entries hbefore (entriesMerge_mergedEntries entries)
      | _ => simpa [mergeInput, hr] using hnone (by simp [Json.member?, hr])
  | _ => exact hnone (by simp [Json.member?])

/-- Without a patch there is nothing to merge, so that an input needs no pass over it. -/
theorem mergeInput_of_isEmpty {s : StepDraft} (h : s.patches.isEmpty = true) (input : Json) :
    (s.mergeInput input).2 = input := by
  have hentries : s.patches.entries = [] := List.isEmpty_iff.mp h
  unfold mergeInput
  split
  · rename_i members
    split
    · rename_i resources hr
      obtain ⟨before, after, -, rfl, hreplace⟩ := Json.exists_split_of_lookup? hr
      simp only [hentries, mergeEach, hreplace]
    · rfl
  · rfl

theorem finalInput_of_merging {s : StepDraft} {input : ObjectRef} (hi : s.input = some input)
    (h : s.mergePatches = true) : s.finalInput.2 = some (s.mergeInput input.withTypeMeta).2 := by
  by_cases he : s.patches.isEmpty = true
  · simp [finalInput, hi, he, mergeInput_of_isEmpty he]
  · simp [finalInput, hi, h, he]

end Input

section Calls

variable {calls : List StepCall} {input : ObjectRef}

theorem exists_output (step : String)
    (hinput : (calls.filterMap StepCall.input?).getLast? = some input) :
    ∃ filled output, input.FillsIn filled ∧
      (CompositionDraft.stepDraft (step, calls)).finalInput.2 = some output ∧
      if (calls.filterMap StepCall.merging?).getLast? = some true then
        Json.InputMerges (StepCall.given? calls) filled output
      else output = filled := by
  have hi : (CompositionDraft.stepDraft (step, calls)).input = some input := by
    rw [CompositionDraft.stepDraft, input_applyAll, hinput, Option.some_or]
  have hm := CompositionDraft.mergePatches_stepDraft (step, calls)
  by_cases hmerging : (calls.filterMap StepCall.merging?).getLast? = some true
  · have hon : (CompositionDraft.stepDraft (step, calls)).mergePatches = true :=
      hm.trans (decide_eq_true hmerging)
    refine ⟨_, _, input.fillsIn_withTypeMeta, finalInput_of_merging hi hon, ?_⟩
    rw [if_pos hmerging, ← funext (get?_patches_stepDraft step calls)]
    exact inputMerges_mergeInput _ _
  · have hoff : (CompositionDraft.stepDraft (step, calls)).mergePatches = false :=
      hm.trans (decide_eq_false hmerging)
    refine ⟨_, _, input.fillsIn_withTypeMeta, ?_, (if_neg hmerging).mpr rfl⟩
    rw [finalInput_of_not_merging hoff, hi, Option.map_some]

/-- Merging changes what it names and nothing else: the input of a step has its type filled in, and
if its patches are to be merged, the entries of its resources take the patches that the calls give
for their names. The order in which the names are taken does not matter. -/
theorem build_merges (index : Nat) (step : String) (calls : List StepCall) (functionRef : String)
    (input : ObjectRef)
    (hfunction : (calls.filterMap StepCall.functionRef?).getLast? = some functionRef)
    (hinput : (calls.filterMap StepCall.input?).getLast? = some input) :
    ∃ filled output, input.FillsIn filled ∧
      (buildAll index [CompositionDraft.stepDraft (step, calls)]).2 =
        .ok [⟨step, functionRef, some output⟩] ∧
      (if (calls.filterMap StepCall.merging?).getLast? = some true then
        Json.InputMerges (StepCall.given? calls) filled output
      else output = filled) ∧
      ∀ order resources,
        order.Perm (CompositionDraft.stepDraft (step, calls)).patches.entries →
        (mergeEach step order resources).2 = (mergeEach step
          (CompositionDraft.stepDraft (step, calls)).patches.entries resources).2 := by
  obtain ⟨filled, output, hfilled, houtput, hmerges⟩ := exists_output step hinput
  have hf : (CompositionDraft.stepDraft (step, calls)).functionRef = some functionRef := by
    rw [CompositionDraft.stepDraft, functionRef_applyAll, hfunction, Option.some_or]
  have hbuilds : (CompositionDraft.stepDraft (step, calls)).Builds
      ⟨step, functionRef, some output⟩ :=
    ⟨(step_applyAll (s := { step }) calls).symm, hf, houtput.symm⟩
  refine ⟨filled, output, hfilled, buildAll_ok_iff.mpr (.cons hbuilds .nil), hmerges, ?_⟩
  intro order resources hperm
  exact mergeEach_perm step (Dictionary.nodup_names _) hperm resources

end Calls

/-! Two entries are of the name that two calls are about, one has a text where its patches belong,
one has no patches yet and is given none, and one name is that of no entry. -/

def crowdedInput : ObjectRef := .ofValue ⟨"pt.crossplane.io", "v1beta1", "Resources"⟩ (.object [
  ("kind", .string "Custom"),
  ("resources", .array [
    .object [("name", .string "disk"), ("patches", .array [.string "kept"])],
    .string "disk",
    .object [("base", .null), ("name", .string "disk")],
    .object [("name", .string "node"), ("patches", .string "none")],
    .object [("name", .string "rule")]])])

def crowdedCalls : List StepCall := [
  .withPatch "node" (.simple "spec.size" "spec.nodeSize"),
  .withPatches "disk" [.simple "spec.size" "spec.diskSize"],
  .withInput crowdedInput,
  .mergePatchesIntoInput true,
  .withPatches "rule" [],
  .withPatch "missing" (.simple "spec.size" "spec.size"),
  .withPatch "disk" (.simple "spec.class" "spec.diskClass"),
  .withFunctionRef "function-patch-and-transform"]

theorem build_crowdedCalls : ∃ filled output, crowdedInput.FillsIn filled ∧
    (buildAll 0 [CompositionDraft.stepDraft ("merge", crowdedCalls)]).2 =
      .ok [⟨"merge", "function-patch-and-transform", some output⟩] ∧
    Json.InputMerges (StepCall.given? crowdedCalls) filled output := by
  obtain ⟨filled, output, hfilled, hbuild, hmerges, -⟩ :=
    build_merges 0 "merge" crowdedCalls "function-patch-and-transform" crowdedInput rfl rfl
  exact ⟨filled, output, hfilled, hbuild, hmerges⟩

example : (CompositionDraft.stepDraft ("merge", crowdedCalls)).finalInput.2 = some (.object [
    ("apiVersion", .string "pt.crossplane.io/v1beta1"),
    ("kind", .string "Custom"),
    ("resources", .array [
      .object [("name", .string "disk"), ("patches", .array [.string "kept",
        (Patch.simple "spec.size" "spec.diskSize").toJson.normalize,
        (Patch.simple "spec.class" "spec.diskClass").toJson.normalize])],
      .string "disk",
      .object [("base", .null), ("name", .string "disk")],
      .object [("name", .string "node"), ("patches", .string "none")],
      .object [("name", .string "rule"), ("patches", .array [])]])]) := by
  rfl

end StepDraft

end CompositionGen
