import CompositionGen.Draft
import CompositionGen.Patch.Record
import CompositionGen.Report

/-!
# Merging patches into a step's input

The patches of a pipeline step are appended to the entries of its input's `resources` list: for
each resource name the first entry of that name takes them. What cannot be merged is left as it
is and reported.
-/

namespace CompositionGen.StepDraft

/-- Why the patches of one resource cannot be merged. -/
inductive MergeProblem where
  | noResource
  | patchesNotList
  deriving DecidableEq, Repr

def MergeProblem.message : MergeProblem → String
  | .noResource => "no input resource with this name; patches not merged"
  | .patchesNotList => "input resource patches is not a list; patches not merged"

/-- The members of an entry with patches appended to its `patches`, which may be absent. -/
def appendPatches (patches : List Json) (members : List (String × Json)) :
    Except MergeProblem (List (String × Json)) :=
  match lookup? "patches" members with
  | none => .ok (Json.setMember "patches" (.array patches) members)
  | some (.array old) => .ok (Json.setMember "patches" (.array (old ++ patches)) members)
  | some _ => .error .patchesNotList

/-- The entries with patches appended to the first of a name. -/
def mergeInto (name : String) (patches : List Json) :
    List Json → Except MergeProblem (List Json)
  | [] => .error .noResource
  | .object members :: rest =>
    if lookup? "name" members = some (.string name) then
      (appendPatches patches members).map (.object · :: rest)
    else (mergeInto name patches rest).map (.object members :: ·)
  | other :: rest => (mergeInto name patches rest).map (other :: ·)

/-- The entries with the patches of every resource appended, and a warning for each resource
whose patches are not. -/
def mergeEach (step : String) :
    List (String × List Patch) → List Json → Report × List Json
  | [], resources => ({}, resources)
  | (name, patches) :: rest, resources =>
    match mergeInto name (patches.map fun p => p.toJson.normalize) resources with
    | .ok resources => mergeEach step rest resources
    | .error problem =>
      let (report, resources) := mergeEach step rest resources
      (.event .warn problem.message [("step", step), ("resource", name)] ++ report, resources)

/-- The input with the step's patches appended to its resources. -/
def mergeInput (s : StepDraft) (input : Json) : Report × Json :=
  match input with
  | .object members =>
    match lookup? "resources" members with
    | some (.array resources) =>
      let (report, resources) := mergeEach s.step s.patches.entries resources
      (report, .object (Json.replaceMember "resources" (.array resources) members))
    | _ => noResources
  | _ => noResources
where
  noResources : Report × Json :=
    (.event .warn "input has no resources list; patches not merged" [("step", s.step)], input)

/-- What the step is given as its input, with its patches if they are to be merged. -/
def finalInput (s : StepDraft) : Report × Option Json :=
  let input := s.input.map ObjectRef.withTypeMeta
  if s.mergePatches && !s.patches.isEmpty then
    match input with
    | some input =>
      let (report, input) := s.mergeInput input
      (report, some input)
    | none =>
      (.event .warn "patch merge requested but the step has no input" [("step", s.step)], none)
  else ({}, input)

end CompositionGen.StepDraft
