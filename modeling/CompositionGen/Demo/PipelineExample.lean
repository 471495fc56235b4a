import CompositionGen.Builder
import CompositionGen.Demo.Api
import CompositionGen.Template

/-!
# The pipeline example builder

A pipeline of two functions: the first renders the templates found below the current directory,
the second patches an example object.
-/

namespace CompositionGen.Demo

def templatePattern : String := "templates/*"

def templatingInput (template : String) : ObjectRef :=
  .ofValue ⟨"gotemplating.fn.crossplane.io", "v1beta1", "GoTemplate"⟩ (.object [
    ("inline", .object [("template", .string template)]), ("source", .string "Inline")])

/-- The input of the patching function: one example resource. -/
def patchingInput : ObjectRef :=
  let base := xExampleValue (.object [("name", .string "")]) XExampleSpec.default
  .ofValue ⟨"pt.crossplane.io", "v1beta1", "Resources"⟩ (.object [
    ("resources", .array [.object [("base", base), ("name", .string "resource-2")]])])

def pipelineCalls (template : String) : List DraftCall := [
  .withName "pipelineexample",
  .withMode .pipeline,
  .withLabels [("example", "pipeline")],
  .newPipelineStep "test-step" [
    .withFunctionRef "function-go-templating",
    .withInput (templatingInput template),
    .withPatches "resource-1" [
      .fromComposite "spec.containers[0].image" "spec.containers[0].image",
      .fromComposite "metadata.labels[app]" "metadata.labels[app]"]],
  .newPipelineStep "test-step-2" [
    .withFunctionRef "function-patch-and-transform",
    .withInput patchingInput,
    .mergePatchesIntoInput true,
    .withPatches "resource-2" [
      .fromComposite "status.atProvider.something" "spec.forProvider.something",
      .fromComposite "metadata.labels[app]" "spec.forProvider.labels[app]"]]]

def pipelineBuilder : Builder where
  composite := xExample
  build fs :=
    match Template.load fs templatePattern with
    | .ok template => ({}, .done (pipelineCalls template))
    | .error cause =>
      ({}, .failed (("loading templates from " ++ templatePattern) :: cause.messages))

end CompositionGen.Demo
