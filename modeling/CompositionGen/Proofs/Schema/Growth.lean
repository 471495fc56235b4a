import CompositionGen.Proofs.Json.Members
import CompositionGen.Proofs.Patch.Validity
import CompositionGen.Proofs.Schema.Trails
import CompositionGen.Schema.Node
import Mathlib.Data.List.Forall2

/-!
# Growing schemas

A document grows by members and by items at the end of lists, in as many places as it may be, but no
object gets a reference that had none: a reference would hide all that the object holds. In a schema
that has grown there is a trail wherever there was one, step by step through the nodes that the old
nodes have grown into. So the paths that existed still exist, and patches stay valid.
-/

namespace CompositionGen

namespace Json

/-- A document grows into another one. -/
inductive Grows : Json → Json → Prop where
  | null : Grows .null .null
  | bool (b : Bool) : Grows (.bool b) (.bool b)
  | number (n : Number) : Grows (.number n) (.number n)
  | string (s : String) : Grows (.string s) (.string s)
  /-- Every item has grown into the one at its place. -/
  | array {items items' : List Json} (length_le : items.length ≤ items'.length)
      (item : ∀ (i : Nat) (value value' : Json), items[i]? = some value → items'[i]? = some value' →
        Grows value value') :
      Grows (.array items) (.array items')
  /-- Every member has grown into the one of its name, and there is a reference only where there was
  one. -/
  | object {members members' : List (String × Json)}
      (kept : ∀ name value, lookup? name members = some value → (lookup? name members').isSome)
      (member : ∀ (name : String) (value value' : Json), lookup? name members = some value →
        lookup? name members' = some value' → Grows value value')
      (reference : ∀ text, lookup? "$ref" members' = some (.string text) →
        ∃ old, lookup? "$ref" members = some (.string old)) :
      Grows (.object members) (.object members')

/-! ## How documents grow -/

section Growth

variable {value value' : Json} {items items' : List Json} {members members' : List (String × Json)}

theorem Grows.exists_item (h : Grows (.array items) (.array items')) {i : Nat}
    (hi : items[i]? = some value) : ∃ value', items'[i]? = some value' ∧ Grows value value' := by
  cases h with
  | array length_le item =>
    have hlt : i < items'.length :=
      Nat.lt_of_lt_of_le (List.getElem?_eq_some_iff.mp hi).1 length_le
    have hi' : items'[i]? = some items'[i] := List.getElem?_eq_getElem hlt
    exact ⟨_, hi', item i _ _ hi hi'⟩

theorem Grows.exists_member (h : Grows (.object members) (.object members')) {name : String}
    (hl : lookup? name members = some value) :
    ∃ value', lookup? name members' = some value' ∧ Grows value value' := by
  cases h with
  | object kept member _ =>
    obtain ⟨value', hl'⟩ := Option.isSome_iff_exists.mp (kept name value hl)
    exact ⟨value', hl', member name _ _ hl hl'⟩

theorem Grows.exists_array (h : Grows (.array items) value') :
    ∃ items', value' = .array items' := by
  cases h
  exact ⟨_, rfl⟩

theorem Grows.exists_object (h : Grows (.object members) value') :
    ∃ members', value' = .object members' := by
  cases h
  exact ⟨_, rfl⟩

theorem Grows.eq_string {s : String} (h : Grows (.string s) value') : value' = .string s := by
  cases h
  rfl

/-- What is no list does not become one. -/
theorem Grows.ne_array (h : Grows value value') (hv : ∀ items, value ≠ .array items) :
    ∀ items, value' ≠ .array items := by
  rintro items rfl
  cases h with
  | array => exact hv _ rfl

/-- A list grows item by item into the front of another one. -/
theorem grows_array_iff : Grows (.array items) (.array items') ↔
    ∃ front back, items' = front ++ back ∧ List.Forall₂ Grows items front := by
  constructor
  · intro h
    refine ⟨items'.take items.length, items'.drop items.length,
      (List.take_append_drop _ _).symm, ?_⟩
    cases h with
    | array length_le item =>
      refine List.forall₂_iff_get.mpr ⟨by simp [length_le], fun i hi hi' => ?_⟩
      have hlt : i < items'.length := Nat.lt_of_lt_of_le hi length_le
      refine item i _ _ (List.getElem?_eq_getElem hi) ?_
      simp [List.getElem?_eq_getElem hlt]
  · rintro ⟨front, back, rfl, h⟩
    have hlength := h.length_eq
    refine .array (by simp [hlength]) fun i value value' hi hi' => ?_
    obtain ⟨hlt, rfl⟩ := List.getElem?_eq_some_iff.mp hi
    rw [List.getElem?_append_left (hlength ▸ hlt)] at hi'
    obtain ⟨hlt', rfl⟩ := List.getElem?_eq_some_iff.mp hi'
    exact (List.forall₂_iff_get.mp h).2 i hlt hlt'

theorem sizeOf_lt_of_lookup? {name : String} (hl : lookup? name members = some value) :
    sizeOf value < sizeOf members := by
  have hmem := List.sizeOf_lt_of_mem (mem_of_lookup? hl)
  rw [Prod.mk.sizeOf_spec] at hmem
  omega

theorem Grows.refl : (value : Json) → Grows value value
  | .null => .null
  | .bool b => .bool b
  | .number n => .number n
  | .string s => .string s
  | .array items => by
    refine .array (Nat.le_refl _) fun i value value' hi hi' => ?_
    obtain rfl := Option.some.inj (hi.symm.trans hi')
    have hmem := List.mem_of_getElem? hi
    exact refl value
  | .object members => by
    refine .object (fun name value hl => by simp [hl]) (fun name value value' hl hl' => ?_)
      (fun text hl => ⟨text, hl⟩)
    obtain rfl := Option.some.inj (hl.symm.trans hl')
    have hsize := sizeOf_lt_of_lookup? hl
    exact refl value

theorem Grows.trans {a b c : Json} (h : Grows a b) (h' : Grows b c) : Grows a c := by
  induction h generalizing c with
  | null | bool | number | string => exact h'
  | @array items items' length_le item ih =>
    have hfirst : Grows (.array items) (.array items') := .array length_le item
    cases h' with
    | array length_le' item' =>
      refine .array (Nat.le_trans length_le length_le') fun i value value'' hi hi'' => ?_
      obtain ⟨value', hi', -⟩ := hfirst.exists_item hi
      exact ih i value value' hi hi' (item' i value' value'' hi' hi'')
  | @object members members' kept member reference ih =>
    have hfirst : Grows (.object members) (.object members') := .object kept member reference
    cases h' with
    | object kept' member' reference' =>
      refine .object (fun name value hl => ?_) (fun name value value'' hl hl'' => ?_) ?_
      · obtain ⟨value', hl', -⟩ := hfirst.exists_member hl
        exact kept' name value' hl'
      · obtain ⟨value', hl', -⟩ := hfirst.exists_member hl
        exact ih name value value' hl hl' (member' name value' value'' hl' hl'')
      · intro text hl
        obtain ⟨old, hold⟩ := reference' text hl
        exact reference old hold

/-- An object grows by a member of a new name, and by what one of its members grows into. -/
theorem Grows.set {name : String} (hname : name ≠ "$ref")
    (h : ∀ old, lookup? name members = some old → Grows old value) :
    Grows (.object members) (.object (setMember name value members)) := by
  refine .object (fun key old hl => ?_) (fun key old new hl hl' => ?_) (fun text hl => ?_)
  · rw [lookup?_setMember]
    split
    · rfl
    · exact Option.isSome_iff_exists.mpr ⟨old, hl⟩
  · rw [lookup?_setMember] at hl'
    split at hl'
    · rename_i hkey
      cases hl'
      exact h old (hkey ▸ hl)
    · obtain rfl := Option.some.inj (hl.symm.trans hl')
      exact .refl _
  · rw [lookup?_setMember, if_neg (Ne.symm hname)] at hl
    exact ⟨text, hl⟩

theorem Grows.add {name : String} (value : Json) (hname : name ≠ "$ref")
    (hl : lookup? name members = none) :
    Grows (.object members) (.object (setMember name value members)) :=
  .set hname fun _ hold => by simp [hl] at hold

theorem Grows.replace {name : String} (hname : name ≠ "$ref")
    (hl : lookup? name members = some value) (h : Grows value value') :
    Grows (.object members) (.object (setMember name value' members)) :=
  .set hname fun _ hold => Option.some.inj (hl.symm.trans hold) ▸ h

/-- A list grows by items at its end. -/
theorem Grows.append_items (items more : List Json) :
    Grows (.array items) (.array (items ++ more)) :=
  grows_array_iff.mpr ⟨items, more, rfl, List.forall₂_same.mpr fun _ _ => .refl _⟩

end Growth

/-! ## Pointers into a document that has grown -/

section Pointer

variable {root root' node node' below : Json}

theorem Grows.child? {step : List Char} (h : Grows node node')
    (hc : child? step node = some below) :
    ∃ below', child? step node' = some below' ∧ Grows below below' := by
  cases h with
  | null | bool | number | string => cases hc
  | array length_le item =>
    obtain ⟨i, hstep, hi⟩ := Option.bind_eq_some_iff.mp hc
    obtain ⟨below', hi', hgrows⟩ := (Grows.array length_le item).exists_item hi
    exact ⟨below', Option.bind_eq_some_iff.mpr ⟨i, hstep, hi'⟩, hgrows⟩
  | object kept member reference => exact (Grows.object kept member reference).exists_member hc

theorem Grows.follow? {steps : List (List Char)} (h : Grows node node')
    (hf : follow? steps node = some below) :
    ∃ below', follow? steps node' = some below' ∧ Grows below below' := by
  induction steps generalizing node node' with
  | nil =>
    obtain rfl := Option.some.inj hf
    exact ⟨node', rfl, h⟩
  | cons step rest ih =>
    obtain ⟨child, hchild, hrest⟩ := Option.bind_eq_some_iff.mp hf
    obtain ⟨child', hchild', hgrows⟩ := h.child? hchild
    obtain ⟨below', hbelow', hresult⟩ := ih hgrows hrest
    exact ⟨below', Option.bind_eq_some_iff.mpr ⟨child', hchild', hbelow'⟩, hresult⟩

/-- What a reference names has grown into what it names now. -/
theorem Grows.reference? {reference : String} (h : Grows root root')
    (hr : reference? reference root = some node) :
    ∃ node', reference? reference root' = some node' ∧ Grows node node' := by
  unfold Json.reference? at hr ⊢
  split at hr
  · unfold pointer? at hr ⊢
    split at hr
    · cases hr
      exact ⟨root', rfl, h⟩
    · exact h.follow? hr
    · cases hr
  · cases hr

end Pointer

end Json

open Json (Grows)

namespace Schema

variable {root root' : Json}

/-! ## Trails through a schema that has grown -/

theorem noReference_of_grows {members members' : List (String × Json)}
    (h : Grows (.object members) (.object members')) (hn : NoReference members) :
    NoReference members' := by
  cases h with
  | object _ _ reference =>
    intro text hl
    obtain ⟨old, hold⟩ := reference text hl
    exact hn old hold

/-- Where a trail could go on, it can go on from what the node has grown into, and to what the next
node has grown into. -/
theorem Step.grows {here there : Place} {node' : Json} (hroot : Grows root root')
    (hnode : Grows here.node node') (h : Step root here there) :
    ∃ next, Step root' ⟨node', here.left⟩ ⟨next, there.left⟩ ∧ Grows there.node next := by
  -- Members stay where they are, and a node that had no reference still has none.
  cases h with
  | reference hr ht =>
    obtain ⟨members', rfl⟩ := hnode.exists_object
    obtain ⟨text, hr', hsame⟩ := hnode.exists_member hr
    obtain ⟨next, ht', hnext⟩ := hroot.reference? ht
    exact ⟨next, .reference (hsame.eq_string ▸ hr') ht', hnext⟩
  | alternative hn hc hl hm =>
    obtain ⟨members', rfl⟩ := hnode.exists_object
    obtain ⟨list, hl', hlist⟩ := hnode.exists_member hl
    obtain ⟨nodes', rfl⟩ := hlist.exists_array
    obtain ⟨i, hi⟩ := List.mem_iff_getElem?.mp hm
    obtain ⟨next, hi', hnext⟩ := hlist.exists_item hi
    exact ⟨next, .alternative (noReference_of_grows hnode hn) hc hl' (List.mem_of_getElem? hi'),
      hnext⟩
  | property hn hs hp hl =>
    obtain ⟨members', rfl⟩ := hnode.exists_object
    obtain ⟨inner, hp', hinner⟩ := hnode.exists_member hp
    obtain ⟨properties', rfl⟩ := hinner.exists_object
    obtain ⟨next, hl', hnext⟩ := hinner.exists_member hl
    exact ⟨next, .property (noReference_of_grows hnode hn) hs hp' hl', hnext⟩
  | item hn hi hl =>
    obtain ⟨members', rfl⟩ := hnode.exists_object
    obtain ⟨list, hi', hlist⟩ := hnode.exists_member hi
    obtain ⟨items', rfl⟩ := hlist.exists_array
    obtain ⟨next, hl', hnext⟩ := hlist.exists_item hl
    exact ⟨next, .item (noReference_of_grows hnode hn) hi' hl', hnext⟩
  | items hn hi hsingle =>
    obtain ⟨members', rfl⟩ := hnode.exists_object
    obtain ⟨next, hi', hnext⟩ := hnode.exists_member hi
    exact ⟨next, .items (noReference_of_grows hnode hn) hi' (hnext.ne_array hsingle), hnext⟩

theorem Trail.grows {n : Nat} {here : Place} {node' : Json} (hroot : Grows root root')
    (hnode : Grows here.node node') (h : Trail root n here) :
    Trail root' n ⟨node', here.left⟩ := by
  induction h generalizing node' with
  | arrived => exact .arrived
  | step hstep _ ih =>
    obtain ⟨next, hstep', hnext⟩ := hstep.grows hroot hnode
    exact .step hstep' (ih hnext)

theorem resolves_mono {schema schema' : Schema} (h : schema.root.Grows schema'.root)
    {path : FieldPath} (hpath : schema.resolves path = true) : schema'.resolves path = true := by
  obtain ⟨n, hn, htrail⟩ := walk_iff_trail.mp hpath
  exact walk_iff_trail.mpr ⟨n, hn, htrail.grows h h⟩

end Schema

/-! ## Patches between objects whose schemas have grown -/

/-- The same paths are registered on two sides, and the schema of one has grown into that of the
other. -/
structure Side.Grows (side side' : Side) : Prop where
  schema : side.object.schema.root.Grows side'.object.schema.root
  registered : side'.registered = side.registered

theorem Side.Grows.valid {side side' : Side} {raw : String} (h : side.Grows side')
    (hraw : side.Valid raw) : side'.Valid raw := by
  obtain ⟨path, hparse, hpath⟩ := hraw
  refine ⟨path, hparse, hpath.imp ?_ (Schema.resolves_mono h.schema)⟩
  rw [h.registered]
  exact id

/-- A patch stays valid when the schemas of its objects have grown. -/
theorem Patch.validate_of_grows {p : Patch} {composite base composite' base' : Side}
    (hcomposite : composite.Grows composite') (hbase : base.Grows base')
    (h : p.validate composite base = .ok ()) : p.validate composite' base' = .ok () := by
  refine validate_widened (fun place raw hraw => ?_) h
  cases place with
  | composite => exact hcomposite.valid hraw
  | base => exact hbase.valid hraw

/-- The paths that exist in a schema exist in every schema that it grows into, and so what may be
used on an object in a patch may still be used when the schema of the object has grown. -/
theorem Schema.resolves_of_grows (schema schema' : Schema) (h : schema.root.Grows schema'.root) :
    (∀ path, schema.resolves path = true → schema'.resolves path = true) ∧
    ∀ kind value registered raw, Side.Valid ⟨⟨kind, value, schema⟩, registered⟩ raw →
      Side.Valid ⟨⟨kind, value, schema'⟩, registered⟩ raw :=
  ⟨fun _ => resolves_mono h, fun _ _ _ _ => Side.Grows.valid ⟨h, rfl⟩⟩

namespace Schema

/-- The schema of a resource in its first version: its specification is a shared definition. -/
def earlyDocument : Json :=
  .object [("properties", .object [("spec", anyNode [leaf, sharedNode "Spec"])]),
    ("definitions", .object [("Spec", objectNode [("rules", listNode (sharedNode "Spec"))])])]

/-- A later version of it, with another property, another definition and another alternative. -/
def laterDocument : Json :=
  .object [("properties", .object [("spec", anyNode [leaf, sharedNode "Spec", sharedNode "Limits"]),
      ("status", leaf)]),
    ("definitions", .object [("Limits", objectNode [("rules", leaf)]),
      ("Spec", objectNode [("rules", listNode (sharedNode "Spec"))])])]

theorem earlyDocument_grows : earlyDocument.Grows laterDocument := by
  have hspec : (anyNode [leaf, sharedNode "Spec"]).Grows
      (anyNode [leaf, sharedNode "Spec", sharedNode "Limits"]) :=
    .replace (by decide : "anyOf" ≠ "$ref") rfl (.append_items _ [sharedNode "Limits"])
  have hproperties : Grows (.object [("spec", anyNode [leaf, sharedNode "Spec"])])
      (.object [("spec", anyNode [leaf, sharedNode "Spec", sharedNode "Limits"]),
        ("status", leaf)]) :=
    (Grows.replace (by decide : "spec" ≠ "$ref") rfl hspec).trans
      (.add leaf (by decide : "status" ≠ "$ref") rfl)
  have hdefinitions : Grows
      (.object [("Spec", objectNode [("rules", listNode (sharedNode "Spec"))])])
      (.object [("Limits", objectNode [("rules", leaf)]),
        ("Spec", objectNode [("rules", listNode (sharedNode "Spec"))])]) :=
    .add _ (by decide : "Limits" ≠ "$ref") rfl
  exact (Grows.replace (by decide : "properties" ≠ "$ref") rfl hproperties).trans
    (.replace (by decide : "definitions" ≠ "$ref") rfl hdefinitions)

theorem resolves_laterDocument :
    earlyDocument.Grows laterDocument ∧
    resolves ⟨laterDocument⟩ ⟨[.field "spec", .field "rules", .index 4, .key "rules"]⟩ = true := by
  have hearly : resolves ⟨earlyDocument⟩
      ⟨[.field "spec", .field "rules", .index 4, .key "rules"]⟩ = true := by decide +kernel
  obtain ⟨hpaths, -⟩ := resolves_of_grows ⟨earlyDocument⟩ ⟨laterDocument⟩ earlyDocument_grows
  exact ⟨earlyDocument_grows, hpaths _ hearly⟩

end Schema

end CompositionGen
