import CompositionGen.Json.Token

/-!
# JSON documents as written

A `Document` keeps what a value forgets: the order and the repetitions of members, numerals as
written, and strings that spell no text. `Document.parse?` consumes one token at a time over a
stack of open containers, so that it needs no bound on the depth.
-/

namespace CompositionGen.Json

/-- A JSON text read by grammar alone. -/
inductive Document where
  | null
  | bool (b : Bool)
  | number (n : Numeral)
  | string (s : Option String)
  | array (items : List Document)
  | object (members : List (Option String × Document))
  deriving Inhabited, Repr

namespace Document

/-- A container being read; its parts so far are in reverse. -/
inductive Frame where
  | array (items : List Document)
  | object (members : List (Option String × Document)) (key : Option String)

/-- What may come next, inside the containers `outer`. -/
inductive State where
  | value (outer : List Frame)
  /-- A value or the end of a list just opened. -/
  | firstItem (outer : List Frame)
  /-- A name or the end of an object just opened. -/
  | firstName (outer : List Frame)
  | nextName (members : List (Option String × Document)) (outer : List Frame)
  | colon (members : List (Option String × Document)) (key : Option String) (outer : List Frame)
  /-- A comma or the end of the innermost list. -/
  | afterItem (items : List Document) (outer : List Frame)
  /-- A comma or the end of the innermost object. -/
  | afterMember (members : List (Option String × Document)) (outer : List Frame)
  | done (value : Document)

/-- Hands a complete value to the innermost open container. -/
def State.deliver (value : Document) : List Frame → State
  | [] => .done value
  | .array items :: outer => .afterItem (value :: items) outer
  | .object members key :: outer => .afterMember ((key, value) :: members) outer

/-- A token that is a whole value. -/
def scalar? : Token → Option Document
  | .null => some .null
  | .bool b => some (.bool b)
  | .number n => some (.number n)
  | .string s => some (.string s)
  | _ => none

def State.begin? (outer : List Frame) : Token → Option State
  | .openArray => some (.firstItem outer)
  | .openObject => some (.firstName outer)
  | token => (scalar? token).map (State.deliver · outer)

def State.step? : State → Token → Option State
  | .value outer, token => State.begin? outer token
  | .firstItem outer, .closeArray => some (.deliver (.array []) outer)
  | .firstItem outer, token => State.begin? (.array [] :: outer) token
  | .firstName outer, .closeObject => some (.deliver (.object []) outer)
  | .firstName outer, .string s => some (.colon [] s outer)
  | .nextName members outer, .string s => some (.colon members s outer)
  | .colon members key outer, .colon => some (.value (.object members key :: outer))
  | .afterItem items outer, .comma => some (.value (.array items :: outer))
  | .afterItem items outer, .closeArray => some (.deliver (.array items.reverse) outer)
  | .afterMember members outer, .comma => some (.nextName members outer)
  | .afterMember members outer, .closeObject => some (.deliver (.object members.reverse) outer)
  | _, _ => none

/-- The document that a text spells, if it spells exactly one. -/
def parse? (text : String) : Option Document := do
  match ← (← scan? text.toList).foldlM State.step? (.value []) with
  | .done value => some value
  | _ => none

end Document

end CompositionGen.Json
