/-
  SceneMarkup/Scene/Codec/Basic.lean --- values written as JSON and read back.

  WHAT THIS FILE IS FOR.  A codec is a pair: how a value is written, and how it is read
  from what was written.  The codecs of structures are put together from those of their
  fields; a constant is its name, and a case with content is an object with one field.
-/
import SceneMarkup.Json.Decode

set_option autoImplicit false

namespace SceneMarkup

open Json (Value)

/-- How values of a type are written as JSON, and read. -/
structure Codec (α : Type) where
  encode : α → Value
  decode : Value → Option α

namespace Codec

/-! ## Single values -/

/-- A text. -/
def string : Codec String := ⟨.string, Value.text?⟩

/-- A truth value. -/
def bool : Codec Bool := ⟨.bool, Value.bool?⟩

/-- A float; whole numbers are read as floats too. -/
def float : Codec Float where
  encode x := .number (.float x)
  decode
    | .number n => some n.toFloat
    | _ => none

/-- A natural number. -/
def natural : Codec Nat where
  encode n := .ofNat n
  decode
    | .number (.integer (.ofNat n)) => some n
    | _ => none

/-- A value or null. -/
def optional {α : Type} (item : Codec α) : Codec (Option α) where
  encode
    | none => .null
    | some a => item.encode a
  decode
    | .null => some none
    | v => (item.decode v).map some

/-- A list. -/
def list {α : Type} (item : Codec α) : Codec (List α) where
  encode l := .array (l.map item.encode)
  decode
    | .array items => items.mapM item.decode
    | _ => none

/-- A constant by its name. -/
def constant {α : Type} [BEq α] (names : List (α × String)) : Codec α where
  encode a := .ofText? (names.lookup a)
  decode v := do
    let name ← v.text?
    (names.find? fun entry => entry.2 == name).map (·.1)

/-! ## Cases and fields -/

/-- A case with content. -/
def case (name : String) (content : Value) : Value := .object [(name, content)]

/-- The name and the content of a case. -/
def case? : Value → Option (String × Value)
  | .object [field] => some field
  | _ => none

/-- Reads a field. -/
def field {α : Type} (item : Codec α) (v : Value) (key : String) : Option α := do
  item.decode (← v.field? key)

/-- Reads a field that may be absent. -/
def fieldOrNone {α : Type} (item : Codec α) (v : Value) (key : String) : Option (Option α) :=
  match v.field? key with
  | none => some none
  | some content => item.optional.decode content

end Codec

end SceneMarkup
