/-
  SceneMarkup/Json/Value.lean --- JSON values as a document holds them.

  WHAT THIS FILE IS FOR.  A value keeps integers and floats apart, because a document
  may require one and not the other.  An object is a list of fields; a reader of text
  produces it sorted by key and without repeats, a writer keeps the order it finds.
-/
set_option autoImplicit false

namespace SceneMarkup.Json

/-- A JSON number: an integer of at most 64 bits, or a float. -/
inductive Number where
  | integer (value : Int)
  | float (value : Float)
  deriving Repr, Inhabited

/-- A JSON value. -/
inductive Value where
  | null
  | bool (value : Bool)
  | number (value : Number)
  | string (value : String)
  | array (items : List Value)
  | object (fields : List (String × Value))
  deriving Repr, Inhabited

/-- The fields of an object. -/
abbrev Fields : Type := List (String × Value)

namespace Fields

/-- The value of the first field called `key`. -/
def get? (fields : Fields) (key : String) : Option Value :=
  match fields with
  | [] => none
  | (k, v) :: rest => if k = key then some v else get? rest key

/-- Whether a field is called `key`. -/
def has (fields : Fields) (key : String) : Bool := (fields.get? key).isSome

/-- `fields` with `key` set to `value`, for fields sorted by key; an earlier value is replaced. -/
def insert (fields : Fields) (key : String) (value : Value) : Fields :=
  match fields with
  | [] => [(key, value)]
  | (k, v) :: rest =>
      if k < key then (k, v) :: insert rest key value
      else if k = key then (key, value) :: rest
      else (key, value) :: (k, v) :: rest

/-- The value just inserted is the one found. -/
theorem get?_insert_self (fields : Fields) (key : String) (value : Value) :
    (fields.insert key value).get? key = some value := by
  induction fields with
  | nil => simp [insert, get?]
  | cons field rest ih =>
    obtain ⟨k, v⟩ := field
    by_cases hlt : k < key
    · have hne : k ≠ key := fun h => String.lt_irrefl key (h ▸ hlt)
      simp [insert, get?, hlt, hne, ih]
    · by_cases heq : k = key <;> simp [insert, get?, hlt, heq]

end Fields

namespace Value

/-- An integer as a value. -/
def ofInt (i : Int) : Value := .number (.integer i)

/-- A natural number as a value. -/
def ofNat (n : Nat) : Value := .number (.integer n)

/-- A text, or null where there is none. -/
def ofText? : Option String → Value
  | none => .null
  | some s => .string s

/-- The text of a string value. -/
def text? : Value → Option String
  | .string s => some s
  | _ => none

/-- The truth value of a boolean. -/
def bool? : Value → Option Bool
  | .bool b => some b
  | _ => none

/-- The field of an object. -/
def field? (v : Value) (key : String) : Option Value :=
  match v with
  | .object fields => Fields.get? fields key
  | _ => none

/-- What kind of value this is, with its article. -/
def kind : Value → String
  | .null => "null"
  | .bool _ => "a boolean"
  | .number _ => "a number"
  | .string _ => "a string"
  | .array _ => "an array"
  | .object _ => "an object"

end Value

end SceneMarkup.Json
