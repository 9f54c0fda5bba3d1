/-
  SceneMarkup/Style/Record.lean --- style records: declarations by property, in the
  order in which the properties were first set.
-/
set_option autoImplicit false

namespace SceneMarkup

/-- A property and its value. -/
abbrev Declaration : Type := String × String

namespace Declarations

/-- The value of the first declaration of a property. -/
def get? (ds : List Declaration) (property : String) : Option String :=
  (ds.find? fun d => d.1 == property).map (·.2)

/-- `ds` with a property set: its value is replaced in its place, or it comes last. -/
def set (ds : List Declaration) (property value : String) : List Declaration :=
  match ds with
  | [] => [(property, value)]
  | d :: rest => if d.1 = property then (property, value) :: rest else d :: set rest property value

/-- The properties after one was set. -/
theorem mem_properties_set {ds : List Declaration} {property value p : String} :
    p ∈ (set ds property value).map (·.1) ↔ p ∈ ds.map (·.1) ∨ p = property := by
  induction ds with
  | nil => simp [set]
  | cons d rest ih =>
    by_cases h : d.1 = property
    · simp only [set, h, if_true, List.map_cons, List.mem_cons]
      constructor
      · rintro (rfl | h') <;> simp [*]
      · rintro ((rfl | h') | rfl) <;> simp [*]
    · simp only [set, h, if_false, List.map_cons, List.mem_cons, ih]
      constructor
      · rintro (rfl | h' | rfl) <;> simp [*]
      · rintro ((rfl | h') | rfl) <;> simp [*]

/-- Setting a property does not repeat one. -/
theorem nodup_set {ds : List Declaration} {property value : String}
    (h : (ds.map (·.1)).Nodup) : ((set ds property value).map (·.1)).Nodup := by
  induction ds with
  | nil => simp [set]
  | cons d rest ih =>
    simp only [List.map_cons, List.nodup_cons] at h
    by_cases hd : d.1 = property
    · simp only [set, hd, if_true, List.map_cons, List.nodup_cons]
      exact ⟨hd ▸ h.1, h.2⟩
    · simp only [set, hd, if_false, List.map_cons, List.nodup_cons]
      refine ⟨fun hm => ?_, ih h.2⟩
      rcases mem_properties_set.1 hm with hm | hm
      · exact h.1 hm
      · exact hd hm

/-- Whether `d` comes before `e` by property, and by value where the properties are the same. -/
def before (d e : Declaration) : Bool := decide (d.1 < e.1) || (d.1 == e.1 && decide (d.2 < e.2))

/-- `ds` with one more declaration, for sorted `ds`. -/
def insertSorted (d : Declaration) : List Declaration → List Declaration
  | [] => [d]
  | e :: rest => if before e d then e :: insertSorted d rest else d :: e :: rest

/-- The declarations in order. -/
def sort (ds : List Declaration) : List Declaration := ds.foldr insertSorted []

end Declarations

/-- The declarations of a node or of a run of text; no property is declared twice. -/
structure Record where
  declarations : List Declaration
  nodup : (declarations.map (·.1)).Nodup
  deriving DecidableEq, Repr

namespace Record

/-- The record without declarations. -/
def empty : Record := ⟨[], List.nodup_nil⟩

instance : Inhabited Record := ⟨empty⟩

/-- Whether there is no declaration. -/
def isEmpty (r : Record) : Bool := r.declarations.isEmpty

/-- The number of declarations. -/
def size (r : Record) : Nat := r.declarations.length

/-- The value of a property. -/
def get? (r : Record) (property : String) : Option String :=
  Declarations.get? r.declarations property

/-- Whether a property is declared. -/
def has (r : Record) (property : String) : Bool := (r.get? property).isSome

/-- `r` with a property set: its value is replaced in its place, or it comes last. -/
def set (r : Record) (property value : String) : Record :=
  ⟨Declarations.set r.declarations property value, Declarations.nodup_set r.nodup⟩

/-- `r` with declarations set, one after the other. -/
def setAll (r : Record) (ds : List Declaration) : Record :=
  ds.foldl (fun r d => r.set d.1 d.2) r

/-- The record of some declarations; a later one replaces the value of an earlier one. -/
def ofList (ds : List Declaration) : Record := empty.setAll ds

/-- The declarations that meet a condition. -/
def filter (p : Declaration → Bool) (r : Record) : Record :=
  ⟨r.declarations.filter p, r.nodup.sublist (List.filter_sublist.map _)⟩

/-- `r` without a property. -/
def erase (r : Record) (property : String) : Record := r.filter fun d => d.1 != property

/-- `r` with all declarations of `other`. -/
def merge (r other : Record) : Record := r.setAll other.declarations

/-- The declarations of `r` that `base` does not have with the same value. -/
def difference (r base : Record) : Record := r.filter fun d => base.get? d.1 != some d.2

/-- The declarations in order of their properties. -/
def sorted (r : Record) : List Declaration := Declarations.sort r.declarations

/-- A text that does not depend on the order of the declarations. -/
def canonicalKey (r : Record) : String :=
  String.join (r.sorted.map fun d => d.1 ++ ":" ++ d.2 ++ ";")

/-- The record on one line. -/
def line (r : Record) : String :=
  String.intercalate " " (r.declarations.map fun d => d.1 ++ ": " ++ d.2 ++ ";")

end Record

end SceneMarkup
