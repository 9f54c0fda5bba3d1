/-
  SceneMarkup/Proofs/Classes.lean --- classes that are given one after the other.

  WHAT THIS FILE IS FOR.  Emission asks for classes one by one and goes on with the
  classes made so far.  A class once given stays, so every request is answered as the
  last state of the classes would answer it: `Classes.classOf` of that state is the one
  function from records to classes that a whole emission uses.
-/
import SceneMarkup.Proofs.Sketch

set_option autoImplicit false

namespace SceneMarkup.Emission.Classes

/-! ## Requests -/

/-- The class of a record among the classes made so far. -/
def classOf (classes : Classes) (record : Record) : Option String :=
  if record.isEmpty then none else classes.byKey.lookup record.canonicalKey

/-- The classes after a request. -/
def give (classes : Classes) (request : ClassRequest) : Classes :=
  (classes.classFor request.record request.name request.fallback).2

/-- The classes after some requests, in order. -/
def serve (classes : Classes) (requests : List ClassRequest) : Classes :=
  requests.foldl give classes

theorem serve_nil (classes : Classes) : classes.serve [] = classes := rfl

theorem serve_cons (classes : Classes) (request : ClassRequest) (rest : List ClassRequest) :
    classes.serve (request :: rest) = (classes.give request).serve rest := rfl

theorem serve_append (classes : Classes) (first others : List ClassRequest) :
    classes.serve (first ++ others) = (classes.serve first).serve others :=
  List.foldl_append

/-- A record without declarations gets no class. -/
theorem classFor_of_isEmpty (classes : Classes) {record : Record} (h : record.isEmpty = true)
    (name fallback : String) : classes.classFor record name fallback = (none, classes) := by
  rw [classFor, if_pos h]

/-- A record whose key is known gets the class that was given for the key. -/
theorem classFor_of_lookup (classes : Classes) {record : Record} {given : String}
    (h : record.isEmpty = false) (hlookup : classes.byKey.lookup record.canonicalKey = some given)
    (name fallback : String) : classes.classFor record name fallback = (some given, classes) := by
  simp only [classFor, h, Bool.false_eq_true, if_false, hlookup]

/-- A record whose key is not known gets a new class with a rule of its own. -/
theorem classFor_of_new (classes : Classes) {record : Record} (h : record.isEmpty = false)
    (hlookup : classes.byKey.lookup record.canonicalKey = none) (name fallback : String) :
    classes.classFor record name fallback =
      (some (classes.namer.mint name fallback).1,
        ⟨(classes.namer.mint name fallback).2,
          (record.canonicalKey, (classes.namer.mint name fallback).1) :: classes.byKey,
          classes.rules ++ [.ofRecord (classes.namer.mint name fallback).1 record]⟩) := by
  simp only [classFor, h, Bool.false_eq_true, if_false, hlookup]

/-- What a request does to the classes: nothing, or it adds a class with a rule. -/
theorem give_cases (classes : Classes) (request : ClassRequest) :
    (classes.give request = classes ∧ (request.record.isEmpty = true ∨
      ∃ given, classes.byKey.lookup request.record.canonicalKey = some given)) ∨
    (request.record.isEmpty = false ∧
      classes.byKey.lookup request.record.canonicalKey = none ∧
      classes.give request =
        ⟨(classes.namer.mint request.name request.fallback).2,
          (request.record.canonicalKey, (classes.namer.mint request.name request.fallback).1) ::
            classes.byKey,
          classes.rules ++
            [.ofRecord (classes.namer.mint request.name request.fallback).1 request.record]⟩) := by
  cases hempty : request.record.isEmpty with
  | true =>
      refine Or.inl ⟨?_, Or.inl rfl⟩
      rw [give, classFor_of_isEmpty _ hempty]
  | false =>
      cases hlookup : classes.byKey.lookup request.record.canonicalKey with
      | some given =>
          refine Or.inl ⟨?_, Or.inr ⟨given, rfl⟩⟩
          rw [give, classFor_of_lookup _ hempty hlookup]
      | none =>
          refine Or.inr ⟨rfl, rfl, ?_⟩
          rw [give, classFor_of_new _ hempty hlookup]

/-- The answer to a request is the class that its record has afterwards. -/
theorem classFor_eq (classes : Classes) (record : Record) (name fallback : String) :
    classes.classFor record name fallback =
      ((classes.give ⟨record, name, fallback⟩).classOf record,
        classes.give ⟨record, name, fallback⟩) := by
  refine Prod.ext ?_ rfl
  cases hempty : record.isEmpty with
  | true => rw [classFor_of_isEmpty _ hempty, classOf, if_pos hempty]
  | false =>
      cases hlookup : classes.byKey.lookup record.canonicalKey with
      | some given =>
          simp only [give, classFor_of_lookup _ hempty hlookup, classOf, hempty, hlookup,
            Bool.false_eq_true, if_false]
      | none =>
          simp only [give, classFor_of_new _ hempty hlookup, classOf, hempty, List.lookup_cons_self,
            Bool.false_eq_true, if_false]

/-! ## Classes stay -/

/-- Every class that was given for a key is still given for it. -/
def Keeps (before after : Classes) : Prop :=
  ∀ key given, before.byKey.lookup key = some given → after.byKey.lookup key = some given

theorem Keeps.refl (classes : Classes) : classes.Keeps classes := fun _ _ h => h

theorem Keeps.trans {first second third : Classes} (h : first.Keeps second)
    (h' : second.Keeps third) : first.Keeps third :=
  fun key given hkey => h' key given (h key given hkey)

theorem keeps_give (classes : Classes) (request : ClassRequest) :
    classes.Keeps (classes.give request) := by
  intro key given hkey
  rcases give_cases classes request with ⟨hsame, _⟩ | ⟨_, hnew, hgive⟩
  · rw [hsame]; exact hkey
  · have hne : key ≠ request.record.canonicalKey := by
      rintro rfl
      rw [hnew] at hkey
      simp at hkey
    rw [hgive, List.lookup_cons, beq_false_of_ne hne]
    exact hkey

theorem keeps_serve (classes : Classes) (requests : List ClassRequest) :
    classes.Keeps (classes.serve requests) := by
  induction requests generalizing classes with
  | nil => exact Keeps.refl classes
  | cons request rest ih => exact (keeps_give classes request).trans (ih _)

/-- A record has been asked for: it is empty or its key has a class. -/
def Knows (classes : Classes) (record : Record) : Prop :=
  record.isEmpty = true ∨ ∃ given, classes.byKey.lookup record.canonicalKey = some given

theorem Knows.mono {before after : Classes} {record : Record} (h : before.Knows record)
    (hkeeps : before.Keeps after) : after.Knows record := by
  rcases h with h | ⟨given, h⟩
  · exact Or.inl h
  · exact Or.inr ⟨given, hkeeps _ _ h⟩

/-- The class of a known record does not change. -/
theorem Knows.classOf_eq {before after : Classes} {record : Record} (h : before.Knows record)
    (hkeeps : before.Keeps after) : after.classOf record = before.classOf record := by
  rcases h with h | ⟨given, h⟩
  · rw [classOf, classOf, if_pos h, if_pos h]
  · rw [classOf, classOf, hkeeps _ _ h, h]

theorem knows_give (classes : Classes) (request : ClassRequest) :
    (classes.give request).Knows request.record := by
  rcases give_cases classes request with ⟨hsame, hknown⟩ | ⟨_, _, hgive⟩
  · rw [hsame]; exact hknown
  · exact Or.inr ⟨_, by rw [hgive]; exact List.lookup_cons_self⟩

/-- A known record that is not empty has a class. -/
theorem Knows.exists_classOf {classes : Classes} {record : Record} (h : classes.Knows record)
    (hempty : record.isEmpty = false) : ∃ given, classes.classOf record = some given := by
  rcases h with h | ⟨given, h⟩
  · rw [hempty] at h; simp at h
  · exact ⟨given, by rw [classOf, hempty, h]; rfl⟩

theorem knows_serve {classes : Classes} {requests : List ClassRequest} {request : ClassRequest}
    (h : request ∈ requests) : (classes.serve requests).Knows request.record := by
  induction requests generalizing classes with
  | nil => simp at h
  | cons first rest ih =>
      rcases List.mem_cons.1 h with rfl | h
      · exact (knows_give classes request).mono (keeps_serve _ rest)
      · exact ih h

end SceneMarkup.Emission.Classes
