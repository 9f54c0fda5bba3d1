/-
  SceneMarkup/Document/Finding.lean --- values together with the remarks made while
  they were built.
-/
import SceneMarkup.Diagnostic

set_option autoImplicit false

namespace SceneMarkup

/-- A value and the remarks made while it was built, in order. -/
structure Noted (α : Type) where
  value : α
  notes : Diagnostics
  deriving Repr, Inhabited

namespace Noted

variable {α β : Type}

/-- A value without remarks. -/
def clean (value : α) : Noted α := ⟨value, []⟩

/-- A value built from another; its remarks come later. -/
def andThen (a : Noted α) (f : α → Noted β) : Noted β :=
  let b := f a.value
  ⟨b.value, a.notes ++ b.notes⟩

instance : Monad Noted where
  pure := clean
  bind := andThen

/-- A remark. -/
def note (d : Diagnostic) : Noted Unit := ⟨(), [d]⟩

/-- Values built one after the other. -/
def all (f : α → Noted β) : List α → Noted (List β)
  | [] => clean []
  | a :: rest => (f a).andThen fun b => (all f rest).andThen fun bs => clean (b :: bs)

/-- The values that could be built, one after the other. -/
def some (f : α → Noted (Option β)) (items : List α) : Noted (List β) :=
  (all f items).andThen fun bs => clean (bs.filterMap id)

/-- Values built one after the other, each from an item and its position. -/
def someIndexed (f : Nat → α → Noted (Option β)) (items : List α) : Noted (List β) :=
  some (fun (a, i) => f i a) items.zipIdx

end Noted

end SceneMarkup
