/-
  SceneMarkup/Proofs/Appending.lean --- trees at the end of a scene change nothing before
  them.

  WHAT THIS FILE IS FOR.  A walk, the styles and the classes go through a scene once, from
  the first tree to the last.  Nothing is carried from one tree to the next but classes,
  and those only grow: a request adds rules behind the rules there are
  (`rules_serve`) and leaves every class with its key (`keeps_serve`).  So the elements of
  the first trees, which know all their classes when the last of these trees ends, are
  the same whatever comes behind them.
-/
import SceneMarkup.Proofs.SceneSketch

set_option autoImplicit false

namespace SceneMarkup

/-! ## Elements -/

/-- The elements of trees in a row are made tree by tree; only the numbers of the trees go on. -/
theorem sketchesIn_append (options : EmitOptions) (parent : Option Layer) (depth index : Nat)
    (first others : List Node) :
    sketchesIn options parent depth index (first ++ others) =
      sketchesIn options parent depth index first ++
        sketchesIn options parent depth (index + first.length) others := by
  induction first generalizing index with
  | nil => rfl
  | cons node rest ih =>
      obtain ⟨layer, children⟩ := node
      rw [List.cons_append, sketchesIn_cons, sketchesIn_cons, ih, List.append_assoc,
        List.length_cons, Nat.add_assoc, Nat.add_comm 1]

/-! ## Classes -/

namespace Emission.Classes

/-- A request leaves the rules as they are or puts one behind them. -/
theorem rules_give (classes : Classes) (request : ClassRequest) :
    classes.rules <+: (classes.give request).rules := by
  rcases give_cases classes request with ⟨hsame, -⟩ | ⟨-, -, hgive⟩
  · refine ⟨[], ?_⟩
    rw [hsame, List.append_nil]
  · rw [hgive]
    exact ⟨_, rfl⟩

theorem rules_serve (classes : Classes) (requests : List ClassRequest) :
    classes.rules <+: (classes.serve requests).rules := by
  induction requests generalizing classes with
  | nil => exact ⟨[], List.append_nil _⟩
  | cons request rest ih =>
      rw [serve_cons]
      exact (rules_give classes request).trans (ih (classes.give request))

/-- Elements whose classes have all been asked for look the same after any other requests. -/
theorem markupIn_serve (classes : Classes) {sketches : List Sketch}
    (hknown : ∀ q ∈ Sketch.requestsIn sketches, classes.Knows q.record)
    (requests : List ClassRequest) :
    Sketch.markupIn (classes.serve requests).classOf sketches =
      Sketch.markupIn classes.classOf sketches :=
  Sketch.markupIn_congr sketches fun q hq => (hknown q hq).classOf_eq (keeps_serve classes requests)

end Emission.Classes

/-! ## Compiling -/

/-- Trees that are put behind the trees of a scene change neither its markup nor its stylesheet,
which get something behind them at most: no class is called differently, and none gets other
declarations. -/
theorem appended_trees_change_nothing_before (options : Options) (name name' : Option String)
    (first others : List Node) :
    ∃ out all,
      compileTree ⟨name, first⟩ { options with rootNode := none } = .ok out ∧
      compileTree ⟨name', first ++ others⟩ { options with rootNode := none } = .ok all ∧
      out.markup <+: all.markup ∧ out.stylesheet <+: all.stylesheet := by
  let emitOptions := options.emitOptions
  let sketches := sketchesOf emitOptions first
  let all := sketchesOf emitOptions (first ++ others)
  let more := sketchesIn emitOptions none 0 first.length others
  let classes := Emission.classesOf emitOptions sketches
  have hsketches : all = sketches ++ more := by
    have happend := sketchesIn_append emitOptions none 0 0 first others
    rwa [Nat.zero_add] at happend
  -- the classes of the first trees are a state on the way to the classes of all
  have hclasses : Emission.classesOf emitOptions (sketches ++ more) =
      classes.serve (Sketch.requestsIn more) := by
    rw [Emission.classesOf, Sketch.requestsIn_append, Emission.Classes.serve_append]
    rfl
  have hmarkup : Sketch.markupIn (classes.serve (Sketch.requestsIn more)).classOf sketches =
      Sketch.markupIn classes.classOf sketches :=
    classes.markupIn_serve (fun q hq => Emission.Classes.knows_serve hq) _
  refine ⟨_, _, compileParsed_eq ⟨name, first⟩ [] _,
    compileParsed_eq ⟨name', first ++ others⟩ [] _, ?_, ?_⟩
  · change Sketch.markupIn classes.classOf sketches <+:
      Sketch.markupIn (Emission.classesOf emitOptions all).classOf all
    rw [hsketches, hclasses, Sketch.markupIn_append, hmarkup]
    exact ⟨_, rfl⟩
  · change classes.rules <+: (Emission.classesOf emitOptions all).rules
    rw [hsketches, hclasses]
    exact Emission.Classes.rules_serve classes _

end SceneMarkup
