/-
  SceneMarkup/Proofs/Precedence.lean --- which of a flag, a configuration file and a default
  gives a setting.

  WHAT THIS FILE IS FOR.  An entry of a configuration text sets the setting with its key and
  no other one (`setting?_eq`), so what a whole text leaves of a setting is decided by the
  one entry with its key (`stated?_foldlM`).  Flags come on top.  The name of the component
  is the one setting of which a run does not know whether the text states it: it compares
  the name with the default one, and so passes over a text that states just this.
-/
import SceneMarkup.CommandLine.Run
import SceneMarkup.CommandLine.Store

set_option autoImplicit false

namespace SceneMarkup

namespace Config

/-! ## Settings -/

/-- The settings. -/
inductive Key where
  | outDir
  | classStart
  | rootNode
  | includeHidden
  | emitNodeIds
  | flavor
  | componentName
  deriving DecidableEq, Repr, Inhabited

namespace Key

/-- The key of a setting in a configuration text. -/
def name : Key → String
  | outDir => "out_dir"
  | classStart => "class_prefix"
  | rootNode => "root_node"
  | includeHidden => "include_hidden"
  | emitNodeIds => "emit_node_ids"
  | flavor => "flavor"
  | componentName => "component_name"

/-- The setting with a key. -/
def ofName? : String → Option Key
  | "out_dir" => some outDir
  | "class_prefix" => some classStart
  | "root_node" => some rootNode
  | "include_hidden" => some includeHidden
  | "emit_node_ids" => some emitNodeIds
  | "flavor" => some flavor
  | "component_name" => some componentName
  | _ => none

/-- What a setting is. -/
abbrev Value : Key → Type
  | outDir => String
  | classStart => Option String
  | rootNode => Option String
  | includeHidden => Bool
  | emitNodeIds => Bool
  | flavor => Flavor
  | componentName => String

/-- What a setting is made by a value, or nothing if the value is of the wrong kind. -/
def read : (key : Key) → Scalar → Option key.Value
  | outDir, value => value.text?
  | classStart, value => value.text?.map some
  | rootNode, value => value.text?.map some
  | includeHidden, value => value.bool?
  | emitNodeIds, value => value.bool?
  | flavor, value => value.text?.bind Flavor.ofName?
  | componentName, value => value.text?

/-- A setting of a configuration; files are written to the place where paths begin if nothing
else is said. -/
def get : (key : Key) → Config → key.Value
  | outDir, config => config.outDir.getD "."
  | classStart, config => config.options.classStart
  | rootNode, config => config.options.rootNode
  | includeHidden, config => config.options.includeHidden
  | emitNodeIds, config => config.options.emitNodeIds
  | flavor, config => config.options.flavor
  | componentName, config => config.options.componentName

/-- A configuration with another value of a setting. -/
def set : (key : Key) → key.Value → Config → Config
  | outDir, value, config => { config with outDir := some value }
  | classStart, value, config =>
      { config with options := { config.options with classStart := value } }
  | rootNode, value, config => { config with options := { config.options with rootNode := value } }
  | includeHidden, value, config =>
      { config with options := { config.options with includeHidden := value } }
  | emitNodeIds, value, config =>
      { config with options := { config.options with emitNodeIds := value } }
  | flavor, value, config => { config with options := { config.options with flavor := value } }
  | componentName, value, config =>
      { config with options := { config.options with componentName := value } }

theorem get_set (key : Key) (value : key.Value) (config : Config) :
    key.get (key.set value config) = value := by
  cases key <;> rfl

theorem get_set_of_ne {key other : Key} (h : key ≠ other) (value : other.Value) (config : Config) :
    key.get (other.set value config) = key.get config := by
  cases key <;> cases other <;> first | rfl | exact absurd rfl h

theorem ofName?_name (key : Key) : ofName? key.name = some key := by
  cases key <;> rfl

theorem eq_name_of_ofName? {text : String} {key : Key} (h : ofName? text = some key) :
    text = key.name := by
  unfold ofName? at h
  split at h <;> cases h <;> rfl

end Key

/-! ## Entries -/

theorem Scalar.eq_text {value : Scalar} {content : String} (h : value.text? = some content) :
    value = .text content := by
  cases value <;> cases h
  rfl

variable {entry : Entry} {entries : List Entry} {config next : Config}

/-- An entry sets the setting with its key, and an entry with another key nothing. -/
theorem setting?_eq (config : Config) (entry : Entry) :
    setting? config entry =
      match Key.ofName? entry.1 with
      | none => some config
      | some key => (key.read entry.2).map fun value => key.set value config := by
  obtain ⟨text, value⟩ := entry
  cases hkey : Key.ofName? text with
  | some key =>
      obtain rfl := Key.eq_name_of_ofName? hkey
      cases key with
      | flavor =>
          cases value with
          | text content =>
              change ((Flavor.ofName? content).bind _).bind _ = (Flavor.ofName? content).map _
              cases Flavor.ofName? content <;> rfl
          | bool _ | integer _ => rfl
      | _ => cases value <;> rfl
  | none =>
      have hne : ∀ key : Key, text ≠ key.name := by
        rintro key rfl
        rw [Key.ofName?_name] at hkey
        cases hkey
      have hother : option? config.options (text, value) = some config.options := by
        unfold option?
        split
        · exact absurd ‹_› (hne .classStart)
        · exact absurd ‹_› (hne .rootNode)
        · exact absurd ‹_› (hne .includeHidden)
        · exact absurd ‹_› (hne .emitNodeIds)
        · exact absurd ‹_› (hne .flavor)
        · exact absurd ‹_› (hne .componentName)
        · rfl
      unfold setting?
      split
      · exact absurd ‹_› (hne .outDir)
      · rw [hother]
        rfl

/-- What entries state of a setting: what the one with its key says, or `otherwise` if there is
none. -/
def Key.stated? (key : Key) (entries : List Entry) (otherwise : key.Value) : Option key.Value :=
  match entries.lookup key.name with
  | none => some otherwise
  | some value => key.read value

namespace Key

theorem stated?_of_not_mem {key : Key} (h : key.name ∉ entries.map (·.1)) (otherwise : key.Value) :
    key.stated? entries otherwise = some otherwise := by
  have hlookup : entries.lookup key.name = none := by
    rw [List.lookup_eq_none_iff]
    intro entry hentry
    exact bne_iff_ne.2 fun heq => h (List.mem_map.2 ⟨entry, hentry, heq.symm⟩)
  rw [stated?, hlookup]

theorem stated?_cons_self {key : Key} (h : entry.1 = key.name) (otherwise : key.Value) :
    key.stated? (entry :: entries) otherwise = key.read entry.2 := by
  rw [stated?, List.lookup_cons, ← h, beq_self_eq_true]

theorem stated?_cons_of_ne {key : Key} (h : entry.1 ≠ key.name) (otherwise : key.Value) :
    key.stated? (entry :: entries) otherwise = key.stated? entries otherwise := by
  rw [stated?, List.lookup_cons, beq_false_of_ne h.symm, stated?]

end Key

/-- An entry with the key of a setting gives the setting the value that it states. -/
theorem read_of_setting? {key : Key} (hkey : entry.1 = key.name)
    (h : setting? config entry = some next) : key.read entry.2 = some (key.get next) := by
  rw [setting?_eq, hkey, Key.ofName?_name] at h
  obtain ⟨value, hread, rfl⟩ := Option.map_eq_some_iff.1 h
  rw [hread, Key.get_set]

/-- An entry with another key leaves a setting as it is. -/
theorem get_of_setting? {key : Key} (hkey : entry.1 ≠ key.name)
    (h : setting? config entry = some next) : key.get next = key.get config := by
  rw [setting?_eq] at h
  cases hother : Key.ofName? entry.1 with
  | none =>
      rw [hother] at h
      cases h
      rfl
  | some other =>
      rw [hother] at h
      obtain ⟨value, -, rfl⟩ := Option.map_eq_some_iff.1 h
      have hne : key ≠ other := by
        rintro rfl
        exact hkey (Key.eq_name_of_ofName? hother)
      exact Key.get_set_of_ne hne value config

/-- A run over entries with different keys leaves each setting with what they state of it. -/
theorem stated?_foldlM (key : Key) (hnodup : (entries.map (·.1)).Nodup)
    (h : entries.foldlM setting? config = some next) :
    key.stated? entries (key.get config) = some (key.get next) := by
  induction entries generalizing config with
  | nil =>
      cases h
      rfl
  | cons entry rest ih =>
      rw [List.map_cons, List.nodup_cons] at hnodup
      obtain ⟨hfresh, hrest⟩ := hnodup
      rw [List.foldlM_cons] at h
      obtain ⟨between, hentry, hrun⟩ := Option.bind_eq_some_iff.1 h
      have hrun := ih hrest hrun
      by_cases hkey : entry.1 = key.name
      · rw [Key.stated?_of_not_mem (hkey ▸ hfresh)] at hrun
        rw [Key.stated?_cons_self hkey, read_of_setting? hkey hentry, hrun]
      · rw [Key.stated?_cons_of_ne hkey, ← get_of_setting? hkey hentry, hrun]

end Config

namespace CommandLine

open Config (Key Scalar)

variable {store after : Store} {arguments : CompileArguments} {entries : List Config.Entry}
  {config : Config}

/-! ## The configuration of a run -/

/-- The entries of the configuration file at a path are these; without a path there are none. -/
def ConfigEntries (store : Store) : Option String → List Config.Entry → Prop
  | none, entries => entries = []
  | some path, entries =>
      ∃ text, store.read path = .ok text ∧ Config.entries? text.toList = some entries

theorem nodup_of_entries? {text : List Char} (h : Config.entries? text = some entries) :
    (entries.map (·.1)).Nodup := by
  obtain ⟨read, -, h⟩ := Option.bind_eq_some_iff.1 h
  split at h
  · rename_i hnodup
    cases h
    exact hnodup
  · cases h

/-- Loading a configuration file reads it and leaves the store as it is. -/
theorem loadConfig_some (store : Store) (path : String) :
    (loadConfig Files.inMemory (some path)).run store =
      (match store.read path with
        | .error error => .error ["failed to read config " ++ path, error.message]
        | .ok text =>
            match Config.ofText? text with
            | none => .error ["invalid config " ++ path, "TOML parse error"]
            | some config => .ok config, store) := by
  have hread : (Files.inMemory.read path).run store = pure (store.read path, store) := rfl
  rw [loadConfig, StateT.run_bind, hread, pure_bind]
  cases store.read path with
  | error error => rfl
  | ok text =>
      dsimp only
      cases Config.ofText? text <;> rfl

/-- A configuration that was loaded is what a run over entries with different keys gives. -/
theorem exists_entries_of_loadConfig {path : Option String}
    (h : (loadConfig Files.inMemory path).run store = (.ok config, after)) :
    ∃ entries, ConfigEntries store path entries ∧ (entries.map (·.1)).Nodup ∧
      entries.foldlM Config.setting? .default = some config := by
  cases path with
  | none =>
      cases h
      exact ⟨[], rfl, List.nodup_nil, rfl⟩
  | some path =>
      rw [loadConfig_some, Prod.mk.injEq] at h
      obtain ⟨h, -⟩ := h
      split at h
      · cases h
      · rename_i text hread
        split at h
        · cases h
        · rename_i loaded hconfig
          obtain ⟨entries, hentries, hrun⟩ := Option.bind_eq_some_iff.1 hconfig
          cases h
          exact ⟨entries, ⟨text, hread, hentries⟩, nodup_of_entries? hentries, hrun⟩

/-! ## Flags -/

/-- The value that a flag of a request gives a setting. -/
def CompileArguments.flag? (arguments : CompileArguments) : (key : Key) → Option key.Value
  | .outDir => arguments.outDir
  | .classStart => arguments.classStart.map some
  | .rootNode => arguments.root.map some
  | .includeHidden => if arguments.omitHidden then some false else none
  | .emitNodeIds => if arguments.nodeIds then some true else none
  | .flavor => arguments.flavor
  | .componentName => arguments.name

/-- What a setting is where neither a flag nor a configuration file says anything of it: a
component is called after the file that it is made from, if that has a name. -/
def CompileArguments.otherwise (arguments : CompileArguments) : (key : Key) → key.Value
  | .componentName => (fileStem? arguments.input).getD Options.default.componentName
  | key => key.get .default

/-- What a setting is to be: what the flag says if there is one, else what the entries of the
configuration file state, else the default. -/
def CompileArguments.chosen? (arguments : CompileArguments) (entries : List Config.Entry)
    (key : Key) : Option key.Value :=
  match arguments.flag? key with
  | some value => some value
  | none => key.stated? entries (arguments.otherwise key)

/-- A configuration file calls the component by its default name, no flag calls it anything, and
the file that it is made from has another name. -/
structure NamedByDefault (arguments : CompileArguments) (entries : List Config.Entry) : Prop where
  noFlag : arguments.name = none
  stated : entries.lookup Key.componentName.name = some (.text Options.default.componentName)
  differs : arguments.otherwise .componentName ≠ Options.default.componentName

/-- A flag counts more than the configuration that was loaded. -/
theorem get_settings {key : Key} (h : key ≠ .componentName) (arguments : CompileArguments)
    (config : Config) :
    key.get (settings arguments config) = (arguments.flag? key).getD (key.get config) := by
  obtain ⟨input, outDir, name, flavor, classStart, root, omitHidden, nodeIds, json, path⟩ :=
    arguments
  cases key with
  | outDir => cases outDir <;> rfl
  | classStart => cases classStart <;> rfl
  | rootNode => cases root <;> rfl
  | includeHidden => cases omitHidden <;> simp [Key.get, settings, CompileArguments.flag?]
  | emitNodeIds => cases nodeIds <;> simp [Key.get, settings, CompileArguments.flag?]
  | flavor => rfl
  | componentName => exact absurd rfl h

theorem chosen?_settings {key : Key} (hkey : key ≠ .componentName)
    (h : key.stated? entries (key.get .default) = some (key.get config)) :
    arguments.chosen? entries key = some (key.get (settings arguments config)) := by
  have hotherwise : arguments.otherwise key = key.get .default := by
    cases key with
    | componentName => exact absurd rfl hkey
    | _ => rfl
  rw [get_settings hkey, CompileArguments.chosen?, hotherwise, h]
  cases arguments.flag? key <;> rfl

/-! ## The name of the component -/

/-- The name that a run gives the component. -/
theorem componentName_settings (arguments : CompileArguments) (config : Config) :
    (settings arguments config).options.componentName =
      arguments.name.getD
        (if config.options.componentName = Options.default.componentName
          then arguments.otherwise .componentName
          else config.options.componentName) := by
  unfold settings Config.namesComponent
  cases arguments.name with
  | some name => rfl
  | none =>
      by_cases h : config.options.componentName = Options.default.componentName
      · simp [h, CompileArguments.otherwise]
      · simp [h]

theorem namedByDefault_iff {name : String} (hflag : arguments.name = none)
    (hstated : entries.lookup Key.componentName.name = some (.text name)) :
    NamedByDefault arguments entries ↔ name = Options.default.componentName ∧
      arguments.otherwise .componentName ≠ Options.default.componentName := by
  constructor
  · rintro ⟨-, hdefault, hdiffers⟩
    rw [hstated] at hdefault
    exact ⟨by injections, hdiffers⟩
  · rintro ⟨hdefault, hdiffers⟩
    exact ⟨hflag, by rw [hstated, hdefault], hdiffers⟩

/-- A component gets the name that it is to have, unless a configuration file gives it the default
name. -/
theorem chosen?_componentName_iff
    (h : Key.componentName.stated? entries (Key.componentName.get .default) =
      some (Key.componentName.get config)) :
    arguments.chosen? entries .componentName =
        some (Key.componentName.get (settings arguments config)) ↔
      ¬ NamedByDefault arguments entries := by
  have hname : Key.componentName.get (settings arguments config) = _ :=
    componentName_settings arguments config
  rw [hname, CompileArguments.chosen?, CompileArguments.flag?]
  cases hflag : arguments.name with
  | some name => exact iff_of_true rfl fun hnamed => by cases hflag.symm.trans hnamed.noFlag
  | none =>
      rw [Key.stated?] at h ⊢
      cases hlookup : entries.lookup Key.componentName.name with
      | none =>
          rw [hlookup] at h
          have hdefault : config.options.componentName = Options.default.componentName :=
            (Option.some.inj h).symm
          refine iff_of_true ?_ fun hnamed => by cases hlookup.symm.trans hnamed.stated
          rw [if_pos hdefault]
          rfl
      | some value =>
          rw [hlookup] at h
          have hvalue : value = .text config.options.componentName := Config.Scalar.eq_text h
          have hnamed := namedByDefault_iff hflag (hvalue ▸ hlookup)
          simp only [h, hnamed, Option.getD_none, Option.some.injEq]
          by_cases hdefault : config.options.componentName = Options.default.componentName
          · rw [if_pos hdefault]
            refine Iff.trans ?_ Decidable.not_and_not_right.symm
            exact ⟨fun heq _ => heq ▸ hdefault, fun heq => hdefault.trans (heq hdefault).symm⟩
          · rw [if_neg hdefault]
            exact iff_of_true rfl fun hboth => hdefault hboth.1

/-- Where the default name is passed over, the component is called after the file that it is made
from. -/
theorem NamedByDefault.fileStem?_eq (hnamed : NamedByDefault arguments entries)
    (h : Key.componentName.stated? entries (Key.componentName.get .default) =
      some (Key.componentName.get config)) :
    fileStem? arguments.input = some (settings arguments config).options.componentName := by
  have hdefault : config.options.componentName = Options.default.componentName := by
    rw [Key.stated?, hnamed.stated] at h
    exact (Option.some.inj h).symm
  rw [componentName_settings, hnamed.noFlag, Option.getD_none, if_pos hdefault]
  cases hstem : fileStem? arguments.input with
  | some stem =>
      rw [CompileArguments.otherwise, hstem]
      rfl
  | none =>
      refine absurd ?_ hnamed.differs
      rw [CompileArguments.otherwise, hstem]
      rfl

/-! ## Precedence -/

/-- The settings of a request are those that flags and the entries of a configuration make them,
with one exception: a component that is called by its default name is called after the document. -/
structure Settled (arguments : CompileArguments) (entries : List Config.Entry) (config : Config) :
    Prop where
  chosen : ∀ key : Key, arguments.chosen? entries key = some (key.get (settings arguments config)) ↔
    ¬ (key = .componentName ∧ NamedByDefault arguments entries)
  fileStem?_eq : NamedByDefault arguments entries →
    fileStem? arguments.input = some (settings arguments config).options.componentName

theorem settled_of_foldlM (arguments : CompileArguments) (hnodup : (entries.map (·.1)).Nodup)
    (h : entries.foldlM Config.setting? .default = some config) :
    Settled arguments entries config := by
  have hstated : ∀ key : Key, key.stated? entries (key.get .default) = some (key.get config) :=
    fun key => Config.stated?_foldlM key hnodup h
  refine ⟨fun key => ?_, fun hnamed => hnamed.fileStem?_eq (hstated _)⟩
  by_cases hkey : key = .componentName
  · subst hkey
    rw [chosen?_componentName_iff (hstated _), and_iff_right rfl]
  · exact iff_of_true (chosen?_settings hkey (hstated key)) fun hboth => hkey hboth.1

/-- For all entries with different keys that make a configuration, and every request, a setting is
what a flag says, else what the entry with its key states, else the default. There is one exception:
an entry that calls the component by its default name is taken for none, and the component is called
after the document. A configuration that is loaded from a file, or from none, is made by such
entries. -/
theorem settings_precedence (arguments : CompileArguments) :
    (∀ (entries : List Config.Entry) (config : Config),
      (entries.map (·.1)).Nodup → entries.foldlM Config.setting? .default = some config →
        Settled arguments entries config) ∧
    ∀ (store after : Store) (config : Config),
      (loadConfig Files.inMemory arguments.config).run store = (.ok config, after) →
        ∃ entries, ConfigEntries store arguments.config entries ∧ (entries.map (·.1)).Nodup ∧
          entries.foldlM Config.setting? .default = some config ∧
          Settled arguments entries config := by
  constructor
  · intro entries config hnodup h
    exact settled_of_foldlM arguments hnodup h
  · intro store after config h
    obtain ⟨entries, hentries, hnodup, hrun⟩ := exists_entries_of_loadConfig h
    exact ⟨entries, hentries, hnodup, hrun, settled_of_foldlM arguments hnodup hrun⟩

/-- A request with a configuration file and no flags but one for the directory. -/
def configuredRequest (outDir : Option String) : CompileArguments where
  input := "pricing.json"
  outDir
  name := none
  flavor := none
  classStart := none
  root := none
  omitHidden := false
  nodeIds := false
  json := false
  config := some "scenec.toml"

/-- A store with a configuration file. -/
def storeWithConfig (text : String) : Store := Store.empty.withFile "scenec.toml" text

theorem settings_precedence_named_card :
    let store := storeWithConfig "out_dir = \"dist\"\ncomponent_name = \"Card\"\n"
    let arguments := configuredRequest (some "build")
    let entries := [("out_dir", Scalar.text "dist"), ("component_name", Scalar.text "Card")]
    ∃ config, (entries.map (·.1)).Nodup ∧
      entries.foldlM Config.setting? .default = some config ∧ Settled arguments entries config ∧
      (loadConfig Files.inMemory arguments.config).run store = (.ok config, store) ∧
      (∃ stated, ConfigEntries store arguments.config stated ∧ Settled arguments stated config) ∧
      (settings arguments config).outDir = some "build" ∧
      (settings arguments config).options.componentName = "Card" := by
  intro store arguments entries
  let config : Config := ⟨some "dist", { Options.default with componentName := "Card" }⟩
  have hnodup : (entries.map (·.1)).Nodup := by decide
  have hrun : entries.foldlM Config.setting? .default = some config := rfl
  have hload : (loadConfig Files.inMemory arguments.config).run store = (.ok config, store) := rfl
  obtain ⟨hentries, hfiles⟩ := settings_precedence arguments
  obtain ⟨stated, hstated, -, -, hsettled⟩ := hfiles store store config hload
  exact ⟨config, hnodup, hrun, hentries entries config hnodup hrun, hload,
    ⟨stated, hstated, hsettled⟩, rfl, rfl⟩

/-- A configuration file names the component `Component`, and the component is called `pricing`. -/
theorem chosen?_ne_of_default_name :
    let store := storeWithConfig "component_name = \"Component\"\n"
    let arguments := configuredRequest none
    let entries := [("component_name", Scalar.text "Component")]
    (loadConfig Files.inMemory arguments.config).run store = (.ok .default, store) ∧
      ConfigEntries store arguments.config entries ∧
      arguments.chosen? entries .componentName = some "Component" ∧
      (settings arguments .default).options.componentName = "pricing" :=
  ⟨rfl, ⟨_, rfl, rfl⟩, rfl, rfl⟩

end CommandLine

end SceneMarkup
