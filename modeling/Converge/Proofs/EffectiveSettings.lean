import Converge.Proofs.EnvironmentLayer
/-!
# Effective settings

Each setting is settled for itself: by the variable for it, if the process or else the environment
file sets it, then by the file of settings, and then by its default.  Main statement: reading a file
and taking the variables one after another gives just these settings (`Sources.settings?_eq`).
-/

namespace Converge.Settings

/-! ## Layers -/

/-- What settings are taken from. -/
structure Sources where
  /-- The variables of the process. -/
  process : String → Option String
  /-- The first setting of each variable in the environment file. -/
  dotEnv : String → Option String
  /-- The text of the file of settings, if there is one. -/
  text : Option String

/-- A variable, which the process sets or else the environment file. -/
def Sources.binding? (sources : Sources) (name : String) : Option String :=
  (sources.process name).or (sources.dotEnv name)

/-- A single setting. -/
structure Field (α : Type) where
  sectionName : String
  /-- The names of the settings in its section. -/
  names : List String
  name : String
  variableName : Option String
  default : α
  ofNode? : Yaml.Node → Option α
  ofVariable? : String → Option α

namespace Field

variable {α β : Type}

/-- Where the store is. -/
def storePath : Field (Option String) where
  sectionName := "store"
  names := ["path"]
  name := "path"
  variableName := some storePathVariable
  default := none
  ofNode? := textOfNode?
  ofVariable? path := some (some path)

/-- The seconds to wait after a kind of change. -/
def timeout (name : String) : Field Nat where
  sectionName := "timeouts"
  names := ["deploy_secs", "unit_secs", "upgrade_secs"]
  name
  variableName := none
  default := defaultTimeout
  ofNode? := natOfNode? secondsLimit
  ofVariable? _ := none

/-- The number of attempts. -/
def maxAttempts : Field Nat where
  sectionName := "retry"
  names := ["max_attempts", "pause_secs"]
  name := "max_attempts"
  variableName := some maxAttemptsVariable
  default := RetryPolicy.defaultMaxAttempts
  ofNode? := natOfNode? attemptsLimit
  ofVariable? value := (Overrides.readNat maxAttemptsVariable attemptsLimit value).toOption

/-- The seconds between attempts. -/
def pause : Field Nat where
  sectionName := "retry"
  names := ["max_attempts", "pause_secs"]
  name := "pause_secs"
  variableName := some pauseVariable
  default := RetryPolicy.defaultPause.seconds
  ofNode? := natOfNode? secondsLimit
  ofVariable? value := (Overrides.readNat pauseVariable secondsLimit value).toOption

/-- What a document has for a setting. -/
def node? (field : Field α) (doc : Yaml.Document) : Option Yaml.Node := do
  let sections ← fieldsOfNode? doc ["store", "timeouts", "retry"] doc.root
  let fields ← fieldsOfNode? doc field.names (← sections.lookup field.sectionName)
  fields.lookup field.name

/-- What a text has for a setting. -/
def written? (field : Field α) (text : String) : Option Yaml.Node :=
  if text.toList.all Text.isBlank then none else (Yaml.Document.ofText? text).bind field.node?

/-- The value of a setting from a file, or its default. -/
def ofFile? (field : Field α) (node : Option Yaml.Node) : Option α :=
  match node with
  | some node => field.ofNode? node
  | none => some field.default

/-- The value of a setting from its variable, if that is set, or else the one below it. -/
def over? (field : Field α) (lookup : String → Option String) (below : Option α) : Option α :=
  match field.variableName.bind lookup with
  | some value => field.ofVariable? value
  | none => below

/-- The value of a setting: that of its variable, or else of the file, or else its default.  There
is none if what counts cannot be read. -/
def value? (field : Field α) (sources : Sources) : Option α :=
  field.over? sources.binding? (field.ofFile? (sources.text.bind field.written?))

end Field

namespace Sources

/-- Whether the file of settings, if there is one, can be read. -/
def isReadable (sources : Sources) : Bool :=
  sources.text.all fun text => (ofText? text).isSome

/-- The settings, each settled for itself. -/
def settings? (sources : Sources) : Option Settings :=
  if sources.isReadable then do
    return {
      store := ⟨← Field.storePath.value? sources⟩
      timeouts := ⟨← (Field.timeout "deploy_secs").value? sources,
        ← (Field.timeout "unit_secs").value? sources,
        ← (Field.timeout "upgrade_secs").value? sources⟩
      retry := ⟨← Field.maxAttempts.value? sources, ← Field.pause.value? sources⟩ }
  else none

/-- The settings of the file, or the standard ones. -/
def file? (sources : Sources) : Option Settings :=
  match sources.text with
  | some text => ofText? text
  | none => some standard

end Sources

/-! ## The layer of the file -/

namespace Field

variable {α β : Type} {doc : Yaml.Document} {sections : List (String × Yaml.Node)}

/-- A setting that is read from its section is the one that the document has for it. -/
theorem ofFile?_node? (field : Field α) {ofNode? : Yaml.Node → Option β} {standard result : β}
    (get : β → α)
    (hsections : fieldsOfNode? doc ["store", "timeouts", "retry"] doc.root = some sections)
    (hsection : fieldOr sections field.sectionName standard ofNode? = some result)
    (hnode : ∀ node, ofNode? node = some result →
      ∃ fields, fieldsOfNode? doc field.names node = some fields ∧
        fieldOr fields field.name field.default field.ofNode? = some (get result))
    (hstandard : get standard = field.default) :
    field.ofFile? (field.node? doc) = some (get result) := by
  have hdocument : field.node? doc = (sections.lookup field.sectionName).bind fun node =>
      (fieldsOfNode? doc field.names node).bind fun fields => fields.lookup field.name := by
    unfold node?
    rw [hsections]
    rfl
  rw [hdocument]
  unfold fieldOr at hsection
  cases hlookup : sections.lookup field.sectionName with
  | none =>
    rw [hlookup] at hsection
    cases hsection
    exact congrArg some hstandard.symm
  | some node =>
    rw [hlookup] at hsection
    obtain ⟨fields, hfields, hvalue⟩ := hnode node hsection
    rw [Option.bind_some, hfields, Option.bind_some]
    unfold fieldOr at hvalue
    cases hfield : fields.lookup field.name with
    | none =>
      rw [hfield] at hvalue
      exact hvalue
    | some node =>
      rw [hfield] at hvalue
      exact hvalue

end Field

/-- The settings of a file, one by one. -/
structure Written (node? : ∀ {α : Type}, Field α → Option Yaml.Node) (settings : Settings) :
    Prop where
  storePath : Field.storePath.ofFile? (node? Field.storePath) = some settings.store.path
  deploy : (Field.timeout "deploy_secs").ofFile? (node? (Field.timeout "deploy_secs")) =
    some settings.timeouts.deploy
  unit : (Field.timeout "unit_secs").ofFile? (node? (Field.timeout "unit_secs")) =
    some settings.timeouts.unit
  upgrade : (Field.timeout "upgrade_secs").ofFile? (node? (Field.timeout "upgrade_secs")) =
    some settings.timeouts.upgrade
  maxAttempts : Field.maxAttempts.ofFile? (node? Field.maxAttempts) =
    some settings.retry.maxAttempts
  pause : Field.pause.ofFile? (node? Field.pause) = some settings.retry.pause

theorem written_standard : Written (fun _ => none) standard :=
  ⟨rfl, rfl, rfl, rfl, rfl, rfl⟩

theorem exists_fields_of_timeouts {doc : Yaml.Document} {node : Yaml.Node} {timeouts : Timeouts}
    (h : Timeouts.ofNode? doc node = some timeouts) :
    ∃ fields, fieldsOfNode? doc ["deploy_secs", "unit_secs", "upgrade_secs"] node = some fields ∧
      fieldOr fields "deploy_secs" defaultTimeout (natOfNode? secondsLimit) =
        some timeouts.deploy ∧
      fieldOr fields "unit_secs" defaultTimeout (natOfNode? secondsLimit) = some timeouts.unit ∧
      fieldOr fields "upgrade_secs" defaultTimeout (natOfNode? secondsLimit) =
        some timeouts.upgrade := by
  obtain ⟨fields, hfields, h⟩ := Option.bind_eq_some_iff.1 h
  obtain ⟨deploy, hdeploy, h⟩ := Option.bind_eq_some_iff.1 h
  obtain ⟨unit, hunit, h⟩ := Option.bind_eq_some_iff.1 h
  obtain ⟨upgrade, hupgrade, h⟩ := Option.bind_eq_some_iff.1 h
  cases h
  exact ⟨fields, hfields, hdeploy, hunit, hupgrade⟩

theorem exists_fields_of_retry {doc : Yaml.Document} {node : Yaml.Node} {retry : Retry}
    (h : Retry.ofNode? doc node = some retry) :
    ∃ fields, fieldsOfNode? doc ["max_attempts", "pause_secs"] node = some fields ∧
      fieldOr fields "max_attempts" RetryPolicy.defaultMaxAttempts (natOfNode? attemptsLimit) =
        some retry.maxAttempts ∧
      fieldOr fields "pause_secs" RetryPolicy.defaultPause.seconds (natOfNode? secondsLimit) =
        some retry.pause := by
  obtain ⟨fields, hfields, h⟩ := Option.bind_eq_some_iff.1 h
  obtain ⟨maxAttempts, hmaxAttempts, h⟩ := Option.bind_eq_some_iff.1 h
  obtain ⟨pause, hpause, h⟩ := Option.bind_eq_some_iff.1 h
  cases h
  exact ⟨fields, hfields, hmaxAttempts, hpause⟩

theorem written_of_ofDocument? {doc : Yaml.Document} {settings : Settings}
    (h : ofDocument? doc = some settings) : Written (fun field => field.node? doc) settings := by
  obtain ⟨sections, hsections, h⟩ := Option.bind_eq_some_iff.1 h
  obtain ⟨store, hstore, h⟩ := Option.bind_eq_some_iff.1 h
  obtain ⟨timeouts, htimeouts, h⟩ := Option.bind_eq_some_iff.1 h
  obtain ⟨retry, hretry, h⟩ := Option.bind_eq_some_iff.1 h
  cases h
  constructor
  case storePath =>
    refine Field.storePath.ofFile?_node? Store.path hsections hstore (fun node hnode => ?_) rfl
    obtain ⟨fields, hfields, hnode⟩ := Option.bind_eq_some_iff.1 hnode
    obtain ⟨path, hpath, hnode⟩ := Option.bind_eq_some_iff.1 hnode
    cases hnode
    exact ⟨fields, hfields, hpath⟩
  case deploy =>
    refine (Field.timeout _).ofFile?_node? Timeouts.deploy hsections htimeouts
      (fun node hnode => ?_) rfl
    obtain ⟨fields, hfields, hdeploy, -, -⟩ := exists_fields_of_timeouts hnode
    exact ⟨fields, hfields, hdeploy⟩
  case unit =>
    refine (Field.timeout _).ofFile?_node? Timeouts.unit hsections htimeouts
      (fun node hnode => ?_) rfl
    obtain ⟨fields, hfields, -, hunit, -⟩ := exists_fields_of_timeouts hnode
    exact ⟨fields, hfields, hunit⟩
  case upgrade =>
    refine (Field.timeout _).ofFile?_node? Timeouts.upgrade hsections htimeouts
      (fun node hnode => ?_) rfl
    obtain ⟨fields, hfields, -, -, hupgrade⟩ := exists_fields_of_timeouts hnode
    exact ⟨fields, hfields, hupgrade⟩
  case maxAttempts =>
    refine Field.maxAttempts.ofFile?_node? Retry.maxAttempts hsections hretry
      (fun node hnode => ?_) rfl
    obtain ⟨fields, hfields, hmaxAttempts, -⟩ := exists_fields_of_retry hnode
    exact ⟨fields, hfields, hmaxAttempts⟩
  case pause =>
    refine Field.pause.ofFile?_node? Retry.pause hsections hretry (fun node hnode => ?_) rfl
    obtain ⟨fields, hfields, -, hpause⟩ := exists_fields_of_retry hnode
    exact ⟨fields, hfields, hpause⟩

theorem written_of_ofText? {text : String} {settings : Settings}
    (h : ofText? text = some settings) : Written (fun field => field.written? text) settings := by
  unfold ofText? at h
  unfold Field.written?
  by_cases hblank : text.toList.all Text.isBlank
  · rw [if_pos hblank] at h
    cases h
    simp only [if_pos hblank]
    exact written_standard
  · rw [if_neg hblank] at h
    obtain ⟨doc, hdoc, h⟩ := Option.bind_eq_some_iff.1 h
    simp only [if_neg hblank, hdoc, Option.bind_some]
    exact written_of_ofDocument? h

/-- The settings of a file are what is written there, or else the defaults. -/
theorem Sources.written {sources : Sources} {file : Settings} (h : sources.file? = some file) :
    Written (fun field => sources.text.bind field.written?) file := by
  unfold file? at h
  cases htext : sources.text with
  | none =>
    rw [htext] at h
    cases h
    exact written_standard
  | some text =>
    rw [htext] at h
    exact written_of_ofText? h

theorem Sources.isReadable_eq (sources : Sources) :
    sources.isReadable = sources.file?.isSome := by
  unfold isReadable file?
  cases sources.text <;> rfl

/-! ## The layer of the variables -/

/-- The settings that taking variables has ended with, if it has not failed. -/
def taken? : Settings × Except Error Unit → Option Settings
  | (settings, .ok _) => some settings
  | (_, .error _) => none

theorem taken?_apply_eq (overrides : Overrides) (settings : Settings) :
    taken? (overrides.apply settings) =
      (overrides.takeMaxAttempts (overrides.takeStorePath settings)).toOption.bind fun settings =>
        (overrides.takePause settings).toOption := by
  unfold Overrides.apply
  cases hmaxAttempts : overrides.takeMaxAttempts (overrides.takeStorePath settings) with
  | error e =>
    simp only [hmaxAttempts]
    rfl
  | ok taken =>
    show taken? _ = (overrides.takePause taken).toOption
    cases hpause : overrides.takePause taken with
    | error e =>
      simp only [hmaxAttempts, hpause]
      rfl
    | ok taken' =>
      simp only [hmaxAttempts, hpause]
      rfl

/-- Taking a number changes nothing where its variable is not set. -/
theorem toOption_takeNat (value : Option String) {name : String} {limit n : Nat}
    {set : Nat → Settings} {settings : Settings} (hset : set n = settings) :
    (match value with
      | some value => do return set (← Overrides.readNat name limit value)
      | none => return settings : Except Error Settings).toOption =
    (match value with
      | some value => (Overrides.readNat name limit value).toOption
      | none => some n).map set := by
  cases value with
  | none => exact congrArg some hset.symm
  | some value =>
    show ((Overrides.readNat name limit value).bind _).toOption =
      (Overrides.readNat name limit value).toOption.map set
    cases Overrides.readNat name limit value <;> rfl

section

variable (lookup : String → Option String) (settings : Settings)

theorem exists_takeStorePath_eq : ∃ path,
    Field.storePath.over? lookup (some settings.store.path) = some path ∧
      (Overrides.ofLookup lookup).takeStorePath settings = { settings with store := ⟨path⟩ } := by
  have hvariable : Field.storePath.variableName.bind lookup = lookup storePathVariable := rfl
  have htaken : (Overrides.ofLookup lookup).storePath = lookup storePathVariable := rfl
  unfold Overrides.takeStorePath Field.over?
  rw [hvariable, htaken]
  cases lookup storePathVariable with
  | none => exact ⟨settings.store.path, rfl, rfl⟩
  | some path => exact ⟨some path, rfl, rfl⟩

theorem toOption_takeMaxAttempts :
    ((Overrides.ofLookup lookup).takeMaxAttempts settings).toOption =
      (Field.maxAttempts.over? lookup (some settings.retry.maxAttempts)).map fun n =>
        { settings with retry := { settings.retry with maxAttempts := n } } :=
  toOption_takeNat (lookup maxAttemptsVariable) rfl

theorem toOption_takePause :
    ((Overrides.ofLookup lookup).takePause settings).toOption =
      (Field.pause.over? lookup (some settings.retry.pause)).map fun n =>
        { settings with retry := { settings.retry with pause := n } } :=
  toOption_takeNat (lookup pauseVariable) rfl

/-- Taking variables one after another settles each setting for itself. -/
theorem taken?_apply : taken? ((Overrides.ofLookup lookup).apply settings) = do
    let path ← Field.storePath.over? lookup (some settings.store.path)
    let maxAttempts ← Field.maxAttempts.over? lookup (some settings.retry.maxAttempts)
    let pause ← Field.pause.over? lookup (some settings.retry.pause)
    return ⟨⟨path⟩, settings.timeouts, ⟨maxAttempts, pause⟩⟩ := by
  obtain ⟨path, hpath, htake⟩ := exists_takeStorePath_eq lookup settings
  rw [taken?_apply_eq, htake, hpath, toOption_takeMaxAttempts]
  show _ = (Field.maxAttempts.over? lookup (some settings.retry.maxAttempts)).bind _
  cases Field.maxAttempts.over? lookup (some settings.retry.maxAttempts) with
  | none => rfl
  | some maxAttempts =>
    show (Overrides.takePause _ _).toOption = _
    rw [toOption_takePause]
    show _ = (Field.pause.over? lookup (some settings.retry.pause)).bind _
    cases Field.pause.over? lookup (some settings.retry.pause) <;> rfl

end

theorem Sources.settings?_eq {sources : Sources} {file : Settings}
    (h : sources.file? = some file) :
    sources.settings? = taken? ((Overrides.ofLookup sources.binding?).apply file) := by
  have hwritten := Sources.written h
  have hreadable : sources.isReadable = true := by
    rw [isReadable_eq, h]
    rfl
  unfold settings? Field.value?
  rw [if_pos hreadable, hwritten.storePath, hwritten.deploy, hwritten.unit, hwritten.upgrade,
    hwritten.maxAttempts, hwritten.pause, taken?_apply]
  rfl

theorem Sources.settings?_eq_none {sources : Sources} (h : sources.file? = none) :
    sources.settings? = none := by
  unfold settings?
  rw [isReadable_eq, h]
  rfl

end Converge.Settings
