import Converge.Proofs.LoadedSettings
/-!
# Commands under settings

Settings are accepted if they can be loaded and are valid.  A command that needs the store is
carried out on the file that they name, or else refused before any store is opened; validation shows
the same settings, if a file is in use.  Where the environment file has a value that the system does
not take, the program comes to an end instead, without an exit code of its own.  Main statement:
`run_settled`.
-/

namespace Converge

open Simulation (Host WatchedHost Asks Does Ends Access)
open Simulation.WatchedHost (disk environment)
open Settings (Sources)

/-! ## Rules -/

namespace Settings

/-- Every rule is kept. -/
structure IsValid (settings : Settings) : Prop where
  storePath : settings.store.path ≠ some ""
  deploy : settings.timeouts.deploy ≠ 0
  unit : settings.timeouts.unit ≠ 0
  upgrade : settings.timeouts.upgrade ≠ 0
  maxAttempts : 1 ≤ settings.retry.maxAttempts

theorem unlessHolds_eq_nil_iff {condition : Bool} {field message : String} :
    unlessHolds condition field message = [] ↔ condition = true := by
  unfold unlessHolds
  cases condition <;> simp

theorem errors_validate_eq_nil_iff {settings : Settings} :
    settings.validate.errors = [] ↔ settings.IsValid := by
  simp only [validate, validateTimeout, List.append_eq_nil_iff, unlessHolds_eq_nil_iff,
    decide_eq_true_eq]
  constructor
  · rintro ⟨⟨⟨⟨hpath, hdeploy⟩, hunit⟩, hupgrade⟩, hattempts⟩
    exact ⟨hpath, hdeploy, hunit, hupgrade, Nat.one_le_iff_ne_zero.2 hattempts⟩
  · rintro ⟨hpath, hdeploy, hunit, hupgrade, hattempts⟩
    exact ⟨⟨⟨⟨hpath, hdeploy⟩, hunit⟩, hupgrade⟩, Nat.one_le_iff_ne_zero.1 hattempts⟩

/-- Validation passes settings that keep every rule, and no others. -/
theorem check_cases (settings : Settings) :
    settings.IsValid ∧ settings.check = .ok settings.validate ∨
      ¬ settings.IsValid ∧ ∃ e, settings.check = .error e := by
  cases herrors : settings.validate.errors with
  | nil =>
    refine .inl ⟨errors_validate_eq_nil_iff.1 herrors, ?_⟩
    simp only [check, herrors]
  | cons first rest =>
    refine .inr ⟨fun h => ?_, .configInvalid first.message (some first.field), ?_⟩
    · rw [errors_validate_eq_nil_iff.2 h] at herrors
      cases herrors
    · simp only [check, herrors]

end Settings

namespace Command

variable {α : Type} {host : Host} {config : Option String}

/-! ## Settings that are accepted -/

/-- Valid settings come of what a host has. -/
structure Accepts (host : Host) (config : Option String) (sources : Sources)
    (settings : Settings) : Prop where
  taken : ¬ Halts host config
  sources_eq : sources? host config = some sources
  settings_eq : sources.settings? = some settings
  valid : settings.IsValid

theorem Accepts.unique {sources sources' : Sources} {settings settings' : Settings}
    (h : Accepts host config sources settings) (h' : Accepts host config sources' settings') :
    sources' = sources ∧ settings' = settings := by
  obtain rfl : sources' = sources := Option.some.inj (h'.sources_eq.symm.trans h.sources_eq)
  exact ⟨rfl, Option.some.inj (h'.settings_eq.symm.trans h.settings_eq)⟩

theorem not_accepts_of_missing (h : host.tree.isPresent path = false) (sources : Sources)
    (settings : Settings) : ¬ Accepts host (some path) sources settings := by
  intro haccepts
  have hsources : sourcesAt? host path = some sources := haccepts.sources_eq
  obtain ⟨dotEnv, -, hsources⟩ := Option.bind_eq_some_iff.1 hsources
  obtain ⟨text, htext, -⟩ := Option.bind_eq_some_iff.1 hsources
  rw [Settings.isPresent_of_textAt? htext] at h
  cases h

/-- An action ends in an error, with every file as it was, and has only looked for settings. -/
def Refuses (config : Option String) (action : ExceptT Error WatchedHost.Action α)
    (host : Host) : Prop :=
  ∃ e host', host'.tree = host.tree ∧
    Asks (· ∈ settingsPaths config) action.run host (.error e) host'

/-- Settings that have been loaded are used if they are valid, and else refused. -/
theorem Loads.check_cases {load : ExceptT Error WatchedHost.Action Settings}
    (htaken : ¬ Halts host config) (hload : Loads config load host (sources? host config))
    (next : Settings → Settings.Validation → ExceptT Error WatchedHost.Action α) :
    (∃ sources settings host', Accepts host config sources settings ∧
      Prepared host sources host' ∧ ∀ result host'',
        Asks (· ∈ settingsPaths config) (next settings settings.validate).run host' result host'' →
        Asks (· ∈ settingsPaths config) (do
          let settings ← load
          let found ← MonadExcept.ofExcept settings.check
          next settings found : ExceptT Error WatchedHost.Action α).run host result host'') ∨
    (∀ sources settings, ¬ Accepts host config sources settings) ∧ Refuses config (do
      let settings ← load
      let found ← MonadExcept.ofExcept settings.check
      next settings found : ExceptT Error WatchedHost.Action α) host := by
  obtain ⟨result, host', hresult, htree, hfound, hasks⟩ := hload
  cases result with
  | error e =>
    refine .inr ⟨fun sources settings haccepts => ?_, e, host', htree, Asks.bind_error hasks⟩
    rw [haccepts.sources_eq, Option.bind_some, haccepts.settings_eq] at hresult
    cases hresult
  | ok settings =>
    obtain ⟨sources, hsources, hsettings⟩ := Option.bind_eq_some_iff.1 hresult.symm
    rcases settings.check_cases with ⟨hvalid, hcheck⟩ | ⟨hvalid, e, hcheck⟩
    · have hchecked : Asks (· ∈ settingsPaths config) (MonadExcept.ofExcept settings.check :
          ExceptT Error WatchedHost.Action Settings.Validation).run host' (.ok settings.validate)
            host' := hcheck ▸ Asks.ofExcept settings.check
      exact .inl ⟨sources, settings, host', ⟨htaken, hsources, hsettings, hvalid⟩,
        hfound sources hsources, fun _ _ hnext =>
          Asks.bind_ok hasks (Asks.bind_ok hchecked hnext)⟩
    · have hchecked : Asks (· ∈ settingsPaths config) (MonadExcept.ofExcept settings.check :
          ExceptT Error WatchedHost.Action Settings.Validation).run host' (.error e) host' :=
        hcheck ▸ Asks.ofExcept settings.check
      refine .inr ⟨fun sources' settings' haccepts => hvalid ?_, e, host', htree,
        Asks.bind_ok hasks (Asks.bind_error hchecked)⟩
      obtain rfl : sources' = sources :=
        Option.some.inj (haccepts.sources_eq.symm.trans hsources)
      obtain rfl : settings' = settings :=
        Option.some.inj (haccepts.settings_eq.symm.trans hsettings)
      exact haccepts.valid

/-- Where the store is under settings that come of some sources.  The directories of data and of the
account may be paths that are no text. -/
def storePathUnder (host : Host) (sources : Sources) (settings : Settings) : String :=
  settings.store.resolvedPath (Settings.dataDirectory
    ((sources.binding? "XDG_DATA_HOME").or (host.path? "XDG_DATA_HOME"))
    ((sources.binding? "HOME").or (host.path? "HOME")) host.accountHome)

/-- How answers are shown where the variables are those of some sources. -/
def styleUnder (sources : Sources) (isTerminal : Bool) (format : OutputFormat) : OutputStyle :=
  ⟨format, Terminal.ColourWishes.grant ⟨sources.binding? "CLICOLOR_FORCE",
    sources.binding? "NO_COLOR", sources.binding? "CLICOLOR"⟩ isTerminal⟩

section

variable {allowed : String → Prop} {sources : Sources} {host' : Host}

theorem Prepared.asks_storePath (h : Prepared host sources host') (settings : Settings) :
    Asks allowed (storePath environment settings) host' (storePathUnder host sources settings)
      host' := by
  unfold storePathUnder
  rw [← h.paths, ← h.paths, ← h.accountHome]
  exact Asks.bind (Asks.bind (Asks.path? _) (Asks.bind (Asks.path? _)
    (Asks.bind Asks.accountHome (Asks.pure _)))) (Asks.pure _)

theorem Prepared.asks_outputStyle (h : Prepared host sources host') (isTerminal : Bool)
    (format : OutputFormat) : Asks allowed (outputStyle environment isTerminal format) host'
      (styleUnder sources isTerminal format) host' := by
  unfold styleUnder
  rw [← h.texts]
  exact Asks.bind (Asks.find? _) (Asks.bind (Asks.find? _)
    (Asks.bind (Asks.find? _) (Asks.pure _)))

end

/-- The store is opened under settings that are accepted, and else it is not. -/
theorem openStore_cases (htaken : ¬ Halts host config) :
    (∃ sources settings host', Accepts host config sources settings ∧
      Prepared host sources host' ∧
      Asks (· ∈ settingsPaths config) (openStore disk environment config).run host
        (.ok ⟨storePathUnder host sources settings⟩) host') ∨
    (∀ sources settings, ¬ Accepts host config sources settings) ∧
      Refuses config (openStore disk environment config) host := by
  rcases (loads_settingsFor htaken).check_cases htaken fun settings _ => do
      return Membership.FileStore.mk
        (← (storePath environment settings : WatchedHost.Action String))
    with ⟨sources, settings, host', haccepts, hprepared, hnext⟩ | hrefuses
  · refine .inl ⟨sources, settings, host', haccepts, hprepared, hnext _ _ ?_⟩
    exact Asks.lift_bind (hprepared.asks_storePath settings) (Asks.pure _)
  · exact .inr hrefuses

theorem endsIn_openStore (h : Halts host config) :
    EndsIn config (openStore disk environment config).run host := by
  obtain ⟨host', htree, hends⟩ := endsIn_settingsFor h
  exact ⟨host', htree, hends.bind_run⟩

/-! ## Validation -/

theorem asks_settingsPath {candidate : String} (h : fileInUse? host config = some candidate) :
    Asks (· ∈ settingsPaths config) (settingsPath disk config).run host (.ok candidate) host := by
  cases config with
  | some path =>
    cases h
    exact Asks.pure _
  | none =>
    refine Asks.lift_bind (asks_nearestFile? h) ?_
    exact Asks.pure _

theorem refuses_settingsPath (h : fileInUse? host config = none) :
    Refuses config (settingsPath disk config) host := by
  cases config with
  | some path => cases h
  | none =>
    refine ⟨.configNotFound (Path.join "." Settings.preferredName), host, rfl,
      Asks.lift_bind (asks_nearestFile? h) ?_⟩
    exact Asks.throw _

/-- Settings that are accepted are shown if a file is in use. -/
theorem validate_cases (htaken : ¬ Halts host config) (isTerminal : Bool) (format : OutputFormat)
    (warnings : Bool) :
    (∃ sources settings host', (fileInUse? host config).isSome ∧
      Accepts host config sources settings ∧ Prepared host sources host' ∧
      Asks (· ∈ settingsPaths config) (validate disk environment config
        (outputStyle environment isTerminal format) warnings).run host
        (.ok (shown ((styleUnder sources isTerminal format).validation settings.validate settings
          (storePathUnder host sources settings) warnings))) host') ∨
    (∀ sources settings, (fileInUse? host config).isSome → ¬ Accepts host config sources settings) ∧
      Refuses config (validate disk environment config
        (outputStyle environment isTerminal format) warnings) host := by
  cases hfile : fileInUse? host config with
  | none =>
    obtain ⟨e, host', htree, hasks⟩ := refuses_settingsPath hfile
    exact .inr ⟨nofun, e, host', htree, Asks.bind_error hasks⟩
  | some path =>
    obtain ⟨hpath, hdotEnv⟩ := mem_settingsPaths hfile
    have hsources : sources? host config = sourcesAt? host path := by
      unfold sources?
      rw [hfile]
    have hload : Loads config (loadSettings disk environment path) host (sources? host config) :=
      hsources ▸ loads_loadSettings hpath hdotEnv fun hrefused => htaken ⟨path, hfile, hrefused⟩
    rcases hload.check_cases htaken fun settings found => do
        let path ← (storePath environment settings : WatchedHost.Action String)
        return shown ((← (outputStyle environment isTerminal format :
          WatchedHost.Action OutputStyle)).validation found settings path warnings)
      with ⟨sources, settings, host', haccepts, hprepared, hnext⟩ |
        ⟨haccepts, e, host', htree, hasks⟩
    · refine .inl ⟨sources, settings, host', rfl, haccepts, hprepared,
        Asks.bind_ok (asks_settingsPath hfile) (hnext _ _ ?_)⟩
      exact Asks.lift_bind (hprepared.asks_storePath settings)
        (Asks.lift_bind (hprepared.asks_outputStyle isTerminal format) (Asks.pure _))
    · exact .inr ⟨fun sources settings _ => haccepts sources settings, e, host', htree,
        Asks.bind_ok (asks_settingsPath hfile) hasks⟩

theorem endsIn_validate (h : Halts host config) (style : WatchedHost.Action OutputStyle)
    (warnings : Bool) :
    EndsIn config (validate disk environment config style warnings).run host := by
  obtain ⟨path, hfile, hrefused⟩ := h
  obtain ⟨host', htree, hends⟩ := endsIn_loadSettings hfile hrefused
  exact ⟨host', htree, Asks.bind_ok (asks_settingsPath hfile) hends.bind_run⟩

/-! ## Runs -/

section

variable {m : Type → Type} [Monad m]

/-- What is left behind for what an action gives. -/
def answer (action : ExceptT Error m Response) : m Response := do
  match ← action.run with
  | .ok response => return response
  | .error e => return failed e

/-- What a request asks of the store, if it asks anything of it. -/
def serve? (disk : Disk m) (style : m OutputStyle) :
    Request → Option (Membership.FileStore → ExceptT Error m Response)
  | .listNodes => some fun store => do
    let nodes ← (store.toStore disk).nodes
    return shown ((← (style : m OutputStyle)).nodes nodes)
  | .addNode node => some fun store => do
    store.addNode disk node
    return noted "Node added."
  | .removeNode name => some fun store => do
    store.removeNode disk name
    return noted "Node removed."
  | .plugins names => some fun store => do
    let plugins ← pluginStates (store.toStore disk) names
    return shown ((← (style : m OutputStyle)).plugins plugins)
  | _ => none

/-- A request that asks something of the store opens it first. -/
theorem perform_eq {disk : Disk m} {environment : Environment m} {config : Option String}
    {style : m OutputStyle} {request : Request}
    {serve : Membership.FileStore → ExceptT Error m Response}
    (h : serve? disk style request = some serve) :
    perform disk environment config style request =
      openStore disk environment config >>= serve := by
  cases request with
  | listNodes | addNode | removeNode | plugins =>
    cases h
    rfl
  | validate | channel | charm => cases h

end

section

variable {allowed : String → Prop} {host' : Host}

theorem asks_answer_ok {action : ExceptT Error WatchedHost.Action Response}
    {response : Response} (h : Asks allowed action.run host (.ok response) host') :
    Asks allowed (answer action) host response host' :=
  Asks.bind h (Asks.pure _)

theorem asks_answer_error {action : ExceptT Error WatchedHost.Action Response} {e : Error}
    (h : Asks allowed action.run host (.error e) host') :
    Asks allowed (answer action) host (failed e) host' :=
  Asks.bind h (Asks.pure _)

/-- An action after one that only looks for something runs on what that has left behind. -/
theorem run_answer_bind {action : ExceptT Error WatchedHost.Action α} {a : α}
    (h : Asks allowed action.run host (.ok a) host')
    (next : α → ExceptT Error WatchedHost.Action Response) (log : List Access) :
    ∃ looked : List String, (∀ path ∈ looked, allowed path) ∧
      (answer (action >>= next)).run.run (host, log) =
        (answer (next a)).run.run (host', log ++ looked.map .look) := by
  have hanswer : answer (action >>= next) =
      action.run >>= fun result => answer (ExceptT.mk (Pure.pure result) >>= next) := by
    unfold answer
    rw [ExceptT.run_bind, bind_assoc]
    rfl
  rw [hanswer]
  exact h.run_bind _ log

end

/-- A command line that is understood is followed. -/
theorem run_eq {isTerminal : Bool} {words : List String} {line : Line}
    (h : Line.parse (host.path? "FLEET_CONFIG") words = .ok line) (log : List Access) :
    (run disk environment isTerminal words).run.run (host, log) =
      (answer (perform disk environment line.config (outputStyle environment isTerminal line.output)
        line.request)).run.run (host, log) := by
  have hfind : (environment.path? "FLEET_CONFIG").run.run (host, log) =
      (some (host.path? "FLEET_CONFIG"), (host, log)) := by
    show (_, (_, log ++ [])) = _
    rw [List.append_nil]
    rfl
  have hbind (next : Option String → WatchedHost.Action Response) :
      (environment.path? "FLEET_CONFIG" >>= next).run.run (host, log) =
        (next (host.path? "FLEET_CONFIG")).run.run (host, log) := by
    rw [OptionT.run_bind, Option.elimM, StateT.run_bind, hfind]
    rfl
  unfold run
  rw [hbind]
  simp only [h]
  rfl

/-- A run is refused: it exits with code 1, leaves every file as it was, and has only looked for
settings. -/
def RefusesRun (isTerminal : Bool) (words : List String) (config : Option String) (host : Host) :
    Prop :=
  ∃ response host', response.code = 1 ∧ host'.tree = host.tree ∧
    Asks (· ∈ settingsPaths config) (run disk environment isTerminal words) host response host'

/-- Whether a request needs settings. -/
def Request.needsSettings : Request → Bool
  | .validate _ | .listNodes | .addNode _ | .removeNode _ | .plugins _ => true
  | .channel _ _ | .charm _ => false

/-- What the settings that a host has make of a command line. -/
structure Settled (isTerminal : Bool) (words : List String) (line : Line) (host : Host) :
    Prop where
  /-- Under settings that are accepted a request to the store is carried out on the file that they
  name. -/
  serves : ∀ serve sources settings,
    serve? disk (outputStyle environment isTerminal line.output) line.request = some serve →
    Accepts host line.config sources settings → ∃ host', Prepared host sources host' ∧
      ∀ log, ∃ looked : List String, (∀ path ∈ looked, path ∈ settingsPaths line.config) ∧
        (run disk environment isTerminal words).run.run (host, log) =
          (answer (serve ⟨storePathUnder host sources settings⟩)).run.run
            (host', log ++ looked.map .look)
  /-- Under settings that are not accepted no store is opened. -/
  refuses : (serve? disk (outputStyle environment isTerminal line.output) line.request).isSome →
    ¬ Halts host line.config → (∀ sources settings, ¬ Accepts host line.config sources settings) →
    RefusesRun isTerminal words line.config host
  /-- Validation shows the settings that are accepted. -/
  validates : ∀ warnings sources settings, line.request = .validate warnings →
    (fileInUse? host line.config).isSome → Accepts host line.config sources settings →
    ∃ host', Prepared host sources host' ∧
      Asks (· ∈ settingsPaths line.config) (run disk environment isTerminal words) host
        (shown ((styleUnder sources isTerminal line.output).validation settings.validate settings
          (storePathUnder host sources settings) warnings)) host'
  /-- Validation fails without a file in use, and where settings are not accepted. -/
  rejects : ∀ warnings, line.request = .validate warnings → ¬ Halts host line.config →
    (∀ sources settings, (fileInUse? host line.config).isSome →
      ¬ Accepts host line.config sources settings) →
    RefusesRun isTerminal words line.config host
  /-- A value that the system does not take is the end of the program before it has settings, with
  every file as it was. -/
  halts : line.request.needsSettings = true → Halts host line.config →
    EndsIn line.config (run disk environment isTerminal words) host
  /-- Validation succeeds just if a file is in use with which the store is opened. -/
  agrees : ∀ warnings, line.request = .validate warnings → ∀ log,
    (((run disk environment isTerminal words).run.run (host, log)).1.map Response.code = some 0 ↔
      (fileInUse? host line.config).isSome ∧
        ∃ store, ((openStore disk environment line.config).run.run.run (host, log)).1 =
          some (.ok store))
  /-- A file that is named and not there is never passed over. -/
  missing : ∀ path, line.config = some path → host.tree.isPresent path = false →
    ∀ sources settings, ¬ Accepts host line.config sources settings
  /-- The environment file that counts is the one in the directory of the file in use. -/
  beside : ∀ path place content, fileInUse? host line.config = some path →
    host.tree.Rooted → host.tree.locate path = .ok place →
    host.tree.stored? place = some (.file content) →
    (dotEnvPath path).utf8ByteSize ≤ FileTree.maxPathSize →
    host.tree.locate (dotEnvPath path) = .ok (place.dropLast ++ [".env"])

section

variable {isTerminal : Bool} {words : List String} {line : Line}

theorem does_run {allowed : String → Prop} {result : Option Response} {host' : Host}
    (hline : Line.parse (host.path? "FLEET_CONFIG") words = .ok line)
    (h : Does allowed (answer (perform disk environment line.config
      (outputStyle environment isTerminal line.output) line.request)) host result host') :
    Does allowed (run disk environment isTerminal words) host result host' := fun log => by
  rw [run_eq hline log]
  exact h log

theorem refusesRun_of_refuses
    (hline : Line.parse (host.path? "FLEET_CONFIG") words = .ok line)
    (h : Refuses line.config (perform disk environment line.config
      (outputStyle environment isTerminal line.output) line.request) host) :
    RefusesRun isTerminal words line.config host := by
  obtain ⟨e, host', htree, hasks⟩ := h
  exact ⟨failed e, host', rfl, htree, does_run hline (asks_answer_error hasks)⟩

theorem RefusesRun.code_eq (h : RefusesRun isTerminal words config host) (log : List Access) :
    ((run disk environment isTerminal words).run.run (host, log)).1.map Response.code = some 1 := by
  obtain ⟨response, host', hcode, -, hasks⟩ := h
  obtain ⟨looked, -, hrun⟩ := hasks log
  rw [hrun]
  exact congrArg some hcode

/-- Every request that needs settings comes to an end in loading them. -/
theorem endsIn_run (hline : Line.parse (host.path? "FLEET_CONFIG") words = .ok line)
    (hrequest : line.request.needsSettings = true) (h : Halts host line.config) :
    EndsIn line.config (run disk environment isTerminal words) host := by
  obtain ⟨host', htree, hends⟩ : EndsIn line.config (perform disk environment line.config
      (outputStyle environment isTerminal line.output) line.request).run host := by
    cases hcases : line.request with
    | validate warnings => exact endsIn_validate h _ warnings
    | listNodes | addNode | removeNode | plugins =>
      obtain ⟨host', htree, hends⟩ := endsIn_openStore h
      exact ⟨host', htree, hends.bind_run⟩
    | channel | charm =>
      rw [hcases] at hrequest
      cases hrequest
  exact ⟨host', htree, does_run hline hends.bind⟩

/-- A store is opened just under settings that are accepted. -/
theorem exists_openStore_iff (host : Host) (config : Option String) (log : List Access) :
    (∃ store, ((openStore disk environment config).run.run.run (host, log)).1 = some (.ok store)) ↔
      ∃ sources settings, Accepts host config sources settings := by
  by_cases hhalts : Halts host config
  · obtain ⟨host', -, hends⟩ := endsIn_openStore hhalts
    obtain ⟨looked, -, hrun⟩ := hends log
    refine iff_of_false ?_ fun ⟨sources, settings, haccepts⟩ => haccepts.taken hhalts
    rintro ⟨store, hstore⟩
    rw [hrun] at hstore
    cases hstore
  · rcases openStore_cases hhalts with
      ⟨sources, settings, host', haccepts, -, hasks⟩ | ⟨hnone, e, host', -, hasks⟩
    · obtain ⟨looked, -, hrun⟩ := hasks log
      exact iff_of_true ⟨_, congrArg Prod.fst hrun⟩ ⟨sources, settings, haccepts⟩
    · obtain ⟨looked, -, hrun⟩ := hasks log
      refine iff_of_false ?_ fun ⟨sources, settings, haccepts⟩ => hnone sources settings haccepts
      rintro ⟨store, hstore⟩
      rw [hrun] at hstore
      cases hstore

/-- A run that validates shows the settings that are accepted, or is refused. -/
theorem run_validate_cases {warnings : Bool} (htaken : ¬ Halts host line.config)
    (hline : Line.parse (host.path? "FLEET_CONFIG") words = .ok line)
    (hrequest : line.request = .validate warnings) :
    (∃ sources settings host', (fileInUse? host line.config).isSome ∧
      Accepts host line.config sources settings ∧ Prepared host sources host' ∧
      Asks (· ∈ settingsPaths line.config) (run disk environment isTerminal words) host
        (shown ((styleUnder sources isTerminal line.output).validation settings.validate settings
          (storePathUnder host sources settings) warnings)) host') ∨
    (∀ sources settings, (fileInUse? host line.config).isSome →
      ¬ Accepts host line.config sources settings) ∧
        RefusesRun isTerminal words line.config host := by
  rcases validate_cases htaken isTerminal line.output warnings with
    ⟨sources, settings, host', hfile, haccepts, hprepared, hasks⟩ | ⟨hnone, hrefuses⟩
  · refine .inl ⟨sources, settings, host', hfile, haccepts, hprepared, does_run hline ?_⟩
    rw [hrequest]
    exact asks_answer_ok hasks
  · refine .inr ⟨hnone, refusesRun_of_refuses hline ?_⟩
    rw [hrequest]
    exact hrefuses

end

/-- An environment file of one line, with a value of one character. -/
def layeredDotEnv (c : Char) : String :=
  String.ofList ("FLEET_RETRY_PAUSE_SECS=".toList ++ [c])

/-- A host with a variable, a file of settings and an environment file beside it. -/
def layeredHost (c : Char) : Host where
  tree := ⟨[(["fleet.yaml"], .file (.text "retry:\n  max_attempts: 3\n  pause_secs: 5\n")),
    ([".env"], .file (.text (layeredDotEnv c)))], []⟩
  bindings := .ofList [("FLEET_RETRY_MAX_ATTEMPTS", .text "9")]
  accountHome := none

/-- What the settings of that host are taken from. -/
def layeredSources : Sources where
  process := (layeredHost '7').text?
  dotEnv name := List.lookup name [("FLEET_RETRY_PAUSE_SECS", "7")]
  text := some "retry:\n  max_attempts: 3\n  pause_secs: 5\n"

section

variable {c : Char}

theorem parse_layeredDotEnv (h : c = '7' ∨ c = '\x00') : DotEnv.parse (layeredDotEnv c) =
    ([⟨"FLEET_RETRY_PAUSE_SECS", [.char c]⟩], true) := by
  have hlines : DotEnv.logicalLines (layeredDotEnv c).toList =
      ([(layeredDotEnv c).toList], true) := by
    have hphysical : DotEnv.physicalLines (layeredDotEnv c).toList =
        [(layeredDotEnv c).toList] := by
      rcases h with rfl | rfl <;> decide +kernel
    have hhead : ¬ (Text.trimStart ([] ++ (layeredDotEnv c).toList)).head? = some '#' := by
      rcases h with rfl | rfl <;> decide +kernel
    have hscan : DotEnv.scanLine .plain (layeredDotEnv c).toList =
        ((layeredDotEnv c).toList, some .plain) := by
      rcases h with rfl | rfl <;> decide +kernel
    have hend : DotEnv.dropLineEnd ([] ++ (layeredDotEnv c).toList) =
        (layeredDotEnv c).toList := by
      rcases h with rfl | rfl <;> decide +kernel
    rw [DotEnv.logicalLines, hphysical, DotEnv.joinLines, if_neg hhead, hscan]
    simp only [hend, DotEnv.joinLines.joinRest, DotEnv.joinLines]
    rfl
  have hline : DotEnv.Assignment.read (layeredDotEnv c).toList =
      some (some ⟨"FLEET_RETRY_PAUSE_SECS", [.char c]⟩) := by
    have htarget : DotEnv.readTarget (Text.trim (layeredDotEnv c).toList) =
        some ("FLEET_RETRY_PAUSE_SECS".toList, [c]) := by
      rcases h with rfl | rfl <;> decide +kernel
    have hvalue : DotEnv.readValue .plain [c] = some [.char c] := by
      rcases h with rfl | rfl <;> simp [DotEnv.readValue, DotEnv.readValue.emit]
    have hsome : (Text.trim (layeredDotEnv c).toList).isEmpty = false := by
      rcases h with rfl | rfl <;> decide +kernel
    have hhead : (Text.trim (layeredDotEnv c).toList).head? = some 'F' := by
      rcases h with rfl | rfl <;> decide +kernel
    have htrim : Text.trimStart [c] = [c] := by
      rcases h with rfl | rfl <;> decide +kernel
    have hmark : c ≠ '#' := by rcases h with rfl | rfl <;> decide
    simp [DotEnv.Assignment.read, htarget, hsome, hhead, htrim, hvalue, hmark]
  have hmark : (layeredDotEnv c).toList.head? = some 'F' := by
    rcases h with rfl | rfl <;> decide +kernel
  unfold DotEnv.parse
  generalize (layeredDotEnv c).toList = text at *
  split
  · cases hmark
  · simp only [hlines, DotEnv.readLines, hline]
    rfl

theorem fileInUse?_layeredHost : fileInUse? (layeredHost c) none = some "./fleet.yaml" := by
  have hcandidates : Settings.candidates "." =
      "./fleet.yaml" :: (Settings.candidates ".").tail := by decide +kernel
  have hpresent : (layeredHost c).tree.isPresent "./fleet.yaml" = true := rfl
  rw [fileInUse?, hcandidates, List.find?_cons_of_pos hpresent]

theorem dotEnv_layeredHost (h : c = '7' ∨ c = '\x00') :
    DotEnv.fileLines (layeredHost c) (dotEnvPath "./fleet.yaml") =
        [("FLEET_RETRY_PAUSE_SECS", String.ofList [c])] ∧
      DotEnv.isWhole (layeredHost c) (dotEnvPath "./fleet.yaml") = true := by
  have hpath : dotEnvPath "./fleet.yaml" = "./.env" := by decide +kernel
  have hpresent : (layeredHost c).tree.isPresent "./.env" = true := rfl
  have hread : (layeredHost c).tree.read "./.env" = .ok (.text (layeredDotEnv c)) := rfl
  have hparse : DotEnv.assignments (.text (layeredDotEnv c)) = _ := parse_layeredDotEnv h
  rw [hpath, DotEnv.fileLines_of_read hpresent hread, DotEnv.isWhole_of_read hpresent hread, hparse]
  exact ⟨rfl, rfl⟩

end

theorem accepts_layeredHost : Accepts (layeredHost '7') none layeredSources
    ⟨.standard, .standard, ⟨9, 7⟩⟩ where
  taken := by
    rintro ⟨path, hpath, name, value, -, hfound, htakes⟩
    obtain rfl : "./fleet.yaml" = path :=
      Option.some.inj (fileInUse?_layeredHost.symm.trans hpath)
    rw [(dotEnv_layeredHost (.inl rfl)).1, Dict.lookup_cons_ite] at hfound
    split at hfound
    · next hname =>
      obtain rfl : name = "FLEET_RETRY_PAUSE_SECS" := hname
      cases hfound
      exact absurd htakes (by decide +kernel)
    · cases hfound
  sources_eq := by
    obtain ⟨hlines, hwhole⟩ := dotEnv_layeredHost (c := '7') (.inl rfl)
    have hdotEnv : DotEnv.fileSettings? (layeredHost '7') (dotEnvPath "./fleet.yaml") =
        some [("FLEET_RETRY_PAUSE_SECS", "7")] := by
      rw [DotEnv.fileSettings?, if_pos hwhole, hlines]
    have htext : Settings.textAt? (layeredHost '7') "./fleet.yaml" = layeredSources.text := rfl
    unfold sources? sourcesAt?
    rw [fileInUse?_layeredHost]
    simp only [hdotEnv, htext]
    rfl
  settings_eq := by decide +kernel
  valid := ⟨by decide, by decide, by decide, by decide, by decide⟩

end Command

end Converge
