import Converge.Command.Run
import Converge.Proofs.BesidePath
import Converge.Proofs.EffectiveSettings
/-!
# Loading settings on a host

What is loaded on a host are the settings that come of its variables, the file in use and the
environment file beside that, and all that is asked of the disk meanwhile is what is at their paths.
Without a file in use an environment file does not count.  The program comes to an end where the
system does not take what the environment file sets.  Main statements: `loads_settingsFor` and
`endsIn_settingsFor`.
-/

namespace Converge

open Simulation (Host WatchedHost Asks Does Ends Access)
open Simulation.WatchedHost (disk environment)
open Settings (Sources)

namespace Settings

/-! ## Reading -/

variable {allowed : String → Prop} {host : Host} {path : String}

theorem asks_firstPresent {paths : List String} (h : ∀ path ∈ paths, allowed path) :
    Asks allowed (firstPresent disk paths) host (paths.find? host.tree.isPresent) host := by
  induction paths with
  | nil => exact Asks.pure none
  | cons path rest ih =>
    obtain ⟨hpath, hrest⟩ := List.forall_mem_cons.1 h
    refine Asks.bind (Asks.isPresent hpath) ?_
    cases hpresent : host.tree.isPresent path with
    | true =>
      rw [List.find?_cons_of_pos hpresent]
      exact Asks.pure _
    | false =>
      rw [List.find?_cons_of_neg (by rw [hpresent]; decide)]
      exact ih hrest

/-- The text of a file. -/
def textAt? (host : Host) (path : String) : Option String :=
  match host.tree.read path with
  | .ok (.text text) => some text
  | _ => none

theorem textAt?_congr {host' : Host} (h : host'.tree = host.tree) :
    textAt? host' path = textAt? host path := by
  rw [textAt?, h, textAt?]

theorem exists_asks_readText (hallowed : allowed path) : ∃ result : Except DiskError String,
    result.toOption = textAt? host path ∧
      Asks allowed (disk.readText path).run host result host := by
  have hread : Asks allowed (disk.read path).run host (host.tree.read path) host :=
    Asks.read hallowed
  unfold textAt?
  cases hresult : host.tree.read path with
  | error e => exact ⟨.error e, rfl, Asks.bind_error (hresult ▸ hread)⟩
  | ok content =>
    cases content with
    | text text =>
      refine ⟨.ok text, rfl, Asks.bind_ok (hresult ▸ hread) ?_⟩
      exact Asks.pure _
    | binary bytes =>
      refine ⟨.error .notText, rfl, Asks.bind_ok (hresult ▸ hread) ?_⟩
      exact Asks.throw _

theorem isPresent_of_textAt? {text : String} (h : textAt? host path = some text) :
    host.tree.isPresent path = true := by
  unfold textAt? at h
  split at h
  · next found hread =>
    have hcontent : host.tree.content? path = some (.text found) := by
      rw [FileTree.content?, hread]
      rfl
    obtain ⟨place, hlocate, hstored⟩ := FileTree.content?_eq_some_iff.1 hcontent
    rw [FileTree.isPresent, hlocate]
    exact congrArg Option.isSome hstored
  · cases h

theorem toOption_parse (text : String) (source : Option String) :
    (parse text source).toOption = ofText? text := by
  unfold parse
  cases ofText? text <;> rfl

/-- A file is read if it has a text that can be read. -/
theorem exists_asks_loadFile (hallowed : allowed path) : ∃ result : Except Error Settings,
    result.toOption = (textAt? host path).bind ofText? ∧
      Asks allowed (loadFile disk path).run host result host := by
  cases hpresent : host.tree.isPresent path with
  | false =>
    refine ⟨.error (.configNotFound path), ?_, Asks.lift_bind (Asks.isPresent hallowed) ?_⟩
    · cases htext : textAt? host path with
      | none => rfl
      | some text =>
        rw [isPresent_of_textAt? htext] at hpresent
        cases hpresent
    · rw [hpresent]
      exact Asks.throw _
  | true =>
    obtain ⟨result, hresult, htext⟩ : ∃ result : Except DiskError String,
      result.toOption = textAt? host path ∧
        Asks allowed (disk.readText path).run host result host := exists_asks_readText hallowed
    have hload {result : Except Error Settings} (hrest : Asks allowed (do
        let text ← (disk.readText path).adapt fun e =>
          Error.configUnreadable ("Failed to read file: " ++ e.message) (some path)
        MonadExcept.ofExcept (parse text (some path)) :
          ExceptT Error WatchedHost.Action Settings).run host result host) :
        Asks allowed (loadFile disk path).run host result host := by
      refine Asks.lift_bind (Asks.isPresent hallowed) ?_
      rw [hpresent]
      exact hrest
    rw [← hresult]
    cases result with
    | error e => exact ⟨_, rfl, hload (Asks.bind_error (Asks.adapt htext))⟩
    | ok text =>
      exact ⟨_, toOption_parse text _,
        hload (Asks.bind_ok (Asks.adapt htext) (Asks.ofExcept _))⟩

/-- Taking the variables fails just where their values cannot be read. -/
theorem exists_asks_override (settings : Settings) : ∃ result : Except Error Settings,
    result.toOption = taken? ((Overrides.ofLookup host.text?).apply settings) ∧
      Asks allowed (override environment settings).run host result host := by
  have hoverrides : Asks allowed (Overrides.ofEnvironment environment) host
      (Overrides.ofLookup host.text?) host :=
    Asks.bind (Asks.find? _) (Asks.bind (Asks.find? _) (Asks.bind (Asks.find? _) (Asks.pure _)))
  cases htaken : (Overrides.ofLookup host.text?).apply settings with
  | mk settings result =>
    cases result with
    | ok _ =>
      refine ⟨.ok settings, rfl, Asks.lift_bind hoverrides ?_⟩
      simp only [htaken]
      exact Asks.pure _
    | error e =>
      refine ⟨.error e, rfl, Asks.lift_bind hoverrides ?_⟩
      simp only [htaken]
      exact Asks.throw e

end Settings

namespace Command

open Settings (Field textAt?)

/-! ## What settings are taken from -/

/-- The environment file beside a file of settings. -/
def dotEnvPath (path : String) : String :=
  Path.join ((Path.parent? path).getD ".") ".env"

/-- It is what is called `.env` in the directory of the file. -/
theorem locate_dotEnvPath {tree : FileTree} (hrooted : tree.Rooted) {path : String}
    {place : Location} {content : Content} (hlocate : tree.locate path = .ok place)
    (hstored : tree.stored? place = some (.file content))
    (hsize : (dotEnvPath path).utf8ByteSize ≤ FileTree.maxPathSize) :
    tree.locate (dotEnvPath path) = .ok (place.dropLast ++ [".env"]) := by
  have hname : FileTree.IsEntryName ".env" :=
    ⟨⟨by decide, by decide, by decide, by decide⟩, by decide, by decide⟩
  exact hrooted.locate_join_parent? hlocate hstored hname hsize

/-- The file of settings in use: the one that is named, or else the nearest one. -/
def fileInUse? (host : Host) : Option String → Option String
  | some path => some path
  | none => (Settings.candidates ".").find? host.tree.isPresent

/-- What the settings are taken from if a file is in use; there is no result if it cannot be read,
or the environment file beside it.  A variable of the process counts if it is set to a text. -/
def sourcesAt? (host : Host) (path : String) : Option Sources := do
  let dotEnv ← DotEnv.fileSettings? host (dotEnvPath path)
  let text ← textAt? host path
  return ⟨host.text?, fun name => dotEnv.lookup name, some text⟩

/-- What the settings are taken from.  Without a file in use it is the variables of the process
alone. -/
def sources? (host : Host) (config : Option String) : Option Sources :=
  match fileInUse? host config with
  | some path => sourcesAt? host path
  | none => some ⟨host.text?, fun _ => none, none⟩

/-- The system does not take what the environment file beside the file in use puts under the
variables. -/
def Halts (host : Host) (config : Option String) : Prop :=
  ∃ path, fileInUse? host config = some path ∧
    DotEnv.IsRefused host.text? (DotEnv.fileLines host (dotEnvPath path))

/-- The paths at which settings are looked for. -/
def settingsPaths (config : Option String) : List String :=
  (match config with
    | some path => [path]
    | none => Settings.candidates ".").flatMap fun path => [path, dotEnvPath path]

/-- A host whose variables are those of the sources, and which is otherwise the same.  A path that
is no text stays where the sources have nothing. -/
structure Prepared (host : Host) (sources : Sources) (host' : Host) : Prop where
  tree : host'.tree = host.tree
  texts : host'.text? = sources.binding?
  paths : ∀ name, host'.path? name = (sources.binding? name).or (host.path? name)
  accountHome : host'.accountHome = host.accountHome

/-! ## Loading -/

variable {α : Type} {host : Host} {path : String} {config : Option String}

/-- An action loads the settings that come of some sources, if there are any. -/
def Loads (config : Option String) (load : ExceptT Error WatchedHost.Action Settings)
    (host : Host) (sources : Option Sources) : Prop :=
  ∃ result host', result.toOption = sources.bind Sources.settings? ∧ host'.tree = host.tree ∧
    (∀ found, sources = some found → Prepared host found host') ∧
    Asks (· ∈ settingsPaths config) load.run host result host'

/-- A file of settings is read, and the variables of the host are taken over it. -/
theorem exists_asks_loadWithOverrides {allowed : String → Prop} (hallowed : allowed path)
    {process dotEnv : String → Option String}
    (hvariables : ∀ name, host.text? name = (process name).or (dotEnv name)) :
    ∃ result : Except Error Settings,
      result.toOption = (textAt? host path).bind (fun text =>
        Sources.settings? ⟨process, dotEnv, some text⟩) ∧
      Asks allowed (Settings.loadWithOverrides disk environment path).run host result host := by
  obtain ⟨loaded, hloaded, hasks⟩ : ∃ loaded : Except Error Settings,
      loaded.toOption = (textAt? host path).bind Settings.ofText? ∧
        Asks allowed (Settings.loadFile disk path).run host loaded host :=
    Settings.exists_asks_loadFile hallowed
  cases loaded with
  | error e =>
    refine ⟨.error e, ?_, Asks.bind_error hasks⟩
    cases htext : textAt? host path with
    | none => rfl
    | some text =>
      rw [htext] at hloaded
      have hfile : Sources.file? ⟨process, dotEnv, some text⟩ = none := hloaded.symm
      exact (Sources.settings?_eq_none hfile).symm
  | ok file =>
    obtain ⟨result, hresult, htaken⟩ : ∃ result : Except Error Settings, result.toOption =
        Settings.taken? ((Settings.Overrides.ofLookup host.text?).apply file) ∧
          Asks allowed (Settings.override environment file).run host result host :=
      Settings.exists_asks_override file
    refine ⟨result, ?_, Asks.bind_ok hasks htaken⟩
    cases htext : textAt? host path with
    | none =>
      rw [htext] at hloaded
      cases hloaded
    | some text =>
      rw [htext] at hloaded
      have hfile : Sources.file? ⟨process, dotEnv, some text⟩ = some file := hloaded.symm
      have hlookup : host.text? = Sources.binding? ⟨process, dotEnv, some text⟩ :=
        funext hvariables
      rw [hresult, hlookup, ← Sources.settings?_eq hfile]
      rfl

/-- The environment file is loaded first, then the file of settings is read under it. -/
theorem loads_loadSettings (hpath : path ∈ settingsPaths config)
    (hdotEnv : dotEnvPath path ∈ settingsPaths config)
    (htaken : ¬ DotEnv.IsRefused host.text? (DotEnv.fileLines host (dotEnvPath path))) :
    Loads config (loadSettings disk environment path) host (sourcesAt? host path) := by
  unfold sourcesAt?
  cases hload : DotEnv.fileSettings? host (dotEnvPath path) with
  | none =>
    obtain ⟨e, host', htree, hasks⟩ : ∃ e host', host'.tree = host.tree ∧
        Asks (· ∈ settingsPaths config) (Settings.loadDotEnv disk environment
          ((Path.parent? path).getD ".")).run host (.error e) host' :=
      Settings.exists_asks_loadDotEnv_error hdotEnv hload htaken
    exact ⟨.error e, host', rfl, htree, nofun, Asks.bind_error hasks⟩
  | some dotEnv =>
    have hasks : Asks (· ∈ settingsPaths config) (Settings.loadDotEnv disk environment
        ((Path.parent? path).getD ".")).run host (.ok ()) (DotEnv.overlay host dotEnv) :=
      Settings.asks_loadDotEnv hdotEnv hload htaken
    have htree : (DotEnv.overlay host dotEnv).tree = host.tree := DotEnv.tree_overlay host dotEnv
    have hvariables (name : String) : (DotEnv.overlay host dotEnv).text? name =
        (host.text? name).or (dotEnv.lookup name) :=
      DotEnv.text?_overlay host dotEnv name
    obtain ⟨result, hresult, hload⟩ : ∃ result : Except Error Settings,
        result.toOption = (textAt? (DotEnv.overlay host dotEnv) path).bind (fun text =>
          Sources.settings? ⟨host.text?, fun name => dotEnv.lookup name, some text⟩) ∧
        Asks (· ∈ settingsPaths config) (Settings.loadWithOverrides disk environment path).run
          (DotEnv.overlay host dotEnv) result (DotEnv.overlay host dotEnv) :=
      exists_asks_loadWithOverrides hpath hvariables
    refine ⟨result, DotEnv.overlay host dotEnv, hresult.trans ?_, htree, fun found hfound => ?_,
      Asks.bind_ok hasks hload⟩
    · rw [Settings.textAt?_congr htree]
      show (textAt? host path).bind _ = _
      cases textAt? host path <;> rfl
    · have hread : ((textAt? host path).bind fun text => some
          ⟨host.text?, fun name => dotEnv.lookup name, some text⟩) = some found := hfound
      obtain ⟨text, -, hfound⟩ := Option.bind_eq_some_iff.1 hread
      cases hfound
      exact ⟨htree, funext hvariables, DotEnv.path?_overlay host dotEnv,
        DotEnv.accountHome_overlay host dotEnv⟩

theorem mem_settingsPaths {candidate : String}
    (h : fileInUse? host config = some candidate) :
    candidate ∈ settingsPaths config ∧ dotEnvPath candidate ∈ settingsPaths config := by
  have hmem : candidate ∈ (match config with
      | some path => [path]
      | none => Settings.candidates ".") := by
    cases config with
    | some path =>
      cases h
      exact List.mem_singleton.2 rfl
    | none => exact List.mem_of_find?_eq_some h
  unfold settingsPaths
  exact ⟨List.mem_flatMap.2 ⟨candidate, hmem, by simp⟩,
    List.mem_flatMap.2 ⟨candidate, hmem, by simp⟩⟩

theorem asks_nearestFile? {found : Option String} (h : fileInUse? host none = found) :
    Asks (· ∈ settingsPaths none) (Settings.nearestFile? disk ".") host found host := by
  subst h
  exact Settings.asks_firstPresent fun path hpath => List.mem_flatMap.2 ⟨path, hpath, by simp⟩

/-- Without a file in use the variables of a host are all that counts. -/
theorem prepared_none (host : Host) : Prepared host ⟨host.text?, fun _ => none, none⟩ host where
  tree := rfl
  texts := funext fun _ => Option.or_none.symm
  paths := DotEnv.path?_overlay host []
  accountHome := rfl

/-- The settings for the store come of what the host has. -/
theorem loads_settingsFor (h : ¬ Halts host config) :
    Loads config (settingsFor disk environment config) host (sources? host config) := by
  cases config with
  | some path =>
    have hfile : fileInUse? host (some path) = some path := rfl
    obtain ⟨hpath, hdotEnv⟩ := mem_settingsPaths hfile
    exact loads_loadSettings hpath hdotEnv fun hrefused => h ⟨path, hfile, hrefused⟩
  | none =>
    unfold sources?
    cases hfile : fileInUse? host none with
    | some path =>
      obtain ⟨hpath, hdotEnv⟩ := mem_settingsPaths hfile
      have hnearest : Asks (· ∈ settingsPaths none) (Settings.nearestFile? disk ".") host
        (some path) host := asks_nearestFile? hfile
      obtain ⟨result, host', hresult, htree, hfound, hasks⟩ : Loads none
        (loadSettings disk environment path) host (sourcesAt? host path) :=
          loads_loadSettings hpath hdotEnv fun hrefused => h ⟨path, hfile, hrefused⟩
      exact ⟨result, host', hresult, htree, hfound, Asks.lift_bind hnearest hasks⟩
    | none =>
      have hnearest : Asks (· ∈ settingsPaths none) (Settings.nearestFile? disk ".") host none
        host := asks_nearestFile? hfile
      obtain ⟨result, hresult, hasks⟩ : ∃ result : Except Error Settings, result.toOption =
          Settings.taken? ((Settings.Overrides.ofLookup host.text?).apply .standard) ∧
            Asks (· ∈ settingsPaths none) (Settings.override environment .standard).run host result
              host := Settings.exists_asks_override .standard
      have hstandard : Sources.file? ⟨host.text?, fun _ => none, none⟩ = some .standard := rfl
      refine ⟨result, host, ?_, rfl, fun found h => ?_, Asks.lift_bind hnearest hasks⟩
      · rw [hresult]
        exact (congrArg (fun lookup => Settings.taken?
          ((Settings.Overrides.ofLookup lookup).apply .standard)) (prepared_none host).texts).trans
            (Sources.settings?_eq hstandard).symm
      · cases h
        exact prepared_none host

/-! ## Coming to an end -/

/-- The program comes to an end in an action, with every file as it was, and has only looked for
settings. -/
def EndsIn (config : Option String) (action : WatchedHost.Action α) (host : Host) : Prop :=
  ∃ host', host'.tree = host.tree ∧ Ends (· ∈ settingsPaths config) action host host'

/-- The program comes to an end in loading the environment file, before any settings are read. -/
theorem endsIn_loadSettings (h : fileInUse? host config = some path)
    (hrefused : DotEnv.IsRefused host.text? (DotEnv.fileLines host (dotEnvPath path))) :
    EndsIn config (loadSettings disk environment path).run host := by
  obtain ⟨host', htree, hends⟩ : ∃ host', host'.tree = host.tree ∧
    Ends (· ∈ settingsPaths config) (Settings.loadDotEnv disk environment
      ((Path.parent? path).getD ".")).run host host' :=
        Settings.ends_loadDotEnv (mem_settingsPaths h).2 hrefused
  exact ⟨host', htree, hends.bind_run⟩

theorem endsIn_settingsFor (h : Halts host config) :
    EndsIn config (settingsFor disk environment config).run host := by
  obtain ⟨path, hfile, hrefused⟩ := h
  obtain ⟨host', htree, hends⟩ := endsIn_loadSettings hfile hrefused
  cases config with
  | some named =>
    cases hfile
    exact ⟨host', htree, hends⟩
  | none => exact ⟨host', htree, Asks.lift_bind (asks_nearestFile? hfile) hends⟩

end Command

end Converge
