import Converge.Proofs.WatchedHost
import Converge.Settings.Load
/-!
# The layer of an environment file

What loading an environment file does to a host.  A variable that is set to a text stays as it is,
and any other gets the value of its first setting in the file.  Main statements:
`DotEnv.text?_overlay`, and that the program comes to an end just where the system does not take
such a value, while loading succeeds just for a file that can be read to its end
(`Settings.ends_loadDotEnv`, `Settings.asks_loadDotEnv` and
`Settings.exists_asks_loadDotEnv_error`).
-/

namespace Converge

open Simulation (Host WatchedHost Asks Does Ends)
open Simulation.WatchedHost (disk environment)

/-! ## Variables that stand still -/

/-- An environment of variables that are not changed. -/
def Environment.frozen (lookup : String → Option String) : Environment Id where
  find? := lookup
  path? := lookup
  set _ _ := ⟨⟩
  accountHome := none

namespace DotEnv

variable {allowed : String → Prop} {host : Host}

/-- What variables are set to once one that was not set has been set. -/
def under (lookup : String → Option String) (key value name : String) : Option String :=
  if name = key then (lookup key).or (some value) else lookup name

/-- What assignments set, in their order, each with the values that its references have by then. -/
def settings (lookup : String → Option String) (given : Dict String) :
    List Assignment → List (String × String)
  | [] => []
  | assignment :: rest =>
    let value := String.ofList (expand (.frozen lookup) given assignment.value)
    (assignment.key, value) ::
      settings (under lookup assignment.key value) (given.insert assignment.key value) rest

/-- The system does not take a value that is put under the variables. -/
def IsRefused (lookup : String → Option String) (settings : List (String × String)) : Prop :=
  ∃ name value, lookup name = none ∧ settings.lookup name = some value ∧
    Environment.takes name value = false

theorem isRefused_cons {lookup : String → Option String} {key value : String}
    {rest : List (String × String)} : IsRefused lookup ((key, value) :: rest) ↔
      lookup key = none ∧ Environment.takes key value = false ∨
        IsRefused (under lookup key value) rest := by
  constructor
  · rintro ⟨name, found, hlookup, hfound, htakes⟩
    rw [Dict.lookup_cons_ite] at hfound
    split at hfound
    · next hname =>
      obtain rfl : name = key := hname
      cases hfound
      exact .inl ⟨hlookup, htakes⟩
    · next hname => exact .inr ⟨name, found, (if_neg hname).trans hlookup, hfound, htakes⟩
  · rintro (⟨hlookup, htakes⟩ | ⟨name, found, hlookup, hfound, htakes⟩)
    · exact ⟨key, value, hlookup, by rw [Dict.lookup_cons_ite, if_pos rfl], htakes⟩
    · unfold under at hlookup
      split at hlookup
      · cases hkey : lookup key <;> simp [hkey] at hlookup
      · next hname =>
        exact ⟨name, found, hlookup, by rwa [Dict.lookup_cons_ite, if_neg hname], htakes⟩

/-! ## Hosts with settings put under their variables -/

/-- A host with a variable set that was not set to a text. -/
def setDefault (host : Host) (key value : String) : Host :=
  if (host.text? key).isNone then
    { host with bindings := host.bindings.insert key (.text value) }
  else host

/-- A host with settings put under its variables. -/
def overlay (host : Host) (settings : List (String × String)) : Host :=
  settings.foldl (fun host setting => setDefault host setting.1 setting.2) host

theorem tree_setDefault (host : Host) (key value : String) :
    (setDefault host key value).tree = host.tree := by
  unfold setDefault
  split <;> rfl

theorem accountHome_setDefault (host : Host) (key value : String) :
    (setDefault host key value).accountHome = host.accountHome := by
  unfold setDefault
  split <;> rfl

theorem text?_setDefault (host : Host) (key value : String) :
    (setDefault host key value).text? = under host.text? key value := by
  funext name
  unfold setDefault under
  cases hkey : host.text? key with
  | none =>
    simp only [Option.isNone_none, if_true, Host.text?, Dict.find?_insert, Option.none_or]
    split <;> rfl
  | some found =>
    simp only [Option.isNone_some, Bool.false_eq_true, if_false, Option.some_or]
    split
    · next hname => rw [hname, hkey]
    · rfl

/-- A variable that is set to a text is set to the path of that name. -/
theorem path?_of_text? {name value : String} (h : host.text? name = some value) :
    host.path? name = some value := by
  obtain ⟨binding, hbinding, htext⟩ := Option.bind_eq_some_iff.1 h
  rw [Host.path?, hbinding]
  cases binding with
  | text text => exact htext
  | other path => cases htext

theorem path?_setDefault (host : Host) (key value name : String) :
    (setDefault host key value).path? name =
      if name = key then (host.text? key).or (some value) else host.path? name := by
  unfold setDefault
  cases hkey : host.text? key with
  | none =>
    simp only [Option.isNone_none, if_true, Host.path?, Dict.find?_insert, Option.none_or]
    split <;> rfl
  | some found =>
    simp only [Option.isNone_some, Bool.false_eq_true, if_false, Option.some_or]
    split
    · next hname => rw [hname, path?_of_text? hkey]
    · rfl

theorem tree_overlay (host : Host) (settings : List (String × String)) :
    (overlay host settings).tree = host.tree := by
  induction settings generalizing host with
  | nil => rfl
  | cons setting rest ih => exact (ih _).trans (tree_setDefault _ _ _)

theorem accountHome_overlay (host : Host) (settings : List (String × String)) :
    (overlay host settings).accountHome = host.accountHome := by
  induction settings generalizing host with
  | nil => rfl
  | cons setting rest ih => exact (ih _).trans (accountHome_setDefault _ _ _)

/-- A text that a variable is set to stays, and any other variable gets the value of its first
setting. -/
theorem text?_overlay (host : Host) (settings : List (String × String)) (name : String) :
    (overlay host settings).text? name = (host.text? name).or (settings.lookup name) := by
  induction settings generalizing host with
  | nil => simp [overlay]
  | cons setting rest ih =>
    refine (ih (setDefault host setting.1 setting.2)).trans ?_
    rw [text?_setDefault, under, Dict.lookup_cons_ite]
    split
    · next hname =>
      rw [hname]
      cases host.text? setting.1 <;> rfl
    · rfl

/-- A path that is no text gives way to a setting. -/
theorem path?_overlay (host : Host) (settings : List (String × String)) (name : String) :
    (overlay host settings).path? name =
      ((host.text? name).or (settings.lookup name)).or (host.path? name) := by
  induction settings generalizing host with
  | nil =>
    cases htext : host.text? name with
    | none => rfl
    | some value => exact path?_of_text? htext
  | cons setting rest ih =>
    refine (ih (setDefault host setting.1 setting.2)).trans ?_
    rw [text?_setDefault, path?_setDefault, under, Dict.lookup_cons_ite]
    split
    · next hname =>
      rw [hname]
      cases host.text? setting.1 <;> rfl
    · rfl

/-! ## Reading assignments -/

theorem asks_valueOf? (name : String) : Asks allowed (environment.valueOf? name) host
    ((Environment.frozen host.text?).valueOf? name) host := by
  unfold Environment.valueOf?
  match Text.splitFirst '=' name.toList with
  | (_, none) => exact Asks.find? name
  | (key, some start) =>
    refine Asks.bind (Asks.find? (String.ofList key)) ?_
    have hfrozen : (Environment.frozen host.text?).find? (String.ofList key) =
        host.text? (String.ofList key) := rfl
    simp only [hfrozen]
    cases host.text? (String.ofList key) with
    | none => exact Asks.pure none
    | some value =>
      show Asks allowed _ host (if (start ++ ['=']).isPrefixOf value.toList then
        some (String.ofList (value.toList.drop (start ++ ['=']).length)) else none) host
      by_cases h : (start ++ ['=']).isPrefixOf value.toList
      · simp only [h, if_true]
        exact Asks.pure _
      · simp only [h]
        exact Asks.pure _

theorem asks_lookUp (given : Dict String) (name : String) :
    Asks allowed (lookUp environment given name) host
      (lookUp (.frozen host.text?) given name) host := by
  refine Asks.bind (asks_valueOf? name) ?_
  show Asks allowed _ host (match (Environment.frozen host.text?).valueOf? name with
    | some value => value
    | none => (given.find? name).getD "") host
  cases (Environment.frozen host.text?).valueOf? name with
  | none => exact Asks.pure _
  | some value => exact Asks.pure _

theorem asks_expand (given : Dict String) (parts : List Part) :
    Asks allowed (expand environment given parts) host
      (expand (.frozen host.text?) given parts) host := by
  induction parts with
  | nil => exact Asks.pure _
  | cons part rest ih =>
    cases part with
    | char c => exact Asks.bind ih (Asks.pure _)
    | reference name =>
      exact Asks.bind (asks_lookUp given (String.ofList name)) (Asks.bind ih (Asks.pure _))

/-- What an assignment sets is put under the variables of the host, where the system takes it, and
then come the others. -/
theorem does_assign_cons {given : Dict String} {assignment : Assignment} {rest : List Assignment}
    {value : String} (hvalue : value = String.ofList
      (expand (.frozen host.text?) given assignment.value))
    (htakes : (host.text? assignment.key).isNone → Environment.takes assignment.key value = true)
    {result : Option Unit} {host' : Host}
    (hrest : Does allowed (assign environment (given.insert assignment.key value) rest)
      (setDefault host assignment.key value) result host') :
    Does allowed (assign environment given (assignment :: rest)) host result host' := by
  subst hvalue
  refine Does.bind (asks_expand given assignment.value) ?_
  refine Does.bind (Asks.find? assignment.key) ?_
  by_cases hset : (host.text? assignment.key).isNone
  · rw [setDefault, if_pos hset] at hrest
    rw [if_pos hset]
    exact Does.bind (Asks.set (htakes hset)) hrest
  · rw [setDefault, if_neg hset] at hrest
    rw [if_neg hset]
    exact hrest

/-- Assignments put what they set under the variables of the host. -/
theorem asks_assign {given : Dict String} {assignments : List Assignment}
    (h : ¬ IsRefused host.text? (settings host.text? given assignments)) :
    Asks allowed (assign environment given assignments) host ()
      (overlay host (settings host.text? given assignments)) := by
  induction assignments generalizing host given with
  | nil => exact Asks.pure ()
  | cons assignment rest ih =>
    rw [settings, isRefused_cons, not_or, not_and, ← text?_setDefault] at h
    rw [settings, ← text?_setDefault]
    refine does_assign_cons rfl (fun hset => ?_) (ih h.2)
    exact eq_true_of_ne_false (h.1 (Option.isNone_iff_eq_none.1 hset))

/-- The program comes to an end where the system does not take what an assignment sets. -/
theorem ends_assign {given : Dict String} {assignments : List Assignment}
    (h : IsRefused host.text? (settings host.text? given assignments)) :
    ∃ host', host'.tree = host.tree ∧
      Ends allowed (assign environment given assignments) host host' := by
  induction assignments generalizing host given with
  | nil =>
    obtain ⟨_, _, -, hfound, -⟩ := h
    cases hfound
  | cons assignment rest ih =>
    rw [settings, isRefused_cons, ← text?_setDefault] at h
    by_cases hrefused : host.text? assignment.key = none ∧ Environment.takes assignment.key
        (String.ofList (expand (.frozen host.text?) given assignment.value)) = false
    · refine ⟨host, rfl, ?_⟩
      refine Does.bind (asks_expand given assignment.value) ?_
      refine Does.bind (Asks.find? assignment.key) ?_
      rw [if_pos (Option.isNone_iff_eq_none.2 hrefused.1)]
      exact (Ends.set hrefused.2).bind
    · obtain ⟨host', htree, hends⟩ := ih (h.resolve_left hrefused)
      refine ⟨host', htree.trans (tree_setDefault _ _ _),
        does_assign_cons rfl (fun hset => ?_) hends⟩
      exact eq_true_of_ne_false fun htakes =>
        hrefused ⟨Option.isNone_iff_eq_none.1 hset, htakes⟩

/-! ## Loading a file -/

/-- What the environment file at a path sets on a host, in the order of its lines, up to the first
that breaks the rules. -/
def fileLines (host : Host) (path : String) : List (String × String) :=
  if host.tree.isPresent path then
    match host.tree.read path with
    | .ok content => settings host.text? .empty (assignments content).1
    | .error _ => []
  else []

/-- Whether the environment file at a path can be read to its end, if there is one. -/
def isWhole (host : Host) (path : String) : Bool :=
  if host.tree.isPresent path then
    match host.tree.read path with
    | .ok content => (assignments content).2
    | .error _ => false
  else true

/-- What the environment file at a path sets on a host; there is no result if the file cannot be
read to its end. -/
def fileSettings? (host : Host) (path : String) : Option (List (String × String)) :=
  if isWhole host path then some (fileLines host path) else none

section

variable {path : String} {content : Content}

theorem fileLines_of_read (hpresent : host.tree.isPresent path = true)
    (hread : host.tree.read path = .ok content) :
    fileLines host path = settings host.text? .empty (assignments content).1 := by
  rw [fileLines, if_pos hpresent, hread]

theorem isWhole_of_read (hpresent : host.tree.isPresent path = true)
    (hread : host.tree.read path = .ok content) :
    isWhole host path = (assignments content).2 := by
  rw [isWhole, if_pos hpresent, hread]

theorem asks_load (hallowed : allowed path) (hpresent : host.tree.isPresent path = true)
    (hread : host.tree.read path = .ok content)
    (htaken : ¬ IsRefused host.text? (fileLines host path)) :
    Asks allowed (load disk environment path).run host
      (if isWhole host path then .ok () else .error (.other "a line is no assignment"))
      (overlay host (fileLines host path)) := by
  rw [fileLines_of_read hpresent hread] at htaken ⊢
  rw [isWhole_of_read hpresent hread]
  refine Asks.bind_ok (hread ▸ Asks.read hallowed) ?_
  refine Asks.lift_bind (asks_assign htaken) ?_
  show Does allowed (if !(assignments content).2 then throw _ else pure () :
    ExceptT DiskError WatchedHost.Action Unit).run _ _ _
  cases (assignments content).2 with
  | true => exact Asks.pure _
  | false => exact Asks.pure _

end

end DotEnv

namespace Settings

open DotEnv (fileLines fileSettings? isWhole overlay IsRefused)

variable {allowed : String → Prop} {host : Host} {directory : String}

/-- What loading a file that is there gives, is what reading it gives. -/
theorem does_loadDotEnv {result : Option (Except Error Unit)} {host' : Host}
    (hallowed : allowed (Path.join directory ".env"))
    (hpresent : host.tree.isPresent (Path.join directory ".env") = true)
    (hload : Does allowed ((DotEnv.load disk environment (Path.join directory ".env")).adapt
      fun e => Error.configUnreadable ("Failed to load .env file: " ++ e.message)
        (some (Path.join directory ".env"))).run host result host') :
    Does allowed (loadDotEnv disk environment directory).run host result host' := by
  refine Asks.lift_bind (Asks.isPresent hallowed) ?_
  rw [hpresent]
  exact hload

/-- A file that can be read to its end puts what it sets under the variables. -/
theorem asks_loadDotEnv {settings : List (String × String)}
    (hallowed : allowed (Path.join directory ".env"))
    (h : fileSettings? host (Path.join directory ".env") = some settings)
    (htaken : ¬ IsRefused host.text? (fileLines host (Path.join directory ".env"))) :
    Asks allowed (loadDotEnv disk environment directory).run host (.ok ())
      (overlay host settings) := by
  unfold fileSettings? at h
  by_cases hwhole : isWhole host (Path.join directory ".env")
  · rw [if_pos hwhole] at h
    obtain rfl := Option.some.inj h
    cases hpresent : host.tree.isPresent (Path.join directory ".env") with
    | false =>
      have hnone : fileLines host (Path.join directory ".env") = [] := by
        rw [fileLines, if_neg (by rw [hpresent]; decide)]
      refine Asks.lift_bind (Asks.isPresent hallowed) ?_
      rw [hpresent, hnone]
      exact Asks.pure _
    | true =>
      cases hread : host.tree.read (Path.join directory ".env") with
      | error e =>
        rw [isWhole, if_pos hpresent, hread] at hwhole
        cases hwhole
      | ok content =>
        have hload := DotEnv.asks_load hallowed hpresent hread htaken
        rw [if_pos hwhole] at hload
        exact does_loadDotEnv hallowed hpresent (Asks.adapt hload)
  · rw [if_neg hwhole] at h
    cases h

/-- A file that cannot be read to its end is an error. -/
theorem exists_asks_loadDotEnv_error (hallowed : allowed (Path.join directory ".env"))
    (h : fileSettings? host (Path.join directory ".env") = none)
    (htaken : ¬ IsRefused host.text? (fileLines host (Path.join directory ".env"))) :
    ∃ e host', host'.tree = host.tree ∧
      Asks allowed (loadDotEnv disk environment directory).run host (.error e) host' := by
  unfold fileSettings? at h
  by_cases hwhole : isWhole host (Path.join directory ".env")
  · rw [if_pos hwhole] at h
    cases h
  · cases hpresent : host.tree.isPresent (Path.join directory ".env") with
    | false =>
      rw [isWhole, if_neg (by rw [hpresent]; decide)] at hwhole
      exact absurd rfl hwhole
    | true =>
      cases hread : host.tree.read (Path.join directory ".env") with
      | error e =>
        exact ⟨_, host, rfl, does_loadDotEnv hallowed hpresent
          (Asks.adapt (Asks.bind_error (hread ▸ Asks.read hallowed)))⟩
      | ok content =>
        have hload := DotEnv.asks_load hallowed hpresent hread htaken
        rw [if_neg hwhole] at hload
        exact ⟨_, _, DotEnv.tree_overlay _ _, does_loadDotEnv hallowed hpresent (Asks.adapt hload)⟩

/-- The program comes to an end in a file with a value that the system does not take. -/
theorem ends_loadDotEnv (hallowed : allowed (Path.join directory ".env"))
    (h : IsRefused host.text? (fileLines host (Path.join directory ".env"))) :
    ∃ host', host'.tree = host.tree ∧
      Ends allowed (loadDotEnv disk environment directory).run host host' := by
  cases hpresent : host.tree.isPresent (Path.join directory ".env") with
  | false =>
    rw [fileLines, if_neg (by rw [hpresent]; decide)] at h
    obtain ⟨_, _, -, hfound, -⟩ := h
    cases hfound
  | true =>
    cases hread : host.tree.read (Path.join directory ".env") with
    | error e =>
      rw [fileLines, if_pos hpresent, hread] at h
      obtain ⟨_, _, -, hfound, -⟩ := h
      cases hfound
    | ok content =>
      rw [DotEnv.fileLines_of_read hpresent hread] at h
      obtain ⟨host', htree, hends⟩ : ∃ host', host'.tree = host.tree ∧
        Ends allowed (DotEnv.assign environment .empty (DotEnv.assignments content).1) host host' :=
          DotEnv.ends_assign h
      refine ⟨host', htree, does_loadDotEnv hallowed hpresent (Ends.adapt ?_)⟩
      exact Asks.bind_ok (hread ▸ Asks.read hallowed) (Ends.bind_run hends.lift_run)

end Settings

end Converge
