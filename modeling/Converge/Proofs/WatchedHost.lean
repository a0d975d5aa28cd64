import Converge.Simulation.Host
/-!
# Watched hosts

A watched host keeps a note of what its disk is asked, beside its state.  `Asks` says what an action
that only looks at the disk gives, what it makes of the host, and at which paths it may look; `Ends`
says the same of an action in which the program comes to an end.  There is one rule for each way of
building such an action (`Asks.bind`, `Asks.bind_ok`, `Asks.bind_error` and `Asks.lift_bind`).
-/

namespace Converge.Simulation

variable {α β ε : Type}

/-- What a disk is asked at a path. -/
inductive Access where
  /-- Whether something is there, or what its content is. -/
  | look (path : String)
  | change (path : String)
  deriving DecidableEq

/-- A host with a note of what its disk was asked. -/
abbrev WatchedHost := Host × List Access

namespace WatchedHost

/-- An action of a program on a watched host; it has no value when the program comes to an end. -/
abbrev Action := OptionT (StateM WatchedHost)

/-- An action on the host, with a note of what it asks the disk. -/
def noting (accesses : List Access) (action : Host.Action α) : Action α :=
  OptionT.mk fun s =>
    let result := action.run.run s.1
    (result.1, (result.2, s.2 ++ accesses))

/-- The disk of the host. -/
def disk : Disk Action where
  isPresent path := noting [.look path] (Host.disk.isPresent path)
  read path := noting [.look path] (Host.disk.read path).run
  createDirs path := noting [.change path] (Host.disk.createDirs path).run
  create path := noting [.change path] (Host.disk.create path).run
  write path text := noting [.change path] (Host.disk.write path text).run
  sync path := noting [.change path] (Host.disk.sync path).run
  rename path target := noting [.change path, .change target] (Host.disk.rename path target).run

/-- The environment of the host. -/
def environment : Environment Action where
  find? name := noting [] (Host.environment.find? name)
  path? name := noting [] (Host.environment.path? name)
  set name value := noting [] (Host.environment.set name value)
  accountHome := noting [] Host.environment.accountHome

end WatchedHost

open WatchedHost (disk environment Action)

/-- An action comes to a result and leaves a host behind, and has only looked at paths that are
allowed. -/
def Does (allowed : String → Prop) (action : Action α) (host : Host) (result : Option α)
    (host' : Host) : Prop :=
  ∀ log, ∃ looked : List String, (∀ path ∈ looked, allowed path) ∧
    action.run.run (host, log) = (result, (host', log ++ looked.map .look))

/-- An action gives a value. -/
def Asks (allowed : String → Prop) (action : Action α) (host : Host) (a : α) (host' : Host) :
    Prop :=
  Does allowed action host (some a) host'

/-- The program comes to an end in an action. -/
def Ends (allowed : String → Prop) (action : Action α) (host host' : Host) : Prop :=
  Does allowed action host none host'

variable {allowed : String → Prop} {host host' host'' : Host}

/-- An action that does not ask the disk anything. -/
theorem Does.of_run {action : Action α} {result : Option α}
    (h : ∀ log, action.run.run (host, log) = (result, (host', log))) :
    Does allowed action host result host' :=
  fun log => ⟨[], nofun, by rw [h, List.map_nil, List.append_nil]⟩

/-- What follows an action that gives a value runs on what that has left behind. -/
theorem Asks.run_bind {action : Action α} {a : α} (h : Asks allowed action host a host')
    (next : α → Action β) (log : List Access) :
    ∃ looked : List String, (∀ path ∈ looked, allowed path) ∧
      (action >>= next).run.run (host, log) =
        (next a).run.run (host', log ++ looked.map .look) := by
  obtain ⟨looked, hallowed, hrun⟩ := h log
  refine ⟨looked, hallowed, ?_⟩
  rw [OptionT.run_bind, Option.elimM, StateT.run_bind, hrun]
  rfl

theorem Does.bind {action : Action α} {next : α → Action β} {a : α} {result : Option β}
    (h : Asks allowed action host a host') (hnext : Does allowed (next a) host' result host'') :
    Does allowed (action >>= next) host result host'' := by
  intro log
  obtain ⟨looked, hallowed, hrun⟩ := h.run_bind next log
  obtain ⟨others, hothers, hrest⟩ := hnext (log ++ looked.map .look)
  refine ⟨looked ++ others, List.forall_mem_append.2 ⟨hallowed, hothers⟩, ?_⟩
  rw [hrun, hrest, List.map_append, List.append_assoc]

/-- Nothing follows the end of a program. -/
theorem Ends.bind {action : Action α} {next : α → Action β} (h : Ends allowed action host host') :
    Ends allowed (action >>= next) host host' := by
  intro log
  obtain ⟨looked, hallowed, hrun⟩ := h log
  refine ⟨looked, hallowed, ?_⟩
  rw [OptionT.run_bind, Option.elimM, StateT.run_bind, hrun]
  rfl

namespace Asks

theorem pure (a : α) : Asks allowed (Pure.pure a) host a host :=
  .of_run fun _ => rfl

theorem bind {action : Action α} {next : α → Action β} {a : α} {b : β}
    (h : Asks allowed action host a host') (hnext : Asks allowed (next a) host' b host'') :
    Asks allowed (action >>= next) host b host'' :=
  Does.bind h hnext

/-! ## Actions that may fail -/

theorem bind_ok {action : ExceptT ε Action α} {next : α → ExceptT ε Action β} {a : α}
    {result : Option (Except ε β)} (h : Asks allowed action.run host (.ok a) host')
    (hnext : Does allowed (next a).run host' result host'') :
    Does allowed (action >>= next).run host result host'' := by
  rw [ExceptT.run_bind]
  exact Does.bind h hnext

theorem bind_error {action : ExceptT ε Action α} {next : α → ExceptT ε Action β} {e : ε}
    (h : Asks allowed action.run host (.error e) host') :
    Asks allowed (action >>= next).run host (.error e) host' := by
  rw [ExceptT.run_bind]
  exact bind h (pure _)

/-- An action that cannot fail, in front of one that may. -/
theorem lift_bind {action : Action α} {next : α → ExceptT ε Action β} {a : α}
    {result : Option (Except ε β)} (h : Asks allowed action host a host')
    (hnext : Does allowed (next a).run host' result host'') :
    Does allowed ((liftM action : ExceptT ε Action α) >>= next).run host result host'' := by
  have hlift : (liftM action : ExceptT ε Action α).run =
      action >>= fun a => Pure.pure (.ok a) := rfl
  refine bind_ok ?_ hnext
  rw [hlift]
  exact bind h (pure _)

theorem throw (e : ε) :
    Asks allowed (MonadExcept.throw e : ExceptT ε Action α).run host (.error e) host :=
  pure _

theorem ofExcept (result : Except ε α) :
    Asks allowed (MonadExcept.ofExcept result : ExceptT ε Action α).run host result host := by
  cases result with
  | error e => exact throw e
  | ok a => exact pure _

theorem adapt {δ : Type} {action : ExceptT δ Action α} {f : δ → ε} {result : Except δ α}
    (h : Asks allowed action.run host result host') :
    Asks allowed (action.adapt f).run host (result.mapError f) host' := by
  have hadapt : (action.adapt f).run = action.run >>= fun r => Pure.pure (r.mapError f) := rfl
  rw [hadapt]
  exact bind h (pure _)

end Asks

namespace Ends

theorem bind_run {action : ExceptT ε Action α} {next : α → ExceptT ε Action β}
    (h : Ends allowed action.run host host') :
    Ends allowed (action >>= next).run host host' := by
  rw [ExceptT.run_bind]
  exact h.bind

theorem lift_run {action : Action α} (h : Ends allowed action host host') :
    Ends allowed (liftM action : ExceptT ε Action α).run host host' := by
  have hlift : (liftM action : ExceptT ε Action α).run =
      action >>= fun a => Pure.pure (.ok a) := rfl
  rw [hlift]
  exact h.bind

theorem adapt {δ : Type} {action : ExceptT δ Action α} {f : δ → ε}
    (h : Ends allowed action.run host host') : Ends allowed (action.adapt f).run host host' := by
  have hadapt : (action.adapt f).run = action.run >>= fun r => Pure.pure (r.mapError f) := rfl
  rw [hadapt]
  exact h.bind

end Ends

/-! ## What a host is asked -/

namespace Asks

theorem isPresent {path : String} (h : allowed path) :
    Asks allowed (disk.isPresent path) host (host.tree.isPresent path) host :=
  fun _ => ⟨[path], List.forall_mem_singleton.2 h, rfl⟩

theorem read {path : String} (h : allowed path) :
    Asks allowed (disk.read path).run host (host.tree.read path) host :=
  fun _ => ⟨[path], List.forall_mem_singleton.2 h, rfl⟩

/-- Nothing is noted for what is asked of the environment. -/
theorem of_environment {action : Host.Action α} {result : Option α}
    (h : action.run.run host = (result, host')) :
    Does allowed (WatchedHost.noting [] action) host result host' :=
  .of_run fun log => by
    show ((action.run.run host).1, ((action.run.run host).2, log ++ [])) = _
    rw [h, List.append_nil]

theorem find? (name : String) : Asks allowed (environment.find? name) host (host.text? name) host :=
  of_environment rfl

theorem path? (name : String) : Asks allowed (environment.path? name) host (host.path? name) host :=
  of_environment rfl

theorem accountHome : Asks allowed environment.accountHome host host.accountHome host :=
  of_environment rfl

theorem set {name value : String} (h : Environment.takes name value = true) :
    Asks allowed (environment.set name value) host ()
      { host with bindings := host.bindings.insert name (.text value) } := by
  refine of_environment ?_
  show (if Environment.takes name value then _ else _ : Host.Action Unit).run.run host = _
  rw [if_pos h]
  rfl

end Asks

/-- The program comes to an end where the system does not take a variable. -/
theorem Ends.set {name value : String} (h : Environment.takes name value = false) :
    Ends allowed (environment.set name value) host host := by
  refine Asks.of_environment ?_
  show (if Environment.takes name value then _ else _ : Host.Action Unit).run.run host = _
  rw [if_neg (by rw [h]; decide)]
  rfl

end Converge.Simulation
