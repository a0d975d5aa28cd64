import Converge.Plugin.Lifecycle
import Converge.Proofs.Execution
/-!
# The stages of a change

Enabling and disabling a plugin go through the same stages, enabling after a look at the
requirements.  `Definition.change` is what they have in common (`switch_eq`), and each stage has its
equations here.
-/

namespace Converge.Plugin.Definition

variable {m : Type → Type} [Monad m] {σ : Type}

/-! ## What both directions have in common -/

/-- The hook before the plan of a direction. -/
def pre (plugin : Definition m) (enabled : Bool) : ExceptT Error m Unit :=
  if enabled then plugin.runHook "pre_enable" plugin.preEnable
  else plugin.runHook "pre_disable" plugin.preDisable

/-- The plan of a direction. -/
def plan (plugin : Definition m) (enabled : Bool) : List (Step m) :=
  if enabled then plugin.enablePlan else plugin.disablePlan

/-- The hook after the plan of a direction. -/
def post (plugin : Definition m) (enabled : Bool) : ExceptT Error m Unit :=
  if enabled then plugin.runHook "post_enable" plugin.postEnable
  else plugin.runHook "post_disable" plugin.postDisable

/-- The stages that follow the look at the requirements. -/
def change (plugin : Definition m) (store : MembershipStore m) (clock : Clock m)
    (enabled : Bool) : ExceptT Error m Report := do
  plugin.pre enabled
  let report ← plugin.runPlan (plugin.plan enabled)
  plugin.post enabled
  persist store clock plugin.name plugin.version enabled
  return report

theorem enable_eq (plugin : Definition m) (store : MembershipStore m) (clock : Clock m) :
    plugin.enable store clock =
      checkRequirements store plugin.name plugin.requires >>= fun _ =>
        plugin.change store clock true := rfl

theorem disable_eq (plugin : Definition m) (store : MembershipStore m) (clock : Clock m) :
    plugin.disable store clock = plugin.change store clock false := rfl

/-- The requirements that are looked at in a direction. -/
def needs (plugin : Definition m) (enabled : Bool) : List Requirement :=
  if enabled then plugin.requires else []

/-- Enables or disables a plugin. -/
def switch (plugin : Definition m) (store : MembershipStore m) (clock : Clock m)
    (enabled : Bool) : ExceptT Error m Report :=
  if enabled then plugin.enable store clock else plugin.disable store clock

/-- Both directions look at requirements first, to disable at none. -/
theorem switch_eq [LawfulMonad m] (plugin : Definition m) (store : MembershipStore m)
    (clock : Clock m) (enabled : Bool) :
    plugin.switch store clock enabled =
      checkRequirements store plugin.name (plugin.needs enabled) >>= fun _ =>
        plugin.change store clock enabled := by
  cases enabled with
  | false => exact (pure_bind PUnit.unit fun _ => plugin.change store clock false).symm
  | true => exact plugin.enable_eq store clock

/-! ## Plans -/

section

variable {plugin : Definition (StateM σ)} {plan : List (Step (StateM σ))} {s s' : σ}
  {report : Report}

theorem exec_runPlan (h : (Plan.execute plan).run s = (report, s')) :
    exec (plugin.runPlan plan) s =
      (if report.succeeded then .ok report
        else .error (.planFailed plugin.name (report.outcome.message.getD "")), s') := by
  have hexecute : exec (monadLift (Plan.execute plan) : ExceptT Error (StateM σ) Report) s =
      (.ok report, s') := by
    show (Except.ok ((Plan.execute plan).run s).1, ((Plan.execute plan).run s).2) = _
    rw [h]
  unfold runPlan
  refine (exec_bind_ok hexecute _).trans ?_
  split <;> rfl

/-- A plan that fails ends a change with the message of the step that failed. -/
theorem exec_change_planFailed {enabled : Bool} {store : MembershipStore (StateM σ)}
    {clock : Clock (StateM σ)} {s₀ : σ} {e : Error}
    (hpre : exec (plugin.pre enabled) s₀ = (.ok ⟨⟩, s))
    (hplan : exec (plugin.runPlan (plugin.plan enabled)) s = (.error e, s')) :
    exec (plugin.change store clock enabled) s₀ = (.error e, s') := by
  unfold change
  rw [exec_bind_ok hpre, exec_bind_error hplan]

end

end Converge.Plugin.Definition
