import Converge.Channel
import Converge.Charm
import Converge.Collaborator
/-!
# When an application is behind

Two reasons to refresh an application: its channel differs from the wanted one and is not on a
later track (`channelUpdateNeeded`), or its channel has a newer revision of the charm
(`revisionUpdateNeeded`).  Tracks are compared as texts, not as version numbers.
-/

namespace Converge

/-- Whether to move from one channel to another: to another risk on the same track, or to a track
that sorts after the deployed one.  Texts that are no channels never need it. -/
def channelUpdateNeeded (deployed target : String) : Bool :=
  match Channel.parse deployed, Channel.parse target with
  | .ok deployed, .ok target =>
    if deployed.track = target.track then deployed.risk ≠ target.risk
    else deployed.track ≤ target.track
  | _, _ => false

variable {m : Type → Type} [Monad m]

/-- Whether a newer revision of an application's charm is published on the channel that the
application follows.  A charm without a revision is never behind. -/
def revisionUpdateNeeded (controller : Controller m) (application model : String)
    (status : ModelStatus) : ExceptT Error m Bool := do
  match status.applications.find? application with
  | none =>
    throw (.applicationNotFound
      ("Application " ++ application ++ " not found in model " ++ model))
  | some app =>
    let charm := Charm.parse app.charm
    match charm.revision with
    | none => return false
    | some deployed =>
      let channel := Channel.normalise (app.channel.getD Channel.defaultTrack)
      return (← controller.latestRevision model charm.name channel) > deployed

end Converge
