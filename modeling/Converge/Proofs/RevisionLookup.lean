import Converge.Proofs.Refreshing
/-!
# Looking the newest revision up

A check of a revision asks for one channel at most, and passes on what it is answered.  The channel
that it asks for is the one that the application follows, in its normal form; for an application
that follows none it is no channel at all.  Main statement: that is all that a check asks, whatever
the controller does (`revisionUpdateNeeded_lookup`).
-/

namespace Converge

variable {σ : Type}

namespace ApplicationStatus

/-- A text names a channel, which is the one that the application follows if it follows any. -/
def NamesChannel (app : ApplicationStatus) (asked : String) : Prop :=
  ∃ channel, Channel.parse asked = .ok channel ∧
    ∀ text ∈ app.channel, Channel.parse text = .ok channel

/-- The default track is no risk, so it names no channel. -/
theorem parse_followed_of_none {app : ApplicationStatus} (h : app.channel = none) :
    Channel.parse app.followed = .error (.unknownRisk Channel.defaultTrack) := by
  rw [followed, h, Option.getD_none, Channel.parse_normalise,
    Channel.parse_of_not_mem (by decide)]
  rfl

theorem namesChannel_followed_iff {app : ApplicationStatus} :
    app.NamesChannel app.followed ↔
      ∃ text ∈ app.channel, ∃ channel, Channel.parse text = .ok channel := by
  cases hchannel : app.channel with
  | none =>
    refine iff_of_false ?_ nofun
    rintro ⟨channel, hasked, -⟩
    cases (parse_followed_of_none hchannel).symm.trans hasked
  | some text =>
    have hfollowed : Channel.parse app.followed = Channel.parse text := by
      rw [followed, hchannel, Option.getD_some, Channel.parse_normalise]
    simp only [NamesChannel, hfollowed, hchannel, Option.mem_some_iff, forall_eq', and_self,
      exists_eq_left']

end ApplicationStatus

/-- What a check of a revision asks, and what it comes to. -/
inductive RevisionLookup (application model : String) (status : ModelStatus) :
    List Answer → Except Error Bool → Prop
  | unknown (h : status.applications.find? application = none) :
    RevisionLookup application model status [] (.error (.applicationNotFound
      ("Application " ++ application ++ " not found in model " ++ model)))
  | unnumbered {app : ApplicationStatus} (h : status.applications.find? application = some app)
      (hrevision : (Charm.parse app.charm).revision = none) :
    RevisionLookup application model status [] (.ok false)
  /-- The answer tells whether a newer revision is published, or its error is passed on. -/
  | asked {app : ApplicationStatus} {deployed : Nat} {channel : String}
      (h : status.applications.find? application = some app)
      (hrevision : (Charm.parse app.charm).revision = some deployed)
      (hchannel : app.NamesChannel channel ↔
        ∃ text ∈ app.channel, ∃ followed, Channel.parse text = .ok followed)
      (answer : Except Error Nat) :
    RevisionLookup application model status
      [⟨.latestRevision model (Charm.parse app.charm).name channel, answer.map .revision⟩]
      (answer.map (deployed < ·))

/-- Whatever the controller answers, a check of a revision asks it once at most, and what it asks
for is a channel just if the application follows a channel. -/
theorem revisionUpdateNeeded_lookup (controller : Controller (StateM σ))
    (application model : String) (status : ModelStatus) (s : σ) :
    Shows (revisionUpdateNeeded controller application model status)
      (revisionUpdateNeeded (controller.watched id) application model status) s
      fun answers result _ => RevisionLookup application model status answers result := by
  unfold revisionUpdateNeeded
  cases hfind : status.applications.find? application with
  | none => exact .throw _ (.unknown hfind)
  | some app =>
    dsimp only
    cases hrevision : (Charm.parse app.charm).revision with
    | none => exact .pure false (.unnumbered hfind hrevision)
    | some deployed =>
      have hcall : Shows
          (controller.latestRevision model (Charm.parse app.charm).name app.followed)
          ((controller.watched id).latestRevision model (Charm.parse app.charm).name app.followed)
          s fun answers answer _ => answers =
            [⟨.latestRevision model (Charm.parse app.charm).name app.followed,
              answer.map .revision⟩] :=
        .call id _ .revision _ fun _ _ _ => rfl
      have hasked (answer : Except Error Nat) : RevisionLookup application model status
          [⟨.latestRevision model (Charm.parse app.charm).name app.followed,
            answer.map .revision⟩] (answer.map (deployed < ·)) :=
        .asked hfind hrevision app.namesChannel_followed_iff answer
      refine hcall.bind ?_ ?_
      · rintro e answers s' rfl
        exact hasked (.error e)
      · rintro latest answers s' rfl
        exact .pure _ (hasked (.ok latest))

/-! ## Simulated fleets -/

namespace Simulation.World

/-- A fleet that publishes a newer revision on every channel of the default track. -/
def wellPublished : World :=
  { World.empty with
    revisions := .ofList (Risk.all.map fun risk => ("nova@latest/" ++ risk.name, 31)) }

/-- The status of a model with one application. -/
def novaOn (channel : Option String) : ModelStatus :=
  ⟨Dict.empty.insert "nova" ⟨"ch:amd64/jammy/nova-30", channel⟩⟩

/-- A risk alone is looked up on the default track. -/
theorem revisionUpdateNeeded_lookup_bareRisk : ∃ answers world,
    exec (revisionUpdateNeeded (controller.watched id) "nova" "model" (novaOn (some "edge")))
      (wellPublished, []) = (.ok true, (world, answers)) ∧
    RevisionLookup "nova" "model" (novaOn (some "edge")) answers (.ok true) := by
  obtain ⟨result, world, answers, hplain, hwatched, hlookup⟩ :=
    revisionUpdateNeeded_lookup controller "nova" "model" (novaOn (some "edge")) wellPublished []
  obtain rfl : .ok true = result := by
    have hrun : (exec (revisionUpdateNeeded controller "nova" "model" (novaOn (some "edge")))
        wellPublished).1 = .ok true := by rfl
    rw [← hrun, hplain]
  exact ⟨answers, world, hwatched, hlookup⟩

/-- An application that follows no channel is looked up on none that there is. -/
theorem novaOn_none_asks :
    let run := exec (revisionUpdateNeeded controller "nova" "model" (novaOn none)) wellPublished
    (Charm.parse "ch:amd64/jammy/nova-30").revision = some 30 ∧
      run.1 = .error (.controllerRequest "no revision of nova on latest/latest") ∧
      run.2.calls = [.latestRevision "model" "nova" "latest/latest"] ∧
      Channel.parse "latest/latest" = .error (.unknownRisk "latest") :=
  ⟨rfl, rfl, rfl, rfl⟩

end Simulation.World

end Converge
