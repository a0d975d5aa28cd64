import Converge.Outcome
import Converge.Settings.Basic
import Converge.Proofs.DocumentText
/-!
# What types write

Each type reads back what it writes, given levels enough.  Numbers have to be ones that are read,
and a free-form part comes back as `Json.reread` says.  Main statements:
`Application.decode_toTree`, `ModelStatus.decode_toTree`, `Settings.InRange.decode_toTree` and
`Outcome.decode_toTree`, and that settings and outcomes that have been read are as these ask
(`Settings.inRange_of_decode` and `Outcome.isPayload_of_decode`).
-/

namespace Converge

/-! ## Decoders -/

/-- Only null is read as null. -/
theorem Json.eq_null_of_value? {levels : Nat} {tree : Json.Tree}
    (h : tree.value? levels = some .null) : tree = .null := by
  cases tree with
  | null => rfl
  | bool b => cases h
  | number l =>
    rcases Json.Literal.number?_cases h with ⟨_, hvalue, -⟩ | ⟨_, hvalue⟩ <;> cases hvalue
  | str text =>
    obtain ⟨_, -, hvalue⟩ := Option.map_eq_some_iff.1 h
    cases hvalue
  | arr items =>
    cases levels with
    | zero => cases h
    | succ levels =>
      obtain ⟨_, -, hvalue⟩ := Option.map_eq_some_iff.1 h
      cases hvalue
  | obj fields =>
    cases levels with
    | zero => cases h
    | succ levels =>
      obtain ⟨_, -, hvalue⟩ := Option.map_eq_some_iff.1 h
      cases hvalue

namespace Json.Decoder

variable {α : Type}

/-- A value that is not null is read where it may be absent. -/
theorem optional_toTree_eq {decoder : Decoder α} {levels : Nat} {value : Json} {read : α}
    (hnull : value ≠ .null) (h : decoder levels value.toTree = some read) :
    Decoder.optional decoder levels value.toTree = some (some read) := by
  cases value with
  | null => exact absurd rfl hnull
  | _ => exact congrArg (Option.map some) h

theorem of_optional {decoder : Decoder α} {levels : Nat} {tree : Tree} {value : α}
    (h : Decoder.optional decoder levels tree = some (some value)) :
    tree ≠ .null ∧ decoder levels tree = some value := by
  cases tree with
  | null => cases h
  | _ =>
    obtain ⟨_, hread, heq⟩ := Option.map_eq_some_iff.1 h
    cases heq
    exact ⟨nofun, hread⟩

/-- A list is read back if each of its items is. -/
theorem list_toTree_eq {decoder : Decoder α} {levels : Nat} {write : α → Json} {items : List α}
    (h : ∀ item ∈ items, decoder levels (write item).toTree = some item) :
    Decoder.list decoder (levels + 1) (Json.arr (items.map write)).toTree = some items := by
  show (toTree.itemTrees (items.map write)).mapM (decoder levels) = _
  rw [toTree.itemTrees_eq_map, List.map_map, List.mapM_map]
  exact (mapM_eq_some_map (g := id) h).trans (congrArg some (List.map_id _))

theorem natBelow_toTree (levels : Nat) {n limit : Nat} (h : n < limit)
    (hlimit : limit ≤ Text.wordLimit) :
    Decoder.natBelow limit levels (Json.int n).toTree = some n := by
  have hword : Text.wordLimit = 2 ^ 64 := rfl
  have hnumber : (Literal.ofInt n).number? = some (.int n) :=
    Literal.number?_ofInt ⟨by omega, by omega⟩
  simp [Decoder.natBelow, Json.toTree, hnumber, h]

theorem lt_of_natBelow {limit levels n : Nat} {tree : Tree}
    (h : Decoder.natBelow limit levels tree = some n) : n < limit := by
  unfold Decoder.natBelow at h
  split at h
  · split at h
    · split at h
      · next hfits =>
        simp only [Bool.and_eq_true, decide_eq_true_eq] at hfits
        obtain rfl := Option.some.inj h
        omega
      · cases h
    · cases h
  · cases h

end Json.Decoder

/-- What holds of every value that a decoder reads, and of the default, holds of a field. -/
theorem Json.Fields.of_withDefault {α : Type} {p : α → Prop} {fields : Json.Fields} {name : String}
    {decoder : Json.Decoder α} {default value : α}
    (h : fields.withDefault name decoder default = some value)
    (hread : ∀ tree, decoder fields.levels tree = some value → p value) (hdefault : p default) :
    p value := by
  unfold Json.Fields.withDefault at h
  split at h
  · exact hread _ h
  · obtain rfl := Option.some.inj h
    exact hdefault

/-! ## Names -/

theorem Status.decode_toTree (levels : Nat) (status : Status) :
    Status.decode levels (Json.str status.name).toTree = some status := by
  cases status <;> rfl

theorem ErrorKind.decode_toTree (levels : Nat) (kind : ErrorKind) :
    ErrorKind.decode levels (Json.str kind.name).toTree = some kind := by
  cases kind <;> rfl

/-! ## Units and applications -/

theorem AppUnit.decode_toTree (levels : Nat) (unit : AppUnit) :
    AppUnit.decode (levels + 2) unit.toJson.toTree = some unit := rfl

theorem Application.decode_toTree (levels : Nat) (app : Application) :
    Application.decode (levels + 4) app.toJson.toTree = some app := by
  have hdecode : Application.decode (levels + 4) app.toJson.toTree =
      (Json.Decoder.list AppUnit.decode (levels + 3)
        (Json.arr (app.units.map AppUnit.toJson)).toTree).bind fun units =>
          some ⟨app.name, units⟩ := rfl
  rw [hdecode, Json.Decoder.list_toTree_eq fun unit _ => AppUnit.decode_toTree levels unit]
  rfl

theorem ApplicationStatus.decode_toTree (levels : Nat) (status : ApplicationStatus) :
    ApplicationStatus.decode (levels + 1) status.toJson.toTree = some status := by
  obtain ⟨charm, channel⟩ := status
  cases channel <;> rfl

theorem ModelStatus.decode_toTree (levels : Nat) (status : ModelStatus) :
    ModelStatus.decode (levels + 3) status.toJson.toTree = some status := by
  have hdecode : ModelStatus.decode (levels + 3) status.toJson.toTree =
      (Json.Decoder.dict ApplicationStatus.decode (levels + 2)
        (Json.ofRecord (status.applications.map ApplicationStatus.toJson)).toTree).bind fun apps =>
          some ⟨apps⟩ := rfl
  have hid : status.applications.map id = status.applications :=
    Dict.map_eq_self_iff.2 fun _ _ _ => rfl
  have happs : Json.Decoder.dict ApplicationStatus.decode (levels + 2)
      (Json.ofRecord (status.applications.map ApplicationStatus.toJson)).toTree =
        some (status.applications.map id) :=
    Json.Decoder.dict_toTree_eq fun _ app _ => ApplicationStatus.decode_toTree levels app
  rw [hdecode, happs, hid]
  rfl

/-! ## Settings -/

namespace Settings

/-- Every wait is one that is read. -/
structure Timeouts.InRange (timeouts : Timeouts) : Prop where
  deploy : timeouts.deploy < secondsLimit
  unit : timeouts.unit < secondsLimit
  upgrade : timeouts.upgrade < secondsLimit

/-- Both numbers are ones that are read. -/
structure Retry.InRange (retry : Retry) : Prop where
  maxAttempts : retry.maxAttempts < attemptsLimit
  pause : retry.pause < secondsLimit

/-- Every number is one that is read. -/
structure InRange (settings : Settings) : Prop where
  timeouts : settings.timeouts.InRange
  retry : settings.retry.InRange

theorem Store.decode_toTree (levels : Nat) (store : Store) :
    Store.decode (levels + 1) (Json.obj [("path", .ofString? store.path)]).toTree = some store := by
  obtain ⟨path⟩ := store
  cases path <;> rfl

theorem Timeouts.InRange.decode_toTree {timeouts : Timeouts} (h : timeouts.InRange)
    (levels : Nat) :
    Timeouts.decode (levels + 1) (Json.obj [("deploy_secs", .int timeouts.deploy),
      ("unit_secs", .int timeouts.unit), ("upgrade_secs", .int timeouts.upgrade)]).toTree =
        some timeouts := by
  have hseconds {n : Nat} (hn : n < secondsLimit) :=
    Json.Decoder.natBelow_toTree levels hn (Nat.le_refl _)
  show (Json.Decoder.natBelow secondsLimit levels (Json.int timeouts.deploy).toTree).bind
    (fun deploy =>
      (Json.Decoder.natBelow secondsLimit levels (Json.int timeouts.unit).toTree).bind fun unit =>
      (Json.Decoder.natBelow secondsLimit levels (Json.int timeouts.upgrade).toTree).bind
        fun upgrade => some (Timeouts.mk deploy unit upgrade)) = _
  rw [hseconds h.deploy, hseconds h.unit, hseconds h.upgrade]
  rfl

theorem Retry.InRange.decode_toTree {retry : Retry} (h : retry.InRange) (levels : Nat) :
    Retry.decode (levels + 1) (Json.obj [("max_attempts", .int retry.maxAttempts),
      ("pause_secs", .int retry.pause)]).toTree = some retry := by
  show (Json.Decoder.natBelow attemptsLimit levels (Json.int retry.maxAttempts).toTree).bind
    (fun maxAttempts =>
      (Json.Decoder.natBelow secondsLimit levels (Json.int retry.pause).toTree).bind fun pause =>
        some (Retry.mk maxAttempts pause)) = _
  rw [Json.Decoder.natBelow_toTree levels h.maxAttempts (by decide),
    Json.Decoder.natBelow_toTree levels h.pause (Nat.le_refl _)]
  rfl

theorem InRange.decode_toTree {settings : Settings} (h : settings.InRange) (levels : Nat) :
    Settings.decode (levels + 2) settings.toJson.toTree = some settings := by
  show (Store.decode (levels + 1) _).bind (fun store =>
    (Timeouts.decode (levels + 1) _).bind fun timeouts =>
    (Retry.decode (levels + 1) _).bind fun retry =>
      some (Settings.mk store timeouts retry)) = _
  rw [Store.decode_toTree, h.timeouts.decode_toTree, h.retry.decode_toTree]
  rfl

theorem lt_of_withDefault {fields : Json.Fields} {name : String} {limit default n : Nat}
    (h : fields.withDefault name (.natBelow limit) default = some n) (hdefault : default < limit) :
    n < limit :=
  Json.Fields.of_withDefault (p := (· < limit)) h (fun _ => Json.Decoder.lt_of_natBelow) hdefault

theorem Timeouts.inRange_of_decode {timeouts : Timeouts} {levels : Nat} {tree : Json.Tree}
    (h : Timeouts.decode levels tree = some timeouts) : timeouts.InRange := by
  obtain ⟨fields, -, h⟩ := Option.bind_eq_some_iff.1 h
  obtain ⟨deploy, hdeploy, h⟩ := Option.bind_eq_some_iff.1 h
  obtain ⟨unit, hunit, h⟩ := Option.bind_eq_some_iff.1 h
  obtain ⟨upgrade, hupgrade, h⟩ := Option.bind_eq_some_iff.1 h
  obtain rfl := Option.some.inj h
  exact ⟨lt_of_withDefault hdeploy (by decide), lt_of_withDefault hunit (by decide),
    lt_of_withDefault hupgrade (by decide)⟩

theorem Retry.inRange_of_decode {retry : Retry} {levels : Nat} {tree : Json.Tree}
    (h : Retry.decode levels tree = some retry) : retry.InRange := by
  obtain ⟨fields, -, h⟩ := Option.bind_eq_some_iff.1 h
  obtain ⟨maxAttempts, hattempts, h⟩ := Option.bind_eq_some_iff.1 h
  obtain ⟨pause, hpause, h⟩ := Option.bind_eq_some_iff.1 h
  obtain rfl := Option.some.inj h
  exact ⟨lt_of_withDefault hattempts (by decide), lt_of_withDefault hpause (by decide)⟩

theorem inRange_of_decode {settings : Settings} {levels : Nat} {tree : Json.Tree}
    (h : Settings.decode levels tree = some settings) : settings.InRange := by
  obtain ⟨fields, -, h⟩ := Option.bind_eq_some_iff.1 h
  obtain ⟨store, -, h⟩ := Option.bind_eq_some_iff.1 h
  obtain ⟨timeouts, htimeouts, h⟩ := Option.bind_eq_some_iff.1 h
  obtain ⟨retry, hretry, h⟩ := Option.bind_eq_some_iff.1 h
  obtain rfl := Option.some.inj h
  exact ⟨Json.Fields.of_withDefault htimeouts (fun _ => Timeouts.inRange_of_decode)
      ⟨by decide, by decide, by decide⟩,
    Json.Fields.of_withDefault hretry (fun _ => Retry.inRange_of_decode)
      ⟨by decide, by decide⟩⟩

end Settings

/-! ## Outcomes -/

namespace Outcome

/-- The outcome that comes back from the text of an outcome. -/
def reread (outcome : Outcome) : Outcome :=
  { outcome with payload := outcome.payload.map Json.reread }

/-- A payload that is read: no null, and no deeper than the reader goes below the outcome. -/
structure IsPayload (levels : Nat) (payload : Json) : Prop where
  ne_null : payload ≠ .null
  sound : payload.Sound
  depth_le : payload.depth ≤ levels

theorem decode_toTree {outcome : Outcome} {levels : Nat}
    (h : ∀ payload ∈ outcome.payload, IsPayload levels payload) :
    Outcome.decode (levels + 1) outcome.toJson.toTree = some outcome.reread := by
  obtain ⟨status, message, payload⟩ := outcome
  cases payload with
  | none => cases status <;> cases message <;> rfl
  | some payload =>
    obtain ⟨hnull, hsound, hdepth⟩ := h payload rfl
    have hdecode : Outcome.decode (levels + 1) (toJson ⟨status, message, some payload⟩).toTree =
        (Json.Decoder.optional .value levels payload.toTree).bind fun payload =>
          some ⟨status, message, payload⟩ := by
      cases status <;> cases message <;> rfl
    have hpayload : Json.Decoder.optional .value levels payload.toTree =
        some (some payload.reread) :=
      Json.Decoder.optional_toTree_eq hnull (hsound.value?_toTree hdepth)
    rw [hdecode, hpayload]
    rfl

/-- An outcome that is read has no payload but one that is read back. -/
theorem isPayload_of_decode {outcome : Outcome} {levels : Nat} {tree : Json.Tree}
    (h : Outcome.decode (levels + 1) tree = some outcome) :
    ∀ payload ∈ outcome.payload, IsPayload levels payload := by
  obtain ⟨fields, hfields, h⟩ := Option.bind_eq_some_iff.1 h
  obtain ⟨status, -, h⟩ := Option.bind_eq_some_iff.1 h
  obtain ⟨message, -, h⟩ := Option.bind_eq_some_iff.1 h
  obtain ⟨payload, hpayload, h⟩ := Option.bind_eq_some_iff.1 h
  obtain rfl := Option.some.inj h
  obtain rfl : levels = fields.levels := Nat.succ.inj (Json.Fields.levels_of_ofTree? hfields)
  refine Json.Fields.of_withDefault
    (p := fun read : Option Json => ∀ payload ∈ read, IsPayload fields.levels payload) hpayload
    (fun tree hread value hvalue => ?_) nofun
  obtain rfl := Option.mem_def.1 hvalue
  obtain ⟨hnull, hread⟩ := Json.Decoder.of_optional hread
  obtain ⟨hsound, hdepth⟩ := Json.sound_of_value? tree hread
  exact ⟨fun hvalue => hnull (Json.eq_null_of_value? (hvalue ▸ hread)), hsound, hdepth⟩

/-- The outcomes that come back as they were are those with a steady payload, or none. -/
theorem reread_eq_iff {outcome : Outcome} {levels : Nat}
    (h : ∀ payload ∈ outcome.payload, IsPayload levels payload) :
    outcome.reread = outcome ↔ ∀ payload ∈ outcome.payload, payload.Steady := by
  obtain ⟨status, message, payload⟩ := outcome
  cases payload with
  | none => exact iff_of_true rfl nofun
  | some payload =>
    have hsteady := (h payload rfl).sound.reread_eq_iff
    constructor
    · rintro heq _ ⟨⟩
      exact hsteady.1 (Option.some.inj (congrArg Outcome.payload heq))
    · intro hall
      rw [reread, Option.map_some, hsteady.2 (hall payload rfl)]

end Outcome

end Converge
