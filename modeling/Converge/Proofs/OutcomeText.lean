import Converge.Proofs.TypedText
/-!
# The text of an outcome

A payload of null is written, but the reader takes a null for a payload that is absent; any other
payload of whole numbers comes back as it was.  What is read from the text of an outcome that has
been built is therefore the outcome without a null (`Built.decode?_text`).  Main statement: such an
outcome is read back just if its payload is no null (`Built.survives_iff`).
-/

namespace Converge

/-! ## Whole values -/

namespace Json

/-- Every number in a value is an integer of 64 bits. -/
inductive Whole : Json → Prop
  | null : Whole .null
  | bool (b : Bool) : Whole (.bool b)
  | int {n : Int} (h : -2 ^ 63 ≤ n ∧ n < 2 ^ 64) : Whole (.int n)
  | str (text : String) : Whole (.str text)
  | arr {items : List Json} (h : ∀ item ∈ items, item.Whole) : Whole (.arr items)
  | obj {fields : List (String × Json)} (sorted : fields.Pairwise (fun a b => a.1 < b.1))
      (h : ∀ field ∈ fields, field.2.Whole) : Whole (.obj fields)

namespace Whole

variable {value : Json}

theorem sound (h : value.Whole) : value.Sound := by
  induction h with
  | null => exact .null
  | bool b => exact .bool b
  | int h => exact .int h
  | str text => exact .str text
  | arr _ ih => exact .arr ih
  | obj sorted _ ih => exact .obj sorted ih

theorem steady (h : value.Whole) : value.Steady := by
  induction h with
  | null => exact .null
  | bool b => exact .bool b
  | @int n _ => exact .int n
  | str text => exact .str text
  | arr _ ih => exact .arr ih
  | obj _ _ ih => exact .obj ih

end Whole

end Json

/-! ## Outcomes that have been built -/

namespace Outcome

/-- An outcome that is built in one of the four ways, with whole data for the caller. -/
inductive Built : Outcome → Prop
  | completed : Built .completed
  | completedWith {payload : Json} (h : payload.Whole) : Built (.completedWith payload)
  | skipped (message : String) : Built (.skipped message)
  | failed (message : String) : Built (.failed message)

theorem Built.whole {outcome : Outcome} (h : outcome.Built) :
    ∀ payload ∈ outcome.payload, payload.Whole := by
  cases h with
  | completedWith h =>
    intro payload hpayload
    rwa [← Option.some.inj (Option.mem_def.1 hpayload)]
  | completed | skipped | failed => exact nofun

/-- The payload stands one level below the outcome. -/
theorem depth_payload_le {outcome : Outcome} {levels : Nat}
    (h : outcome.toJson.depth ≤ levels + 1) : ∀ payload ∈ outcome.payload,
      payload.depth ≤ levels := by
  intro payload hpayload
  have hfield : ("payload", payload) ∈ [("result_type", Json.str outcome.status.name)] ++
      (outcome.message.map fun message => ("message", Json.str message)).toList ++
      (outcome.payload.map fun payload => ("payload", payload)).toList := by
    rw [Option.mem_def.1 hpayload]
    exact List.mem_append_right _ List.mem_cons_self
  exact Json.depth_obj_le_iff.1 h _ hfield

/-- The outcome with a null for no payload. -/
def withoutNull (outcome : Outcome) : Outcome :=
  match outcome.payload with
  | some .null => { outcome with payload := none }
  | _ => outcome

theorem withoutNull_of_null {outcome : Outcome} (h : outcome.payload = some .null) :
    outcome.withoutNull = { outcome with payload := none } := by
  rw [withoutNull, h]

theorem withoutNull_of_ne {outcome : Outcome} (h : outcome.payload ≠ some .null) :
    outcome.withoutNull = outcome := by
  unfold withoutNull
  split
  · next hnull => exact absurd hnull h
  · rfl

theorem withoutNull_eq_iff {outcome : Outcome} :
    outcome.withoutNull = outcome ↔ outcome.payload ≠ some .null := by
  constructor
  · intro h hnull
    rw [withoutNull_of_null hnull] at h
    have hpayload : none = outcome.payload := congrArg Outcome.payload h
    rw [hnull] at hpayload
    cases hpayload
  · exact withoutNull_of_ne

/-! ## What is read back -/

theorem decode_toTree_null (levels : Nat) (status : Status) (message : Option String) :
    decode (levels + 1) (toJson ⟨status, message, some .null⟩).toTree =
      some ⟨status, message, none⟩ := by
  cases status <;> cases message <;> rfl

theorem Built.decode_toTree {outcome : Outcome} (h : outcome.Built) {levels : Nat}
    (hdepth : outcome.toJson.depth ≤ levels + 1) :
    decode (levels + 1) outcome.toJson.toTree = some outcome.withoutNull := by
  by_cases hnull : outcome.payload = some .null
  · obtain ⟨status, message, _⟩ := outcome
    obtain rfl := hnull
    exact decode_toTree_null levels status message
  · have hpayload : ∀ payload ∈ outcome.payload, IsPayload levels payload :=
      fun payload hmem => ⟨fun heq => hnull (heq ▸ hmem), (h.whole payload hmem).sound,
        depth_payload_le hdepth payload hmem⟩
    rw [Outcome.decode_toTree hpayload,
      (reread_eq_iff hpayload).2 fun payload hmem => (h.whole payload hmem).steady,
      withoutNull_of_ne hnull]

/-- What is read from either text of an outcome is the outcome without a null. -/
theorem Built.decode?_text {outcome : Outcome} (h : outcome.Built)
    (hdepth : outcome.toJson.depth ≤ Json.maxDepth) {text : String}
    (htext : text = outcome.toJson.compact ∨ text = outcome.toJson.pretty) :
    Json.decode? decode text = some outcome.withoutNull := by
  have htree : Json.Tree.ofText? text = some outcome.toJson.toTree := by
    rcases htext with rfl | rfl
    · exact Json.ofText?_compact _
    · exact Json.ofText?_pretty _
  rw [Json.decode?, htree, Option.bind_some]
  exact h.decode_toTree hdepth

/-- An outcome that has been built is read back from its text, on one line or indented, just if its
payload is no null. -/
theorem Built.survives_iff {outcome : Outcome} (h : outcome.Built)
    (hdepth : outcome.toJson.depth ≤ Json.maxDepth) {text : String}
    (htext : text = outcome.toJson.compact ∨ text = outcome.toJson.pretty) :
    Json.decode? decode text = some outcome ↔ outcome.payload ≠ some .null := by
  rw [h.decode?_text hdepth htext, Option.some.injEq, withoutNull_eq_iff]

/-- An outcome with the addresses of a unit, one of which is not known. -/
def addressed : Outcome :=
  .completedWith (.obj [("addresses", .arr [.str "10.0.0.4", .null]), ("unit", .str "app/0")])

theorem built_addressed : addressed.Built := by
  refine .completedWith (.obj (by decide) (List.forall_mem_cons.2 ⟨.arr ?_, ?_⟩))
  · exact List.forall_mem_cons.2 ⟨.str _, List.forall_mem_singleton.2 .null⟩
  · exact List.forall_mem_singleton.2 (.str _)

theorem survives_addressed : addressed.Built ∧ addressed.toJson.depth ≤ Json.maxDepth ∧
    (Json.decode? decode addressed.toJson.compact = some addressed ↔
      addressed.payload ≠ some .null) :=
  ⟨built_addressed, by decide, built_addressed.survives_iff (by decide) (.inl rfl)⟩

/-- An outcome that has been built with a null does not survive. -/
theorem not_survives_null : (completedWith .null).Built ∧
    (completedWith .null).toJson.depth ≤ Json.maxDepth ∧
    Json.decode? decode (completedWith .null).toJson.compact = some completed ∧
    completedWith .null ≠ completed :=
  have hbuilt : (completedWith .null).Built := .completedWith .null
  ⟨hbuilt, by decide, hbuilt.decode?_text (by decide) (.inl rfl),
    fun h => absurd (congrArg Outcome.payload h) nofun⟩

end Outcome

end Converge
