import Converge.Outcome
import Converge.Proofs.RoundTrip
/-!
# Outcomes that explain themselves

An outcome explains itself when it has a message unless it is completed.  Whatever this library
builds does, but a text may hold an outcome that does not: its reader takes a message that is left
out for one that is absent.  Main statement: an outcome explains itself just if it is completed or
what it comes from gives a message (`explained_iff`).
-/

namespace Converge.Outcome

/-- An outcome has a message unless it is completed. -/
def Explained (outcome : Outcome) : Prop :=
  outcome.status ≠ .completed → outcome.message.isSome

/-! ## Where outcomes come from -/

/-- What an outcome is made from: by one of the four ways of building one, or by reading a text. -/
inductive Origin where
  | completed
  | completedWith (payload : Json)
  | skipped (message : String)
  | failed (message : String)
  | text (source : String)

namespace Origin

/-- The outcome that an origin gives, if there is one. -/
def outcome? : Origin → Option Outcome
  | .completed => some .completed
  | .completedWith payload => some (.completedWith payload)
  | .skipped message => some (.skipped message)
  | .failed message => some (.failed message)
  | .text source => Json.decode? decode source

/-- A message is given: to the builder of the outcome, or by a text, as a string in the field of an
object or at its place in an array. -/
inductive GivesMessage : Origin → Prop
  | skipped (message : String) : GivesMessage (.skipped message)
  | failed (message : String) : GivesMessage (.failed message)
  | field {source message : String} {fields : List (Option String × Json.Tree)}
      (hsource : Json.Tree.ofText? source = some (.obj fields))
      (hfield : (some "message", .str (some message)) ∈ fields) : GivesMessage (.text source)
  | item {source message : String} {items : List Json.Tree}
      (hsource : Json.Tree.ofText? source = some (.arr items))
      (hitem : items[1]? = some (.str (some message))) : GivesMessage (.text source)

end Origin

/-! ## Messages that are read -/

theorem lookup_eq_some_of_mem {β : Type} {key : String} {value : β}
    {fields : List (Option String × β)} (hcount : (fields.map (·.1)).count (some key) ≤ 1)
    (h : (some key, value) ∈ fields) : fields.lookup (some key) = some value := by
  obtain ⟨before, after, rfl⟩ := List.append_of_mem h
  refine List.lookup_eq_some_iff.2 ⟨before, after, rfl, fun field hmem => bne_iff_ne.2 ?_⟩
  intro hkey
  -- a second field of that name would be one too many
  have hpos : 0 < (before.map (·.1)).count (some key) :=
    List.count_pos_iff.2 (hkey ▸ List.mem_map_of_mem hmem)
  rw [List.map_append, List.count_append, List.map_cons, List.count_cons_self] at hcount
  omega

/-- An optional text that is read is there just if the field holds a string. -/
theorem isSome_of_withDefault {fields : Json.Fields} {name : String} {message : Option String}
    (h : fields.withDefault name (.optional .text) none = some message) :
    message.isSome ↔ ∃ text, fields.slot name = some (.str (some text)) := by
  unfold Json.Fields.withDefault at h
  split at h
  · next tree hslot =>
    rw [hslot]
    cases tree with
    | null =>
      cases h
      exact iff_of_false nofun (by rintro ⟨_, heq⟩; cases heq)
    | str text =>
      cases text with
      | none => cases h
      | some text =>
        cases h
        exact iff_of_true rfl ⟨text, rfl⟩
    | _ => cases h
  · next hslot =>
    cases h
    rw [hslot]
    exact iff_of_false nofun (by rintro ⟨_, heq⟩; cases heq)

/-- An outcome that is read has a message just if the text gives one. -/
theorem isSome_message_of_decode? {text : String} {outcome : Outcome}
    (h : Json.decode? decode text = some outcome) :
    outcome.message.isSome ↔ (Origin.text text).GivesMessage := by
  obtain ⟨tree, htree, h⟩ := Option.bind_eq_some_iff.1 h
  obtain ⟨fields, hfields, h⟩ := Option.bind_eq_some_iff.1 h
  obtain ⟨status, -, h⟩ := Option.bind_eq_some_iff.1 h
  obtain ⟨message, hmessage, h⟩ := Option.bind_eq_some_iff.1 h
  obtain ⟨payload, -, h⟩ := Option.bind_eq_some_iff.1 h
  obtain rfl := Option.some.inj h
  rw [show Outcome.message ⟨status, message, payload⟩ = message from rfl,
    isSome_of_withDefault hmessage]
  unfold Json.Fields.ofTree? at hfields
  split at hfields
  · next levels entries =>
    dsimp only at hfields
    split at hfields
    · next hkeys =>
      obtain rfl := Option.some.inj hfields
      simp only [Bool.and_eq_true, List.all_eq_true, decide_eq_true_eq] at hkeys
      constructor
      · rintro ⟨text, hslot⟩
        obtain ⟨before, after, rfl, -⟩ := List.lookup_eq_some_iff.1 hslot
        exact .field htree (List.mem_append_right _ List.mem_cons_self)
      · intro hgives
        cases hgives with
        | @field text message entries' htext hfield =>
          cases htree.symm.trans htext
          exact ⟨message, lookup_eq_some_of_mem (hkeys.2 "message" (by decide)) hfield⟩
        | item htext _ => cases htree.symm.trans htext
    · cases hfields
  · next levels items =>
    split at hfields
    · obtain rfl := Option.some.inj hfields
      constructor
      · rintro ⟨text, hslot⟩
        exact .item htree hslot
      · intro hgives
        cases hgives with
        | @item text message items' htext hitem =>
          cases htree.symm.trans htext
          exact ⟨message, hitem⟩
        | field htext _ => cases htree.symm.trans htext
    · cases hfields
  · cases hfields

/-! ## Outcomes that explain themselves -/

/-- An outcome explains itself just if it is completed or what it comes from gives a message. -/
theorem explained_iff {origin : Origin} {outcome : Outcome} (h : origin.outcome? = some outcome) :
    outcome.Explained ↔ outcome.status = .completed ∨ origin.GivesMessage := by
  rw [Explained, ← Decidable.or_iff_not_imp_left]
  cases origin with
  | completed | completedWith =>
    cases h
    exact iff_of_true (.inl rfl) (.inl rfl)
  | skipped message =>
    cases h
    exact iff_of_true (.inr rfl) (.inr (.skipped message))
  | failed message =>
    cases h
    exact iff_of_true (.inr rfl) (.inr (.failed message))
  | text source =>
    have hmessage : outcome.message.isSome ↔ (Origin.text source).GivesMessage :=
      isSome_message_of_decode? h
    rw [hmessage]

/-- The text of a failure without a message, which is read all the same. -/
def bareText : String :=
  "\x7b\"result_type\":\"FAILED\"\x7d"

theorem bareText_eq : bareText = (Json.obj [("result_type", .str "FAILED")]).compact := by
  decide +kernel

theorem outcome?_bareText : (Origin.text bareText).outcome? = some ⟨.failed, none, none⟩ := by
  show (Json.Tree.ofText? bareText).bind (decode Json.maxDepth) = _
  rw [bareText_eq, Json.ofText?_compact]
  rfl

theorem explained_iff_bareText : (Origin.text bareText).outcome? = some ⟨.failed, none, none⟩ ∧
    (Explained ⟨.failed, none, none⟩ ↔
      Outcome.status ⟨.failed, none, none⟩ = .completed ∨ (Origin.text bareText).GivesMessage) :=
  ⟨outcome?_bareText, explained_iff outcome?_bareText⟩

/-- A failure that is read from a text may have no message. -/
theorem not_explained_bareText : ∃ outcome,
    (Origin.text bareText).outcome? = some outcome ∧ ¬ outcome.Explained :=
  ⟨_, outcome?_bareText, fun h => absurd (h nofun) nofun⟩

end Converge.Outcome
