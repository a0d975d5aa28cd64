import Converge.Proofs.PluginText
import Converge.Proofs.TypedText
import Converge.Proofs.WholeText
/-!
# Normal forms

A text is a normal form when it is read as a value whose text it is.  Main statement: of whatever
type, the text of a value that has been read, however the first text was laid out, is a normal form
just if the free-form parts of the value are steady, as they are when all numbers in the first text
are integers of 64 bits (`DocumentType.normal_form`).  A wider integer may break it.
-/

namespace Converge

/-! ## Texts of 64-bit integers -/

/-- The payload of an outcome from a text of 64-bit integers is steady. -/
theorem Outcome.steady_of_words {tree : Json.Tree}
    (hwords : tree.Numbers Json.Literal.IsWord) {levels : Nat} {outcome : Outcome}
    (h : Outcome.decode levels tree = some outcome) :
    ∀ payload ∈ outcome.payload, payload.Steady := by
  obtain ⟨fields, hfields, h⟩ := Option.bind_eq_some_iff.1 h
  obtain ⟨status, -, h⟩ := Option.bind_eq_some_iff.1 h
  obtain ⟨message, -, h⟩ := Option.bind_eq_some_iff.1 h
  obtain ⟨payload, hpayload, h⟩ := Option.bind_eq_some_iff.1 h
  obtain rfl := Option.some.inj h
  intro value hvalue
  obtain rfl : payload = some value := hvalue
  unfold Json.Fields.withDefault at hpayload
  split at hpayload
  · next field hslot =>
    exact (hwords.slot hfields hslot).steady (Json.Decoder.of_optional hpayload).2
  · cases hpayload

/-- So are the fields that a plugin has added. -/
theorem Plugin.State.steady_of_words {tree : Json.Tree}
    (hwords : tree.Numbers Json.Literal.IsWord) {levels : Nat} {state : State}
    (h : State.decode levels tree = some state) :
    (Json.ofRecord state.extra).Steady := by
  obtain ⟨record, hrecord, hread⟩ := exists_record_of_decode h
  rw [(of_read hread).2]
  cases hwords.steady (Json.Decoder.value?_of_record hrecord) with
  | obj hall =>
    refine .obj fun field hmem => ?_
    have hfind := Dict.find?_eq_some_iff.2 (show (field.1, field.2) ∈ _ from hmem)
    rw [Dict.find?_foldl_erase] at hfind
    split at hfind
    · cases hfind
    · exact hall _ (Dict.find?_eq_some_iff.1 hfind)

/-! ## Types -/

/-- What a text may be read as. -/
inductive DocumentType where
  | outcome
  | status
  | errorKind
  | node
  | unit
  | application
  | modelStatus
  | settings
  | pluginState

namespace DocumentType

/-- The values of a type. -/
abbrev Value : DocumentType → Type
  | .outcome => Outcome
  | .status => Status
  | .errorKind => ErrorKind
  | .node => Node
  | .unit => AppUnit
  | .application => Application
  | .modelStatus => ModelStatus
  | .settings => Settings
  | .pluginState => Plugin.State

/-- Reads a value from a text's content. -/
def decode : (type : DocumentType) → Json.Decoder type.Value
  | .outcome => Outcome.decode
  | .status => Status.decode
  | .errorKind => ErrorKind.decode
  | .node => Node.decode
  | .unit => AppUnit.decode
  | .application => Application.decode
  | .modelStatus => ModelStatus.decode
  | .settings => Settings.decode
  | .pluginState => Plugin.State.decode

/-- The written form of a value. -/
def write : (type : DocumentType) → type.Value → Json
  | .outcome, value => value.toJson
  | .status, value => .str value.name
  | .errorKind, value => .str value.name
  | .node, value => value.toJson
  | .unit, value => value.toJson
  | .application, value => value.toJson
  | .modelStatus, value => value.toJson
  | .settings, value => value.toJson
  | .pluginState, value => value.toJson

/-- Reads a value from a text. -/
def read? (type : DocumentType) (source : String) : Option type.Value :=
  Json.decode? type.decode source

/-- The text of a value. -/
def print (type : DocumentType) (value : type.Value) : String :=
  (type.write value).compact

/-- The parts of a value that may be any JSON: a payload, or the fields that a plugin adds. -/
def freeForm : (type : DocumentType) → type.Value → List Json
  | .outcome, value => value.payload.toList
  | .pluginState, value => [.ofRecord value.extra]
  | .status, _ | .errorKind, _ | .node, _ | .unit, _ | .application, _ | .modelStatus, _
  | .settings, _ => []

/-- The value that comes back from the text of a value. -/
def reread : (type : DocumentType) → type.Value → type.Value
  | .outcome, value => value.reread
  | .pluginState, value => value.reread
  | .status, value | .errorKind, value | .node, value | .unit, value | .application, value
  | .modelStatus, value | .settings, value => value

theorem read?_print (type : DocumentType) (value : type.Value) :
    type.read? (type.print value) = type.decode Json.maxDepth (type.write value).toTree := by
  rw [read?, Json.decode?, print, Json.ofText?_compact, Option.bind_some]

/-- What is read is read back from its own text. -/
theorem decode_toTree (type : DocumentType) {tree : Json.Tree} {value : type.Value}
    (h : type.decode Json.maxDepth tree = some value) :
    type.decode Json.maxDepth (type.write value).toTree = some (type.reread value) := by
  cases type with
  | outcome => exact Outcome.decode_toTree (Outcome.isPayload_of_decode h)
  | status => exact Status.decode_toTree _ value
  | errorKind => exact ErrorKind.decode_toTree _ value
  | node => exact Node.decode_toTree _ value
  | unit => exact AppUnit.decode_toTree _ value
  | application => exact Application.decode_toTree _ value
  | modelStatus => exact ModelStatus.decode_toTree _ value
  | settings => exact (Settings.inRange_of_decode h).decode_toTree _
  | pluginState => exact (Plugin.State.isRead_of_decode h).decode_toTree

/-- The values that come back as they were are those with steady free-form parts. -/
theorem reread_eq_self_iff (type : DocumentType) {tree : Json.Tree} {value : type.Value}
    (h : type.decode Json.maxDepth tree = some value) :
    type.reread value = value ↔ ∀ part ∈ type.freeForm value, part.Steady := by
  cases type with
  | outcome =>
    rw [freeForm]
    simp only [Option.mem_toList]
    exact Outcome.reread_eq_iff (Outcome.isPayload_of_decode h)
  | pluginState =>
    rw [freeForm, List.forall_mem_singleton]
    exact (Plugin.State.isRead_of_decode h).reread_eq_iff
  | _ => exact iff_of_true rfl nofun

theorem steady_of_words (type : DocumentType) {tree : Json.Tree}
    (hwords : tree.Numbers Json.Literal.IsWord) {value : type.Value}
    (h : type.decode Json.maxDepth tree = some value) :
    ∀ part ∈ type.freeForm value, part.Steady := by
  cases type with
  | outcome =>
    intro payload hpayload
    exact Outcome.steady_of_words hwords h payload (Option.mem_toList.1 hpayload)
  | pluginState =>
    exact List.forall_mem_singleton.2 (Plugin.State.steady_of_words hwords h)
  | _ => exact nofun

/-! ## The normal form -/

/-- The text of a value is a normal form: it is read as that value and written again as it is. -/
def IsNormal (type : DocumentType) (value : type.Value) : Prop :=
  ∃ again, type.read? (type.print value) = some again ∧ again = value ∧
    type.print again = type.print value

/-- Every number in a text is an allowed one. -/
def Numbers (allowed : Json.Literal → Prop) (source : String) : Prop :=
  ∀ tree, Json.Tree.ofText? source = some tree → tree.Numbers allowed

/-- A value that has been read is read again from its own text, as it comes back. -/
theorem read?_print_of_read? (type : DocumentType) {source : String} {value : type.Value}
    (h : type.read? source = some value) :
    type.read? (type.print value) = some (type.reread value) := by
  obtain ⟨tree, -, hdecode⟩ := Option.bind_eq_some_iff.1 h
  rw [read?_print, decode_toTree type hdecode]

theorem isNormal_iff (type : DocumentType) {source : String} {value : type.Value}
    (h : type.read? source = some value) :
    type.IsNormal value ↔ ∀ part ∈ type.freeForm value, part.Steady := by
  have hagain := read?_print_of_read? type h
  obtain ⟨tree, -, hdecode⟩ := Option.bind_eq_some_iff.1 h
  rw [← reread_eq_self_iff type hdecode]
  constructor
  · rintro ⟨again, hread, rfl, -⟩
    exact Option.some.inj (hagain.symm.trans hread)
  · intro hsame
    exact ⟨_, hagain, hsame, congrArg type.print hsame⟩

/-- The text of a value that has been read is always read again.  It is a normal form just if the
value's free-form parts are steady, and so it is if every number in the text that the value was read
from is an integer of 64 bits. -/
theorem normal_form (type : DocumentType) {source : String} {value : type.Value}
    (h : type.read? source = some value) :
    (∃ again, type.read? (type.print value) = some again) ∧
    (type.IsNormal value ↔ ∀ part ∈ type.freeForm value, part.Steady) ∧
    (Numbers Json.Literal.IsWord source → type.IsNormal value) := by
  have hiff := isNormal_iff type h
  refine ⟨⟨_, read?_print_of_read? type h⟩, hiff, fun hwords => hiff.2 ?_⟩
  obtain ⟨tree, htree, hdecode⟩ := Option.bind_eq_some_iff.1 h
  exact steady_of_words type (hwords tree htree) hdecode

/-- An outcome that is written as an array, with its status as an object. -/
def packedText : String :=
  "[\x7b\"COMPLETED\":null\x7d,null,\x7b\"ready\":true\x7d]"

/-- The outcome that the array holds. -/
def packedOutcome : Outcome :=
  .completedWith (.obj [("ready", .bool true)])

theorem ofText?_packedText : Json.Tree.ofText? packedText = some (.arr [
    .obj [(some "COMPLETED", .null)], .null, .obj [(some "ready", .bool true)]]) := by
  have htext : packedText = (Json.arr [.obj [("COMPLETED", .null)], .null,
      .obj [("ready", .bool true)]]).compact := by
    decide +kernel
  rw [htext, Json.ofText?_compact]
  rfl

theorem read?_packedText : read? .outcome packedText = some packedOutcome := by
  rw [read?, Json.decode?, ofText?_packedText]
  rfl

theorem numbers_packedText : Numbers Json.Literal.IsWord packedText := by
  intro tree htree
  obtain rfl := Option.some.inj (ofText?_packedText.symm.trans htree)
  have hstatus : (Json.Tree.obj [(some "COMPLETED", .null)]).Numbers Json.Literal.IsWord :=
    .obj (List.forall_mem_singleton.2 .null)
  have hpayload : (Json.Tree.obj [(some "ready", .bool true)]).Numbers Json.Literal.IsWord :=
    .obj (List.forall_mem_singleton.2 (.bool true))
  exact .arr (List.forall_mem_cons.2 ⟨hstatus, List.forall_mem_cons.2 ⟨.null,
    List.forall_mem_singleton.2 hpayload⟩⟩)

theorem normal_form_packedText : IsNormal .outcome packedOutcome :=
  (normal_form .outcome read?_packedText).2.2 numbers_packedText

/-- An outcome whose payload is an integer of more than 64 bits. -/
def wideText : String :=
  "\x7b\"result_type\":\"COMPLETED\",\"payload\":91770119583970787981\x7d"

/-- The outcome that it holds: the payload is the nearest double. -/
def wideOutcome : Outcome :=
  .completedWith (.real ⟨4905517598166988490⟩)

theorem ofText?_wideText : Json.Tree.ofText? wideText = some (.obj [
    (some "result_type", .str (some "COMPLETED")),
    (some "payload", .number (.ofInt 91770119583970787981))]) := by
  have htext : wideText = (Json.obj [("result_type", .str "COMPLETED"),
      ("payload", .int 91770119583970787981)]).compact := by
    decide +kernel
  rw [htext, Json.ofText?_compact]
  rfl

theorem read?_wideText : read? .outcome wideText = some wideOutcome := by
  have hpayload : (Json.Literal.ofInt 91770119583970787981).number? =
      some (.real ⟨4905517598166988490⟩) := by
    have hreal : (Json.Literal.ofInt 91770119583970787981).real? = some ⟨4905517598166988490⟩ := by
      decide +kernel
    unfold Json.Literal.number?
    rw [if_neg (by decide +kernel), if_neg (by decide +kernel), hreal]
    rfl
  rw [read?, Json.decode?, ofText?_wideText]
  show ((Json.Literal.ofInt 91770119583970787981).number?.map some).bind
    (fun payload => some (Outcome.mk .completed none payload)) = _
  rw [hpayload]
  rfl

/-- Integers alone are not enough: a wide one is read as a double, whose text may be read as another
double. -/
theorem not_isNormal_wideText :
    Numbers Json.Literal.IsInteger wideText ∧
      ∃ value, read? .outcome wideText = some value ∧ ¬ IsNormal .outcome value := by
  refine ⟨fun tree htree => ?_, wideOutcome, read?_wideText, fun hnormal => ?_⟩
  · obtain rfl := Option.some.inj (ofText?_wideText.symm.trans htree)
    exact .obj (List.forall_mem_cons.2 ⟨.str _, List.forall_mem_singleton.2 (.number ⟨rfl, rfl⟩)⟩)
  · have hsteady := (isNormal_iff .outcome read?_wideText).1 hnormal _ List.mem_cons_self
    cases hsteady with
    | real h => exact absurd (h.isFinite.isSteady_iff.1 h) (by decide +kernel)

end DocumentType

end Converge
