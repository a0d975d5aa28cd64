import Converge.Channel
/-!
# The grammar of channels

A channel is spelled by its risk alone, or by its track, its risk and maybe a branch, with slashes
between them.  Main statement: just these texts are read, each as the channel that it spells, and
the written form of a channel is read back (`Channel.spelling_roundTrip`).
-/

namespace Converge

namespace Risk

theorem slash_not_mem_name (risk : Risk) : '/' ∉ risk.name.toList := by
  cases risk <;> decide

end Risk

namespace Channel

theorem parseRisk_name (risk : Risk) : parseRisk risk.name = .ok risk := by
  rw [parseRisk, Risk.ofName?_name]

/-- What is made of a risk that is read is made of one with that name. -/
theorem map_parseRisk_eq_ok_iff {α : Type} {name : String} {f : Risk → α} {a : α} :
    (parseRisk name).map f = .ok a ↔ ∃ risk : Risk, risk.name = name ∧ f risk = a := by
  constructor
  · intro h
    unfold parseRisk at h
    split at h
    · next risk hname => exact ⟨risk, Risk.name_of_ofName? hname, Except.ok.inj h⟩
    · cases h
  · rintro ⟨risk, rfl, rfl⟩
    rw [parseRisk_name]
    rfl

/-! ## Spellings -/

/-- The text of a track, a risk and maybe a branch. -/
def spelled (track risk : String) : Option String → String
  | none => track ++ "/" ++ risk
  | some branch => track ++ "/" ++ risk ++ "/" ++ branch

/-- A text spells a channel. -/
inductive Spells : Channel → String → Prop
  /-- A risk alone is on the default track. -/
  | risk (risk : Risk) : Spells ⟨defaultTrack, risk, none⟩ risk.name
  /-- The branch may have slashes, and an empty one is none. -/
  | full {track : String} (hne : track ≠ "") (hslash : '/' ∉ track.toList) (risk : Risk)
      (branch : Option String) :
    Spells ⟨track, risk, branch.filter (· ≠ "")⟩ (spelled track risk.name branch)

theorem text_eq (channel : Channel) :
    channel.text = spelled channel.track channel.risk.name channel.branch := by
  obtain ⟨track, risk, branch⟩ := channel
  cases branch <;> rfl

theorem toList_spelled (track risk : String) (branch : Option String) :
    (spelled track risk branch).toList = track.toList ++ '/' ::
      (risk.toList ++ (branch.map fun branch => '/' :: branch.toList).getD []) := by
  cases branch <;> simp [spelled, String.toList_append]

theorem normalise_spelled (track risk : String) (branch : Option String) :
    normalise (spelled track risk branch) = spelled track risk branch := by
  rw [normalise, if_pos (by simp [toList_spelled])]

theorem normalise_of_not_mem {name : String} (h : '/' ∉ name.toList) :
    normalise name = spelled defaultTrack name none := by
  rw [normalise, if_neg h]
  rfl

/-- Cut at its first two slashes, a text with a slash is a spelling of its parts. -/
theorem exists_spelled {name : String} (h : '/' ∈ name.toList) : ∃ track risk branch,
    '/' ∉ track.toList ∧ '/' ∉ risk.toList ∧ name = spelled track risk branch := by
  rcases hfirst : Text.splitFirst '/' name.toList with ⟨track, rest⟩
  have htrack := Text.not_mem_of_splitFirst '/' name.toList
  rw [hfirst] at htrack
  cases rest with
  | none => exact absurd (Text.eq_of_splitFirst_none hfirst ▸ h) htrack
  | some rest =>
    have hname := Text.eq_append_of_splitFirst hfirst
    rcases hsecond : Text.splitFirst '/' rest with ⟨risk, branch⟩
    have hrisk := Text.not_mem_of_splitFirst '/' rest
    rw [hsecond] at hrisk
    refine ⟨.ofList track, .ofList risk, branch.map .ofList, by simpa using htrack,
      by simpa using hrisk, String.toList_inj.1 ?_⟩
    rw [toList_spelled, hname]
    cases branch with
    | none => simp [Text.eq_of_splitFirst_none hsecond]
    | some branch => simp [Text.eq_append_of_splitFirst hsecond]

/-! ## Reading a spelling -/

theorem splitFirst_risk {risk : String} (h : '/' ∉ risk.toList) (branch : Option String) :
    Text.splitFirst '/' (risk.toList ++ (branch.map fun branch => '/' :: branch.toList).getD []) =
      (risk.toList, branch.map String.toList) := by
  cases branch with
  | none =>
    rw [Option.map_none, Option.getD_none, List.append_nil]
    exact Text.splitFirst_of_not_mem h
  | some branch => exact Text.splitFirst_append branch.toList h

theorem filter_branch (branch : Option String) :
    ((branch.map String.toList).filter (!·.isEmpty)).map String.ofList =
      branch.filter (· ≠ "") := by
  cases branch with
  | none => rfl
  | some branch => by_cases h : branch = "" <;> simp [Option.filter, h]

theorem parse_of_normalise {name track risk : String} {branch : Option String}
    (h : normalise name = spelled track risk branch) (htrack : '/' ∉ track.toList)
    (hrisk : '/' ∉ risk.toList) :
    parse name = if track = "" then .error (.emptyTrack name)
      else (parseRisk risk).map fun risk => ⟨track, risk, branch.filter (· ≠ "")⟩ := by
  unfold parse
  rw [h, toList_spelled, Text.splitFirst_append _ htrack]
  dsimp only [Option.getD_some]
  rw [splitFirst_risk hrisk]
  dsimp only
  rw [filter_branch, String.ofList_toList, String.ofList_toList]
  by_cases hempty : track = ""
  · rw [if_pos (by simp [hempty]), if_pos hempty]
    rfl
  · rw [if_neg (by simpa using hempty), if_neg hempty]
    cases parseRisk risk <;> rfl

theorem parse_spelled {track risk : String} (htrack : '/' ∉ track.toList)
    (hrisk : '/' ∉ risk.toList) (branch : Option String) :
    parse (spelled track risk branch) =
      if track = "" then .error (.emptyTrack (spelled track risk branch))
      else (parseRisk risk).map fun risk => ⟨track, risk, branch.filter (· ≠ "")⟩ :=
  parse_of_normalise (normalise_spelled track risk branch) htrack hrisk

/-- A text without a slash is read as a risk. -/
theorem parse_of_not_mem {name : String} (h : '/' ∉ name.toList) :
    parse name = (parseRisk name).map fun risk => ⟨defaultTrack, risk, none⟩ :=
  parse_of_normalise (normalise_of_not_mem h) (by decide) h

/-- A text is read as its normal form is, and fails as it does. -/
theorem parse_normalise (name : String) : parse (normalise name) = parse name := by
  by_cases h : '/' ∈ name.toList
  · rw [normalise, if_pos h]
  · rw [normalise_of_not_mem h, parse_spelled (by decide) h, parse_of_not_mem h]
    rfl

/-- Just the spellings of a channel are read as it. -/
theorem parse_eq_ok_iff {name : String} {channel : Channel} :
    parse name = .ok channel ↔ Spells channel name := by
  constructor
  · intro h
    by_cases hslash : '/' ∈ name.toList
    · obtain ⟨track, risk, branch, htrack, hrisk, rfl⟩ := exists_spelled hslash
      rw [parse_spelled htrack hrisk] at h
      split at h
      · cases h
      · next hne =>
        obtain ⟨risk, rfl, rfl⟩ := map_parseRisk_eq_ok_iff.1 h
        exact .full hne htrack risk branch
    · rw [parse_of_not_mem hslash] at h
      obtain ⟨risk, rfl, rfl⟩ := map_parseRisk_eq_ok_iff.1 h
      exact .risk risk
  · intro h
    cases h with
    | risk risk =>
      rw [parse_of_not_mem risk.slash_not_mem_name]
      exact map_parseRisk_eq_ok_iff.2 ⟨risk, rfl, rfl⟩
    | full hne hslash risk branch =>
      rw [parse_spelled hslash risk.slash_not_mem_name, if_neg hne]
      exact map_parseRisk_eq_ok_iff.2 ⟨risk, rfl, rfl⟩

/-! ## Round trips -/

/-- A channel whose written form can be taken apart: the track is no empty text and has no slash,
and a branch is no empty text. -/
structure IsProper (channel : Channel) : Prop where
  track_ne : channel.track ≠ ""
  slash_not_mem : '/' ∉ channel.track.toList
  branch_ne : channel.branch ≠ some ""

theorem spells_text {channel : Channel} (h : channel.IsProper) : Spells channel channel.text := by
  obtain ⟨track, risk, branch⟩ := channel
  have hbranch : branch.filter (· ≠ "") = branch := by
    cases branch with
    | none => rfl
    | some branch => simpa [Option.filter] using h.branch_ne
  have hfull := Spells.full h.track_ne h.slash_not_mem risk branch
  rw [hbranch] at hfull
  rwa [text_eq]

theorem IsProper.parse_text {channel : Channel} (h : channel.IsProper) :
    parse channel.text = .ok channel :=
  parse_eq_ok_iff.2 (spells_text h)

theorem Spells.isProper {channel : Channel} {name : String} (h : Spells channel name) :
    channel.IsProper := by
  cases h with
  | risk risk => exact ⟨by simp [defaultTrack], by simp [defaultTrack], nofun⟩
  | full hne hslash risk branch => exact ⟨hne, hslash, by simp [Option.filter_eq_some_iff]⟩

/-- Just the spellings of channels are read; a text is read as its normal form is, and normal forms
stay; and the written form of a proper channel, such as any that is read, is read back. -/
theorem spelling_roundTrip (name : String) :
    (∀ channel, parse name = .ok channel ↔ Spells channel name) ∧
    normalise (normalise name) = normalise name ∧
    parse (normalise name) = parse name ∧
    (∀ channel : Channel, channel.IsProper → parse channel.text = .ok channel) ∧
    ∀ channel, parse name = .ok channel →
      parse channel.text = .ok channel ∧ (parse channel.text).map text = .ok channel.text := by
  refine ⟨fun _ => parse_eq_ok_iff, normalise_normalise name, parse_normalise name,
    fun _ => IsProper.parse_text, fun channel h => ?_⟩
  have hread := (parse_eq_ok_iff.1 h).isProper.parse_text
  exact ⟨hread, by rw [hread]; rfl⟩

/-- A branch keeps its slashes, and an empty one is not written again. -/
theorem spelling_roundTrip_branches :
    let nested : Channel := ⟨"2023.2", .edge, some "/hot/fix/"⟩
    let bare : Channel := ⟨"2023.2", .edge, none⟩
    nested.IsProper ∧ parse nested.text = .ok nested ∧
      parse "2023.2/edge/" = .ok bare ∧ parse bare.text = .ok bare := by
  intro nested bare
  have hnested : nested.IsProper := ⟨by decide, by decide, by decide⟩
  have hspelled : spelled "2023.2" Risk.edge.name (some "") = "2023.2/edge/" := by decide
  have hspells : Spells bare "2023.2/edge/" :=
    hspelled ▸ .full (by decide) (by decide) .edge (some "")
  obtain ⟨hreads, -, -, hproper, hagain⟩ := spelling_roundTrip "2023.2/edge/"
  have hbare := (hreads bare).2 hspells
  exact ⟨hnested, hproper nested hnested, hbare, (hagain bare hbare).1⟩

end Channel

end Converge
