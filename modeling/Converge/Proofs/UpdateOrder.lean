import Converge.Proofs.ChannelGrammar
import Converge.Update
/-!
# The order of updates

A channel gives way to a channel on a later track, and to another risk on its own track; the branch
plays no part in it.  Main statement: the laws that an update between texts obeys, whatever they
are (`channelUpdateNeeded_laws`).
-/

namespace Converge

namespace Channel

/-! ## Giving way -/

/-- The wanted channel is on a later track, or is another risk on the same track. -/
def GivesWay (here wanted : Channel) : Prop :=
  here.track < wanted.track ∨ here.track = wanted.track ∧ here.risk ≠ wanted.risk

theorem not_givesWay_self (here : Channel) : ¬ GivesWay here here := by
  rintro (hlt | ⟨-, hne⟩)
  · exact String.lt_irrefl _ hlt
  · exact hne rfl

theorem GivesWay.not_lt {here wanted : Channel} (h : GivesWay here wanted) :
    ¬ wanted.track < here.track := by
  rcases h with hlt | ⟨heq, -⟩
  · exact String.lt_asymm hlt
  · rw [heq]
    exact String.lt_irrefl _

/-- On one track, just another risk is given way to. -/
theorem givesWay_iff_ne {here wanted : Channel} (h : here.track = wanted.track) :
    GivesWay here wanted ↔ here.risk ≠ wanted.risk := by
  rw [GivesWay, h]
  simp

/-- Between different tracks, just one of two channels gives way. -/
theorem givesWay_iff_not {here wanted : Channel} (h : here.track ≠ wanted.track) :
    GivesWay here wanted ↔ ¬ GivesWay wanted here := by
  simp only [GivesWay, h, h.symm, false_and, or_false, String.not_lt]
  exact ⟨Std.le_of_lt, fun hle => Std.lt_of_le_of_ne hle h⟩

/-- Giving way twice leads on, or back to the same track and risk. -/
theorem GivesWay.trans {here there beyond : Channel} (h : GivesWay here there)
    (h' : GivesWay there beyond) :
    GivesWay here beyond ∨ here.track = beyond.track ∧ here.risk = beyond.risk := by
  rcases h with hlt | ⟨heq, -⟩
  · refine .inl (.inl ?_)
    rcases h' with hlt' | ⟨heq', -⟩
    · exact String.lt_trans hlt hlt'
    · exact heq' ▸ hlt
  · rcases h' with hlt' | ⟨heq', -⟩
    · exact .inl (.inl (heq ▸ hlt'))
    · by_cases hrisk : here.risk = beyond.risk
      · exact .inr ⟨heq.trans heq', hrisk⟩
      · exact .inl (.inr ⟨heq.trans heq', hrisk⟩)

/-! ## Other words for a channel -/

/-- What a text is read as apart from its branch, if it is read at all. -/
def stem? (name : String) : Option Channel :=
  (parse name).toOption.map ({ · with branch := none })

/-- One text says what another does, but for a branch. -/
inductive Rewords : String → String → Prop
  | normalised (name : String) : Rewords name (normalise name)
  | written {name : String} {channel : Channel} (h : parse name = .ok channel) :
    Rewords name channel.text
  /-- The channel that is read is given another branch, or none. -/
  | branched {name : String} {channel : Channel} (h : parse name = .ok channel)
      (branch : Option String) : Rewords name { channel with branch }.text
  /-- A text with a slash is given another branch, or none, whether or not it is read. -/
  | respelled {track risk : String} (htrack : '/' ∉ track.toList) (hrisk : '/' ∉ risk.toList)
      (branch branch' : Option String) :
    Rewords (spelled track risk branch) (spelled track risk branch')

theorem stem?_spelled {track risk : String} (htrack : '/' ∉ track.toList)
    (hrisk : '/' ∉ risk.toList) (branch branch' : Option String) :
    stem? (spelled track risk branch) = stem? (spelled track risk branch') := by
  unfold stem?
  rw [parse_spelled htrack hrisk, parse_spelled htrack hrisk]
  by_cases hempty : track = ""
  · rw [if_pos hempty, if_pos hempty]
    rfl
  · rw [if_neg hempty, if_neg hempty]
    cases parseRisk risk <;> rfl

theorem stem?_text {name : String} {channel : Channel} (h : parse name = .ok channel) :
    stem? channel.text = stem? name := by
  rw [stem?, stem?, (parse_eq_ok_iff.1 h).isProper.parse_text, h]

theorem Rewords.stem?_eq {name name' : String} (h : Rewords name name') :
    stem? name' = stem? name := by
  cases h with
  | normalised => rw [stem?, stem?, parse_normalise]
  | written h => exact stem?_text h
  | @branched name channel h branch =>
    have hproper := (parse_eq_ok_iff.1 h).isProper
    rw [← stem?_text h, text_eq, text_eq]
    exact stem?_spelled hproper.slash_not_mem channel.risk.slash_not_mem_name _ _
  | respelled htrack hrisk branch branch' => exact stem?_spelled htrack hrisk _ _

theorem exists_of_stem?_eq {name name' : String} {channel : Channel} (h : stem? name' = stem? name)
    (hread : parse name = .ok channel) :
    ∃ channel', parse name' = .ok channel' ∧ channel'.track = channel.track ∧
      channel'.risk = channel.risk := by
  rw [stem?, stem?, hread] at h
  cases hread' : parse name' with
  | error e =>
    rw [hread'] at h
    cases h
  | ok channel' =>
    rw [hread'] at h
    obtain ⟨htrack, hrisk, -⟩ := Channel.mk.inj (Option.some.inj h)
    exact ⟨channel', rfl, htrack, hrisk⟩

end Channel

/-! ## Updates -/

section

open Channel

theorem channelUpdateNeeded_iff_of_ok {a b : String} {here wanted : Channel}
    (ha : parse a = .ok here) (hb : parse b = .ok wanted) :
    channelUpdateNeeded a b = true ↔ here.GivesWay wanted := by
  unfold channelUpdateNeeded
  rw [ha, hb]
  dsimp only
  by_cases htrack : here.track = wanted.track
  · rw [if_pos htrack, decide_eq_true_iff, givesWay_iff_ne htrack]
  · rw [if_neg htrack, decide_eq_true_iff, GivesWay, or_iff_left fun h => htrack h.1]
    exact ⟨fun hle => Std.lt_of_le_of_ne hle htrack, Std.le_of_lt⟩

/-- An update needs two channels, the first of which gives way. -/
theorem channelUpdateNeeded_iff {a b : String} :
    channelUpdateNeeded a b = true ↔
      ∃ here wanted, parse a = .ok here ∧ parse b = .ok wanted ∧ here.GivesWay wanted := by
  constructor
  · intro h
    cases ha : parse a with
    | error e =>
      rw [channelUpdateNeeded, ha] at h
      cases h
    | ok here =>
      cases hb : parse b with
      | error e =>
        rw [channelUpdateNeeded, ha, hb] at h
        cases h
      | ok wanted => exact ⟨here, wanted, rfl, rfl, (channelUpdateNeeded_iff_of_ok ha hb).1 h⟩
  · rintro ⟨here, wanted, ha, hb, hway⟩
    exact (channelUpdateNeeded_iff_of_ok ha hb).2 hway

theorem channelUpdateNeeded_of_stem?_eq {a a' b b' : String} (ha : stem? a' = stem? a)
    (hb : stem? b' = stem? b) (h : channelUpdateNeeded a b = true) :
    channelUpdateNeeded a' b' = true := by
  obtain ⟨here, wanted, hhere, hwanted, hway⟩ := channelUpdateNeeded_iff.1 h
  obtain ⟨here', hhere', htrack, hrisk⟩ := exists_of_stem?_eq ha hhere
  obtain ⟨wanted', hwanted', htrack', hrisk'⟩ := exists_of_stem?_eq hb hwanted
  refine (channelUpdateNeeded_iff_of_ok hhere' hwanted').2 ?_
  rwa [GivesWay, htrack, htrack', hrisk, hrisk']

theorem channelUpdateNeeded_congr {a a' b b' : String} (ha : stem? a' = stem? a)
    (hb : stem? b' = stem? b) : channelUpdateNeeded a' b' = channelUpdateNeeded a b :=
  Bool.eq_iff_iff.2 ⟨channelUpdateNeeded_of_stem?_eq ha.symm hb.symm,
    channelUpdateNeeded_of_stem?_eq ha hb⟩

/-- The laws of a decision whether a text is an update of another. -/
structure UpdateLaws (needed : String → String → Bool) : Prop where
  irrefl : ∀ a, needed a a = false
  /-- A text that is no channel takes part in no update. -/
  unread : ∀ a b e, parse a = .error e ∨ parse b = .error e → needed a b = false
  /-- No update leads to a track that sorts below. -/
  not_lt : ∀ a b, needed a b = true → ∃ here wanted,
    parse a = .ok here ∧ parse b = .ok wanted ∧ ¬ wanted.track < here.track
  /-- Between different tracks, just one direction is an update. -/
  tracks : ∀ a b here wanted, parse a = .ok here → parse b = .ok wanted →
    here.track ≠ wanted.track → needed a b = !needed b a
  /-- On one track, either direction is an update just if the risks differ. -/
  risks : ∀ a b here wanted, parse a = .ok here → parse b = .ok wanted →
    here.track = wanted.track →
      needed a b = needed b a ∧ (needed a b = true ↔ here.risk ≠ wanted.risk)
  /-- Two updates make up one, unless they lead back. -/
  trans : ∀ a b c, needed a b = true → needed b c = true → needed a c = true ∨
    ∃ here beyond, parse a = .ok here ∧ parse c = .ok beyond ∧
      here.track = beyond.track ∧ here.risk = beyond.risk
  /-- Other words on either side change nothing. -/
  rewords : ∀ a a', Rewords a a' → ∀ b, needed a' b = needed a b ∧ needed b a' = needed b a

theorem channelUpdateNeeded_laws : UpdateLaws channelUpdateNeeded where
  irrefl a := by
    rw [← Bool.not_eq_true, channelUpdateNeeded_iff]
    rintro ⟨here, wanted, hhere, hwanted, hway⟩
    obtain rfl := Except.ok.inj (hhere.symm.trans hwanted)
    exact not_givesWay_self here hway
  unread a b e h := by
    rw [← Bool.not_eq_true, channelUpdateNeeded_iff]
    rintro ⟨here, wanted, hhere, hwanted, -⟩
    rcases h with h | h
    · cases h.symm.trans hhere
    · cases h.symm.trans hwanted
  not_lt a b h := by
    obtain ⟨here, wanted, hhere, hwanted, hway⟩ := channelUpdateNeeded_iff.1 h
    exact ⟨here, wanted, hhere, hwanted, hway.not_lt⟩
  tracks a b here wanted hhere hwanted hne := by
    rw [Bool.eq_iff_iff, Bool.not_eq_true', ← Bool.not_eq_true,
      channelUpdateNeeded_iff_of_ok hhere hwanted, channelUpdateNeeded_iff_of_ok hwanted hhere]
    exact givesWay_iff_not hne
  risks a b here wanted hhere hwanted heq := by
    have hforth := channelUpdateNeeded_iff_of_ok hhere hwanted
    have hback := channelUpdateNeeded_iff_of_ok hwanted hhere
    rw [givesWay_iff_ne heq] at hforth
    rw [givesWay_iff_ne heq.symm, ne_comm] at hback
    exact ⟨Bool.eq_iff_iff.2 (hforth.trans hback.symm), hforth⟩
  trans a b c hab hbc := by
    obtain ⟨here, there, hhere, hthere, hway⟩ := channelUpdateNeeded_iff.1 hab
    obtain ⟨there', beyond, hthere', hbeyond, hway'⟩ := channelUpdateNeeded_iff.1 hbc
    obtain rfl := Except.ok.inj (hthere.symm.trans hthere')
    rcases hway.trans hway' with hway | hsame
    · exact .inl ((channelUpdateNeeded_iff_of_ok hhere hbeyond).2 hway)
    · exact .inr ⟨here, beyond, hhere, hbeyond, hsame⟩
  rewords a a' h b :=
    ⟨channelUpdateNeeded_congr h.stem?_eq rfl, channelUpdateNeeded_congr rfl h.stem?_eq⟩

/-- Tracks are texts, not versions. -/
example : channelUpdateNeeded "2023.9/stable" "2023.10/stable" = false := by decide +kernel

end

end Converge
