import Converge.Text.Split
/-!
# Channels

A channel is written `track/risk[/branch]`; a name without a slash is a risk on the track
`latest`.  `Channel.parse` reads a channel and `Channel.text` writes it.  Main statement: a
normalised name is left as it is (`normalise_normalise`).
-/

namespace Converge

/-! ## Risks -/

/-- How stable the charms of a channel are, from the least stable. -/
inductive Risk where
  | edge
  | beta
  | candidate
  | stable
  deriving DecidableEq

namespace Risk

/-- Every risk. -/
def all : List Risk :=
  [.stable, .candidate, .beta, .edge]

/-- The place in the order: the more stable, the higher. -/
def rank : Risk → Nat
  | .edge => 0
  | .beta => 1
  | .candidate => 2
  | .stable => 3

instance : Ord Risk :=
  ⟨fun a b => compare a.rank b.rank⟩

/-- The written form. -/
def name : Risk → String
  | .stable => "stable"
  | .candidate => "candidate"
  | .beta => "beta"
  | .edge => "edge"

/-- The risk of a name. -/
def ofName? (name : String) : Option Risk :=
  all.find? (·.name = name)

theorem ofName?_name (risk : Risk) : ofName? risk.name = some risk := by
  cases risk <;> decide

theorem name_of_ofName? {name : String} {risk : Risk} (h : ofName? name = some risk) :
    risk.name = name := by
  simpa using List.find?_some h

end Risk

/-! ## Channels -/

/-- Where a charm is published. -/
structure Channel where
  track : String
  risk : Risk
  branch : Option String
  deriving DecidableEq

namespace Channel

/-- Why a text is no channel. -/
inductive ParseError where
  /-- Nothing stands before the first slash. -/
  | emptyTrack (channel : String)
  /-- What stands for the risk is not the name of one. -/
  | unknownRisk (name : String)
  deriving DecidableEq

/-- The text that an operator sees. -/
def ParseError.message : ParseError → String
  | .emptyTrack channel => "channel has an empty track: " ++ channel
  | .unknownRisk name => "unknown risk level: " ++ name

/-- The track of a channel that names only a risk. -/
def defaultTrack : String := "latest"

/-- Puts the default track in front of a name without a slash. -/
def normalise (channel : String) : String :=
  if '/' ∈ channel.toList then channel else defaultTrack ++ "/" ++ channel

/-- A risk by name, or the reason why there is none. -/
def parseRisk (name : String) : Except ParseError Risk :=
  match Risk.ofName? name with
  | some risk => .ok risk
  | none => .error (.unknownRisk name)

/-- Reads a channel.  An empty branch is none, and a branch may have slashes. -/
def parse (channel : String) : Except ParseError Channel := do
  let (track, rest) := Text.splitFirst '/' (normalise channel).toList
  let (risk, branch) := Text.splitFirst '/' (rest.getD [])
  if track.isEmpty then throw (.emptyTrack channel)
  return {
    track := String.ofList track
    risk := ← parseRisk (String.ofList risk)
    branch := (branch.filter (!·.isEmpty)).map String.ofList }

/-- The written form. -/
def text (channel : Channel) : String :=
  let base := channel.track ++ "/" ++ channel.risk.name
  match channel.branch with
  | some branch => base ++ "/" ++ branch
  | none => base

/-! ## Normalising -/

theorem slash_mem_normalise (channel : String) : '/' ∈ (normalise channel).toList := by
  rw [normalise]
  split
  · assumption
  · simp [String.toList_append]

theorem normalise_normalise (channel : String) :
    normalise (normalise channel) = normalise channel := by
  rw [normalise, if_pos (slash_mem_normalise channel)]

end Channel

end Converge
