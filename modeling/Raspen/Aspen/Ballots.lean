import Raspen.Aspen.Moves

/-!
# Ballots

What a message of the REPAIR agreement says, in the code as in the specification: who says
it, for which view and round, and which history it is for.  The hash of a LOG is left out;
the two abstract it differently, and REPAIR never reads it.
-/

namespace Raspen

/-- What a REPAIR message says. -/
inductive Ballot
  | log (sender : NodeId) (view round : Int)
  | history (sender : NodeId) (view round historyHash : Int)
  | prepare (sender : NodeId) (view round historyHash : Int)
  | commit (sender : NodeId) (view round historyHash : Int)
  | done (sender : NodeId) (view round historyHash : Int)
  deriving DecidableEq

def Ballot.sender : Ballot → NodeId
  | log sender .. | history sender .. | prepare sender .. | commit sender .. | done sender .. =>
      sender

/-- The ballot of a message of the code. -/
def Message.ballot : Message → Option Ballot
  | .logMsg sender view round _ => some (.log sender view.toNat round.toNat)
  | .repairHistory sender view round hist =>
      some (.history sender view.toNat round.toNat hist.toNat)
  | .repairPrepare sender view round hist =>
      some (.prepare sender view.toNat round.toNat hist.toNat)
  | .repairCommit sender view round hist =>
      some (.commit sender view.toNat round.toNat hist.toNat)
  | .repairDone sender view round hist => some (.done sender view.toNat round.toNat hist.toNat)
  | _ => none

theorem Message.sender_of_ballot {msg : Message} {ballot : Ballot}
    (carries : msg.ballot = some ballot) : msg.sender = some ballot.sender := by
  cases msg <;> cases carries <;> rfl

theorem Message.ballot_of_quiet {msg : Message} (quiet : msg.isRepair = false) :
    msg.ballot = none := by
  cases msg <;> first | rfl | contradiction

namespace Aspen

/-- The ballot of a message of the specification. -/
def Message.ballot : Message → Option Ballot
  | .logMsg sender view round _ => some (.log sender view round)
  | .repairHistory sender view round historyHash => some (.history sender view round historyHash)
  | .repairPrepare sender view round historyHash => some (.prepare sender view round historyHash)
  | .repairCommit sender view round historyHash => some (.commit sender view round historyHash)
  | .repairDone sender view round historyHash => some (.done sender view round historyHash)
  | _ => none

theorem Message.sender_of_ballot {msg : Message} {ballot : Ballot}
    (carries : msg.ballot = some ballot) : msg.sender = some ballot.sender := by
  cases msg <;> cases carries <;> rfl

/-- A message of the specification that says what the ballot does. -/
def messageOf : Ballot → Message
  | .log sender view round => .logMsg sender view round 0
  | .history sender view round historyHash => .repairHistory sender view round historyHash
  | .prepare sender view round historyHash => .repairPrepare sender view round historyHash
  | .commit sender view round historyHash => .repairCommit sender view round historyHash
  | .done sender view round historyHash => .repairDone sender view round historyHash

@[simp]
theorem ballot_messageOf (ballot : Ballot) : (messageOf ballot).ballot = some ballot := by
  cases ballot <;> rfl

/-- Some message of the mailbox says what the ballot does. -/
def Holds (messages : Finset Message) (ballot : Ballot) : Prop :=
  ∃ msg ∈ messages, msg.ballot = some ballot

/-- The messages that carry one of the ballots. -/
def among (evidence : Finset Ballot) (messages : Finset Message) : Finset Message :=
  messages.filter fun msg => ∃ ballot ∈ evidence, msg.ballot = some ballot

theorem holds_among_iff {evidence : Finset Ballot} {messages : Finset Message}
    (supplied : ∀ ballot ∈ evidence, Holds messages ballot) {ballot : Ballot} :
    Holds (among evidence messages) ballot ↔ ballot ∈ evidence := by
  constructor
  · rintro ⟨msg, msgMem, carries⟩
    obtain ⟨_, other, otherMem, carriesOther⟩ := Finset.mem_filter.mp msgMem
    rw [Option.some.inj (carries.symm.trans carriesOther)]
    exact otherMem
  · intro ballotMem
    obtain ⟨msg, msgMem, carries⟩ := supplied ballot ballotMem
    exact ⟨msg, Finset.mem_filter.mpr ⟨msgMem, ballot, ballotMem, carries⟩, carries⟩

/-! ## What the listeners count -/

variable {messages : Finset Message} {view round historyHash : Int} {sender : NodeId}

/-- A selection that names the sender of every message with the ballot. -/
theorem mem_filterMap_iff_holds {select : Message → Option NodeId} {ballot : Ballot}
    (names : ∀ msg, select msg = some sender ↔ msg.ballot = some ballot) :
    sender ∈ Choreo.filterMap messages select ↔ Holds messages ballot := by
  simp only [Choreo.mem_filterMap_iff, names, Holds]

theorem mem_logMsgSenders_iff :
    sender ∈ logMsgSenders messages view round ↔ Holds messages (.log sender view round) := by
  apply mem_filterMap_iff_holds
  intro msg
  cases msg <;> simp [Message.ballot]
  tauto

theorem mem_repairPrepareSenders_iff :
    sender ∈ repairPrepareSenders messages view round historyHash ↔
      Holds messages (.prepare sender view round historyHash) := by
  apply mem_filterMap_iff_holds
  intro msg
  cases msg <;> simp [Message.ballot]
  tauto

theorem mem_repairCommitSenders_iff :
    sender ∈ repairCommitSenders messages view round historyHash ↔
      Holds messages (.commit sender view round historyHash) := by
  apply mem_filterMap_iff_holds
  intro msg
  cases msg <;> simp [Message.ballot]
  tauto

theorem mem_repairDoneSenders_of_holds
    (held : Holds messages (.done sender view round historyHash)) :
    sender ∈ repairDoneSenders messages view round := by
  obtain ⟨msg, msgMem, carries⟩ := held
  apply Choreo.mem_filterMap_iff.mpr
  refine ⟨msg, msgMem, ?_⟩
  cases msg <;> cases carries
  simp

theorem hasRepairHistory_of_holds
    (held : Holds messages (.history sender view round historyHash)) :
    hasRepairHistory messages view round = true := by
  obtain ⟨msg, msgMem, carries⟩ := held
  apply hasRepairHistory_iff.mpr
  cases msg <;> cases carries
  exact ⟨_, _, msgMem⟩

end Aspen

end Raspen
