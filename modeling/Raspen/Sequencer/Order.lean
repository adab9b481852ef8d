import Raspen.Sequencer.Core
import Raspen.Transition.Numbering

/-!
# The order of concurrent submissions

However the calls of `submit` interleave, their numbers are different and leave no gap.
What a subscriber gets is in the order of the sends, and that is the order of the numbers
only where no call sends after one that took its number later.
-/

namespace Raspen

open Transition

variable {κ : Type}

/-! ## What the steps say -/

namespace SubmitStep

/-- The call that takes its number. -/
def started : SubmitStep κ → Option (SubmitCall κ)
  | next call => some call
  | _ => none

/-- The call that sends. -/
def sent : SubmitStep κ → Option (SubmitCall κ)
  | send call => some call
  | _ => none

end SubmitStep

/-- The calls in the order in which they take their numbers. -/
def nexts (steps : List (SubmitStep κ)) : List (SubmitCall κ) :=
  steps.filterMap SubmitStep.started

/-- The calls in the order in which they send. -/
def sends (steps : List (SubmitStep κ)) : List (SubmitCall κ) :=
  steps.filterMap SubmitStep.sent

/-- For each subscriber the calls that send after it has subscribed, in order. -/
def audiences : List (SubmitStep κ) → List (List (SubmitCall κ))
  | [] => []
  | .subscribe :: rest => sends rest :: audiences rest
  | _ :: rest => audiences rest

/-- The calls that a subscriber hears of send in the order in which they took their
numbers. -/
def InOrder (steps : List (SubmitStep κ)) : Prop :=
  ∀ heard ∈ audiences steps, heard.Sublist (nexts steps)

theorem nexts_append (first later : List (SubmitStep κ)) :
    nexts (first ++ later) = nexts first ++ nexts later :=
  List.filterMap_append

theorem sends_append (first later : List (SubmitStep κ)) :
    sends (first ++ later) = sends first ++ sends later :=
  List.filterMap_append

theorem audiences_append (first later : List (SubmitStep κ)) :
    audiences (first ++ later) =
      (audiences first).map (· ++ sends later) ++ audiences later := by
  induction first with
  | nil => rfl
  | cons step rest ih =>
      cases step with
      | subscribe => simp [audiences, ih, sends_append]
      | next call => exact ih
      | send call => exact ih

/-- A subscriber hears of calls that have sent. -/
theorem sublist_sends_of_mem_audiences {steps : List (SubmitStep κ)}
    {heard : List (SubmitCall κ)} (heardMem : heard ∈ audiences steps) :
    heard.Sublist (sends steps) := by
  induction steps with
  | nil => contradiction
  | cons step rest ih =>
      cases step with
      | subscribe =>
          rcases List.mem_cons.mp heardMem with rfl | later
          · exact List.Sublist.refl _
          · exact ih later
      | next call => exact ih heardMem
      | send call => exact (ih heardMem).cons call

/-! ## Numbers -/

variable [DecidableEq κ]

/-- The number that a call takes in a run. -/
def number (steps : List (SubmitStep κ)) (call : SubmitCall κ) : Eta :=
  UInt64.ofNat ((nexts steps).idxOf call)

/-- A number is not changed by what comes later. -/
theorem number_append {steps later : List (SubmitStep κ)} {call : SubmitCall κ}
    (taken : call ∈ nexts steps) : number (steps ++ later) call = number steps call := by
  rw [number, nexts_append, List.idxOf_append_of_mem taken]
  rfl

omit [DecidableEq κ] in
/-- Only the first step of a call takes a number. -/
theorem nexts_append_single {steps : List (SubmitStep κ)} {step : SubmitStep κ}
    (silent : step.started = none) : nexts (steps ++ [step]) = nexts steps := by
  simp [nexts, silent]

theorem number_append_single {steps : List (SubmitStep κ)} {step : SubmitStep κ}
    (silent : step.started = none) : number (steps ++ [step]) = number steps := by
  funext call
  rw [number, nexts_append_single silent]
  rfl

/-- The state says what the steps have done. -/
structure Tracks (steps : List (SubmitStep κ)) (submissions : Submissions κ) : Prop where
  counter : submissions.sequencer.eta.counter = UInt64.ofNat (nexts steps).length
  distinct : (nexts steps).Nodup
  calls : submissions.calls.Perm (nexts steps)
  numbered : ∀ ticket ∈ submissions.pending ++ submissions.returned,
    ticket.2 = number steps ticket.1
  sent : submissions.returned.map Prod.fst = sends steps
  received : submissions.sequencer.sender.receivers =
    (audiences steps).map
      (·.map fun call => Sequencer.speculate call.opHash (number steps call))

namespace Tracks

variable {steps : List (SubmitStep κ)} {submissions later : Submissions κ}
  {call : SubmitCall κ}

theorem sends_subset (tracks : Tracks steps submissions) : sends steps ⊆ nexts steps := by
  intro call callMem
  rw [← tracks.sent] at callMem
  apply tracks.calls.mem_iff.mp
  rw [Submissions.calls, List.map_append]
  exact List.mem_append_right _ callMem

theorem new : Tracks [] (Submissions.new : Submissions κ) where
  counter := rfl
  distinct := List.nodup_nil
  calls := List.Perm.refl _
  numbered _ ticketMem := by contradiction
  sent := rfl
  received := rfl

theorem mem_nexts (tracks : Tracks steps submissions) {ticket : SubmitCall κ × Eta}
    (ticketMem : ticket ∈ submissions.pending ++ submissions.returned) :
    ticket.1 ∈ nexts steps :=
  tracks.calls.mem_iff.mp (List.mem_map_of_mem ticketMem)

/-- A call takes the number that the counter shows. -/
theorem of_next (tracks : Tracks steps submissions)
    (taken : submissions.step (.next call) = some later) :
    Tracks (steps ++ [.next call]) later := by
  obtain ⟨fresh, rfl⟩ := Submissions.step_next_eq_some taken
  have nexts_eq : nexts (steps ++ [.next call]) = nexts steps ++ [call] := nexts_append _ _
  have unseen : call ∉ nexts steps := fun seen => fresh (tracks.calls.mem_iff.mpr seen)
  have ownNumber : submissions.sequencer.eta.counter = number (steps ++ [.next call]) call := by
    rw [tracks.counter, number, nexts_eq, List.idxOf_append_of_notMem unseen]
    simp
  constructor
  · rw [nexts_eq, List.length_append, UInt64.ofNat_add, ← tracks.counter]
    rfl
  · rw [nexts_eq, ← List.concat_eq_append]
    exact tracks.distinct.concat unseen
  · rw [nexts_eq]
    have moved : (submissions.calls ++ [call]).Perm (nexts steps ++ [call]) :=
      tracks.calls.append_right [call]
    apply List.Perm.trans _ moved
    simp only [Submissions.calls, List.map_append, List.append_assoc]
    exact List.perm_append_comm.append_left _
  · intro ticket ticketMem
    have old : ticket ∈ submissions.pending ++ submissions.returned →
        ticket.2 = number (steps ++ [.next call]) ticket.1 := by
      intro oldMem
      rw [number_append (tracks.mem_nexts oldMem)]
      exact tracks.numbered ticket oldMem
    rcases List.mem_append.mp ticketMem with waiting | done
    · rcases List.mem_append.mp waiting with before | new
      · exact old (List.mem_append_left _ before)
      · rw [List.mem_singleton.mp new]
        exact ownNumber
    · exact old (List.mem_append_right _ done)
  · rw [sends_append]
    exact tracks.sent.trans (List.append_nil _).symm
  · have nobody : sends [SubmitStep.next call] = [] := rfl
    have same : audiences (steps ++ [.next call]) = audiences steps := by
      simp [audiences_append, audiences, nobody]
    rw [same]
    apply tracks.received.trans
    apply List.map_congr_left
    intro heard heardMem
    apply List.map_congr_left
    intro other otherMem
    have sent := (sublist_sends_of_mem_audiences heardMem).subset otherMem
    rw [number_append (tracks.sends_subset sent)]

/-- A call sends the number that it has taken, to all who have subscribed. -/
theorem of_send (tracks : Tracks steps submissions)
    (taken : submissions.step (.send call) = some later) :
    Tracks (steps ++ [.send call]) later := by
  obtain ⟨eta, found, rfl⟩ := Submissions.step_send_eq_some taken
  have pendingMem := List.mem_of_find?_eq_some found
  have perm : (submissions.pending.erase (call, eta) ++
      (submissions.returned ++ [(call, eta)])).Perm
        (submissions.pending ++ submissions.returned) := by
    have toFront := List.perm_append_singleton (call, eta)
      (submissions.pending.erase (call, eta) ++ submissions.returned)
    have restored := (List.perm_cons_erase pendingMem).symm.append_right submissions.returned
    rw [← List.append_assoc]
    exact toFront.trans restored
  have ownNumber : eta = number steps call :=
    tracks.numbered _ (List.mem_append_left _ pendingMem)
  constructor
  · rw [nexts_append_single rfl]
    exact tracks.counter
  · rw [nexts_append_single rfl]
    exact tracks.distinct
  · rw [nexts_append_single rfl]
    exact (perm.map Prod.fst).trans tracks.calls
  · rw [number_append_single rfl]
    intro ticket ticketMem
    exact tracks.numbered ticket (perm.mem_iff.mp ticketMem)
  · rw [List.map_append, tracks.sent, sends_append]
    rfl
  · rw [number_append_single rfl, audiences_append]
    have receivers := congrArg (List.map (· ++ [Sequencer.speculate call.opHash eta]))
      tracks.received
    apply receivers.trans
    simp [audiences, sends, SubmitStep.sent, ownNumber]

/-- A new subscriber has heard of nothing. -/
theorem of_subscribe (tracks : Tracks steps submissions)
    (taken : submissions.step .subscribe = some later) :
    Tracks (steps ++ [.subscribe]) later := by
  cases taken
  constructor
  · rw [nexts_append_single rfl]
    exact tracks.counter
  · rw [nexts_append_single rfl]
    exact tracks.distinct
  · rw [nexts_append_single rfl]
    exact tracks.calls
  · rw [number_append_single rfl]
    exact tracks.numbered
  · rw [sends_append]
    exact tracks.sent.trans (List.append_nil _).symm
  · rw [number_append_single rfl, audiences_append]
    have receivers := congrArg (· ++ [[]]) tracks.received
    apply receivers.trans
    simp [audiences, sends, SubmitStep.sent]

end Tracks

/-! ## Runs -/

section Runs

variable {steps : List (SubmitStep κ)} {final : Submissions κ}

theorem tracks_of_execute
    (run : execute Submissions.step Submissions.new steps = some final) : Tracks steps final := by
  apply execute_induction run Tracks.new
  intro before submissions step later tracks taken
  cases step with
  | next call => exact tracks.of_next taken
  | send call => exact tracks.of_send taken
  | subscribe => exact tracks.of_subscribe taken

/-- Fewer than `2 ^ 64` calls do not wrap the counter. -/
theorem toNat_number (few : (nexts steps).length < 2 ^ 64) {call : SubmitCall κ}
    (taken : call ∈ nexts steps) : (number steps call).toNat = (nexts steps).idxOf call :=
  UInt64.toNat_ofNat_of_lt' ((List.idxOf_lt_length_of_mem taken).trans few)

namespace Tracks

/-- The numbers that have been returned are the positions of the calls that have sent. -/
theorem returned_eq (tracks : Tracks steps final) (few : (nexts steps).length < 2 ^ 64) :
    final.returned.map (·.2.toNat) = (sends steps).map (nexts steps).idxOf := by
  rw [← tracks.sent, List.map_map]
  apply List.map_congr_left
  intro ticket ticketMem
  have inRun := List.mem_append_right final.pending ticketMem
  rw [tracks.numbered ticket inRun]
  exact toNat_number few (tracks.mem_nexts inRun)

theorem sends_nodup (tracks : Tracks steps final) : (sends steps).Nodup := by
  have made : final.calls.Nodup := tracks.calls.nodup_iff.mpr tracks.distinct
  rw [Submissions.calls, List.map_append, tracks.sent] at made
  exact (List.nodup_append.mp made).2.1

/-- No number is returned twice. -/
theorem returned_nodup (tracks : Tracks steps final) (few : (nexts steps).length < 2 ^ 64) :
    (final.returned.map Prod.snd).Nodup := by
  have distinct : (final.returned.map (·.2.toNat)).Nodup := by
    rw [tracks.returned_eq few]
    exact nodup_map_idxOf tracks.sends_subset tracks.sends_nodup
  have split : final.returned.map (·.2.toNat) =
      (final.returned.map Prod.snd).map UInt64.toNat := by
    rw [List.map_map]
    rfl
  rw [split] at distinct
  exact distinct.of_map _

/-- When all calls have returned, the numbers leave no gap. -/
theorem returned_perm (tracks : Tracks steps final) (few : (nexts steps).length < 2 ^ 64)
    (idle : final.pending = []) :
    (final.returned.map (·.2.toNat)).Perm (List.range final.returned.length) := by
  have perm : (sends steps).Perm (nexts steps) := by
    have calls := tracks.calls
    rw [Submissions.calls, idle, List.nil_append, tracks.sent] at calls
    exact calls
  have length_eq : final.returned.length = (nexts steps).length := by
    rw [← perm.length_eq, ← tracks.sent, List.length_map]
  rw [tracks.returned_eq few, length_eq, ← map_idxOf_eq_range tracks.distinct]
  exact perm.map _

end Tracks

/-- The η of a SPECULATE. -/
def Message.eta : Message → Option Eta
  | speculate _ _ _ eta => some eta
  | _ => none

/-- The numbers that have been returned are different, they are `0 … k - 1` when `k` calls
have returned and none is in progress, and each subscriber gets them in increasing order. -/
structure Sequenced (submissions : Submissions κ) : Prop where
  distinct : (submissions.returned.map Prod.snd).Nodup
  complete : submissions.pending = [] →
    (submissions.returned.map (·.2.toNat)).Perm (List.range submissions.returned.length)
  ordered : ∀ received ∈ submissions.sequencer.sender.receivers,
    (received.filterMap Message.eta).Pairwise (· < ·)

/-- What a subscriber gets increases when it is in the order of the numbers. -/
theorem Tracks.ordered_iff (tracks : Tracks steps final) (few : (nexts steps).length < 2 ^ 64)
    {heard : List (SubmitCall κ)} (heardMem : heard ∈ audiences steps) :
    ((heard.map fun call => Sequencer.speculate call.opHash (number steps call)).filterMap
      Message.eta).Pairwise (· < ·) ↔ heard.Sublist (nexts steps) := by
  have sub : heard ⊆ nexts steps :=
    List.Subset.trans (sublist_sends_of_mem_audiences heardMem).subset tracks.sends_subset
  have etas_eq : (heard.map fun call =>
      Sequencer.speculate call.opHash (number steps call)).filterMap Message.eta =
        heard.map (number steps) := by
    rw [List.filterMap_map]
    exact congrFun List.filterMap_eq_map heard
  rw [etas_eq, ← pairwise_iff_sublist tracks.distinct sub, List.pairwise_map, List.pairwise_map]
  apply List.Pairwise.iff_of_mem
  intro first second firstMem secondMem
  rw [UInt64.lt_iff_toNat_lt, toNat_number few (sub firstMem), toNat_number few (sub secondMem)]

/-- However fewer than `2 ^ 64` calls interleave, the numbers are different and leave no gap,
and they are published in order exactly when no call that a subscriber hears of sends after
one that took its number later. -/
theorem sequenced_iff (run : execute Submissions.step Submissions.new steps = some final)
    (few : (nexts steps).length < 2 ^ 64) : Sequenced final ↔ InOrder steps := by
  have tracks := tracks_of_execute run
  have ordered_iff : (∀ received ∈ final.sequencer.sender.receivers,
      (received.filterMap Message.eta).Pairwise (· < ·)) ↔ InOrder steps := by
    rw [tracks.received, List.forall_mem_map]
    exact forall₂_congr fun heard heardMem => tracks.ordered_iff few heardMem
  constructor
  · intro sequenced
    exact ordered_iff.mp sequenced.ordered
  · intro inOrder
    constructor
    · exact tracks.returned_nodup few
    · exact tracks.returned_perm few
    · exact ordered_iff.mpr inOrder

end Runs

/-! ## Calls that do not overlap -/

/-- What one task does on its own: submit, or subscribe. -/
def uninterrupted : Option (SubmitCall κ) → List (SubmitStep κ)
  | some call => [.next call, .send call]
  | none => [.subscribe]

omit [DecidableEq κ] in
/-- Calls that do not overlap send in the order of their numbers. -/
theorem inOrder_of_uninterrupted (plan : List (Option (SubmitCall κ))) :
    InOrder (plan.flatMap uninterrupted) := by
  have same : sends (plan.flatMap uninterrupted) = nexts (plan.flatMap uninterrupted) := by
    induction plan with
    | nil => rfl
    | cons move rest ih =>
        rw [List.flatMap_cons, sends_append, nexts_append, ih]
        cases move <;> rfl
  intro heard heardMem
  rw [← same]
  exact sublist_sends_of_mem_audiences heardMem

/-! ## Two overlapping calls -/

def firstCall : SubmitCall Nat :=
  ⟨0, Hash.fill 1⟩

def secondCall : SubmitCall Nat :=
  ⟨1, Hash.fill 2⟩

/-- The second call sends between the two steps of the first. -/
def overtaking : List (SubmitStep Nat) :=
  [.subscribe, .next firstCall, .next secondCall, .send secondCall, .send firstCall]

/-- The subscriber gets 1 before 0. -/
theorem submissions_overtake :
    ((execute Submissions.step Submissions.new overtaking).map fun final =>
        final.sequencer.sender.receivers.map (·.filterMap Message.eta)) = some [[1, 0]] ∧
      ¬∀ (steps : List (SubmitStep Nat)) (final : Submissions Nat),
        execute Submissions.step Submissions.new steps = some final →
        (nexts steps).length < 2 ^ 64 → Sequenced final := by
  constructor
  · decide +kernel
  · intro sequenced
    have ordered := (sequenced overtaking _ (Option.some_get (by decide +kernel)).symm
      (by decide +kernel)).ordered
    revert ordered
    decide +kernel

/-- The calls overlap, but the one that came first sends first. -/
def overlapping : List (SubmitStep Nat) :=
  [.subscribe, .next firstCall, .next secondCall, .send firstCall, .send secondCall]

theorem sequenced_iff_overlapping :
    ∃ final, execute Submissions.step Submissions.new overlapping = some final ∧
      Sequenced final := by
  have returns : (execute Submissions.step Submissions.new overlapping).isSome = true := by
    decide +kernel
  have run := (Option.some_get returns).symm
  have inOrder : InOrder overlapping := by
    unfold InOrder
    decide +kernel
  exact ⟨_, run, (sequenced_iff run (by decide +kernel)).mpr inOrder⟩

end Raspen
