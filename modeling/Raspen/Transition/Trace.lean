import Mathlib.Data.List.Nodup

/-!
# Once-only events of a trace

A key function picks the events of one kind out of a trace and names the slot
each of them uses up.  The kind is once-only when no slot is used twice, and it
agrees when all events of a slot carry the same value.
-/

namespace Raspen.Transition

universe u v w

variable {ε : Type u} {κ : Type v} {α : Type w}

/-- No two events of the trace use the same slot. -/
def OnceOnly (key : ε → Option κ) (trace : List ε) : Prop :=
  (trace.filterMap key).Nodup

theorem onceOnly_nil (key : ε → Option κ) : OnceOnly key [] :=
  List.nodup_nil

/-- Events of other kinds never spoil a once-only trace. -/
theorem OnceOnly.append_other {key : ε → Option κ} {trace events : List ε}
    (once : OnceOnly key trace) (other : ∀ event ∈ events, key event = none) :
    OnceOnly key (trace ++ events) := by
  have silent : events.filterMap key = [] := List.filterMap_eq_nil_iff.mpr other
  unfold OnceOnly
  rw [List.filterMap_append, silent, List.append_nil]
  exact once

/-- The only event of a kind is determined by its kind. -/
theorem eq_of_only {kind : ε → Bool} {trace : List ε} {first second : ε}
    (only : (trace.filter kind).length = 1) (firstMem : first ∈ trace) (secondMem : second ∈ trace)
    (firstKind : kind first = true) (secondKind : kind second = true) : first = second := by
  rcases List.length_eq_one_iff.mp only with ⟨event, filtered⟩
  have firstFiltered := List.mem_filter.mpr ⟨firstMem, firstKind⟩
  have secondFiltered := List.mem_filter.mpr ⟨secondMem, secondKind⟩
  rw [filtered, List.mem_singleton] at firstFiltered secondFiltered
  rw [firstFiltered, secondFiltered]

/-- One more event is harmless when its slot is fresh. -/
theorem OnceOnly.append_fresh {key : ε → Option κ} {trace events : List ε} {slot : κ}
    (once : OnceOnly key trace) (single : events.filterMap key = [slot])
    (fresh : ∀ event ∈ trace, key event ≠ some slot) : OnceOnly key (trace ++ events) := by
  unfold OnceOnly
  rw [List.filterMap_append, single, List.nodup_append]
  refine ⟨once, List.nodup_singleton slot, ?_⟩
  intro used usedMem new newMem equal
  rcases List.mem_filterMap.mp usedMem with ⟨event, eventMem, eventKey⟩
  rw [List.mem_singleton.mp newMem] at equal
  exact fresh event eventMem (equal ▸ eventKey)

/-- In a once-only trace a slot determines the event that used it. -/
theorem OnceOnly.eq_of_slot {key : ε → Option κ} {trace : List ε} {first second : ε} {slot : κ}
    (once : OnceOnly key trace) (firstMem : first ∈ trace) (secondMem : second ∈ trace)
    (firstKey : key first = some slot) (secondKey : key second = some slot) :
    first = second := by
  induction trace with
  | nil => simp at firstMem
  | cons head rest ih =>
      have restOnce : OnceOnly key rest :=
        once.sublist ((List.sublist_cons_self head rest).filterMap key)
      have unused : ∀ event ∈ rest, key head = some slot → key event ≠ some slot := by
        intro event eventMem headKey eventKey
        have both : (slot :: rest.filterMap key).Nodup := by
          simpa [OnceOnly, headKey] using once
        exact (List.nodup_cons.mp both).1 (List.mem_filterMap.mpr ⟨event, eventMem, eventKey⟩)
      rcases List.mem_cons.mp firstMem with rfl | firstRest
      · rcases List.mem_cons.mp secondMem with rfl | secondRest
        · rfl
        · exact absurd secondKey (unused second secondRest firstKey)
      · rcases List.mem_cons.mp secondMem with rfl | secondRest
        · exact absurd firstKey (unused first firstRest secondKey)
        · exact ih restOnce firstRest secondRest

/-- A once-only trace has at most one event of each slot. -/
theorem OnceOnly.countP_le_one {key : ε → Option κ} {trace : List ε} (once : OnceOnly key trace)
    {pattern : ε → Bool} {slot : κ} (uses : ∀ event, pattern event = true → key event = some slot) :
    trace.countP pattern ≤ 1 := by
  classical
  calc trace.countP pattern
      ≤ trace.countP fun event => ((key event).map (· == slot)).getD false := by
        apply List.countP_mono_left
        intro event _ matched
        simp [uses event matched]
    _ = (trace.filterMap key).count slot := List.countP_filterMap.symm
    _ ≤ 1 := List.nodup_iff_count_le_one.mp once slot

/-- All events of one slot carry the same value. -/
def Agree (key : ε → Option (κ × α)) (trace : List ε) : Prop :=
  ∀ first ∈ trace, ∀ second ∈ trace, ∀ slot value value',
    key first = some (slot, value) → key second = some (slot, value') → value = value'

theorem agree_nil (key : ε → Option (κ × α)) : Agree key [] := by
  intro first firstMem
  simp at firstMem

/-- Events that neither reopen a closed slot nor leave the current value of an
open one keep the agreement. -/
theorem Agree.append {key : ε → Option (κ × α)} {trace events : List ε} (agree : Agree key trace)
    (closed : κ → Prop) (current : κ → α)
    (opens : ∀ event ∈ events, ∀ slot value, key event = some (slot, value) → ¬closed slot)
    (follows : ∀ event ∈ trace ++ events, ∀ slot value, key event = some (slot, value) →
      closed slot ∨ value = current slot) :
    Agree key (trace ++ events) := by
  intro first firstMem second secondMem slot value value' firstKey secondKey
  by_cases isClosed : closed slot
  · have old : ∀ event ∈ trace ++ events, ∀ value, key event = some (slot, value) →
        event ∈ trace := by
      intro event eventMem value eventKey
      rcases List.mem_append.mp eventMem with old | new
      · exact old
      · exact absurd isClosed (opens event new slot value eventKey)
    exact agree first (old first firstMem value firstKey) second
      (old second secondMem value' secondKey) slot value value' firstKey secondKey
  · have currentValue : ∀ event ∈ trace ++ events, ∀ value, key event = some (slot, value) →
        value = current slot := by
      intro event eventMem value eventKey
      rcases follows event eventMem slot value eventKey with passed | same
      · exact absurd passed isClosed
      · exact same
    exact (currentValue first firstMem value firstKey).trans
      (currentValue second secondMem value' secondKey).symm

/-- Events of other kinds never spoil the agreement. -/
theorem Agree.append_other {key : ε → Option (κ × α)} {trace events : List ε}
    (agree : Agree key trace) (other : ∀ event ∈ events, key event = none) :
    Agree key (trace ++ events) := by
  have old : ∀ event ∈ trace ++ events, ∀ slot value, key event = some (slot, value) →
      event ∈ trace := by
    intro event eventMem slot value eventKey
    rcases List.mem_append.mp eventMem with old | new
    · exact old
    · rw [other event new] at eventKey
      contradiction
  intro first firstMem second secondMem slot value value' firstKey secondKey
  exact agree first (old first firstMem slot value firstKey) second
    (old second secondMem slot value' secondKey) slot value value' firstKey secondKey

/-- One more event keeps the agreement when its slot holds no other value. -/
theorem Agree.append_single {key : ε → Option (κ × α)} {trace : List ε} {event : ε}
    (agree : Agree key trace)
    (same : ∀ slot value, key event = some (slot, value) →
      ∀ earlier ∈ trace, ∀ value', key earlier = some (slot, value') → value' = value) :
    Agree key (trace ++ [event]) := by
  intro first firstMem second secondMem slot value value' firstKey secondKey
  rcases List.mem_append.mp firstMem with firstOld | firstNew
  · rcases List.mem_append.mp secondMem with secondOld | secondNew
    · exact agree first firstOld second secondOld slot value value' firstKey secondKey
    · rw [List.mem_singleton.mp secondNew] at secondKey
      exact same slot value' secondKey first firstOld value firstKey
  · rw [List.mem_singleton.mp firstNew] at firstKey
    rcases List.mem_append.mp secondMem with secondOld | secondNew
    · exact (same slot value firstKey second secondOld value' secondKey).symm
    · rw [List.mem_singleton.mp secondNew, firstKey] at secondKey
      exact (Prod.mk.inj (Option.some.inj secondKey)).2

end Raspen.Transition
