import Raspen.Consensus.Core

/-!
# Fast-path speculative execution
-/

namespace Raspen

open KvStoreOps

variable {S : Type}

/-- The index to write the next entry at, or `none` if the guard fails. -/
def canSpeculate (replica : Replica S) (msg : Message) : Option UInt64 :=
  match msg with
  | .speculate .. => if replica.phase = .speculative then some replica.kvSize else none
  | _ => none

theorem canSpeculate_eq_some_iff {replica : Replica S} {msg : Message} {logIdx : UInt64} :
    canSpeculate replica msg = some logIdx ↔
      (∃ fromSeq round opHash eta, msg = .speculate fromSeq round opHash eta) ∧
        replica.phase = .speculative ∧ logIdx = replica.kvSize := by
  cases msg <;> simp [canSpeculate, eq_comm]

variable [KvStoreOps S]

/-- The entry speculation writes at `logIdx`, chained to its predecessor. -/
def newEntry (replica : Replica S) (logIdx : UInt64) : KvEntry where
  opHash := logIdx
  result := []
  prevHash :=
    if 0 < logIdx then
      (hashAt replica.kvStore (logIdx - 1)).toOption.getD Hash.zero
    else
      Hash.zero

/-- Append a new log entry chained to its predecessor and broadcast a
SPEC-REPLY. -/
def handleSpeculate (replica : Replica S) (logIdx : UInt64) : Option (Outcome S) := do
  let kvStore ← (put replica.kvStore logIdx (newEntry replica logIdx)).toOption
  let newHash ← (hashAt kvStore logIdx).toOption
  let kvSize ← addU64 replica.kvSize 1
  pure ({ replica with kvStore := kvStore, kvSize := kvSize },
    [.broadcast (.specReply replica.nodeId replica.round logIdx newHash)])

/-- Speculation writes the store and its size, and reports the hash of the entry
it has written. -/
theorem handleSpeculate_eq_some {replica next : Replica S} {logIdx : UInt64}
    {effects : List Effect} (handled : handleSpeculate replica logIdx = some (next, effects)) :
    ∃ kvStore kvSize newHash,
      put replica.kvStore logIdx (newEntry replica logIdx) = .ok kvStore ∧
      hashAt kvStore logIdx = .ok newHash ∧ addU64 replica.kvSize 1 = some kvSize ∧
      next = { replica with kvStore := kvStore, kvSize := kvSize } ∧
      effects = [.broadcast (.specReply replica.nodeId replica.round logIdx newHash)] := by
  simp only [handleSpeculate, Option.bind_eq_bind, Option.bind_eq_some_iff, Option.pure_def,
    Option.some.injEq, Prod.mk.injEq] at handled
  rcases handled with ⟨kvStore, written, newHash, reported, kvSize, grown, rfl, rfl⟩
  exact ⟨kvStore, kvSize, newHash, ok_of_toOption_eq_some written,
    ok_of_toOption_eq_some reported, grown, rfl, rfl⟩

end Raspen
