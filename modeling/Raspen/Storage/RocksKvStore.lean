import Raspen.Storage.MemKvStore

/-!
# RocksDB log store

The persistent backend.  The database is its two column families, each ordered by
the bytes of its keys.  Reads succeed; a range deletion and a batch write either
take effect as a whole or fail and change nothing.
-/

namespace Raspen

open Raspen.KeyOrder

/-- The `bincode` crate at one type, in its standard configuration.  The crate is
outside the repository, so both directions are parameters; decoding also returns
the number of bytes it read. -/
class Bincode (α : Type) where
  encodeToVec : α → Except String (List UInt8)
  decodeFromSlice : List UInt8 → Except String (α × Nat)

namespace Bincode

variable {α : Type} [Bincode α]

def encode (value : α) : Except String (List UInt8) :=
  (encodeToVec value).mapError fun e => s!"bincode encode: {e}"

def decode (bytes : List UInt8) : Except String α :=
  ((decodeFromSlice bytes).map Prod.fst).mapError fun e => s!"bincode decode: {e}"

/-- Decoding after encoding is the identity. -/
def RoundTrips (α : Type) [Bincode α] : Prop :=
  ∀ value : α, (encode value >>= decode) = .ok value

theorem RoundTrips.exists_encode (roundTrips : RoundTrips α) (value : α) :
    ∃ bytes, encode value = .ok bytes ∧ decode bytes = .ok value := by
  have identity := roundTrips value
  cases encoded : encode value with
  | error e =>
      rw [encoded] at identity
      contradiction
  | ok bytes =>
      rw [encoded] at identity
      exact ⟨bytes, rfl, identity⟩

/-- It is enough that the crate reads back what it wrote. -/
theorem roundTrips_of_decodeFromSlice
    (readBack : ∀ value : α, ∃ bytes read, encodeToVec value = .ok bytes ∧
      decodeFromSlice bytes = .ok (value, read)) : RoundTrips α := by
  intro value
  obtain ⟨bytes, read, written, decoded⟩ := readBack value
  have encoded : encode value = .ok bytes := by
    rw [encode, written]
    rfl
  rw [encoded]
  change decode bytes = _
  rw [decode, decoded]
  rfl

end Bincode

open Bincode

/-- The database: the default column family and the one named "meta". -/
structure RocksKvStore where
  defaultCf : Std.ExtTreeMap (List UInt8) (List UInt8)
  metaCf : Std.ExtTreeMap (List UInt8) (List UInt8)

namespace RocksKvStore

/-- A freshly created database. -/
def new : RocksKvStore :=
  ⟨∅, ∅⟩

/-- The largest `u64`. -/
def u64Max : UInt64 :=
  0xFFFFFFFFFFFFFFFF

/-- An index as its eight big-endian bytes. -/
def entryKey (idx : UInt64) : List UInt8 :=
  bigEndian 8 idx.toNat

/-- The key `b"kv_size"`. -/
def metaKvSize : List UInt8 :=
  [107, 118, 95, 115, 105, 122, 101]

/-- Entry keys are ordered as the indices are. -/
theorem compare_entryKey (idx other : UInt64) :
    compare (entryKey idx) (entryKey other) = compare idx other := by
  rw [entryKey, entryKey, compare_bigEndian idx.toNat_lt other.toNat_lt]
  simp only [compare, compareOfLessAndEq, UInt64.lt_iff_toNat_lt, ← UInt64.toNat_inj]

/-! ## Calls on the database -/

/-- A call that may panic, or fail with an error text.  A failed call keeps what
it had already written. -/
abbrev Action := ExceptT String (StateT RocksKvStore Option)

/-- The errors RocksDB reports while a call runs. -/
structure Faults where
  deleteRange : Option String
  write : Option String

/-- No write fails. -/
def Faults.none : Faults :=
  ⟨.none, .none⟩

namespace Action

variable {α β : Type}

/-- Run the call: its outcome and the database it leaves behind. -/
def runOn (action : Action α) (store : RocksKvStore) : Option (Except String α × RocksKvStore) :=
  (ExceptT.run action).run store

def read (query : RocksKvStore → Except String α) : Action α :=
  ExceptT.mk fun store => some (query store, store)

/-- A value the caller has, or the error that stands in its place. -/
def attempt (result : Except String α) : Action α :=
  read fun _ => result

/-- Checked addition on `u64`. -/
def add (a b : UInt64) : Action UInt64 :=
  ExceptT.mk fun store => (addU64 a b).map fun sum => (.ok sum, store)

/-- A change of the database that happens as a whole unless it fails. -/
def modify (fault : Option String) (change : RocksKvStore → RocksKvStore) : Action Unit :=
  ExceptT.mk fun store =>
    match fault with
    | some e => some (.error e, store)
    | none => some (.ok (), change store)

theorem runOn_pure (value : α) (store : RocksKvStore) :
    runOn (pure value) store = some (.ok value, store) :=
  rfl

/-- A successful call hands its value and its database to the next one. -/
theorem runOn_bind {action : Action α} {next : α → Action β} {store store' : RocksKvStore}
    {value : α} (ran : action.runOn store = some (.ok value, store')) :
    (action >>= next).runOn store = (next value).runOn store' := by
  change ((action.runOn store).bind fun ran => _) = _
  rw [ran]
  rfl

theorem runOn_read {query : RocksKvStore → Except String α} {store : RocksKvStore} {value : α}
    (known : query store = .ok value) : (read query).runOn store = some (.ok value, store) := by
  rw [← known]
  rfl

theorem runOn_attempt {result : Except String α} {store : RocksKvStore} {value : α}
    (known : result = .ok value) : (attempt result).runOn store = some (.ok value, store) :=
  runOn_read known

theorem runOn_add {a b sum : UInt64} {store : RocksKvStore} (small : addU64 a b = some sum) :
    (add a b).runOn store = some (.ok sum, store) := by
  change (addU64 a b).map _ = _
  rw [small]
  rfl

theorem runOn_modify (change : RocksKvStore → RocksKvStore) (store : RocksKvStore) :
    (modify none change).runOn store = some (.ok (), change store) :=
  rfl

end Action

open Raspen.RocksKvStore.Action

/-- One write of a batch, into the default or the "meta" column family. -/
inductive BatchWrite
  | put (key value : List UInt8)
  | putMeta (key value : List UInt8)

abbrev WriteBatch := List BatchWrite

def applyWrite (store : RocksKvStore) : BatchWrite → RocksKvStore
  | .put key value => { store with defaultCf := store.defaultCf.insert key value }
  | .putMeta key value => { store with metaCf := store.metaCf.insert key value }

/-- Apply the writes of a batch in their order. -/
def applyBatch (store : RocksKvStore) (batch : WriteBatch) : RocksKvStore :=
  batch.foldl applyWrite store

/-- A batch write, atomic. -/
def write (fault : Option String) (batch : WriteBatch) : Action Unit :=
  modify fault fun store => store.applyBatch batch

/-- A range deletion in the default column family, without its end. -/
def deleteRangeCf (fault : Option String) (start stop : List UInt8) : Action Unit :=
  modify fault fun store => { store with defaultCf := deleteRange start stop store.defaultCf }

/-! ## The store operations -/

def readMetaU64 [Bincode UInt64] (store : RocksKvStore) (key : List UInt8) : Except String UInt64 :=
  match store.metaCf[key]? with
  | some bytes => decode bytes
  | none => .ok 0

/-- The size read back after it was written. -/
theorem readMetaU64_putMeta [Bincode UInt64] (store : RocksKvStore) {size : UInt64}
    {bytes : List UInt8} (decoded : decode bytes = .ok size) :
    (store.applyWrite (.putMeta metaKvSize bytes)).readMetaU64 metaKvSize = .ok size := by
  simp only [applyWrite, readMetaU64, Std.ExtTreeMap.getElem?_insert_self]
  exact decoded

def size [Bincode UInt64] (store : RocksKvStore) : UInt64 :=
  match store.readMetaU64 metaKvSize with
  | .ok size => size
  | .error _ => 0

def get [Bincode KvEntry] (store : RocksKvStore) (idx : UInt64) :
    Except String (Option KvEntry) :=
  match store.defaultCf[entryKey idx]? with
  | some bytes => (decode bytes).map some
  | none => .ok none

/-- The hash the entry under the last key carries. -/
def topHash [Bincode KvEntry] (store : RocksKvStore) : Hash :=
  match lastEntry store.defaultCf with
  | some (_, bytes) =>
      match (decode bytes : Except String KvEntry) with
      | .ok entry => entry.prevHash
      | .error _ => Hash.zero
  | none => Hash.zero

def hashAt [Bincode KvEntry] [EntryHasher] (store : RocksKvStore) (idx : UInt64) :
    Except String Hash :=
  match store.get idx with
  | .ok (some entry) => .ok (EntryHasher.entryHash entry)
  | .ok none => .error s!"no entry at index {idx}"
  | .error e => .error e

/-- Write an entry and, when the log grows, its size. -/
def put [Bincode UInt64] [Bincode KvEntry] (faults : Faults) (idx : UInt64) (entry : KvEntry) :
    Action Unit := do
  let value ← attempt (encode entry)
  let currentSize ← read fun store => store.readMetaU64 metaKvSize
  let newSize := max currentSize (← add idx 1)
  if currentSize < newSize then
    let sizeBytes ← attempt (encode newSize)
    write faults.write [.put (entryKey idx) value, .putMeta metaKvSize sizeBytes]
  else
    write faults.write [.put (entryKey idx) value]

/-- One turn of the loop that fills the batch: the write added and the highest
size seen. -/
def rebuildStep [Bincode KvEntry] (acc : WriteBatch × UInt64) (item : UInt64 × KvEntry) :
    Action (WriteBatch × UInt64) := do
  let value ← attempt (encode item.2)
  let size ← add item.1 1
  return (acc.1 ++ [.put (entryKey item.1) value], if acc.2 < size then size else acc.2)

/-- Delete the whole log, then write the new entries and their size. -/
def rebuildFromEntries [Bincode UInt64] [Bincode KvEntry] (faults : Faults)
    (entries : List (UInt64 × KvEntry)) : Action Unit := do
  deleteRangeCf faults.deleteRange (entryKey 0) (entryKey u64Max)
  let (batch, maxIdx) ← entries.foldlM rebuildStep ([], 0)
  let sizeBytes ← attempt (encode maxIdx)
  write faults.write (batch ++ [.putMeta metaKvSize sizeBytes])

/-- What a caller sees of a call: the database after a success, else the error.
A panic has no text of its own in the interface. -/
def outcome : Option (Except String Unit × RocksKvStore) → Except String RocksKvStore
  | some (.ok (), store) => .ok store
  | some (.error e, _) => .error e
  | none => .error "attempt to add with overflow"

/-- The backend while no write fails. -/
instance [Bincode UInt64] [Bincode KvEntry] [EntryHasher] : KvStoreOps RocksKvStore where
  get := get
  put store idx entry := outcome ((put .none idx entry).runOn store)
  size store := some store.size
  topHash := topHash
  hashAt := hashAt
  rebuildFromEntries store entries := outcome ((rebuildFromEntries .none entries).runOn store)

end RocksKvStore

/-! ## A codec that spells values out -/

/-- A number below 251 takes one byte, as in the crate's variable-length form; a
larger one is framed in unary behind the marker of the eight-byte form. -/
def encodeNat (n : Nat) (rest : List UInt8) : List UInt8 :=
  if n < 251 then UInt8.ofNat n :: rest else 253 :: frame n rest

/-- Read a unary frame back, with the bytes behind it. -/
def decodeFrame : List UInt8 → Option (Nat × List UInt8)
  | [] => none
  | byte :: rest =>
      if byte = 0 then some (0, rest)
      else (decodeFrame rest).map fun (length, rest) => (length + 1, rest)

theorem decodeFrame_frame (length : Nat) (bytes : List UInt8) :
    decodeFrame (frame length bytes) = some (length, bytes) := by
  induction length with
  | zero => rfl
  | succ length ih =>
      change (decodeFrame (frame length bytes)).map _ = _
      rw [ih]
      rfl

def decodeNat : List UInt8 → Option (Nat × List UInt8)
  | [] => none
  | byte :: rest => if byte.toNat < 251 then some (byte.toNat, rest) else decodeFrame rest

theorem decodeNat_encodeNat (n : Nat) (rest : List UInt8) :
    decodeNat (encodeNat n rest) = some (n, rest) := by
  unfold encodeNat
  split
  · rename_i small
    have byte : (UInt8.ofNat n).toNat = n := UInt8.toNat_ofNat_of_lt' (small.trans (by decide))
    rw [decodeNat, byte, if_pos small]
  · rw [decodeNat, if_neg (by decide), decodeFrame_frame]

@[reducible]
def plainU64 : Bincode UInt64 where
  encodeToVec value := .ok (encodeNat value.toNat [])
  decodeFromSlice bytes :=
    match decodeNat bytes with
    | some (n, rest) => .ok (UInt64.ofNat n, bytes.length - rest.length)
    | none => .error "UnexpectedEnd"

/-- The operation, the result behind its length, and the digest to the end. -/
@[reducible]
def plainEntry : Bincode KvEntry where
  encodeToVec entry := .ok (encodeNat entry.opHash.toNat
    (encodeNat entry.result.length (entry.result ++ entry.prevHash)))
  decodeFromSlice bytes :=
    match decodeNat bytes with
    | none => .error "UnexpectedEnd"
    | some (opHash, rest) =>
        match decodeNat rest with
        | none => .error "UnexpectedEnd"
        | some (length, rest) =>
            .ok (⟨UInt64.ofNat opHash, rest.take length, rest.drop length⟩, bytes.length)

section PlainCodec

attribute [local instance] plainU64 plainEntry

theorem plainU64_roundTrips : RoundTrips UInt64 := by
  apply roundTrips_of_decodeFromSlice
  intro value
  refine ⟨_, (encodeNat value.toNat []).length, rfl, ?_⟩
  simp [decodeFromSlice, decodeNat_encodeNat]

theorem plainEntry_roundTrips : RoundTrips KvEntry := by
  apply roundTrips_of_decodeFromSlice
  rintro ⟨opHash, result, prevHash⟩
  refine ⟨_, (encodeNat opHash.toNat (encodeNat result.length (result ++ prevHash))).length,
    rfl, ?_⟩
  simp [decodeFromSlice, decodeNat_encodeNat]

end PlainCodec

end Raspen
