import Mathlib.Algebra.Group.Nat.Defs
import Mathlib.Data.List.Basic

/-!
# Ordered maps under encoded keys

A map ordered by its keys can be kept as a map ordered by the encodings of these
keys.  When encoding keeps the order, the highest key of one is the encoding of
the highest key of the other.  Big-endian byte strings of one length are such an
encoding of the numbers.
-/

namespace Raspen.KeyOrder

universe u v w x

variable {α : Type u} {β : Type v} {γ : Type w} {δ : Type x}
  {cmp : α → α → Ordering} {cmp' : γ → γ → Ordering}

section Maps

variable [Std.TransCmp cmp]

/-- The entry with the highest key. -/
def lastEntry (map : Std.ExtTreeMap α β cmp) : Option (α × β) :=
  map.toList.getLast?

/-- Drop every key from `start` on that lies below `stop`. -/
def deleteRange (start stop : α) (map : Std.ExtTreeMap α β cmp) : Std.ExtTreeMap α β cmp :=
  map.filter fun key _ => !((cmp start key).isLE && cmp key stop == .lt)

variable [Std.LawfulEqCmp cmp]

/-- The last entry is the one no other key exceeds. -/
theorem lastEntry_eq_some_iff {map : Std.ExtTreeMap α β cmp} {key : α} {value : β} :
    lastEntry map = some (key, value) ↔ map[key]? = some value ∧
      ∀ other stored, map[other]? = some stored → (cmp other key).isLE := by
  have ordered := map.ordered_keys_toList
  have mem_iff : ∀ other stored, (other, stored) ∈ map.toList ↔ map[other]? = some stored :=
    fun _ _ => Std.ExtTreeMap.mem_toList_iff_getElem?_eq_some
  unfold lastEntry
  rcases List.eq_nil_or_concat' map.toList with empty | ⟨before, last, split⟩
  · have absent : map[key]? ≠ some value := by
      rw [ne_eq, ← mem_iff, empty]
      exact List.not_mem_nil
    simp [empty, absent]
  · have lastStored := (mem_iff last.1 last.2).mp (by simp [split])
    have highest : ∀ other stored, map[other]? = some stored → (cmp other last.1).isLE := by
      intro other stored atKey
      have inList := (mem_iff other stored).mpr atKey
      rw [split] at inList ordered
      rcases List.mem_append.mp inList with earlier | isLast
      · have below : cmp other last.1 = .lt :=
          (List.pairwise_append.mp ordered).2.2 _ earlier last List.mem_cons_self
        rw [below]
        rfl
      · rw [← List.mem_singleton.mp isLast]
        exact Std.ReflCmp.isLE_rfl
    rw [split, List.getLast?_concat, Option.some.injEq]
    constructor
    · rintro rfl
      exact ⟨lastStored, highest⟩
    · rintro ⟨atKey, bound⟩
      have sameKey : last.1 = key := Std.LawfulEqCmp.eq_of_compare
        (Std.OrientedCmp.isLE_antisymm (bound last.1 last.2 lastStored) (highest key value atKey))
      rw [sameKey, atKey, Option.some.injEq] at lastStored
      exact Prod.ext sameKey lastStored.symm

theorem lastEntry_eq_none_iff {map : Std.ExtTreeMap α β cmp} :
    lastEntry map = none ↔ ∀ key : α, map[key]? = none := by
  rw [lastEntry, List.getLast?_eq_none_iff, Std.ExtTreeMap.toList_eq_nil_iff]
  constructor
  · intro empty key
    simp [empty]
  · intro absent
    exact Std.ExtTreeMap.ext_getElem? (by simpa using absent)

/-- A range that spans every stored key leaves nothing. -/
theorem deleteRange_eq_empty {map : Std.ExtTreeMap α β cmp} {start stop : α}
    (spanned : ∀ key value, map[key]? = some value →
      (cmp start key).isLE ∧ cmp key stop = .lt) :
    deleteRange start stop map = ∅ := by
  apply Std.ExtTreeMap.ext_getElem?
  intro key
  rw [deleteRange, Std.ExtTreeMap.getElem?_filter']
  cases atKey : map[key]? with
  | none => simp
  | some value =>
      obtain ⟨low, high⟩ := spanned key value atKey
      simp [low, high]

end Maps

section Copies

variable [Std.TransCmp cmp] [Std.LawfulEqCmp cmp] [Std.TransCmp cmp'] [Std.LawfulEqCmp cmp']

/-- `stored` holds the entries of `map` and no others, each under its encoded key
and as something that represents its value. -/
structure Mirrors (encode : α → γ) (represents : δ → β → Prop) (map : Std.ExtTreeMap α β cmp)
    (stored : Std.ExtTreeMap γ δ cmp') : Prop where
  present : ∀ key value, map[key]? = some value →
    ∃ bytes, stored[encode key]? = some bytes ∧ represents bytes value
  reflected : ∀ code bytes, stored[code]? = some bytes →
    ∃ key value, code = encode key ∧ map[key]? = some value

namespace Mirrors

variable {encode : α → γ} {represents : δ → β → Prop} {map : Std.ExtTreeMap α β cmp}
  {stored : Std.ExtTreeMap γ δ cmp'}

omit [Std.LawfulEqCmp cmp] [Std.LawfulEqCmp cmp'] in
theorem empty : Mirrors encode represents (∅ : Std.ExtTreeMap α β cmp)
    (∅ : Std.ExtTreeMap γ δ cmp') where
  present key value atKey := by simp at atKey
  reflected code bytes atCode := by simp at atCode

variable (monotone : ∀ key other, cmp' (encode key) (encode other) = cmp key other)
include monotone

omit [Std.LawfulEqCmp cmp] in
/-- Writing one key on both sides keeps the copy. -/
theorem insert (mirrors : Mirrors encode represents map stored) (key : α) {value : β} {bytes : δ}
    (sameValue : represents bytes value) :
    Mirrors encode represents (map.insert key value) (stored.insert (encode key) bytes) where
  present other kept atOther := by
    rw [Std.ExtTreeMap.getElem?_insert] at atOther
    rw [Std.ExtTreeMap.getElem?_insert, monotone]
    by_cases same : cmp key other = .eq
    · rw [if_pos same, Option.some.injEq] at atOther
      rw [if_pos same]
      exact ⟨bytes, rfl, atOther ▸ sameValue⟩
    · rw [if_neg same] at atOther
      rw [if_neg same]
      exact mirrors.present other kept atOther
  reflected code kept atCode := by
    rw [Std.ExtTreeMap.getElem?_insert] at atCode
    by_cases same : cmp' (encode key) code = .eq
    · have atKey : (map.insert key value)[key]? = some value :=
        Std.ExtTreeMap.getElem?_insert_self
      exact ⟨key, value, (Std.LawfulEqCmp.eq_of_compare same).symm, atKey⟩
    · rw [if_neg same] at atCode
      obtain ⟨other, otherValue, rfl, atOther⟩ := mirrors.reflected code kept atCode
      rw [monotone] at same
      have still : (map.insert key value)[other]? = some otherValue := by
        rw [Std.ExtTreeMap.getElem?_insert, if_neg same]
        exact atOther
      exact ⟨other, otherValue, rfl, still⟩

/-- An absent key is absent from the copy. -/
theorem getElem?_eq_none (mirrors : Mirrors encode represents map stored) {key : α}
    (absent : map[key]? = none) : stored[encode key]? = none := by
  cases atCode : stored[encode key]? with
  | none => rfl
  | some bytes =>
      obtain ⟨other, value, sameCode, atOther⟩ := mirrors.reflected _ bytes atCode
      have sameKey : cmp key other = .eq := by
        rw [← monotone, sameCode]
        exact Std.ReflCmp.compare_self
      rw [← Std.LawfulEqCmp.eq_of_compare sameKey, absent] at atOther
      contradiction

/-- The copy ends with the encoding of the last key. -/
theorem lastEntry_eq_some (mirrors : Mirrors encode represents map stored) {key : α} {value : β}
    (last : lastEntry map = some (key, value)) :
    ∃ bytes, lastEntry stored = some (encode key, bytes) ∧ represents bytes value := by
  obtain ⟨atKey, highest⟩ := lastEntry_eq_some_iff.mp last
  obtain ⟨bytes, atCode, sameValue⟩ := mirrors.present key value atKey
  have highestCode : ∀ code kept, stored[code]? = some kept → (cmp' code (encode key)).isLE := by
    intro code kept atOtherCode
    obtain ⟨other, otherValue, rfl, atOther⟩ := mirrors.reflected code kept atOtherCode
    rw [monotone]
    exact highest other otherValue atOther
  exact ⟨bytes, lastEntry_eq_some_iff.mpr ⟨atCode, highestCode⟩, sameValue⟩

omit monotone in
theorem lastEntry_eq_none (mirrors : Mirrors encode represents map stored)
    (noLast : lastEntry map = none) : lastEntry stored = none := by
  apply lastEntry_eq_none_iff.mpr
  intro code
  cases atCode : stored[code]? with
  | none => rfl
  | some bytes =>
      obtain ⟨key, value, _, atKey⟩ := mirrors.reflected code bytes atCode
      rw [lastEntry_eq_none_iff.mp noLast key] at atKey
      contradiction

end Mirrors

end Copies

section BigEndian

/-- The last `width` bytes of `n`, most significant first. -/
def bigEndian : Nat → Nat → List UInt8
  | 0, _ => []
  | width + 1, n => UInt8.ofNat (n / 256 ^ width) :: bigEndian width (n % 256 ^ width)

/-- Numbers compare by their quotients first and by their remainders then. -/
theorem compare_eq_then (base m n : Nat) :
    compare m n = (compare (m / base) (n / base)).then (compare (m % base) (n % base)) := by
  have splitM := Nat.div_add_mod m base
  have splitN := Nat.div_add_mod n base
  rcases Nat.lt_trichotomy (m / base) (n / base) with less | same | greater
  · have below : m < n := by
      by_contra above
      exact absurd (Nat.div_le_div_right (Nat.not_lt.mp above)) (Nat.not_le.mpr less)
    rw [Nat.compare_eq_lt.mpr less, Nat.compare_eq_lt.mpr below]
    rfl
  · rw [same] at splitM
    have sameSide : compare m n = compare (m % base) (n % base) := by
      calc
        compare m n = compare (base * (n / base) + m % base) (base * (n / base) + n % base) := by
          rw [splitM, splitN]
        _ = compare (m % base) (n % base) := by
          simp only [Nat.compare_eq_ite_lt, Nat.add_lt_add_iff_left]
    rw [same, Nat.compare_eq_eq.mpr rfl, sameSide]
    rfl
  · have above : n < m := by
      by_contra below
      exact absurd (Nat.div_le_div_right (Nat.not_lt.mp below)) (Nat.not_le.mpr greater)
    rw [Nat.compare_eq_gt.mpr greater, Nat.compare_eq_gt.mpr above]
    rfl

theorem compare_uint8 (a b : UInt8) : compare a b = compare a.toNat b.toNat := by
  simp only [compare, compareOfLessAndEq, UInt8.lt_iff_toNat_lt, ← UInt8.toNat_inj]

/-- Byte strings of one length order the numbers they spell. -/
theorem compare_bigEndian {width m n : Nat} (boundM : m < 256 ^ width) (boundN : n < 256 ^ width) :
    compare (bigEndian width m) (bigEndian width n) = compare m n := by
  induction width generalizing m n with
  | zero =>
      rw [Nat.lt_one_iff.mp boundM, Nat.lt_one_iff.mp boundN]
      rfl
  | succ width ih =>
      have positive : 0 < 256 ^ width := Nat.pow_pos (by decide)
      have digit : ∀ k < 256 ^ (width + 1), (UInt8.ofNat (k / 256 ^ width)).toNat =
          k / 256 ^ width := by
        intro k bound
        apply UInt8.toNat_ofNat_of_lt'
        exact Nat.div_lt_of_lt_mul (by rwa [Nat.pow_succ] at bound)
      rw [bigEndian, bigEndian, List.compare_cons_cons, compare_eq_then (256 ^ width) m n,
        ih (Nat.mod_lt m positive) (Nat.mod_lt n positive), compare_uint8, digit m boundM,
        digit n boundN]

end BigEndian

end Raspen.KeyOrder
