import Raspen.Types.Message
import Mathlib.Data.Finset.Max
import Mathlib.Data.Finset.Option
import Mathlib.Data.Finset.Union

/-!
# Iteration over hash sets

The order in which a `HashSet` is traversed is unspecified and may change from
one call to the next, so a search over a set may stop at any element it accepts.
-/

namespace Raspen

/-- How one call iterates over a `HashSet`. -/
structure HashOrder where
  findMap : Finset Message → (Message → Option UInt64) → Option UInt64
  sound : ∀ {msgs accept value}, findMap msgs accept = some value →
    ∃ msg ∈ msgs, accept msg = some value
  complete : ∀ {msgs accept}, findMap msgs accept = none →
    ∀ msg ∈ msgs, accept msg = none

/-- The values a search may return. -/
def foundValues (msgs : Finset Message) (accept : Message → Option UInt64) : Finset UInt64 :=
  msgs.biUnion fun msg => (accept msg).toFinset

theorem mem_foundValues_iff {msgs : Finset Message} {accept : Message → Option UInt64}
    {value : UInt64} :
    value ∈ foundValues msgs accept ↔ ∃ msg ∈ msgs, accept msg = some value := by
  simp [foundValues]

namespace HashOrder

/-- The order that meets the greatest value first. -/
def greatest : HashOrder where
  findMap msgs accept :=
    if nonempty : ((foundValues msgs accept).image UInt64.toNat).Nonempty then
      some (UInt64.ofNat (((foundValues msgs accept).image UInt64.toNat).max' nonempty))
    else none
  sound := by
    intro msgs accept value finds
    split at finds
    · rename_i nonempty
      rcases Finset.mem_image.mp (Finset.max'_mem _ nonempty) with ⟨greatest, greatestMem, toNat_eq⟩
      rw [← toNat_eq, UInt64.ofNat_toNat] at finds
      cases finds
      exact mem_foundValues_iff.mp greatestMem
    · contradiction
  complete := by
    intro msgs accept misses msg msgMem
    split at misses
    · contradiction
    · rename_i empty
      rw [Finset.image_nonempty, Finset.not_nonempty_iff_eq_empty] at empty
      by_contra accepts
      obtain ⟨value, accepted⟩ := Option.ne_none_iff_exists'.mp accepts
      have valueMem : value ∈ foundValues msgs accept :=
        mem_foundValues_iff.mpr ⟨msg, msgMem, accepted⟩
      simp [empty] at valueMem

/-- The order that meets `preferred` first wherever a search accepts it. -/
def preferring (preferred : UInt64) : HashOrder where
  findMap msgs accept :=
    if preferred ∈ foundValues msgs accept then some preferred else greatest.findMap msgs accept
  sound := by
    intro msgs accept value finds
    split at finds
    · rename_i accepted
      cases finds
      exact mem_foundValues_iff.mp accepted
    · exact greatest.sound finds
  complete := by
    intro msgs accept misses
    split at misses
    · contradiction
    · exact greatest.complete misses

theorem findMap_preferring {msgs : Finset Message} {accept : Message → Option UInt64}
    {preferred : UInt64} (accepted : preferred ∈ foundValues msgs accept) :
    (preferring preferred).findMap msgs accept = some preferred :=
  if_pos accepted

/-- The order that searches `target` the way `order` searches `source`, whenever a
search accepts the same messages of both. -/
def redirect (order : HashOrder) (source target : Finset Message) : HashOrder where
  findMap msgs accept :=
    if msgs = target ∧ source.filter (fun msg => (accept msg).isSome) =
        target.filter fun msg => (accept msg).isSome then
      order.findMap source accept
    else order.findMap msgs accept
  sound := by
    intro msgs accept value finds
    split at finds
    · rename_i redirected
      obtain ⟨rfl, same⟩ := redirected
      rcases order.sound finds with ⟨msg, msgMem, accepted⟩
      have accepts : msg ∈ source.filter fun msg => (accept msg).isSome :=
        Finset.mem_filter.mpr ⟨msgMem, by simp [accepted]⟩
      rw [same] at accepts
      exact ⟨msg, (Finset.mem_filter.mp accepts).1, accepted⟩
    · exact order.sound finds
  complete := by
    intro msgs accept misses msg msgMem
    split at misses
    · rename_i redirected
      obtain ⟨rfl, same⟩ := redirected
      by_contra accepts
      have accepted : msg ∈ msgs.filter fun msg => (accept msg).isSome :=
        Finset.mem_filter.mpr ⟨msgMem, Option.isSome_iff_ne_none.mpr accepts⟩
      rw [← same] at accepted
      exact accepts (order.complete misses msg (Finset.mem_filter.mp accepted).1)
    · exact order.complete misses msg msgMem

theorem findMap_redirect {order : HashOrder} {source target : Finset Message}
    {accept : Message → Option UInt64}
    (same : source.filter (fun msg => (accept msg).isSome) =
      target.filter fun msg => (accept msg).isSome) :
    (order.redirect source target).findMap target accept = order.findMap source accept :=
  if_pos ⟨rfl, same⟩

end HashOrder

end Raspen
