import Mathlib.Data.List.Basic

/-!
# Bounded channels

A channel has many senders and one receiver.  What its users may rely on is written
down as a queue with counters; an implementation is any type whose operations look like
those of the queue.
-/

namespace Raspen.Transition

universe u v

/-- What becomes of a send.  It waits while the channel is full, and fails when the
receiver is gone. -/
inductive Sending (C : Type u)
  | waits
  | disconnected
  | sent (channel : C)
  deriving DecidableEq

def Sending.map {C : Type u} {D : Type v} (view : C → D) : Sending C → Sending D
  | waits => .waits
  | disconnected => .disconnected
  | sent channel => .sent (view channel)

theorem Sending.map_id {C : Type u} (sending : Sending C) : sending.map id = sending := by
  cases sending <;> rfl

/-- What becomes of a receive.  It waits while the channel is empty, and fails when no
sender is left. -/
inductive Receiving (α : Type u) (C : Type v)
  | waits
  | disconnected
  | received (item : α) (channel : C)
  deriving DecidableEq

def Receiving.map {α C D : Type*} (view : C → D) : Receiving α C → Receiving α D
  | waits => .waits
  | disconnected => .disconnected
  | received item channel => .received item (view channel)

theorem Receiving.map_id {α C : Type*} (receiving : Receiving α C) :
    receiving.map id = receiving := by
  cases receiving <;> rfl

/-- What can be told about a channel: the items that wait in it, the oldest first, the
number of its slots and of its senders, and whether the receiver is still there. -/
structure Fifo (α : Type u) where
  queue : List α
  capacity : Nat
  senders : Nat
  isOpen : Bool
  deriving DecidableEq

namespace Fifo

variable {α : Type u}

/-- A channel needs at least one slot, and comes with one sender. -/
def channel (capacity : Nat) : Option (Fifo α) :=
  if capacity = 0 then none
  else some { queue := [], capacity := capacity, senders := 1, isOpen := true }

def send (fifo : Fifo α) (item : α) : Sending (Fifo α) :=
  if fifo.isOpen then
    if fifo.queue.length < fifo.capacity then
      .sent { fifo with queue := fifo.queue ++ [item] }
    else .waits
  else .disconnected

/-- What waits is still received when the senders are gone. -/
def recv (fifo : Fifo α) : Receiving α (Fifo α) :=
  match fifo.queue with
  | item :: rest => .received item { fifo with queue := rest }
  | [] => if fifo.senders = 0 then .disconnected else .waits

def cloneSender (fifo : Fifo α) : Fifo α :=
  { fifo with senders := fifo.senders + 1 }

def dropSender (fifo : Fifo α) : Fifo α :=
  { fifo with senders := fifo.senders - 1 }

/-- The receiver is gone; what still waited is never received. -/
def dropReceiver (fifo : Fifo α) : Fifo α :=
  { fifo with isOpen := false }

end Fifo

/-- A channel whose operations look like those of the queue. -/
class Mpsc (C : Type u) (α : outParam (Type v)) where
  view : C → Fifo α
  channel : Nat → Option C
  send : C → α → Sending C
  recv : C → Receiving α C
  cloneSender : C → C
  dropSender : C → C
  dropReceiver : C → C
  view_channel : ∀ capacity, (channel capacity).map view = Fifo.channel capacity
  view_send : ∀ chan item, (send chan item).map view = (view chan).send item
  view_recv : ∀ chan, (recv chan).map view = (view chan).recv
  view_cloneSender : ∀ chan, view (cloneSender chan) = (view chan).cloneSender
  view_dropSender : ∀ chan, view (dropSender chan) = (view chan).dropSender
  view_dropReceiver : ∀ chan, view (dropReceiver chan) = (view chan).dropReceiver

/-- The queue itself is a channel. -/
instance {α : Type u} : Mpsc (Fifo α) α where
  view := id
  channel := Fifo.channel
  send := Fifo.send
  recv := Fifo.recv
  cloneSender := Fifo.cloneSender
  dropSender := Fifo.dropSender
  dropReceiver := Fifo.dropReceiver
  view_channel _ := congrFun Option.map_id _
  view_send chan item := (chan.send item).map_id
  view_recv chan := chan.recv.map_id
  view_cloneSender _ := rfl
  view_dropSender _ := rfl
  view_dropReceiver _ := rfl

namespace Mpsc

variable {C : Type u} {α : Type v} [Mpsc C α] {chan later : C} {item : α}

/-- A send that succeeds finds a slot and takes the last place. -/
theorem send_eq_sent (sends : send chan item = .sent later) :
    (view chan).isOpen = true ∧ (view chan).queue.length < (view chan).capacity ∧
      view later = { view chan with queue := (view chan).queue ++ [item] } := by
  have viewed := view_send chan item
  rw [sends, Sending.map, Fifo.send] at viewed
  split at viewed
  · rename_i isOpen
    split at viewed
    · rename_i free
      exact ⟨isOpen, free, Sending.sent.inj viewed⟩
    · contradiction
  · contradiction

/-- A send fails exactly when the receiver is gone. -/
theorem send_eq_disconnected_iff :
    send chan item = .disconnected ↔ (view chan).isOpen = false := by
  have viewed := view_send chan item
  rw [Fifo.send] at viewed
  constructor
  · intro sends
    rw [sends, Sending.map] at viewed
    split at viewed
    · split at viewed <;> contradiction
    · rename_i closed
      exact eq_false_of_ne_true closed
  · intro closed
    cases sends : send chan item with
    | disconnected => rfl
    | waits => simp [sends, closed, Sending.map] at viewed
    | sent later => simp [sends, closed, Sending.map] at viewed

/-- A receive takes the oldest item. -/
theorem recv_eq_received (receives : recv chan = .received item later) :
    (view chan).queue = item :: (view later).queue ∧
      view later = { view chan with queue := (view later).queue } := by
  have viewed := view_recv chan
  rw [receives, Receiving.map, Fifo.recv] at viewed
  split at viewed
  · rename_i first rest queue_eq
    injection viewed with sameItem sameView
    rw [queue_eq, sameView, sameItem]
    exact ⟨rfl, rfl⟩
  · split at viewed <;> contradiction

/-- A receive fails exactly when nothing waits and no sender is left. -/
theorem recv_eq_disconnected_iff :
    recv chan = .disconnected ↔ (view chan).queue = [] ∧ (view chan).senders = 0 := by
  have viewed := view_recv chan
  rw [Fifo.recv] at viewed
  constructor
  · intro receives
    rw [receives, Receiving.map] at viewed
    split at viewed
    · contradiction
    · rename_i empty
      split at viewed
      · rename_i nobody
        exact ⟨empty, nobody⟩
      · contradiction
  · rintro ⟨empty, nobody⟩
    cases receives : recv chan with
    | disconnected => rfl
    | waits => simp [receives, empty, nobody, Receiving.map] at viewed
    | received item later => simp [receives, empty, nobody, Receiving.map] at viewed

/-- What waits can be received. -/
theorem exists_recv (waiting : (view chan).queue ≠ []) :
    ∃ item later, recv chan = .received item later := by
  have viewed := view_recv chan
  rw [Fifo.recv] at viewed
  cases receives : recv chan with
  | received item later => exact ⟨item, later, rfl⟩
  | waits =>
      rw [receives] at viewed
      cases queue_eq : (view chan).queue with
      | nil => exact absurd queue_eq waiting
      | cons first rest => simp [queue_eq, Receiving.map] at viewed
  | disconnected => exact absurd (recv_eq_disconnected_iff.mp receives).1 waiting

end Mpsc

end Raspen.Transition
