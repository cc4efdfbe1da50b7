import Mathlib.Data.List.Perm.Subperm

/-!
A network for datagrams: it loses what is under way, delivers it in any order, and may copy it.
The histories of what was sent and of what was delivered bound each other.
-/

namespace Network

structure State (Message : Type) where
  inFlight : List Message
  sent : List Message
  delivered : List Message
deriving DecidableEq

inductive Fault
  | lose (place : Nat)
  | copy (place : Nat)
deriving DecidableEq

def Fault.copies : Fault → Bool
  | lose _ => false
  | copy _ => true

namespace State

variable {Message : Type}

def empty : State Message := ⟨[], [], []⟩

def send (network : State Message) (messages : List Message) : State Message :=
  { network with
    inFlight := network.inFlight ++ messages
    sent := network.sent ++ messages }

def deliver (network : State Message) (place : Nat) : Option (Message × State Message) :=
  (network.inFlight[place]?).map fun message =>
    (message, { network with
      inFlight := network.inFlight.eraseIdx place
      delivered := network.delivered ++ [message] })

def fail (network : State Message) (fault : Fault) : Option (State Message) :=
  match fault with
  | .lose place =>
      if place < network.inFlight.length then
        some { network with inFlight := network.inFlight.eraseIdx place }
      else none
  | .copy place =>
      (network.inFlight[place]?).map fun message =>
        { network with inFlight := network.inFlight ++ [message] }

structure Genuine (network : State Message) : Prop where
  inFlight : network.inFlight ⊆ network.sent
  delivered : network.delivered ⊆ network.sent

def Conserved (network : State Message) : Prop :=
  (network.delivered ++ network.inFlight).Subperm network.sent

structure Passes (network : State Message) (messages : List Message) (after : State Message) :
    Prop where
  sent : after.sent = network.sent
  delivered : after.delivered = network.delivered ++ messages
  genuine : network.Genuine → after.Genuine
  conserved : network.Conserved → after.Conserved

variable {network after : State Message} {message : Message} {place : Nat}

theorem empty_genuine : (empty : State Message).Genuine := ⟨fun _ => id, fun _ => id⟩

theorem empty_conserved : (empty : State Message).Conserved := List.Subperm.refl _

theorem Genuine.send (genuine : network.Genuine) (messages : List Message) :
    (network.send messages).Genuine where
  inFlight := by
    intro member inside
    rcases List.mem_append.mp inside with old | new
    · exact List.mem_append_left _ (genuine.inFlight old)
    · exact List.mem_append_right _ new
  delivered := fun _ inside => List.mem_append_left _ (genuine.delivered inside)

theorem Conserved.send (conserved : network.Conserved) (messages : List Message) :
    (network.send messages).Conserved := by
  unfold Conserved State.send
  rw [← List.append_assoc]
  exact (List.subperm_append_right messages).mpr conserved

theorem Passes.nothing (network : State Message) : network.Passes [] network :=
  ⟨rfl, (List.append_nil _).symm, id, id⟩

theorem Passes.of_deliver (delivered : network.deliver place = some (message, after)) :
    network.Passes [message] after := by
  obtain ⟨_, found, same⟩ := Option.map_eq_some_iff.mp delivered
  obtain ⟨rfl, rfl⟩ := Prod.mk.inj same
  obtain ⟨inside, rfl⟩ := List.getElem?_eq_some_iff.mp found
  refine ⟨rfl, rfl, fun genuine => ⟨?_, ?_⟩, fun conserved => ?_⟩
  · exact fun _ member => genuine.inFlight (List.mem_of_mem_eraseIdx member)
  · intro member known
    rcases List.mem_append.mp known with old | new
    · exact genuine.delivered old
    · rw [List.mem_singleton.mp new]
      exact genuine.inFlight (List.getElem_mem inside)
  · have moved : ((network.delivered ++ [network.inFlight[place]]) ++
        network.inFlight.eraseIdx place).Perm (network.delivered ++ network.inFlight) := by
      rw [List.append_assoc]
      exact (List.getElem_cons_eraseIdx_perm inside).append_left _
    exact moved.subperm.trans conserved

theorem Passes.of_lose (lost : network.fail (.lose place) = some after) :
    network.Passes [] after := by
  obtain ⟨_, same⟩ := Option.ite_none_right_eq_some.mp lost
  obtain rfl := Option.some.inj same
  refine ⟨rfl, (List.append_nil _).symm, fun genuine => ⟨?_, genuine.delivered⟩,
    fun conserved => ?_⟩
  · exact fun _ member => genuine.inFlight (List.mem_of_mem_eraseIdx member)
  · have fewer := (List.eraseIdx_sublist network.inFlight place).append_left network.delivered
    exact fewer.subperm.trans conserved

theorem fail_genuine {fault : Fault} (failed : network.fail fault = some after) :
    after.sent = network.sent ∧ after.delivered = network.delivered ∧
      (network.Genuine → after.Genuine) := by
  cases fault with
  | lose place =>
      have passes := Passes.of_lose failed
      exact ⟨passes.sent, passes.delivered.trans (List.append_nil _), passes.genuine⟩
  | copy place =>
      obtain ⟨message, found, rfl⟩ := Option.map_eq_some_iff.mp failed
      refine ⟨rfl, rfl, fun genuine => ⟨fun member inside => ?_, genuine.delivered⟩⟩
      rcases List.mem_append.mp inside with old | new
      · exact genuine.inFlight old
      · obtain rfl := List.mem_singleton.mp new
        exact genuine.inFlight (List.mem_of_getElem? found)

theorem Conserved.countP_le (conserved : network.Conserved) (counts : Message → Bool) :
    network.delivered.countP counts ≤ network.sent.countP counts := by
  have bound := List.Subperm.countP_le counts conserved
  rw [List.countP_append] at bound
  omega

end State

end Network
