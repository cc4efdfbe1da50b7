import NodeManagement.SentDatagrams

/-!
Why a node is ALIVE: `handleReceivedData` has handled a PONG from the port of its client.
-/

namespace NodeManagement

open Transition

namespace NodeBase

def heard (node : NodeBase) : Bool := node.pongState || node.currentState == .alive

variable {node after : NodeBase}

theorem changeState_heard {state : StateList} (other : state ≠ .alive)
    (heard : (node.changeState state).heard = true) : node.heard = true := by
  unfold changeState at heard
  split at heard
  · simp_all [NodeBase.heard]
  · exact heard

theorem retryLoop_heard {retryTime : Nat} (heard : (node.retryLoop retryTime).heard = true) :
    node.heard = true := by
  unfold retryLoop at heard
  split at heard <;> exact heard

theorem afterRetries_heard {retryTime : Nat} (heard : (node.afterRetries retryTime).heard = true) :
    node.heard = true := by
  unfold afterRetries at heard
  split at heard
  · exact changeState_heard (by decide) heard
  · exact heard

theorem afterWait_heard {site : PingSite} {woken timedOut : Bool} (running : node.running = true)
    (ended : node.waitFor timedOut = some woken)
    (heard : (node.afterWait site woken).heard = true) : node.heard = true := by
  cases woken with
  | true =>
      have noted : node.pongState = true := by
        unfold waitFor at ended
        cases pong : node.pongState <;> cases timedOut <;> simp_all
      simp [NodeBase.heard, noted]
  | false =>
      cases site with
      | init | alive => exact changeState_heard (by decide) heard
      | retry => exact retryLoop_heard heard

theorem threadStep_heard {nodeID : Int} {now : Bytes} {timedOut : Bool}
    {pushed : Option StrMessageState} (coherent : node.Coherent)
    (step : node.threadStep nodeID now timedOut = some (after, pushed))
    (heard : after.heard = true) : node.heard = true := by
  cases threadStep_move step with
  | loopHead =>
      unfold handleThread at heard
      split at heard
      · exact heard
      · split at heard <;> exact heard
  | resetPong =>
      have alive : (node.currentState == .alive) = true := by
        simpa [NodeBase.heard, setPongState, goto] using heard
      simp [NodeBase.heard, alive]
  | waitPong site woken position ended =>
      simp only [Coherent, position] at coherent
      exact afterWait_heard coherent.1 ended heard
  | notifyTimeout => exact retryLoop_heard heard
  | retriesOver => exact afterRetries_heard heard
  | deadToInit => exact changeState_heard (by decide) heard
  | deadStop =>
      unfold stop at heard
      split at heard <;> exact heard
  | sendPing | pushPing | sleepPing | notifyDead => exact heard

end NodeBase

theorem RigisterPacket.newNode_heard (packet : RigisterPacket) (serial : Nat) :
    (packet.newNode serial).heard = false := by
  simp [newNode, NodeBase.heard, NodeBase.create, NodeBase.setClientInfor, NodeBase.start]

namespace System

/-- A PONG from this port has been handled. -/
def Heard (system : System) (port : BitVec 16) : Prop :=
  ∃ packet ∈ system.handled, ∃ pong : PongPacket, packet.object = .pong pong ∧
    pong.clientAddr.sinPort = port

variable {system after : System}

theorem step_handled {event : SystemEvent} (taken : system.step event = some after) :
    system.handled ⊆ after.handled := by
  cases step_move taken with
  | handleReceived =>
      dsimp only
      split
      · exact List.subset_append_left _ _
      · exact List.Subset.refl _
  | _ => exact List.Subset.refl _

theorem heard_of_working {object : PacketObject} (reached : Reachable system)
    (working : system.receivedIOQueue.thread.pc = .working)
    (points : system.receivedIOQueue.thread.item.pointee = some object)
    (type : object.base.typeMessage = .pong)
    (taken : system.step .handleReceived = some after) :
    after.Heard object.base.clientAddr.sinPort := by
  obtain ⟨received, _, held, inHand, _, decoded⟩ := received_of_working reached working
  obtain rfl : held.object = object := by simpa [inHand, PacketPointer.pointee] using points
  obtain ⟨pong, isPong⟩ : ∃ pong, held.object = .pong pong := by
    rw [decodeReceived_eq] at decoded
    split at decoded
    · rw [← Option.some.inj decoded] at type
      simp [PacketObject.base, receivedRegister] at type
    · split at decoded
      · exact ⟨_, (Option.some.inj decoded).symm⟩
      · simp at decoded
  refine ⟨held, ?_, pong, isPong, by rw [isPong]; rfl⟩
  cases step_move taken with
  | skipReceived _ null => simp [null] at points
  | handleReceived _ pointsToo dispatched =>
      rw [points] at pointsToo
      obtain rfl := Option.some.inj pointsToo
      have handled : held.object.isHandled = true := by simp [PacketObject.isHandled, type]
      simp [handled, inHand, PacketPointer.owned]

/-- Over every run: a node whose client has been heard from owes that to a PONG that was handled. -/
theorem heard_handled (reached : Reachable system) :
    ∀ node ∈ system.monitor.registry.vecNodeBase, node.heard = true →
      system.Heard node.getPortInfo := by
  refine (Reaches.invariant (fun system => Reachable system ∧ system.Sound ∧
    ∀ node ∈ system.monitor.registry.vecNodeBase, node.heard = true →
      system.Heard node.getPortInfo) reached ⟨.refl, initial_sound, by
        simp [initial, Monitor.initial, Registry.empty]⟩ ?_).2.2
  rintro before event after ⟨known, sound, answered⟩ _ taken
  refine ⟨.step known trivial taken, step_sound sound taken, fun node member heard => ?_⟩
  have earlier (old : NodeBase) (inside : old ∈ before.monitor.registry.vecNodeBase)
      (same : old.SameIdentity node) (heard : old.heard = true) :
      after.Heard node.getPortInfo := by
    obtain ⟨packet, logged, pong, isPong, port⟩ := answered old inside heard
    refine ⟨packet, step_handled taken logged, pong, isPong, ?_⟩
    rw [port, NodeBase.getPortInfo, NodeBase.getPortInfo, same.2.2]
  cases step_entries taken member with
  | kept inside => exact earlier node inside (.refl node) heard
  | moved inside step =>
      have coherent := sound.monitor.formed.coherent _ inside
      exact earlier _ inside (NodeBase.threadStep_identity step)
        (NodeBase.threadStep_heard coherent step heard)
  | answered inside working points type port flagged =>
      have pongHandled := heard_of_working known working points type taken
      rw [← port] at pongHandled
      exact flagged ▸ pongHandled
  | registered _ _ _ fresh =>
      rw [fresh, RigisterPacket.newNode_heard] at heard
      exact absurd heard (by simp)

end System

end NodeManagement
