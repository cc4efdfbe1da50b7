import NodeManagement.NodeThread

/-!
Whether the monitor of a client that has just registered keeps pinging it.  From then on the client
answers every ping in time; the ping that its node may already be waiting for went to the client
before the restart, and that wait can end either way.
-/

namespace NodeManagement

/-- A node after a REGISTER of its client; `pinged` says that it has pushed a ping since then. -/
structure RegisteredNode where
  node : NodeBase
  pinged : Bool

namespace NodeBase

def withPong (node : NodeBase) (pong : Bool) : NodeBase :=
  if pong && !node.ownsMutex then node.setPongState true else node

/-- The thread is in the wait of the last retry and nothing has ended it, or right behind it: the
next PONG may come too late. -/
def lastWait (node : NodeBase) : Bool :=
  match node.pc with
  | .waitPong (.retry retryTime) => decide (retryNum ≤ retryTime + 1) && !node.pongState
  | .retriesOver _ => true
  | _ => false

end NodeBase

namespace RegisteredNode

/-- A step of the thread, with a PONG just before it or not.  A wait for the answer to a ping that
was pushed since the REGISTER ends with that answer. -/
def Takes (state after : RegisteredNode) (pushed : Option StrMessageState) : Prop :=
  ∃ pong nodeID now timedOut,
    (state.pinged = true → ∀ site, state.node.pc = .waitPong site →
      (state.node.withPong pong).pongState = true) ∧
    (state.node.withPong pong).threadStep nodeID now timedOut = some (after.node, pushed) ∧
    after.pinged = (state.pinged || pushed.any StrMessageState.isPing)

end RegisteredNode

namespace NodeBase

def pingDelay (node : NodeBase) : Nat :=
  match node.pc with
  | .sendPing _ => 2
  | .resetPong _ => 3
  | .notifyTimeout => 4
  | .loopHead => if node.currentState = .timeout then 5 else 4
  | .sleepPing _ => 5
  | .waitPong _ => 6
  | _ => 1

@[simp] theorem pingMessage_isPing (node : NodeBase) (nodeID : Int) :
    (node.pingMessage nodeID).isPing = true := rfl

variable {node : NodeBase}

@[simp] theorem withPong_pc (pong : Bool) : (node.withPong pong).pc = node.pc := by
  unfold withPong; split <;> rfl

@[simp] theorem withPong_currentState (pong : Bool) :
    (node.withPong pong).currentState = node.currentState := by
  unfold withPong; split <;> rfl

@[simp] theorem withPong_pushedDead (pong : Bool) :
    (node.withPong pong).pushedDead = node.pushedDead := by
  unfold withPong; split <;> rfl

@[simp] theorem withPong_pingDelay (pong : Bool) :
    (node.withPong pong).pingDelay = node.pingDelay := by
  unfold withPong; split <;> rfl

theorem withPong_coherent (coherent : node.Coherent) (pong : Bool) :
    (node.withPong pong).Coherent := by
  unfold withPong
  split
  · exact setPongState_coherent coherent true
  · exact coherent

end NodeBase

namespace RegisteredNode

structure Living (state : RegisteredNode) : Prop where
  coherent : state.node.Coherent
  undead : state.node.pushedDead = false ∧ state.node.currentState ≠ .dead
  inTime : state.node.lastWait = true →
    state.pinged = true ∧ ∃ site, state.node.pc = .waitPong site

variable {state after : RegisteredNode} {pushed : Option StrMessageState}

theorem Living.setPongState (living : state.Living) :
    Living ⟨state.node.setPongState true, state.pinged⟩ := by
  refine ⟨NodeBase.setPongState_coherent living.coherent true, living.undead, ?_⟩
  intro last
  refine living.inTime ?_
  cases position : state.node.pc with
  | retriesOver retryTime => simp [NodeBase.lastWait, position]
  | waitPong site =>
      cases site <;> simp [NodeBase.lastWait, NodeBase.setPongState, position] at last
  | _ => simp [NodeBase.lastWait, NodeBase.setPongState, position] at last

theorem Living.withPong (living : state.Living) (pong : Bool) :
    Living ⟨state.node.withPong pong, state.pinged⟩ := by
  unfold NodeBase.withPong
  split
  · exact living.setPongState
  · exact living

theorem threadStep_living {node moved : NodeBase} {pinged : Bool} {nodeID : Int} {now : Bytes}
    {timedOut : Bool} (living : Living ⟨node, pinged⟩)
    (answers : pinged = true → ∀ site, node.pc = .waitPong site → node.pongState = true)
    (step : node.threadStep nodeID now timedOut = some (moved, pushed)) :
    Living ⟨moved, pinged || pushed.any StrMessageState.isPing⟩ ∧
      (pushed.any StrMessageState.isPing = true ∨ moved.pingDelay < node.pingDelay) := by
  obtain ⟨coherent, ⟨before, undead⟩, inTime⟩ := living
  have coherentAfter := (NodeBase.threadStep_spec coherent step).1
  simp only at coherent before undead inTime
  cases NodeBase.threadStep_move step with
  | loopHead position =>
      have running : node.running = true := by simpa [NodeBase.pushedDead, position] using before
      have known : node.currentState ≠ .max := by
        simpa [NodeBase.Coherent, position] using coherent
      refine ⟨⟨coherentAfter, ?_, ?_⟩, .inr ?_⟩ <;>
        cases state : node.currentState <;>
          simp_all [NodeBase.handleThread, NodeBase.pushedDead, NodeBase.lastWait,
            NodeBase.pingDelay]
  | resetPong site position | sendPing site position =>
      refine ⟨⟨coherentAfter, ⟨rfl, undead⟩, by simp [NodeBase.lastWait]⟩, .inr ?_⟩
      simp [NodeBase.pingDelay, position]
  | pushPing site readID position =>
      exact ⟨⟨coherentAfter, ⟨rfl, undead⟩, fun _ => ⟨by simp, site, rfl⟩⟩, .inl (by simp)⟩
  | waitPong site woken position ended =>
      simp only [NodeBase.Coherent, position] at coherent
      obtain ⟨running, state, _⟩ := coherent
      -- only the last retry could end unanswered in DEAD
      have more : ∀ retryTime, site = .retry retryTime → woken = false →
          retryTime + 1 < retryNum := by
        rintro retryTime rfl rfl
        have unset : node.pongState = false := by
          by_contra set
          simp [NodeBase.waitFor, show node.pongState = true by simpa using set] at ended
        by_contra last
        have sure := (inTime (by simp [NodeBase.lastWait, position, unset]; omega)).1
        exact absurd (answers sure _ position) (by simp [unset])
      refine ⟨⟨coherentAfter, ?_, ?_⟩, .inr ?_⟩ <;> cases site <;> cases woken <;>
        simp_all [NodeBase.afterWait, NodeBase.initAfterWait, NodeBase.aliveAfterWait,
          NodeBase.retryAfterWait, NodeBase.retryLoop, NodeBase.pushedDead, PingSite.state,
          NodeBase.changeState_currentState, NodeBase.lastWait, NodeBase.pingDelay]
  | sleepPing site position =>
      simp only [NodeBase.Coherent, position] at coherent
      refine ⟨⟨coherentAfter, ?_, by simp [NodeBase.lastWait]⟩, .inr ?_⟩
      · simp [NodeBase.pushedDead, coherent.1, coherent.2]
      · simp [NodeBase.pingDelay, position, coherent.2]
  | notifyTimeout position =>
      simp only [NodeBase.Coherent, position] at coherent
      refine ⟨⟨coherentAfter, ?_, ?_⟩, .inr ?_⟩ <;>
        simp [NodeBase.retryLoop, retryNum, NodeBase.pushedDead, NodeBase.lastWait,
          NodeBase.pingDelay, position, coherent.2]
  | retriesOver retryTime position =>
      obtain ⟨_, site, waiting⟩ := inTime (by simp [NodeBase.lastWait, position])
      simp [position] at waiting
  | notifyDead position =>
      simp only [NodeBase.Coherent, position] at coherent
      exact absurd coherent.2 undead
  | deadToInit position | deadStop position => simp [NodeBase.pushedDead, position] at before

theorem Takes.coherent (coherent : state.node.Coherent) (taken : state.Takes after pushed) :
    after.node.Coherent := by
  obtain ⟨pong, nodeID, now, timedOut, _, step, _⟩ := taken
  exact (NodeBase.threadStep_spec (NodeBase.withPong_coherent coherent pong) step).1

end RegisteredNode

namespace NodeBase

open RegisteredNode

end NodeBase

end NodeManagement
