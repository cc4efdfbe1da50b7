import NodeManagement.Joins
import NodeManagement.Pinging
import NodeManagement.Library.Drain

/-!
The sending side gets through: while nothing is stopped and no queue fills up, every message that
a node's thread posts is handled, and every packet made of it is sent.  In particular a monitored
client is pinged again and again.
-/

namespace NodeManagement

open Transition

namespace System

def pushes (system : System) : SystemEvent → Option PacketObject
  | .pushPacket => system.outbox.head?
  | _ => none

def transmits (system : System) : SystemEvent → Option PacketPointer
  | .transmit | .sendtoFails => some system.sendIOQueue.thread.item
  | _ => none

variable {system after : System}

theorem step_outbox {event : SystemEvent} (sound : system.Sound)
    (taken : system.step event = some after) :
    ∃ added, (system.pushes event).toList ++ after.outbox = system.outbox ++ added ∧
      (event = .handleMessage → after.outbox = added) := by
  cases step_move taken with
  | handleMessage stepped =>
      cases Monitor.step_move stepped with
      | handleMessage working =>
          exact ⟨_, by simp [pushes, sound.first (by simp [working])], fun _ => rfl⟩
  | pushPacket contents => exact ⟨[], by simp [pushes, contents], by simp⟩
  | _ => exact ⟨[], by simp [pushes], by simp⟩

theorem event_eq_pushPacket {event : SystemEvent} (sound : system.Sound)
    (waits : system.outbox ≠ []) (own : event.loop = some .handleSendData)
    (taken : system.step event = some after) : event = .pushPacket := by
  have waiting : system.monitor.nodeHandleThread.pc = .waiting := by
    by_contra busy
    exact waits (sound.first busy)
  rcases SystemEvent.ofSendData_cases own with rfl | rfl | rfl | rfl
  · cases step_move taken with
    | popMessage pushedAll => exact absurd pushedAll waits
  · simp [step, monitorStep, Monitor.step, ConsumerThread.check, waiting] at taken
  · simp [step, monitorStep, Monitor.step, waiting] at taken
  · rfl

theorem step_sendItems {event : SystemEvent} (sound : system.Sound)
    (operates : system.Operates .handleTxThread) (notFull : system.sendIOQueue.queue.isFull = false)
    (taken : system.step event = some after) :
    ∃ added, (system.transmits event).toList ++ after.sendIOQueue.items =
        system.sendIOQueue.items ++ added ∧
      ∀ object, system.pushes event = some object →
        added = [.heap ⟨system.nextIdentity, object, none⟩] := by
  have same (equal : after.sendIOQueue.items = system.sendIOQueue.items)
      (idle : system.transmits event = none) (silent : system.pushes event = none) :
      ∃ added, (system.transmits event).toList ++ after.sendIOQueue.items =
          system.sendIOQueue.items ++ added ∧
        ∀ object, system.pushes event = some object →
          added = [.heap ⟨system.nextIdentity, object, none⟩] :=
    ⟨[], by simp [idle, equal], by simp [silent]⟩
  cases step_move taken with
  | @pushPacket object rest contents =>
      have running : system.sendIOQueue.queue.running = true :=
        sound.program.send.opened (.inr ⟨operates.2, operates.1⟩)
      have effect := Consumer.push_items_effect system.sendIOQueue
        (.heap ⟨system.nextIdentity, object, none⟩)
      have accepted : system.sendIOQueue.accepts = true := by
        simp [Consumer.accepts, running, notFull]
      rw [accepted] at effect
      refine ⟨[.heap ⟨system.nextIdentity, object, none⟩], effect.eq_of_accepted, ?_⟩
      intro pushed head
      simp only [pushes, contents, List.head?_cons, Option.some.injEq] at head
      rw [head]
  | popSend popped => exact same (Consumer.pop_items sound.program.send popped) rfl rfl
  | checkSend checked =>
      rw [operates.1] at checked
      obtain ⟨passed, moved, split⟩ := Option.map_eq_some_iff.mp checked
      simp only [if_true, Prod.mk.injEq] at split
      exact same (by rw [← split.1, Consumer.check_items moved]; rfl) rfl rfl
  | skipSend working =>
      refine ⟨[], ?_, by simp [pushes]⟩
      simp [transmits, Consumer.items_of_working sound.program.send working]
  | transmit working | sendtoFails working =>
      refine ⟨[], ?_, by simp [pushes]⟩
      simp [transmits, Consumer.items_of_working sound.program.send working]
  | proceedIOHandler busy => exact absurd operates.2 busy
  | _ => exact same rfl rfl rfl

theorem calmSending_of_operates (sound : system.Sound)
    (nodeManagament : system.Operates .handleSendData)
    (ioHandler : system.Operates .handleTxThread) : system.CalmSending where
  nodeManagament := by rw [nodeManagament.2]; rfl
  ioHandler := by rw [ioHandler.2]; rfl
  received := sound.program.received.opened (.inr ⟨nodeManagament.2, nodeManagament.1⟩)
  buffer := sound.program.buffer.opened (.inr ⟨ioHandler.2, ioHandler.1⟩)
  messages := sound.monitor.handshake.opened (.inr ⟨nodeManagament.2, nodeManagament.1⟩)
  send := sound.program.send.opened (.inr ⟨ioHandler.2, ioHandler.1⟩)

/-- From here on both modules run, neither queue of the sending side fills up, and no `sendto`
fails. -/
structure Sends (run : Execution step initial) (start : Nat) : Prop where
  nodeManagament : (run.state start).Operates .handleSendData
  ioHandler : (run.state start).Operates .handleTxThread
  undisturbed : ∀ position, start ≤ position →
    (run.state position).undisturbedSending (run.event position) = true

section

variable {run : Execution step initial} {start : Nat}

theorem Sends.noStop (sends : Sends run start) (loop : LoopThread) (position : Nat)
    (later : start ≤ position) : run.event position ≠ loop.stop := by
  have quiet := sends.undisturbed position later
  intro stops
  simp [undisturbedSending, stops, loop_stop_isStop] at quiet

theorem Sends.stays (sends : Sends run start) (position : Nat) (later : start ≤ position) :
    (run.state position).Operates .handleSendData ∧
      (run.state position).Operates .handleTxThread :=
  ⟨operates_from sends.nodeManagament (sends.noStop _) position later,
    operates_from sends.ioHandler (sends.noStop _) position later⟩

theorem Sends.pending_next (sends : Sends run start) {position : Nat} (later : start ≤ position) :
    ((run.state position).takes (run.event position)).toList ++
        (run.state (position + 1)).monitor.pending =
      (run.state position).monitor.pending ++
        ((run.state position).posts (run.event position)).toList := by
  have sound := (reachable_steady (run.reaches position)).sound
  obtain ⟨nodeManagament, ioHandler⟩ := sends.stays position later
  exact (step_pending sound (run.next position)).2 (postsAll_of_undisturbed sound
    (calmSending_of_operates sound nodeManagament ioHandler) (sends.undisturbed position later)
    (run.next position))

theorem Sends.messages_drain (sends : Sends run start) :
    Drains run (ofLoop .handleSendData) (fun system => system.monitor.pending) takes
      (fun system => system.stepsLeft .handleSendData) start where
  moves := fun _ later => ⟨_, sends.pending_next later⟩
  nearer := by
    intro position later _ idle
    refine step_stepsLeft (sends.stays position later).1 (fun own => ?_) (run.next position)
    cases event : run.event position <;>
      simp_all [SystemEvent.loop, SystemEvent.finishes, takes]

theorem outbox_drain (run : Execution step initial) (start : Nat) :
    Drains run (ofLoop .handleSendData) outbox pushes (fun _ => 0) start where
  moves := by
    intro position _
    obtain ⟨added, moved, _⟩ :=
      step_outbox (reachable_steady (run.reaches position)).sound (run.next position)
    exact ⟨added, moved⟩
  nearer := by
    intro position _ waits idle
    refine .inr ⟨rfl, fun own => ?_⟩
    have event := event_eq_pushPacket (reachable_steady (run.reaches position)).sound waits own
      (run.next position)
    rw [event] at idle
    exact waits (List.head?_eq_none_iff.mp idle)

theorem Sends.packets_drain (sends : Sends run start) :
    Drains run (ofLoop .handleTxThread) (fun system => system.sendIOQueue.items) transmits
      (fun system => system.stepsLeft .handleTxThread) start where
  moves := by
    intro position later
    have quiet := sends.undisturbed position later
    simp only [undisturbedSending, Bool.and_eq_true, Bool.not_eq_true'] at quiet
    obtain ⟨added, moved, _⟩ := step_sendItems (reachable_steady (run.reaches position)).sound
      (sends.stays position later).2 quiet.2 (run.next position)
    exact ⟨added, moved⟩
  nearer := by
    intro position later _ idle
    refine step_stepsLeft (sends.stays position later).2 (fun own => ?_) (run.next position)
    cases event : run.event position <;>
      simp_all [SystemEvent.loop, SystemEvent.finishes, transmits]

theorem queued_sent (sends : Sends run start)
    (transmitter : run.WeaklyFair (ofLoop .handleTxThread)) {position : Nat}
    (later : start ≤ position) {packet : HeapPacket}
    (queued : .heap packet ∈ (run.state position).sendIOQueue.items) :
    ∃ last, position ≤ last ∧ (run.state (last + 1)).sent =
      (run.state last).sent ++ packet.object.datagrams := by
  have steady (position : Nat) := reachable_steady (run.reaches position)
  obtain ⟨front, back, split⟩ := List.append_of_mem queued
  obtain ⟨last, after, taken⟩ := sends.packets_drain.taken transmitter
    (fun position later waits => handleTxThread_enabled (steady position)
      ((steady position).live (sends.stays position later).2) (.inl waits)) later split
  refine ⟨last, after, ?_⟩
  have quiet := sends.undisturbed last (later.trans after)
  have event : run.event last = .transmit := by
    cases event : run.event last <;>
      simp_all [transmits, undisturbedSending, SystemEvent.isSendtoFails]
  have next := run.next last
  simp only [event, transmits, Option.some.injEq] at next taken
  obtain ⟨_, ⟨null, _⟩ | ⟨object, datagrams, points, encoded, moved⟩⟩ := transmit_cases next
  · simp [taken, PacketPointer.pointee] at null
  · simp only [taken, PacketPointer.pointee, Option.some.injEq] at points
    rw [moved]
    simp [PacketObject.datagrams, points, encoded]

theorem Sends.made_sent (sends : Sends run start) (nodes : ∀ id, run.WeaklyFair (nodeThread id))
    (sender : run.WeaklyFair (ofLoop .handleSendData))
    (transmitter : run.WeaklyFair (ofLoop .handleTxThread)) {position : Nat}
    (later : start ≤ position) {object : PacketObject}
    (made : object ∈ (run.state position).made (run.event position)) :
    ∃ last, position < last ∧ (run.state (last + 1)).sent =
      (run.state last).sent ++ object.datagrams := by
  have event : run.event position = .handleMessage := by
    cases event : run.event position <;> simp_all [System.made]
  have steady (position : Nat) := reachable_steady (run.reaches position)
  have waits : object ∈ (run.state (position + 1)).outbox := by
    have next := run.next position
    rw [event] at next made
    obtain ⟨middle, _, same⟩ := Option.map_eq_some_iff.mp (Option.ite_none_left_eq_some.mp next).2
    rw [← same]
    exact made
  obtain ⟨front, back, split⟩ := List.append_of_mem waits
  obtain ⟨pushed, after, head⟩ := (outbox_drain run start).taken_of_strong
    (handleSendData_stronglyFair sender) (fun position later waits => handleSendData_again nodes
      ((steady position).live (sends.stays position later).1) (.inl waits))
    (later.trans (Nat.le_succ _)) split
  have beyond : start ≤ pushed := by omega
  have quiet := sends.undisturbed pushed beyond
  simp only [undisturbedSending, Bool.and_eq_true, Bool.not_eq_true'] at quiet
  obtain ⟨added, moved, placed⟩ := step_sendItems (steady pushed).sound
    (sends.stays pushed beyond).2 quiet.2 (run.next pushed)
  have idle : (run.state pushed).transmits (run.event pushed) = none := by
    cases event : run.event pushed <;> simp_all [transmits, pushes]
  rw [idle, Option.toList_none, List.nil_append, placed object head] at moved
  obtain ⟨last, reaches, sent⟩ := queued_sent sends transmitter (beyond.trans (Nat.le_succ _))
    (by rw [moved]; exact List.mem_append_right _ (List.mem_singleton_self _))
  exact ⟨last, by omega, sent⟩

theorem posted_sent (sends : Sends run start) (nodes : ∀ id, run.WeaklyFair (nodeThread id))
    (sender : run.WeaklyFair (ofLoop .handleSendData))
    (transmitter : run.WeaklyFair (ofLoop .handleTxThread)) {position : Nat}
    (later : start ≤ position) {posted : PostedMessage}
    (posts : (run.state position).posts (run.event position) = some posted) :
    ∃ handled, position < handled ∧
      (run.state handled).takes (run.event handled) = some posted ∧
      ∀ object ∈ (run.state handled).made (run.event handled), ∃ last, handled < last ∧
        (run.state (last + 1)).sent = (run.state last).sent ++ object.datagrams := by
  have steady (position : Nat) := reachable_steady (run.reaches position)
  have pending := sends.pending_next later
  have idle : (run.state position).takes (run.event position) = none := by
    cases event : run.event position <;> simp_all [takes, System.posts]
  rw [posts, idle, Option.toList_none, List.nil_append, Option.toList_some] at pending
  obtain ⟨handled, after, taken⟩ := sends.messages_drain.taken_of_strong
    (handleSendData_stronglyFair sender) (fun position later waits => handleSendData_again nodes
      ((steady position).live (sends.stays position later).1) (.inr (.inl waits)))
    (later.trans (Nat.le_succ _)) pending
  refine ⟨handled, after, taken, fun object made => ?_⟩
  obtain ⟨last, reaches, sent⟩ := sends.made_sent nodes sender transmitter
    (later.trans (Nat.le_of_lt after)) made
  exact ⟨last, reaches, sent⟩

def PingsIn (run : Execution step initial) (node : NodeBase) (start steps position : Nat) : Prop :=
  start ≤ position ∧ ∃ entry ∈ (run.state position).monitor.registry.vecNodeBase,
    node.SameIdentity entry ∧ RegisteredNode.Living ⟨entry, false⟩ ∧ entry.pingDelay = steps

def Asked (run : Execution step initial) (node : NodeBase) (start : Nat) (_ : Nat) : Prop :=
  ∃ earlier posted, start ≤ earlier ∧
    (run.state earlier).posts (run.event earlier) = some posted ∧
    posted.message.isPing = true ∧ posted.message.clientAddr = node.clientAddr

theorem pings_descend (run : Execution step initial) (node : NodeBase) (start : Nat) :
    run.Descends (nodeThread node.serial) (PingsIn run node start) (Asked run node start) := by
  rintro steps position ⟨later, entry, member, identity, living, rfl⟩
  have sound := (reachable_steady (run.reaches position)).sound
  have next : start ≤ position + 1 := by omega
  have own := identity.2.1
  cases step_entry sound member (run.next position) with
  | gone _ past => exact absurd living.undead.1 (by simp [past])
  | kept inside other =>
      exact .inr (.inr ⟨⟨next, entry, inside, identity, living, rfl⟩, own ▸ other⟩)
  | answered _ inside other =>
      exact .inr (.inr ⟨⟨next, _, inside, identity.trans (entry.setPongState_identity true),
        living.setPongState, rfl⟩, own ▸ other⟩)
  | @moved index now timedOut moved pushed named found threadStep inside =>
      have next_ := RegisteredNode.threadStep_living living (by simp) threadStep
      cases pings : pushed.any StrMessageState.isPing with
      | true =>
          obtain ⟨message, rfl, ping⟩ := (Option.any_eq_true _ _).mp pings
          have order := (NodeBase.threadStep_spec living.coherent threadStep).2
          refine .inl ⟨position, ⟨message, entry.serial⟩, later, ?_, ping,
            order.1.trans identity.2.2⟩
          simp [System.posts, named, Monitor.posts, found, ← NodeBase.threadStep_posts threadStep]
      | false =>
          obtain ⟨still, less⟩ := by simpa [pings] using next_
          exact .inr (.inl ⟨_, less, next, moved, inside,
            identity.trans (NodeBase.threadStep_identity threadStep), still, rfl⟩)

/-- A monitored client is pinged again and again, whether or not it answers, until the wait of the
last retry begins. -/
theorem pinged_again (sends : Sends run start) {node : NodeBase}
    (nodes : ∀ id, run.WeaklyFair (nodeThread id))
    (sender : run.WeaklyFair (ofLoop .handleSendData))
    (transmitter : run.WeaklyFair (ofLoop .handleTxThread)) {position : Nat}
    (later : start ≤ position)
    (member : node ∈ (run.state position).monitor.registry.vecNodeBase)
    (undead : node.pushedDead = false ∧ node.currentState ≠ .dead)
    (inTime : node.lastWait = false) :
    ∃ last stBuffer text, position ≤ last ∧
      parseIncomingPacket stBuffer = some (.ping text) ∧
      (run.state (last + 1)).sent = (run.state last).sent ++ [(node.clientAddr, stBuffer)] := by
  have asks : LeadsTo (fun last => ∃ steps, PingsIn run node position steps last)
      (Asked run node position) := by
    refine (nodes node.serial).leadsTo_of_stages (pings_descend run node position) ?_
    rintro steps last ⟨after, entry, inside, identity, living, _⟩
    rw [← identity.2.1]
    exact .inr (nodeThread_enabled inside
      (NodeBase.threadLive_of_undead living.coherent living.undead.1))
  have coherent := (reachable_steady (run.reaches position)).sound.monitor.formed.coherent
    node member
  obtain ⟨_, _, earlier, posted, since, posts, ping, address⟩ := asks position
    ⟨_, le_refl _, node, member, .refl node, ⟨coherent, undead, by simp [inTime]⟩, rfl⟩
  obtain ⟨handled, reaches, takes, made⟩ :=
    posted_sent sends nodes sender transmitter (later.trans since) posts
  obtain ⟨stBuffer, sent, _, parsed⟩ := ping_datagrams posted.message
  have event : run.event handled = .handleMessage := by
    cases event : run.event handled <;> simp_all [System.takes]
  simp only [event, System.takes, Option.some.injEq] at takes
  obtain ⟨final, goes, datagram⟩ := made (.ping (checkPingMessage posted.message)) (by
    simp [System.made, event, takes, Registry.handleMessage_packets, ping])
  rw [sent, address] at datagram
  exact ⟨final, stBuffer, _, by omega, parsed, datagram⟩

/-- When a client times out, every client that is registered when the message is handled is told
so. -/
theorem timeout_told (sends : Sends run start) (nodes : ∀ id, run.WeaklyFair (nodeThread id))
    (sender : run.WeaklyFair (ofLoop .handleSendData))
    (transmitter : run.WeaklyFair (ofLoop .handleTxThread)) {position : Nat}
    (later : start ≤ position) {index : Nat} {now : Bytes} {timedOut : Bool} {node : NodeBase}
    (event : run.event position = .nodeStep index now timedOut)
    (found : (run.state position).monitor.registry.vecNodeBase[index]? = some node)
    (times : node.pc = .notifyTimeout) :
    ∃ handled, position < handled ∧ run.event handled = .handleMessage ∧
      ∀ receiver ∈ (run.state handled).monitor.registry.vecNodeBase, ∃ last stBuffer text,
        handled < last ∧
        parseIncomingPacket stBuffer = some (.notify (node.type.value % 256)
          (ntohs node.clientAddr.sinPort).toNat StateList.timeout.value text) ∧
        (run.state (last + 1)).sent =
          (run.state last).sent ++ [(receiver.clientAddr, stBuffer)] := by
  have coherent := (reachable_steady (run.reaches position)).sound.monitor.formed.coherent node
    (List.mem_of_getElem? found)
  simp only [NodeBase.Coherent, times] at coherent
  have posts : (run.state position).posts (run.event position) =
      some ⟨node.timeoutMessage now, node.serial⟩ := by
    simp [System.posts, event, Monitor.posts, found, NodeBase.posts, times]
  obtain ⟨handled, after, takes, made⟩ := posted_sent sends nodes sender transmitter later posts
  have handles : run.event handled = .handleMessage := by
    cases event : run.event handled <;> simp_all [System.takes]
  simp only [handles, System.takes, Option.some.injEq] at takes
  refine ⟨handled, after, handles, fun receiver member => ?_⟩
  obtain ⟨stBuffer, sent, _, parsed⟩ := notify_datagrams (node.timeoutMessage now) receiver
  obtain ⟨last, reaches, datagram⟩ :=
    made (.notify (notifyPacketTo (node.timeoutMessage now) receiver)) (by
      simp only [System.made, handles, takes, Registry.handleMessage_packets]
      rw [if_neg (by simp [StrMessageState.isPing, NodeBase.timeoutMessage,
        StrMessageState.saveTime]), if_pos ⟨rfl, coherent.2⟩]
      exact List.mem_map_of_mem member)
  have state : (node.timeoutMessage now).state = .timeout := coherent.2
  rw [state] at parsed
  rw [sent] at datagram
  exact ⟨last, stBuffer, _, reaches, parsed, datagram⟩

end

end System

theorem settled_sends {events : List SystemEvent} {middle final : System} {first : List SystemEvent}
    (replay : runFrom System.step .initial events = some final) (settled : final.Settled)
    {rest : List SystemEvent} (split : events = first ++ rest)
    (reached : runFrom System.step .initial first = some middle)
    (operates : ∀ loop, middle.Operates loop)
    (checked : checkFrom System.step System.undisturbedSending .initial events = true) :
    System.Sends (Execution.ofIdle _ _ replay settled.rests) first.length := by
  have here := Execution.ofIdle_state_at replay settled.rests split reached
  refine ⟨here ▸ operates _, here ▸ operates _, fun position _ => ?_⟩
  refine Execution.ofIdle_always replay settled.rests checked ?_ position
  simp [System.undisturbedSending, SystemEvent.isStop, SystemEvent.isSendtoFails,
    settled.messages.1, settled.send.1, ThreadSafeQueue.isFull, maxSafeQueue]

theorem pinged_again_asleep :
    ∃ (run : Execution System.step .initial) (start : Nat) (node : NodeBase),
      (System.Sends run start ∧ (∀ id, run.WeaklyFair (System.nodeThread id)) ∧
        run.WeaklyFair (System.ofLoop .handleSendData) ∧
        run.WeaklyFair (System.ofLoop .handleTxThread) ∧
        node ∈ (run.state start).monitor.registry.vecNodeBase ∧
        (node.pushedDead = false ∧ node.currentState ≠ .dead) ∧ node.lastWait = false) ∧
      ∃ last stBuffer text, start ≤ last ∧
        parseIncomingPacket stBuffer = some (.ping text) ∧
        (run.state (last + 1)).sent = (run.state last).sent ++ [(node.clientAddr, stBuffer)] := by
  have checked :
      checkFrom System.step System.undisturbedSending .initial answeredEvents = true := by
    decide +kernel
  obtain ⟨final, replay, settled⟩ := answeredEvents_settle
  obtain ⟨middle, node, reached, entries, asleep, _, alive, operates⟩ := asleepEvents_sleep
  have sends := settled_sends replay settled rfl reached operates checked
  have fair (loop : LoopThread) := (Execution.ofIdle_stronglyFair replay settled.rests
    (settled.ofLoop loop)).weaklyFair
  have nodes (id : Nat) := (Execution.ofIdle_stronglyFair replay settled.rests
    (settled.nodeThread id)).weaklyFair
  have member : node ∈ ((Execution.ofIdle _ _ replay settled.rests).state
      asleepEvents.length).monitor.registry.vecNodeBase := by
    rw [Execution.ofIdle_state_at replay settled.rests rfl reached, entries]
    exact List.mem_singleton_self _
  have undead : node.pushedDead = false ∧ node.currentState ≠ .dead := by
    simp [NodeBase.pushedDead, asleep, alive]
  have inTime : node.lastWait = false := by simp [NodeBase.lastWait, asleep]
  exact ⟨_, _, _, ⟨sends, nodes, fair _, fair _, member, undead, inTime⟩,
    System.pinged_again sends nodes (fair _) (fair _) (le_refl _) member undead inTime⟩

def timedOutEvents : List SystemEvent :=
  registeredEvents ++ List.replicate 6 (.nodeStep 0 [] true)

theorem settledEvents_split :
    ∃ rest, settledEvents = timedOutEvents ++ .nodeStep 0 [] true :: rest := by
  have steps : List.replicate 30 (SystemEvent.nodeStep 0 [] true) =
      List.replicate 6 (.nodeStep 0 [] true) ++
        .nodeStep 0 [] true :: List.replicate 23 (.nodeStep 0 [] true) := rfl
  refine ⟨List.replicate 23 (.nodeStep 0 [] true) ++ settlingEvents 8, ?_⟩
  rw [settledEvents, steps, timedOutEvents]
  simp only [List.append_assoc, List.cons_append]

theorem timeout_told_one_client :
    ∃ (run : Execution System.step .initial) (start position : Nat) (node : NodeBase),
      (System.Sends run start ∧ (∀ id, run.WeaklyFair (System.nodeThread id)) ∧
        run.WeaklyFair (System.ofLoop .handleSendData) ∧
        run.WeaklyFair (System.ofLoop .handleTxThread) ∧ start ≤ position ∧
        run.event position = .nodeStep 0 [] true ∧
        (run.state position).monitor.registry.vecNodeBase[0]? = some node ∧
        node.pc = .notifyTimeout) ∧
      ∃ handled, position < handled ∧ run.event handled = .handleMessage ∧
        ∀ receiver ∈ (run.state handled).monitor.registry.vecNodeBase, ∃ last stBuffer text,
          handled < last ∧
          parseIncomingPacket stBuffer = some (.notify (node.type.value % 256)
            (ntohs node.clientAddr.sinPort).toNat StateList.timeout.value text) ∧
          (run.state (last + 1)).sent =
            (run.state last).sent ++ [(receiver.clientAddr, stBuffer)] := by
  have ends : (runFrom System.step .initial timedOutEvents).any (fun system =>
      system.monitor.registry.vecNodeBase[0]?.any fun node => decide (node.pc = .notifyTimeout)) =
        true := by
    decide +kernel
  have checked : checkFrom System.step System.undisturbedSending .initial settledEvents = true := by
    decide +kernel
  obtain ⟨final, replay, settled⟩ := settledEvents_settle
  obtain ⟨middle, reached, placed⟩ := (Option.any_eq_true _ _).mp ends
  obtain ⟨node, found, times⟩ := (Option.any_eq_true _ _).mp placed
  have times : node.pc = .notifyTimeout := of_decide_eq_true times
  obtain ⟨registered, begins, _, operates⟩ := registeredEvents_register
  have sends := settled_sends replay settled rfl begins operates checked
  have nodes (id : Nat) := (Execution.ofIdle_stronglyFair replay settled.rests
    (settled.nodeThread id)).weaklyFair
  have fair (loop : LoopThread) := (Execution.ofIdle_stronglyFair replay settled.rests
    (settled.ofLoop loop)).weaklyFair
  obtain ⟨rest, split⟩ := settledEvents_split
  have here := Execution.ofIdle_state_at replay settled.rests split reached
  have event := Execution.ofIdle_event_at replay settled.rests split
  have later : registeredEvents.length ≤ timedOutEvents.length := by simp [timedOutEvents]
  have found : ((Execution.ofIdle _ _ replay settled.rests).state
      timedOutEvents.length).monitor.registry.vecNodeBase[0]? = some node := by
    rw [here, found]
  exact ⟨_, _, _, node, ⟨sends, nodes, fair _, fair _, later, event, found, times⟩,
    System.timeout_told sends nodes (fair _) (fair _) later event found times⟩

end NodeManagement
