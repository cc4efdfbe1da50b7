import NodeManagement.Downcasts
import NodeManagement.EntrySteps
import NodeManagement.Library.Fairness

/-!
The four loops while their modules run: each is alive, it can go on unless it waits for an item,
and only so many of its steps lie between two items.
-/

namespace NodeManagement

open Transition

def Turn.upIn : Turn → ModulePhase → Bool
  | _, .idle => true
  | first, .spawnSecond => true
  | _, _ => false

namespace ConsumerThread

variable {α : Type} {thread after : ConsumerThread α} {turn : Turn} {phase : ModulePhase}
  {running : Bool}

def Served (thread : ConsumerThread α) (turn : Turn) (phase : ModulePhase) (running : Bool) :
    Prop :=
  running = true → turn.upIn phase = true → thread.live = true

theorem Served.of_stopped : thread.Served turn phase false :=
  fun runs => absurd runs (by simp)

theorem Served.of_starting : thread.Served turn .startFirstQueue running := by
  intro _ up
  cases turn <;> simp [Turn.upIn] at up

theorem Served.of_pop {q rest : ThreadSafeQueue α} (popped : thread.pop q = some (after, rest)) :
    after.Served turn phase running := by
  obtain ⟨_, ⟨_, rfl, _⟩ | ⟨_, front, others, _, rfl, _⟩⟩ := pop_cases popped <;>
    exact fun _ _ => rfl

theorem Served.of_check (checked : thread.check running = some after) :
    after.Served turn phase running := by
  obtain ⟨_, rfl⟩ := check_cases checked
  intro runs _
  simp [live, runs]

theorem Served.of_waiting (waiting : thread.pc = .waiting) : thread.Served turn phase running :=
  fun _ _ => by simp [live, waiting]

theorem Served.proceed (served : thread.Served turn phase running)
    (stopping : phase.stopping = true → running = false) (busy : phase ≠ .idle) {item : α}
    (spawns : after = if turn.spawnsIn phase then .spawn item else thread) :
    after.Served turn phase.next running := by
  intro runs up
  rw [spawns]
  split
  next => rfl
  next spawned =>
    apply served runs
    cases phase <;> cases turn <;>
      simp_all [Turn.upIn, Turn.spawnsIn, ModulePhase.next, ModulePhase.stopping]

def stepsLeft (thread : ConsumerThread α) : Nat :=
  match thread.pc with
  | .waiting => 3
  | .checking => 2
  | .working => 1
  | _ => 0

theorem stepsLeft_of_pop {q rest : ThreadSafeQueue α} (popped : thread.pop q = some (after, rest)) :
    after.stepsLeft < thread.stepsLeft := by
  obtain ⟨waiting, ⟨_, rfl, _⟩ | ⟨_, front, others, _, rfl, _⟩⟩ := pop_cases popped <;>
    simp [stepsLeft, waiting]

theorem stepsLeft_of_check (checked : thread.check true = some after) :
    after.stepsLeft < thread.stepsLeft := by
  obtain ⟨checking, rfl⟩ := check_cases checked
  simp [stepsLeft, checking]

theorem pc_of_live (live : thread.live = true) :
    thread.pc = .waiting ∨ thread.pc = .checking ∨ thread.pc = .working := by
  unfold ConsumerThread.live at live
  split at live <;> simp_all

end ConsumerThread

theorem Consumer.goes_on {α : Type} {consumer : Consumer α} {role : Role} {phase : ModulePhase}
    {running : Bool} (agrees : consumer.Agrees role phase running)
    (live : consumer.thread.live = true)
    (ready : consumer.items ≠ [] ∨ consumer.queue.running = false) :
    (∃ after, consumer.pop = some after) ∨ (∃ after, consumer.check running = some after) ∨
      consumer.thread.pc = .working := by
  rcases ConsumerThread.pc_of_live live with waiting | checking | working
  · refine .inl ?_
    cases runs : consumer.queue.running with
    | false => simp [pop, ConsumerThread.pop, waiting, ThreadSafeQueue.waitAndPop, runs]
    | true =>
        have queued : consumer.queue.queue ≠ [] := by
          simpa [items, ConsumerThread.held, Handshake.rested agrees waiting, runs] using ready
        cases queue : consumer.queue.queue with
        | nil => exact absurd queue queued
        | cons front rest =>
            simp [pop, ConsumerThread.pop, waiting, ThreadSafeQueue.waitAndPop, queue, runs]
  · exact .inr (.inl (by simp [check, ConsumerThread.check, checking]))
  · exact .inr (.inr working)

namespace Monitor

def Served (monitor : Monitor) : Prop :=
  monitor.nodeHandleThread.Served .second monitor.phase monitor.running

variable {monitor after : Monitor}

theorem step_served {event : MonitorEvent} (inv : monitor.Invariant) (served : monitor.Served)
    (taken : monitor.step event = some after) : after.Served := by
  cases step_move taken with
  | nodeStep stepped =>
      obtain ⟨node, moved, pushed, _, _, rfl⟩ := nodeStep_cases stepped
      exact served
  | waitAndPop popped => exact .of_pop popped
  | checkRunning checked => exact .of_check checked
  | handleMessage => exact .of_waiting rfl
  | start => exact .of_starting
  | stop => exact .of_stopped
  | proceed proceeded =>
      obtain ⟨busy, phase, running, _, moved⟩ := proceed_cases proceeded
      have thread := (Consumer.proceed_cases moved).2.2.2
      unfold Served
      rw [phase, running]
      exact ConsumerThread.Served.proceed served inv.handshake.stopping busy thread
  | register | pong | startAgain | stopAgain => exact served

def Operating (monitor : Monitor) : Prop := monitor.running = true ∧ monitor.phase = .idle

theorem step_operating {event : MonitorEvent} (operating : monitor.Operating)
    (noStop : event ≠ .stop) (taken : monitor.step event = some after) : after.Operating := by
  cases step_move taken with
  | nodeStep stepped =>
      obtain ⟨node, moved, pushed, _, _, rfl⟩ := nodeStep_cases stepped
      exact operating
  | start _ stopped => exact absurd operating.1 (by simp [stopped])
  | stop => exact absurd rfl noStop
  | proceed proceeded => exact absurd operating.2 (proceed_cases proceeded).1
  | register | pong | waitAndPop | checkRunning | handleMessage | startAgain | stopAgain =>
      exact operating

end Monitor

theorem NodeBase.threadLive_of_undead {node : NodeBase} (coherent : node.Coherent)
    (undead : node.pushedDead = false) : node.threadLive = true := by
  cases position : node.pc <;> simp_all [threadLive, pushedDead, Coherent]

theorem NodeBase.threadStep_enabled {node : NodeBase} (live : node.threadLive = true)
    (nodeID : Int) (now : Bytes) :
    ∃ result, node.threadStep nodeID now true = some result := by
  cases position : node.pc with
  | unstarted | exited => simp [threadLive, position] at live
  | waitPong site =>
      unfold threadStep waitFor
      rw [position]
      cases node.pongState || !node.running <;> simp
  | _ => simp [threadStep, position]

/-- The four loops, under the names of the functions. -/
inductive LoopThread
  | handleSendData
  | handleReceivedData
  | handleTxThread
  | handleRxThread
deriving DecidableEq

def LoopThread.stop : LoopThread → SystemEvent
  | handleSendData | handleReceivedData => .stopNodeManagament
  | handleTxThread | handleRxThread => .stopIOHandler

namespace SystemEvent

def loop : SystemEvent → Option LoopThread
  | .popMessage | .checkMessage | .handleMessage | .pushPacket => some .handleSendData
  | .popReceived | .checkReceived | .handleReceived => some .handleReceivedData
  | .popSend | .checkSend | .transmit | .sendtoFails => some .handleTxThread
  | .popBuffer | .checkBuffer | .pushMessageReceived => some .handleRxThread
  | _ => none

def finishes : SystemEvent → Bool
  | .handleMessage | .handleReceived | .pushMessageReceived | .transmit | .sendtoFails => true
  | _ => false

end SystemEvent

namespace System

structure Served (system : System) : Prop where
  messages : system.monitor.Served
  received : system.receivedIOQueue.thread.Served .first system.monitor.phase
    system.monitor.running
  buffer : system.bufferUDPRecv.thread.Served .first system.ioPhase system.ioRunning
  send : system.sendIOQueue.thread.Served .second system.ioPhase system.ioRunning

variable {system after : System}

theorem initial_served : initial.Served :=
  ⟨.of_stopped, .of_stopped, .of_stopped, .of_stopped⟩

theorem served_of_pop {α : Type} {consumer after : Consumer α} {turn : Turn}
    {phase : ModulePhase} {running : Bool} (popped : consumer.pop = some after) :
    after.thread.Served turn phase running := by
  obtain ⟨⟨thread, rest⟩, taken, rfl⟩ := Option.map_eq_some_iff.mp popped
  exact .of_pop taken

theorem served_of_checkPointer {consumer after : Consumer PacketPointer} {turn : Turn}
    {phase : ModulePhase} {running : Bool} {freed : List HeapPacket}
    (checked : checkPointer consumer running = some (after, freed)) :
    after.thread.Served turn phase running := by
  obtain ⟨passed, moved, same⟩ := Option.map_eq_some_iff.mp checked
  obtain ⟨thread, taken, rfl⟩ := Option.map_eq_some_iff.mp moved
  cases running with
  | false => exact .of_stopped
  | true =>
      simp only [if_true, Prod.mk.injEq] at same
      exact same.1 ▸ .of_check taken

theorem step_served {event : SystemEvent} (sound : system.Sound) (served : system.Served)
    (taken : system.step event = some after) : after.Served := by
  have messages : after.monitor.Served := by
    cases named : system.inner event with
    | none => exact step_apart taken named ▸ served.messages
    | some call => exact Monitor.step_served sound.monitor served.messages (step_call taken named)
  cases step_move taken with
  | nodeStep _ _ _ stepped | popMessage _ stepped | checkMessage stepped | handleMessage stepped =>
      obtain ⟨phase, running⟩ := Monitor.step_flags rfl stepped
      refine ⟨messages, ?_, served.buffer, served.send⟩
      simpa only [phase, running] using served.received
  | handleReceived _ _ dispatched =>
      exact ⟨messages, .of_waiting rfl, served.buffer, served.send⟩
  | skipReceived => exact ⟨messages, .of_waiting rfl, served.buffer, served.send⟩
  | popReceived popped => exact ⟨messages, served_of_pop popped, served.buffer, served.send⟩
  | checkReceived checked =>
      exact ⟨messages, served_of_checkPointer checked, served.buffer, served.send⟩
  | popBuffer popped => exact ⟨messages, served.received, served_of_pop popped, served.send⟩
  | checkBuffer checked =>
      obtain ⟨thread, moved, rfl⟩ := Option.map_eq_some_iff.mp checked
      exact ⟨messages, served.received, .of_check moved, served.send⟩
  | skipBuffer => exact ⟨messages, served.received, .of_waiting rfl, served.send⟩
  | pushMessageReceived => exact ⟨messages, served.received, .of_waiting rfl, served.send⟩
  | popSend popped => exact ⟨messages, served.received, served.buffer, served_of_pop popped⟩
  | checkSend checked =>
      exact ⟨messages, served.received, served.buffer, served_of_checkPointer checked⟩
  | skipSend | transmit | sendtoFails =>
      exact ⟨messages, served.received, served.buffer, .of_waiting rfl⟩
  | startNodeManagament _ stepped =>
      cases Monitor.step_move stepped with
      | startAgain => exact served
      | start => exact ⟨messages, .of_starting, served.buffer, served.send⟩
  | stopNodeManagament _ stepped =>
      cases Monitor.step_move stepped with
      | stopAgain => exact served
      | stop => exact ⟨messages, .of_stopped, served.buffer, served.send⟩
  | proceedNodeManagament first proceeded =>
      obtain ⟨busy, phase, running, _⟩ := Monitor.proceed_cases proceeded
      have thread := (Consumer.proceed_cases first).2.2.2
      refine ⟨messages, ?_, served.buffer, served.send⟩
      simpa only [phase, running] using
        served.received.proceed sound.program.received.stopping busy thread
  | startIOHandler => exact ⟨messages, served.received, .of_starting, .of_starting⟩
  | stopIOHandler => exact ⟨messages, served.received, .of_stopped, .of_stopped⟩
  | proceedIOHandler busy first second =>
      exact ⟨messages, served.received,
        served.buffer.proceed sound.program.buffer.stopping busy
          (Consumer.proceed_cases first).2.2.2,
        served.send.proceed sound.program.send.stopping busy (Consumer.proceed_cases second).2.2.2⟩
  | pushPacket | receiveNothing | receive | startIOHandlerAgain | stopIOHandlerAgain
    | startReceiver =>
      exact ⟨messages, served.received, served.buffer, served.send⟩

/-- What holds of every reachable state, as far as the loops need it. -/
structure Steady (system : System) : Prop where
  sound : system.Sound
  served : system.Served
  tags : system.TagsAgree

theorem Steady.step {event : SystemEvent} (steady : system.Steady)
    (taken : system.step event = some after) : after.Steady :=
  ⟨step_sound steady.sound taken, step_served steady.sound steady.served taken,
    step_tags steady.sound.program steady.tags taken⟩

theorem reachable_steady (reached : Reachable system) : system.Steady :=
  Transition.Reaches.invariant Steady reached ⟨initial_sound, initial_served, initial_tags⟩
    fun _ _ _ steady _ taken => steady.step taken

def Operates (system : System) : LoopThread → Prop
  | .handleSendData | .handleReceivedData => system.monitor.Operating
  | .handleTxThread | .handleRxThread => system.ioRunning = true ∧ system.ioPhase = .idle

theorem step_operates {event : SystemEvent} {loop : LoopThread} (operates : system.Operates loop)
    (noStop : event ≠ loop.stop) (taken : system.step event = some after) :
    after.Operates loop := by
  have nodeManagament (operating : system.monitor.Operating)
      (noStop : event ≠ .stopNodeManagament) : after.monitor.Operating := by
    cases named : system.inner event with
    | none => exact step_apart taken named ▸ operating
    | some call =>
        refine Monitor.step_operating operating ?_ (step_call taken named)
        rintro rfl
        exact inner_ne_stop noStop named
  have ioHandler (operating : system.ioRunning = true ∧ system.ioPhase = .idle)
      (noStop : event ≠ .stopIOHandler) : after.ioRunning = true ∧ after.ioPhase = .idle := by
    cases step_move taken with
    | startIOHandler _ stopped => exact absurd operating.1 (by simp [stopped])
    | stopIOHandler => exact absurd rfl noStop
    | proceedIOHandler busy => exact absurd operating.2 busy
    | _ => exact operating
  cases loop with
  | handleSendData | handleReceivedData => exact nodeManagament operates noStop
  | handleTxThread | handleRxThread => exact ioHandler operates noStop

theorem operates_from {run : Execution step initial} {start : Nat} {loop : LoopThread}
    (operates : (run.state start).Operates loop)
    (noStop : ∀ position, start ≤ position → run.event position ≠ loop.stop) :
    ∀ position, start ≤ position → (run.state position).Operates loop :=
  Execution.always_from operates fun position later holds =>
    step_operates holds (noStop position later) (run.next position)

theorem loop_stop_isStop (loop : LoopThread) : loop.stop.isStop = true := by
  cases loop <;> rfl

def ofLoop (loop : LoopThread) (_ : System) (event : SystemEvent) : Prop := event.loop = some loop

/-- The most steps of the loop until it has worked on the next item; `handleSendData` first
pushes the packets of the last one. -/
def stepsLeft (system : System) : LoopThread → Nat
  | .handleSendData => system.monitor.nodeHandleThread.stepsLeft + system.outbox.length
  | .handleReceivedData => system.receivedIOQueue.thread.stepsLeft
  | .handleTxThread => system.sendIOQueue.thread.stepsLeft
  | .handleRxThread => system.bufferUDPRecv.thread.stepsLeft

theorem stepsLeft_of_pop {α : Type} {consumer after : Consumer α}
    (popped : consumer.pop = some after) : after.thread.stepsLeft < consumer.thread.stepsLeft := by
  obtain ⟨⟨thread, rest⟩, taken, rfl⟩ := Option.map_eq_some_iff.mp popped
  exact ConsumerThread.stepsLeft_of_pop taken

theorem stepsLeft_of_check {α : Type} {consumer after : Consumer α}
    (checked : consumer.check true = some after) :
    after.thread.stepsLeft < consumer.thread.stepsLeft := by
  obtain ⟨thread, taken, rfl⟩ := Option.map_eq_some_iff.mp checked
  exact ConsumerThread.stepsLeft_of_check taken

theorem stepsLeft_of_checkPointer {consumer after : Consumer PacketPointer}
    {freed : List HeapPacket} (checked : checkPointer consumer true = some (after, freed)) :
    after.thread.stepsLeft < consumer.thread.stepsLeft := by
  obtain ⟨passed, moved, same⟩ := Option.map_eq_some_iff.mp checked
  simp only [if_true, Prod.mk.injEq] at same
  exact same.1 ▸ stepsLeft_of_check moved

theorem stepsLeft_of_own {event : SystemEvent} {loop : LoopThread}
    (operates : system.Operates loop) (own : event.loop = some loop)
    (unfinished : event.finishes = false) (taken : system.step event = some after) :
    after.stepsLeft loop < system.stepsLeft loop := by
  cases step_move taken with
  | popMessage _ stepped =>
      obtain rfl := Option.some.inj own
      cases Monitor.step_move stepped with
      | waitAndPop popped =>
          exact Nat.add_lt_add_right (ConsumerThread.stepsLeft_of_pop popped) _
  | checkMessage stepped =>
      obtain rfl := Option.some.inj own
      cases Monitor.step_move stepped with
      | checkRunning checked =>
          rw [show system.monitor.running = true from operates.1] at checked
          exact Nat.add_lt_add_right (ConsumerThread.stepsLeft_of_check checked) _
  | pushPacket contents =>
      obtain rfl := Option.some.inj own
      simp [stepsLeft, contents]
  | popReceived popped =>
      obtain rfl := Option.some.inj own
      exact stepsLeft_of_pop popped
  | checkReceived checked =>
      obtain rfl := Option.some.inj own
      rw [show system.monitor.running = true from operates.1] at checked
      exact stepsLeft_of_checkPointer checked
  | popSend popped =>
      obtain rfl := Option.some.inj own
      exact stepsLeft_of_pop popped
  | checkSend checked =>
      obtain rfl := Option.some.inj own
      rw [show system.ioRunning = true from operates.1] at checked
      exact stepsLeft_of_checkPointer checked
  | popBuffer popped =>
      obtain rfl := Option.some.inj own
      exact stepsLeft_of_pop popped
  | checkBuffer checked =>
      obtain rfl := Option.some.inj own
      rw [show system.ioRunning = true from operates.1] at checked
      exact stepsLeft_of_check checked
  | handleMessage | skipReceived | handleReceived | skipBuffer | pushMessageReceived | skipSend
    | transmit | sendtoFails => simp [SystemEvent.finishes] at unfinished
  | _ => simp [SystemEvent.loop] at own

theorem stepsLeft_of_other {event : SystemEvent} {loop : LoopThread}
    (operates : system.Operates loop) (other : event.loop ≠ some loop)
    (taken : system.step event = some after) :
    after.stepsLeft loop = system.stepsLeft loop := by
  cases step_move taken with
  | nodeStep _ _ _ stepped =>
      cases Monitor.step_move stepped with
      | nodeStep moved =>
          obtain ⟨node, next, pushed, _, _, rfl⟩ := Monitor.nodeStep_cases moved
          rfl
  | popMessage | checkMessage | handleMessage | pushPacket =>
      cases loop with
      | handleSendData => exact absurd rfl other
      | _ => rfl
  | popReceived | checkReceived | skipReceived =>
      cases loop with
      | handleReceivedData => exact absurd rfl other
      | _ => rfl
  | handleReceived _ _ dispatched =>
      obtain ⟨registry, rfl, _⟩ := Monitor.handlePacket_registry dispatched
      cases loop with
      | handleReceivedData => exact absurd rfl other
      | _ => rfl
  | popBuffer | checkBuffer | skipBuffer | pushMessageReceived =>
      cases loop with
      | handleRxThread => exact absurd rfl other
      | _ => rfl
  | popSend | checkSend | skipSend | transmit | sendtoFails =>
      cases loop with
      | handleTxThread => exact absurd rfl other
      | _ => rfl
  | startNodeManagament _ stepped =>
      cases Monitor.step_move stepped with
      | startAgain => rfl
      | start => cases loop <;> rfl
  | stopNodeManagament _ stepped =>
      cases Monitor.step_move stepped with
      | stopAgain => rfl
      | stop => cases loop <;> rfl
  | proceedNodeManagament _ proceeded =>
      cases loop with
      | handleSendData | handleReceivedData =>
          exact absurd operates.2 (Monitor.proceed_cases proceeded).1
      | _ => rfl
  | proceedIOHandler busy =>
      cases loop with
      | handleTxThread | handleRxThread => exact absurd operates.2 busy
      | _ => rfl
  | _ => cases loop <;> rfl

theorem step_stepsLeft {event : SystemEvent} {loop : LoopThread}
    (operates : system.Operates loop) (unfinished : event.loop = some loop → event.finishes = false)
    (taken : system.step event = some after) :
    after.stepsLeft loop < system.stepsLeft loop ∨
      after.stepsLeft loop = system.stepsLeft loop ∧ ¬ofLoop loop system event := by
  by_cases own : event.loop = some loop
  · exact .inl (stepsLeft_of_own operates own (unfinished own) taken)
  · exact .inr ⟨stepsLeft_of_other operates own taken, own⟩

theorem nodeThread_enabled {node : NodeBase}
    (member : node ∈ system.monitor.registry.vecNodeBase) (live : node.threadLive = true) :
    Enabled step (nodeThread node.serial) system := by
  obtain ⟨index, found⟩ := List.mem_iff_getElem?.mp member
  obtain ⟨result, step⟩ := NodeBase.threadStep_enabled live system.monitor.registry.nodeID []
  refine .of_isSome (.nodeStep index [] true) ⟨index, [], true, node, rfl, found, rfl⟩ ?_
  simp [System.step, monitorStep, Monitor.step, Monitor.nodeStep, found, step]

def loopLive (system : System) : LoopThread → Bool
  | .handleSendData => system.monitor.nodeHandleThread.live
  | .handleReceivedData => system.receivedIOQueue.thread.live
  | .handleTxThread => system.sendIOQueue.thread.live
  | .handleRxThread => system.bufferUDPRecv.thread.live

theorem Steady.live (steady : system.Steady) {loop : LoopThread}
    (operates : system.Operates loop) : system.loopLive loop = true := by
  cases loop with
  | handleSendData => exact steady.served.messages operates.1 (by rw [operates.2]; rfl)
  | handleReceivedData => exact steady.served.received operates.1 (by rw [operates.2]; rfl)
  | handleTxThread => exact steady.served.send operates.1 (by rw [operates.2]; rfl)
  | handleRxThread => exact steady.served.buffer operates.1 (by rw [operates.2]; rfl)

theorem handleSendData_enabled (steady : system.Steady)
    (live : system.loopLive .handleSendData = true)
    (ready : system.outbox ≠ [] ∨ system.monitor.pending ≠ [] ∨
      system.monitor.messageNodeQueue.running = false) :
    Enabled step (ofLoop .handleSendData) system ∨
      system.monitor.nodeHandleThread.pc = .working := by
  cases contents : system.outbox with
  | cons object rest =>
      exact .inl (.of_isSome .pushPacket rfl (by simp [step, pushPacket, contents]))
  | nil =>
      rcases Consumer.goes_on steady.sound.monitor.agrees live
        (ready.resolve_left (by simp [contents])) with
        ⟨after, popped⟩ | ⟨after, checked⟩ | working
      · obtain ⟨taken, moved, _⟩ := Option.map_eq_some_iff.mp popped
        have popped : system.monitor.nodeHandleThread.pop system.monitor.messageNodeQueue =
          some taken := moved
        exact .inl (.of_isSome .popMessage rfl
          (by simp [step, contents, monitorStep, Monitor.step, popped]))
      · obtain ⟨thread, moved, _⟩ := Option.map_eq_some_iff.mp checked
        have checked : system.monitor.nodeHandleThread.check system.monitor.running =
          some thread := moved
        exact .inl (.of_isSome .checkMessage rfl
          (by simp [step, monitorStep, Monitor.step, checked]))
      · exact .inr working

theorem handleReceivedData_enabled (steady : system.Steady)
    (live : system.loopLive .handleReceivedData = true)
    (ready : system.receivedIOQueue.items ≠ [] ∨ system.receivedIOQueue.queue.running = false) :
    Enabled step (ofLoop .handleReceivedData) system ∨
      system.receivedIOQueue.thread.pc = .working := by
  rcases Consumer.goes_on steady.sound.program.received live ready with
    ⟨after, popped⟩ | ⟨after, checked⟩ | working
  · exact .inl (.of_isSome .popReceived rfl (by simp [step, popped]))
  · exact .inl (.of_isSome .checkReceived rfl (by simp [step, checkPointer, checked]))
  · exact .inr working

theorem handleTxThread_enabled (steady : system.Steady)
    (live : system.loopLive .handleTxThread = true)
    (ready : system.sendIOQueue.items ≠ [] ∨ system.sendIOQueue.queue.running = false) :
    Enabled step (ofLoop .handleTxThread) system := by
  rcases Consumer.goes_on steady.sound.program.send live ready with
    ⟨after, popped⟩ | ⟨after, checked⟩ | working
  · exact .of_isSome .popSend rfl (by simp [step, popped])
  · exact .of_isSome .checkSend rfl (by simp [step, checkPointer, checked])
  · obtain ⟨after, taken⟩ :=
      transmits_of_tagged steady.tags.sending steady.sound.program.send working
    exact ⟨.transmit, after, rfl, taken⟩

theorem handleRxThread_enabled (steady : system.Steady)
    (live : system.loopLive .handleRxThread = true)
    (ready : system.bufferUDPRecv.items ≠ [] ∨ system.bufferUDPRecv.queue.running = false) :
    Enabled step (ofLoop .handleRxThread) system := by
  rcases Consumer.goes_on steady.sound.program.buffer live ready with
    ⟨after, popped⟩ | ⟨after, checked⟩ | working
  · exact .of_isSome .popBuffer rfl (by simp [step, popped])
  · exact .of_isSome .checkBuffer rfl (by simp [step, checked])
  · refine .of_isSome .pushMessageReceived rfl ?_
    cases decoded : decodeReceived system.bufferUDPRecv.thread.item.dataUDP <;>
      simp [step, pushMessageReceived, working, decoded]

structure Settled (system : System) : Prop where
  emptied : system.monitor.registry.vecNodeBase = []
  operating : system.monitor.Operating
  ioHandler : system.ioRunning = true ∧ system.ioPhase = .idle
  pushed : system.outbox = []
  messages : system.monitor.messageNodeQueue = ⟨[], true⟩ ∧
    system.monitor.nodeHandleThread.pc = .waiting
  received : system.receivedIOQueue.queue = ⟨[], true⟩ ∧
    system.receivedIOQueue.thread.pc = .waiting
  send : system.sendIOQueue.queue = ⟨[], true⟩ ∧ system.sendIOQueue.thread.pc = .waiting
  buffer : system.bufferUDPRecv.queue = ⟨[], true⟩ ∧ system.bufferUDPRecv.thread.pc = .waiting

instance (system : System) : Decidable system.Settled :=
  decidable_of_iff (system.monitor.registry.vecNodeBase = [] ∧
    (system.monitor.running = true ∧ system.monitor.phase = .idle) ∧
    (system.ioRunning = true ∧ system.ioPhase = .idle) ∧ system.outbox = [] ∧
    (system.monitor.messageNodeQueue = ⟨[], true⟩ ∧
      system.monitor.nodeHandleThread.pc = .waiting) ∧
    (system.receivedIOQueue.queue = ⟨[], true⟩ ∧ system.receivedIOQueue.thread.pc = .waiting) ∧
    (system.sendIOQueue.queue = ⟨[], true⟩ ∧ system.sendIOQueue.thread.pc = .waiting) ∧
    (system.bufferUDPRecv.queue = ⟨[], true⟩ ∧ system.bufferUDPRecv.thread.pc = .waiting))
    ⟨fun ⟨a, b, c, d, e, f, g, h⟩ => ⟨a, b, c, d, e, f, g, h⟩,
      fun ⟨a, b, c, d, e, f, g, h⟩ => ⟨a, b, c, d, e, f, g, h⟩⟩

theorem rests_of_operating (operating : system.monitor.Operating)
    (others : system.ioPhase = .idle) :
    system.step .startNodeManagament = some system := by
  have again : system.monitor.step .start = some system.monitor := by
    simp [Monitor.step, operating.1, operating.2]
  rw [step, if_pos others, monitorStep, again]
  rfl

theorem Settled.rests (settled : system.Settled) :
    system.step .startNodeManagament = some system :=
  rests_of_operating settled.operating settled.ioHandler.2

theorem Settled.nodeThread (settled : system.Settled) (id : Nat) :
    ¬Enabled step (nodeThread id) system := by
  rintro ⟨_, _, ⟨index, now, timedOut, node, _, found, _⟩, _⟩
  simp [settled.emptied] at found

theorem Settled.ofLoop (settled : system.Settled) (loop : LoopThread) :
    ¬Enabled step (ofLoop loop) system := by
  rintro ⟨event, after, own, taken⟩
  obtain ⟨messages, waiting⟩ := settled.messages
  obtain ⟨received, waitingReceived⟩ := settled.received
  obtain ⟨send, waitingSend⟩ := settled.send
  obtain ⟨buffer, waitingBuffer⟩ := settled.buffer
  cases event with
  | sendtoFails =>
      have working := (sendtoFails_cases taken).1
      simp [waitingSend] at working
  | _ =>
      simp [System.ofLoop, SystemEvent.loop] at own <;>
        simp_all [step, monitorStep, pushPacket, Monitor.step, checkPointer, handleReceived,
          transmit, pushMessageReceived, Consumer.pop, Consumer.check, ConsumerThread.pop,
          ConsumerThread.check, ThreadSafeQueue.waitAndPop, settled.pushed]

end System

def registeredEvents : List SystemEvent :=
  startNodeManagamentEvents ++ startIOHandlerEvents ++ receiveEvents ++
    [.popReceived, .checkReceived, .handleReceived]

def settlingEvents (messages : Nat) : List SystemEvent :=
  (List.replicate messages [.popMessage, .checkMessage, .handleMessage, .pushPacket]).flatten.take
      (4 * messages - 2) ++
    List.replicate 3 (.nodeStep 0 [] true) ++ .handleMessage ::
    (List.replicate (messages - 1) [.popSend, .checkSend, .transmit]).flatten

def settledEvents : List SystemEvent :=
  registeredEvents ++ (List.replicate 30 (.nodeStep 0 [] true) ++ settlingEvents 8)

def asleepEvents : List SystemEvent :=
  registeredEvents ++ List.replicate 4 (.nodeStep 0 [] false) ++ takeInEvents clientPong ++
    List.replicate 5 (.nodeStep 0 [] false) ++ takeInEvents clientPong ++ [.nodeStep 0 [] false]

def answeredEvents : List SystemEvent :=
  asleepEvents ++ .receive clientPong :: ([.popBuffer, .checkBuffer, .pushMessageReceived,
    .popReceived, .checkReceived, .nodeStep 0 [] false, .handleReceived] ++
    (List.replicate 30 (.nodeStep 0 [] true) ++ settlingEvents 10))

theorem settledEvents_settle :
    ∃ final, runFrom System.step .initial settledEvents = some final ∧ final.Settled := by
  have ends : (runFrom System.step .initial settledEvents).any
      (fun system => decide system.Settled) = true := by
    decide +kernel
  obtain ⟨final, replay, settled⟩ := (Option.any_eq_true _ _).mp ends
  exact ⟨final, replay, of_decide_eq_true settled⟩

theorem answeredEvents_settle :
    ∃ final, runFrom System.step .initial answeredEvents = some final ∧ final.Settled := by
  have ends : (runFrom System.step .initial answeredEvents).any
      (fun system => decide system.Settled) = true := by
    decide +kernel
  obtain ⟨final, replay, settled⟩ := (Option.any_eq_true _ _).mp ends
  exact ⟨final, replay, of_decide_eq_true settled⟩

theorem asleepEvents_sleep :
    ∃ middle node, runFrom System.step .initial asleepEvents = some middle ∧
      middle.monitor.registry.vecNodeBase = [node] ∧ node.pc = .sleepPing .alive ∧
      node.getPortInfo = 0x204e ∧ node.currentState = .alive ∧
      ∀ loop, middle.Operates loop := by
  have begins : (runFrom System.step .initial asleepEvents).any
      (fun system => decide (system.monitor.registry.vecNodeBase.map
          (fun node => (node.pc, node.getPortInfo, node.currentState)) =
            [(.sleepPing .alive, 0x204e, .alive)] ∧
        (system.monitor.running = true ∧ system.monitor.phase = .idle) ∧
        system.ioRunning = true ∧ system.ioPhase = .idle)) = true := by
    decide +kernel
  obtain ⟨middle, reached, first⟩ := (Option.any_eq_true _ _).mp begins
  obtain ⟨entries, nodeManagament, ioHandler⟩ := of_decide_eq_true first
  obtain ⟨node, entry, place⟩ := List.map_eq_singleton_iff.mp entries
  simp only [Prod.mk.injEq] at place
  obtain ⟨asleep, port, alive⟩ := place
  refine ⟨middle, node, reached, entry, asleep, port, alive, fun loop => ?_⟩
  cases loop with
  | handleSendData | handleReceivedData => exact nodeManagament
  | handleTxThread | handleRxThread => exact ioHandler

theorem registeredEvents_register :
    ∃ middle, runFrom System.step .initial registeredEvents = some middle ∧
      middle.monitor.registry.vecNodeBase = [localRegister.newNode 1] ∧
      ∀ loop, middle.Operates loop := by
  have begins : (runFrom System.step .initial registeredEvents).any
      (fun system => decide (system.monitor.registry.vecNodeBase = [localRegister.newNode 1] ∧
        (system.monitor.running = true ∧ system.monitor.phase = .idle) ∧
        system.ioRunning = true ∧ system.ioPhase = .idle)) = true := by
    decide +kernel
  obtain ⟨middle, reached, first⟩ := (Option.any_eq_true _ _).mp begins
  obtain ⟨entries, nodeManagament, ioHandler⟩ := of_decide_eq_true first
  refine ⟨middle, reached, entries, fun loop => ?_⟩
  cases loop with
  | handleSendData | handleReceivedData => exact nodeManagament
  | handleTxThread | handleRxThread => exact ioHandler

end NodeManagement
