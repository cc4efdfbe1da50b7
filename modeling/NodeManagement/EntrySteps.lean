import NodeManagement.DeadDelivery
import NodeManagement.SendPipeline

/-!
What one step of the program does to one entry of the registry, and which event of the monitoring
system a step of the program is.
-/

namespace NodeManagement

open KeyedList

namespace Monitor

inductive EntryMove (monitor : Monitor) (node : NodeBase) : MonitorEvent → Monitor → Prop
  | kept {event : MonitorEvent} {after : Monitor} (member : node ∈ after.registry.vecNodeBase)
      (others : ∀ index now timedOut other, event = .nodeStep index now timedOut →
        monitor.registry.vecNodeBase[index]? = some other →
        other.serial ≠ node.serial) :
      EntryMove monitor node event after
  | moved {after : Monitor} {index : Nat} {now : Bytes} {timedOut : Bool} {moved : NodeBase}
      {pushed : Option StrMessageState}
      (found : monitor.registry.vecNodeBase[index]? = some node)
      (step : node.threadStep monitor.registry.nodeID now timedOut = some (moved, pushed))
      (member : moved ∈ after.registry.vecNodeBase) :
      EntryMove monitor node (.nodeStep index now timedOut) after
  | answered {after : Monitor} {packet : Packet}
      (port : packet.clientAddr.sinPort = node.getPortInfo)
      (member : node.setPongState true ∈ after.registry.vecNodeBase) :
      EntryMove monitor node (.pong packet) after
  | erased {after : Monitor} (working : monitor.nodeHandleThread.pc = .working)
      (dead : monitor.nodeHandleThread.item.message.isDead = true)
      (sender : monitor.nodeHandleThread.item.sender = node.serial)
      (gone : ∀ other ∈ after.registry.vecNodeBase, other.serial ≠ node.serial) :
      EntryMove monitor node .handleMessage after

variable {monitor after : Monitor}

theorem mem_set_of_ne {entries : List NodeBase} {index : Nat} {node other moved : NodeBase}
    (member : node ∈ entries) (found : entries[index]? = some other) (different : other ≠ node) :
    node ∈ entries.set index moved := by
  obtain ⟨place, inside, here⟩ := List.mem_iff_getElem.mp member
  obtain ⟨bound, there⟩ := List.getElem?_eq_some_iff.mp found
  have apart : index ≠ place := by
    rintro rfl
    exact different (there.symm.trans here)
  refine List.mem_iff_getElem.mpr ⟨place, by simpa using inside, ?_⟩
  rw [List.getElem_set_of_ne apart]
  exact here

theorem step_entry {event : MonitorEvent} {node : NodeBase} (inv : monitor.Invariant)
    (member : node ∈ monitor.registry.vecNodeBase) (taken : monitor.step event = some after) :
    monitor.EntryMove node event after := by
  have still (unchanged : after.registry = monitor.registry)
      (noStep : ∀ index now timedOut, event ≠ .nodeStep index now timedOut) :
      monitor.EntryMove node event after :=
    .kept (unchanged ▸ member) fun index now timedOut other same =>
      absurd same (noStep index now timedOut)
  cases step_move taken with
  | @nodeStep index now timedOut after stepped =>
      obtain ⟨other, moved, pushed, found, step, rfl⟩ := nodeStep_cases stepped
      by_cases own : other.serial = node.serial
      · obtain rfl := inv.formed.eq_of_serial (List.mem_of_getElem? found) member own
        obtain ⟨inside, _⟩ := List.getElem?_eq_some_iff.mp found
        exact .moved found step (List.mem_set inside moved)
      · refine .kept (mem_set_of_ne member found fun same => own (same ▸ rfl)) ?_
        intro index now timedOut second same foundSecond
        injection same with indexSame
        subst indexSame
        rw [found] at foundSecond
        exact Option.some.inj foundSecond ▸ own
  | register packet =>
      refine .kept ?_ (by simp)
      simp only [Registry.checkRegisterMessage_eq]
      split
      · exact List.mem_append_left _ member
      · exact member
  | pong packet free =>
      have inside := mem_updateFirst_of_mem packet.clientAddr.sinPort
        (fun node => node.setPongState true) inv.formed.ports member
      by_cases port : node.getPortInfo = packet.clientAddr.sinPort
      · rw [if_pos port] at inside
        exact .answered port.symm (by simpa only [Registry.checkPongMessage_eq] using inside)
      · rw [if_neg port] at inside
        exact .kept (by simpa only [Registry.checkPongMessage_eq] using inside) (by simp)
  | handleMessage working =>
      cases dead : monitor.nodeHandleThread.item.message.isDead with
      | false =>
          refine .kept ?_ (by simp)
          simpa only [Registry.handleMessage_registry, dead, Bool.false_eq_true, if_false]
            using member
      | true =>
          obtain ⟨erased, _, sender, _, rest, _⟩ := inv.deadErasesSender taken dead
          by_cases own : node.serial = erased.serial
          · refine .erased working dead (sender.symm.trans own.symm) fun other inside => ?_
            rw [rest] at inside
            rw [own]
            simpa using (List.mem_filter.mp inside).2
          · refine .kept ?_ (by simp)
            rw [rest]
            exact List.mem_filter.mpr ⟨member, by simpa using own⟩
  | proceed proceeded => exact still (proceed_cases proceeded).2.2.2.1 (by simp)
  | waitAndPop | checkRunning | startAgain | start | stopAgain | stop =>
      exact still rfl (by simp)

def Gone (id : Nat) (monitor : Monitor) : Prop :=
  id ≤ monitor.registry.made ∧
    ∀ node ∈ monitor.registry.vecNodeBase, node.serial ≠ id

theorem step_gone {event : MonitorEvent} {id : Nat} (inv : monitor.Invariant)
    (gone : monitor.Gone id) (taken : monitor.step event = some after) : after.Gone id := by
  obtain ⟨grows, origin⟩ := step_origin inv taken
  refine ⟨gone.1.trans grows, fun entry inside same => ?_⟩
  rcases origin entry inside with ⟨fresh, _⟩ | ⟨node, old, identity, _⟩
  · have counted := gone.1
    omega
  · exact gone.2 node old (identity.2.1.symm.trans same)

end Monitor

def PacketObject.call (object : PacketObject) : Option MonitorEvent :=
  if object.base.typeMessage = .pong then some (.pong object.base)
  else if object.base.typeMessage = .register then
    match object with
    | .rigister request => some (.register request)
    | _ => none
  else none

theorem PacketObject.call_cases {object : PacketObject} {call : MonitorEvent}
    (called : object.call = some call) :
    (∃ answer, call = .pong answer) ∨ ∃ request, call = .register request := by
  unfold PacketObject.call at called
  split at called
  · exact .inl ⟨_, (Option.some.inj called).symm⟩
  · split at called
    · split at called
      · exact .inr ⟨_, (Option.some.inj called).symm⟩
      · simp at called
    · simp at called

theorem Monitor.handlePacket_call {monitor after : Monitor} {object : PacketObject}
    (taken : monitor.handlePacket object = some after) :
    match object.call with
    | some call => monitor.step call = some after
    | none => after = monitor := by
  unfold handlePacket at taken
  unfold PacketObject.call
  split at taken
  next pong => simpa [pong] using taken
  next other =>
    rw [if_neg other]
    split at taken
    next register =>
      rw [if_pos register]
      split at taken
      · exact taken
      · simp at taken
    next neither =>
      rw [if_neg neither]
      exact (Option.some.inj taken).symm

namespace System

def inner (system : System) : SystemEvent → Option MonitorEvent
  | .nodeStep index now timedOut => some (.nodeStep index now timedOut)
  | .popMessage => some .waitAndPop
  | .checkMessage => some .checkRunning
  | .handleMessage => some .handleMessage
  | .handleReceived => system.receivedIOQueue.thread.item.pointee.bind PacketObject.call
  | .startNodeManagament => some .start
  | .stopNodeManagament => some .stop
  | .proceedNodeManagament => some .proceed
  | _ => none

variable {system after : System}

theorem inner_ne_stop {event : SystemEvent} (noStop : event ≠ .stopNodeManagament) :
    system.inner event ≠ some .stop := by
  cases event with
  | handleReceived =>
      intro stops
      obtain ⟨object, _, called⟩ := Option.bind_eq_some_iff.mp stops
      simpa using PacketObject.call_cases called
  | stopNodeManagament => exact absurd rfl noStop
  | _ => simp [inner]

theorem step_inner {event : SystemEvent} (taken : system.step event = some after) :
    match system.inner event with
    | some call => system.monitor.step call = some after.monitor
    | none => after.monitor = system.monitor := by
  cases step_move taken with
  | nodeStep _ _ _ stepped | popMessage _ stepped | checkMessage stepped | handleMessage stepped
    | startNodeManagament _ stepped | stopNodeManagament _ stepped => exact stepped
  | proceedNodeManagament _ proceeded => exact proceeded
  | skipReceived _ null => simp [inner, null]
  | handleReceived _ points dispatched =>
      simpa only [inner, points, Option.bind_some] using Monitor.handlePacket_call dispatched
  | _ => rfl

theorem step_call {event : SystemEvent} {call : MonitorEvent}
    (taken : system.step event = some after) (named : system.inner event = some call) :
    system.monitor.step call = some after.monitor := by
  simpa only [named] using step_inner taken

theorem step_apart {event : SystemEvent} (taken : system.step event = some after)
    (apart : system.inner event = none) : after.monitor = system.monitor := by
  simpa only [apart] using step_inner taken

def nodeThread (id : Nat) (system : System) (event : SystemEvent) : Prop :=
  ∃ index now timedOut node, event = .nodeStep index now timedOut ∧
    system.monitor.registry.vecNodeBase[index]? = some node ∧ node.serial = id

def handlesPong (system : System) (port : BitVec 16) (event : SystemEvent) : Bool :=
  match system.inner event with
  | some (.pong packet) => packet.clientAddr.sinPort == port
  | _ => false

/-- What a step of the program does to an entry of the registry. -/
inductive EntryMove (system : System) (node : NodeBase) (event : SystemEvent) (after : System) :
    Prop
  | gone (handles : event = .handleMessage) (past : node.pushedDead = true)
      (gone : after.monitor.Gone node.serial)
  | kept (member : node ∈ after.monitor.registry.vecNodeBase)
      (other : ¬system.nodeThread node.serial event)
  | answered (handles : system.handlesPong node.getPortInfo event = true)
      (member : node.setPongState true ∈ after.monitor.registry.vecNodeBase)
      (other : ¬system.nodeThread node.serial event)
  | moved {index : Nat} {now : Bytes} {timedOut : Bool} {moved : NodeBase}
      {pushed : Option StrMessageState} (named : event = .nodeStep index now timedOut)
      (found : system.monitor.registry.vecNodeBase[index]? = some node)
      (step : node.threadStep system.monitor.registry.nodeID now timedOut = some (moved, pushed))
      (member : moved ∈ after.monitor.registry.vecNodeBase)

theorem step_entry {event : SystemEvent} {node : NodeBase} (sound : system.Sound)
    (member : node ∈ system.monitor.registry.vecNodeBase)
    (taken : system.step event = some after) : system.EntryMove node event after := by
  have apart (call : MonitorEvent) (named : system.inner event = some call)
      (different : ∀ index now timedOut, call ≠ .nodeStep index now timedOut) :
      ¬system.nodeThread node.serial event := by
    rintro ⟨index, now, timedOut, other, rfl, _⟩
    exact different index now timedOut (Option.some.inj named).symm
  cases named : system.inner event with
  | none =>
      refine .kept (step_apart taken named ▸ member) ?_
      rintro ⟨index, now, timedOut, other, rfl, _⟩
      simp [inner] at named
  | some call =>
      have stepped := step_call taken named
      cases Monitor.step_entry sound.monitor member stepped with
      | kept inside others =>
          refine .kept inside ?_
          rintro ⟨index, now, timedOut, other, rfl, found, same⟩
          exact others index now timedOut other (Option.some.inj named).symm found same
      | @moved _ index now timedOut moved pushed found step inside =>
          have nodeStep : event = .nodeStep index now timedOut := by
            cases event with
            | handleReceived =>
                obtain ⟨object, _, called⟩ := Option.bind_eq_some_iff.mp named
                simpa using PacketObject.call_cases called
            | _ => simp_all [inner]
          exact .moved nodeStep found step inside
      | answered port inside =>
          exact .answered (by simp [handlesPong, named, port]) inside (apart _ named (by simp))
      | erased working dead sender gone =>
          have past := sound.monitor.sent.deadPushed _ (sound.monitor.item_mem_pending working) dead
            node member sender.symm
          have handles : event = .handleMessage := by
            cases event with
            | handleReceived =>
                obtain ⟨object, _, called⟩ := Option.bind_eq_some_iff.mp named
                simpa using PacketObject.call_cases called
            | _ => simp_all [inner]
          exact .gone handles past ⟨(sound.monitor.formed.counted node member).trans
            (Monitor.step_origin sound.monitor stepped).1, gone⟩

theorem step_gone {event : SystemEvent} {id : Nat} (sound : system.Sound)
    (gone : system.monitor.Gone id) (taken : system.step event = some after) :
    after.monitor.Gone id := by
  cases named : system.inner event with
  | none => exact step_apart taken named ▸ gone
  | some call => exact Monitor.step_gone sound.monitor gone (step_call taken named)

end System

end NodeManagement
