import NodeManagement.PacketFlow
import NodeManagement.Encoding

/-!
The downcasts of the two consumers of packets: the tag they dispatch on always names the class of
the object, and the packet that each of them makes before its loop is never dispatched on.
-/

namespace NodeManagement

namespace PacketObject

def Tagged : PacketObject → Prop
  | packet _ => False
  | rigister value => value.typeMessage = .register
  | ping value => value.typeMessage = .ping
  | pong value => value.typeMessage = .pong
  | notify value => value.typeMessage = .notify

theorem Tagged.rigister_of_register {object : PacketObject} (tagged : object.Tagged)
    (type : object.base.typeMessage = .register) : ∃ packet, object = .rigister packet := by
  cases object with
  | rigister packet => exact ⟨packet, rfl⟩
  | _ => simp_all [Tagged, base]

theorem Tagged.ping_of_ping {object : PacketObject} (tagged : object.Tagged)
    (type : object.base.typeMessage = .ping) : ∃ packet, object = .ping packet := by
  cases object with
  | ping packet => exact ⟨packet, rfl⟩
  | _ => simp_all [Tagged, base]

theorem Tagged.notify_of_notify {object : PacketObject} (tagged : object.Tagged)
    (type : object.base.typeMessage = .notify) : ∃ packet, object = .notify packet := by
  cases object with
  | notify packet => exact ⟨packet, rfl⟩
  | _ => simp_all [Tagged, base]

theorem Tagged.transmit {object : PacketObject} (tagged : object.Tagged) :
    ∃ datagrams, object.transmit = some datagrams := by
  cases object with
  | packet _ => exact tagged.elim
  | ping value =>
      have type : value.typeMessage = .ping := tagged
      obtain ⟨stBuffer, encoded⟩ := Option.isSome_iff_exists.mp
        (Option.isSome_of_eq_some value.encode_eq)
      exact ⟨[(value.clientAddr, stBuffer)], by simp [PacketObject.transmit, base, type, encoded]⟩
  | notify value =>
      have type : value.typeMessage = .notify := tagged
      obtain ⟨stBuffer, encoded⟩ := Option.isSome_iff_exists.mp
        (Option.isSome_of_eq_some value.encode_eq)
      exact ⟨[(value.clientAddr, stBuffer)], by simp [PacketObject.transmit, base, type, encoded]⟩
  | rigister value =>
      have type : value.typeMessage = .register := tagged
      exact ⟨[], by simp [PacketObject.transmit, base, type]⟩
  | pong value =>
      have type : value.typeMessage = .pong := tagged
      exact ⟨[], by simp [PacketObject.transmit, base, type]⟩

end PacketObject

theorem decodeReceived_tagged {dataPDU : DataReceivedUDP} {object : PacketObject}
    (decoded : decodeReceived dataPDU = some object) : object.Tagged := by
  rw [decodeReceived_eq] at decoded
  split at decoded
  · obtain rfl := Option.some.inj decoded
    rfl
  · split at decoded
    · obtain rfl := Option.some.inj decoded
      rfl
    · simp at decoded

theorem Registry.handleMessage_tagged {registry : Registry} {message : StrMessageState}
    {object : PacketObject} (made : object ∈ (registry.handleMessage message).2) :
    object.Tagged := by
  unfold handleMessage at made
  split at made
  · simp only [List.mem_singleton] at made
    exact made ▸ rfl
  · split at made
    · simp only [List.mem_map] at made
      obtain ⟨packet, member, rfl⟩ := made
      unfold checkNotifyMessage at member
      split at member
      · obtain ⟨receiver, _, rfl⟩ := List.mem_map.mp member
        rfl
      · split at member <;> simp at member
    · simp at made

namespace Consumer

variable {consumer after : Consumer PacketPointer} {role : Role} {phase : ModulePhase}
  {running : Bool}

def AllTagged (consumer : Consumer PacketPointer) : Prop :=
  ∀ pointer ∈ consumer.items, ∃ packet, pointer = .heap packet ∧ packet.object.Tagged

theorem AllTagged.of_subset (tagged : consumer.AllTagged)
    (fewer : after.items ⊆ consumer.items) : after.AllTagged :=
  fun pointer member => tagged pointer (fewer member)

theorem create_tagged : (create PacketPointer.null).AllTagged := by simp [AllTagged]

theorem AllTagged.push (tagged : consumer.AllTagged) {packet : HeapPacket}
    (new : packet.object.Tagged) : (consumer.push (.heap packet)).AllTagged := by
  intro pointer member
  have known := (push_items_effect consumer (.heap packet)).sublist.subset member
  rcases List.mem_append.mp known with old | last
  · exact tagged pointer old
  · exact ⟨packet, List.mem_singleton.mp last, new⟩

theorem AllTagged.pop (tagged : consumer.AllTagged) (agrees : consumer.Agrees role phase running)
    (popped : consumer.pop = some after) : after.AllTagged := by
  simpa only [AllTagged, pop_items agrees popped] using tagged

theorem AllTagged.check (tagged : consumer.AllTagged) {freed : List HeapPacket}
    (checked : System.checkPointer consumer running = some (after, freed)) :
    after.AllTagged := by
  obtain ⟨middle, passed, same⟩ := Option.map_eq_some_iff.mp checked
  have fewer := (check_items_sublist passed).subset
  cases running with
  | true =>
      simp only [if_true, Prod.mk.injEq] at same
      exact tagged.of_subset (same.1 ▸ fewer)
  | false =>
      simp only [Bool.false_eq_true, if_false, Prod.mk.injEq] at same
      obtain ⟨thread, moved, rfl⟩ := Option.map_eq_some_iff.mp passed
      obtain ⟨_, rfl⟩ := ConsumerThread.check_cases moved
      refine tagged.of_subset (same.1 ▸ ?_)
      -- the thread has ended and holds nothing
      exact List.subset_append_right _ _

theorem AllTagged.finish (tagged : consumer.AllTagged) (pointer : PacketPointer) :
    (consumer.finish pointer).AllTagged := by
  refine tagged.of_subset ?_
  rw [finish_items]
  exact List.subset_append_right _ _

theorem AllTagged.proceed (tagged : consumer.AllTagged)
    (agrees : consumer.Agrees role phase running) {item : PacketPointer}
    (taken : consumer.proceed role phase item = some after) : after.AllTagged := by
  simpa only [AllTagged, proceed_items agrees taken] using tagged

def Reads (consumer : Consumer PacketPointer) (pointer : PacketPointer) : Prop :=
  pointer ∈ consumer.queue.queue ∨ consumer.thread.pc = .working ∧ consumer.thread.item = pointer

theorem mem_items_of_reads (agrees : consumer.Agrees role phase running) {pointer : PacketPointer}
    (reads : consumer.Reads pointer) : pointer ∈ consumer.items := by
  rcases reads with queued | ⟨working, rfl⟩
  · exact List.mem_append_right _ queued
  · rw [items_of_working agrees working]
    exact List.mem_cons_self

theorem AllTagged.of_reads (tagged : consumer.AllTagged)
    (agrees : consumer.Agrees role phase running) {pointer : PacketPointer}
    {object : PacketObject} (reads : consumer.Reads pointer)
    (points : pointer.pointee = some object) : object.Tagged := by
  obtain ⟨packet, rfl, named⟩ := tagged pointer (mem_items_of_reads agrees reads)
  obtain rfl := Option.some.inj points
  exact named

end Consumer

namespace System

structure TagsAgree (system : System) : Prop where
  received : system.receivedIOQueue.AllTagged
  sending : system.sendIOQueue.AllTagged
  outbox : ∀ object ∈ system.outbox, object.Tagged

variable {system after : System}

theorem initial_tags : initial.TagsAgree :=
  ⟨Consumer.create_tagged, Consumer.create_tagged, by simp [initial]⟩

theorem step_tags {event : SystemEvent} (inv : system.Invariant) (tags : system.TagsAgree)
    (taken : system.step event = some after) : after.TagsAgree := by
  cases step_move taken with
  | handleMessage =>
      exact ⟨tags.received, tags.sending, fun _ made => Registry.handleMessage_tagged made⟩
  | pushPacket contents =>
      have known := tags.outbox
      rw [contents] at known
      exact ⟨tags.received, tags.sending.push (known _ List.mem_cons_self),
        fun other member => known other (List.mem_cons_of_mem _ member)⟩
  | popReceived popped =>
      exact ⟨tags.received.pop inv.received popped, tags.sending, tags.outbox⟩
  | checkReceived checked => exact ⟨tags.received.check checked, tags.sending, tags.outbox⟩
  | skipReceived | handleReceived => exact ⟨tags.received.finish _, tags.sending, tags.outbox⟩
  | pushMessageReceived _ decoded =>
      exact ⟨tags.received.push (decodeReceived_tagged decoded), tags.sending, tags.outbox⟩
  | popSend popped => exact ⟨tags.received, tags.sending.pop inv.send popped, tags.outbox⟩
  | checkSend checked => exact ⟨tags.received, tags.sending.check checked, tags.outbox⟩
  | skipSend | transmit | sendtoFails =>
      exact ⟨tags.received, tags.sending.finish _, tags.outbox⟩
  | proceedNodeManagament first =>
      exact ⟨tags.received.proceed inv.received first, tags.sending, tags.outbox⟩
  | proceedIOHandler _ _ second =>
      exact ⟨tags.received, tags.sending.proceed inv.send second, tags.outbox⟩
  | _ => exact ⟨tags.received, tags.sending, tags.outbox⟩

/-- What the dispatch of the two consumers relies on.  The last two fields say that the bodies of
their loops run through: no cast is to a class the object does not have. -/
structure CastsValid (system : System) : Prop where
  register : ∀ pointer object, system.receivedIOQueue.Reads pointer →
    pointer.pointee = some object → object.base.typeMessage = .register →
      ∃ packet, object = .rigister packet
  ping : ∀ pointer object, system.sendIOQueue.Reads pointer →
    pointer.pointee = some object → object.base.typeMessage = .ping →
      ∃ packet, object = .ping packet
  notify : ∀ pointer object, system.sendIOQueue.Reads pointer →
    pointer.pointee = some object → object.base.typeMessage = .notify →
      ∃ packet, object = .notify packet
  initialUnread : ¬system.receivedIOQueue.Reads .initial ∧ ¬system.sendIOQueue.Reads .initial
  handles : ∀ object, system.receivedIOQueue.thread.pc = .working →
    system.receivedIOQueue.thread.item.pointee = some object →
      (∃ after, system.step .handleReceived = some after) ∨
        system.monitor.registry.pongBlocked object.base = true
  transmits : system.sendIOQueue.thread.pc = .working →
    ∃ after, system.step .transmit = some after

theorem handles_of_tagged {object : PacketObject} (tagged : object.Tagged)
    (working : system.receivedIOQueue.thread.pc = .working)
    (points : system.receivedIOQueue.thread.item.pointee = some object) :
    (∃ after, system.step .handleReceived = some after) ∨
      system.monitor.registry.pongBlocked object.base = true := by
  by_cases blocked : system.monitor.registry.pongBlocked object.base = true
  · exact .inr blocked
  · left
    have handled : ∃ monitor, system.monitor.handlePacket object = some monitor := by
      unfold Monitor.handlePacket
      split
      · exact ⟨_, by simp only [Monitor.step, if_neg blocked]; rfl⟩
      · split
        next type =>
          obtain ⟨packet, rfl⟩ := tagged.rigister_of_register type
          exact ⟨_, rfl⟩
        next => exact ⟨_, rfl⟩
    obtain ⟨monitor, dispatched⟩ := handled
    exact ⟨_, by simp only [step, handleReceived, if_pos working, points, dispatched]; rfl⟩

theorem transmits_of_tagged (tagged : system.sendIOQueue.AllTagged)
    (agrees : system.sendIOQueue.Agrees sendRole system.ioPhase system.ioRunning)
    (working : system.sendIOQueue.thread.pc = .working) :
    ∃ after, system.step .transmit = some after := by
  simp only [step, transmit, if_pos working]
  split
  · exact ⟨_, rfl⟩
  next object points =>
    obtain ⟨datagrams, encoded⟩ :=
      (tagged.of_reads agrees (.inr ⟨working, rfl⟩) points).transmit
    exact ⟨_, by rw [encoded]; rfl⟩

theorem reachable_tags (reached : Reachable system) : system.Invariant ∧ system.TagsAgree :=
  Transition.Reaches.invariant (fun system => system.Invariant ∧ system.TagsAgree) reached
    ⟨initial_invariant, initial_tags⟩
    fun _ _ _ before _ taken => ⟨step_invariant before.1 taken, step_tags before.1 before.2 taken⟩

/-- In every reachable state, whatever is received, stopped and started again. -/
theorem reachable_castsValid (reached : Reachable system) : system.CastsValid := by
  obtain ⟨inv, tags⟩ := reachable_tags reached
  refine ⟨?_, ?_, ?_, ⟨?_, ?_⟩, ?_, transmits_of_tagged tags.sending inv.send⟩
  · intro pointer object reads points type
    exact (tags.received.of_reads inv.received reads points).rigister_of_register type
  · intro pointer object reads points type
    exact (tags.sending.of_reads inv.send reads points).ping_of_ping type
  · intro pointer object reads points type
    exact (tags.sending.of_reads inv.send reads points).notify_of_notify type
  · exact fun reads => tags.received.of_reads inv.received reads rfl
  · exact fun reads => tags.sending.of_reads inv.send reads rfl
  · intro object working points
    exact handles_of_tagged (tags.received.of_reads inv.received (.inr ⟨working, rfl⟩) points)
      working points

end System

def pingAndRegisterEvents : List SystemEvent :=
  startNodeManagamentEvents ++ startIOHandlerEvents ++ receiveEvents ++
    [.popReceived, .checkReceived, .handleReceived] ++ List.replicate 4 (.nodeStep 0 [] false) ++
    [.popMessage, .checkMessage, .handleMessage, .pushPacket, .popSend, .checkSend] ++
    receiveEvents ++ [.popReceived, .checkReceived]

theorem reachable_castsValid_both :
    ∃ system : System,
      (system.receivedIOQueue.thread.pc = .working ∧
        system.receivedIOQueue.thread.item.pointee.isSome = true ∧
        system.sendIOQueue.thread.pc = .working ∧
        system.sendIOQueue.thread.item.pointee.isSome = true) ∧ system.CastsValid := by
  obtain ⟨system, reached, found⟩ := Transition.exists_reaches System.step (fun _ _ => true)
    (fun system => system.receivedIOQueue.thread.pc == .working &&
      (system.receivedIOQueue.thread.item.pointee.isSome &&
        (system.sendIOQueue.thread.pc == .working &&
          system.sendIOQueue.thread.item.pointee.isSome)))
    .initial pingAndRegisterEvents (fun _ _ _ => trivial) (by decide +kernel) (by decide +kernel)
  simp only [Bool.and_eq_true, beq_iff_eq] at found
  exact ⟨system, found, System.reachable_castsValid reached⟩

end NodeManagement
