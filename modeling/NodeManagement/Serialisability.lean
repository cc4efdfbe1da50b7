import NodeManagement.SharedWalks

/-!
When the two threads of NodeManagament are serialisable on the shared vector, although neither
takes a lock: the exact condition on the vector and the two calls.
-/

namespace NodeManagement

open KeyedList Transition

def Cursor.remaining (length : Nat) : Cursor → Nat
  | start => length + 4
  | loop position => length - position + 3
  | behind _ => 2
  | pushing => 1
  | returned | outOfRange => 0

namespace SharedVector

def remaining (state : SharedVector) : Nat :=
  2 * state.received.remaining state.registry.vecNodeBase.length +
    state.send.remaining state.registry.vecNodeBase.length

variable {call : ReceivedCall} {message : StrMessageState} {state after : SharedVector}

inductive Progress (call : ReceivedCall) (message : StrMessageState) (registry : Registry)
    (state : SharedVector) : Prop
  | undecided : state.registry = registry →
      Walking False call registry.vecNodeBase state.received →
      Sending message registry.vecNodeBase state.packets state.send →
      Progress call message registry state
  | receivedFirst : state.received = .returned → state.registry = call.run registry →
      Sending message state.registry.vecNodeBase state.packets state.send →
      Progress call message registry state
  | sentFirst : state.send = .returned →
      (state.registry, state.packets) = registry.handleMessage message →
      Walking (call.Idle state.registry.vecNodeBase) call state.registry.vecNodeBase
        state.received →
      Progress call message registry state
  | done : state.send = .returned →
      (state.received = .returned ∨
        ∃ index, state.received = .behind index ∧ index ≠ state.registry.vecNodeBase.length) →
      (state.registry, state.packets) = serialReceivedFirst call message registry ∨
        (state.registry, state.packets) = serialSendFirst call message registry →
      Progress call message registry state

variable {registry : Registry}

theorem receivedStep_progress (progress : Progress call message registry state)
    (taken : state.receivedStep call = some after) : Progress call message registry after := by
  cases progress with
  | undecided same walking sending =>
      subst same
      obtain ⟨send, packets, ⟨same, walking⟩ | ⟨returned, run⟩⟩ :=
        receivedStep_cases False.elim walking taken
      · exact .undecided same (same ▸ walking) (send ▸ packets ▸ sending)
      · refine .receivedFirst returned run ?_
        rw [run, send, packets]
        exact sending.run call
  | receivedFirst returned => simp [receivedStep, returned] at taken
  | sentFirst returned sent walking =>
      obtain ⟨send, packets, ⟨same, walking⟩ | ⟨ended, run⟩⟩ := receivedStep_cases id walking taken
      · exact .sentFirst (send.trans returned) (by rw [same, packets, sent]) (same ▸ walking)
      · refine .done (send.trans returned) (.inl ended) (.inr ?_)
        simp [serialSendFirst, ← sent, run, packets]
  | done returned ended serial =>
      rcases ended with ended | ⟨index, behind, inside⟩
      · simp [receivedStep, ended] at taken
      · simp only [receivedStep, behind, if_neg inside, Option.some.injEq] at taken
        subst taken
        exact .done returned (.inl rfl) serial

theorem sendStep_progress (distinct : registry.PortsDistinct)
    (safe : ¬Conflict call message registry) (progress : Progress call message registry state)
    (taken : state.sendStep message = some after) : Progress call message registry after := by
  cases progress with
  | undecided same walking sending =>
      subst same
      obtain ⟨received, ⟨same, sending⟩ | ⟨returned, sent, effect⟩⟩ := sendStep_cases sending taken
      · exact .undecided same (received ▸ walking) (same ▸ sending)
      · rcases effect with same | ⟨isDead, position, dead, found, port, erased⟩
        · exact .sentFirst returned sent (by rw [received, same]; exact walking.mono)
        · rcases Walking.erase distinct walking safe isDead found port with
            moved | ⟨⟨index, behind, inside⟩, unchanged⟩
          · exact .sentFirst returned sent (by rw [received, erased]; exact moved)
          · refine .done returned (.inr ⟨index, received.trans behind, erased ▸ inside⟩) (.inl ?_)
            rw [serialReceivedFirst, unchanged, sent]
  | receivedFirst returned run sending =>
      obtain ⟨received, ⟨same, sending⟩ | ⟨ended, sent, _⟩⟩ := sendStep_cases sending taken
      · exact .receivedFirst (received.trans returned) (same.trans run) sending
      · refine .done ended (.inl (received.trans returned)) (.inl ?_)
        rw [serialReceivedFirst, sent, run]
  | sentFirst returned => simp [sendStep, returned] at taken
  | done returned => simp [sendStep, returned] at taken

theorem reached_progress (distinct : registry.PortsDistinct)
    (safe : ¬Conflict call message registry)
    (reached : Reaches (step call message) anyStep (called registry) state) :
    Progress call message registry state := by
  refine reached.invariant (Progress call message registry) (.undecided rfl trivial rfl) ?_
  intro before worker after progress _ taken
  cases worker with
  | received => exact receivedStep_progress progress taken
  | send => exact sendStep_progress distinct safe progress taken

theorem moves_of_walking {idle : Prop}
    (walking : Walking idle call state.registry.vecNodeBase state.received) :
    state.received ≠ .outOfRange ∧ (state.receivedStep call).isSome = true := by
  cases position : state.received with
  | loop index =>
      simp only [receivedStep, position]
      refine ⟨by simp, ?_⟩
      split
      · rfl
      · split
        · rfl
        · split
          · cases call <;> rfl
          · rfl
  | pushing =>
      simp only [position, Walking] at walking
      obtain ⟨⟨packet, rfl⟩, _⟩ := walking
      simp [receivedStep, position]
  | start | behind _ => simp [receivedStep, position]
  | _ => simp [position, Walking] at walking

theorem moves_of_sending
    (sending : Sending message state.registry.vecNodeBase state.packets state.send) :
    state.send ≠ .outOfRange ∧ (state.sendStep message).isSome = true := by
  cases position : state.send with
  | start =>
      simp only [sendStep, position]
      refine ⟨by simp, ?_⟩
      split
      · rfl
      · split <;> rfl
  | loop index =>
      simp only [sendStep, position]
      refine ⟨by simp, ?_⟩
      split
      · rfl
      · split
        · rfl
        · split
          · rfl
          · split <;> rfl
  | _ => simp [position, Sending] at sending

theorem Progress.moves (progress : Progress call message registry state) :
    (state.received ≠ .outOfRange ∧ state.send ≠ .outOfRange) ∧
      (state.received ≠ .returned → (state.receivedStep call).isSome = true) ∧
        (state.send ≠ .returned → (state.sendStep message).isSome = true) := by
  cases progress with
  | undecided same walking sending =>
      subst same
      have received := moves_of_walking walking
      have send := moves_of_sending sending
      exact ⟨⟨received.1, send.1⟩, fun _ => received.2, fun _ => send.2⟩
  | receivedFirst returned _ sending =>
      have send := moves_of_sending sending
      exact ⟨⟨by simp [returned], send.1⟩, fun going => absurd returned going, fun _ => send.2⟩
  | sentFirst returned _ walking =>
      have received := moves_of_walking walking
      exact ⟨⟨received.1, by simp [returned]⟩, fun _ => received.2,
        fun going => absurd returned going⟩
  | done returned ended _ =>
      refine ⟨⟨?_, by simp [returned]⟩, ?_, fun going => absurd returned going⟩
      · rcases ended with ended | ⟨index, behind, _⟩ <;> simp_all
      · rcases ended with ended | ⟨index, behind, _⟩
        · exact fun going => absurd ended going
        · exact fun _ => by simp [receivedStep, behind]

theorem step_remaining {worker : Worker} (taken : state.step call message worker = some after) :
    after.remaining < state.remaining := by
  cases worker with
  | received =>
      simp only [step] at taken
      unfold receivedStep at taken
      cases position : state.received with
      | start =>
          simp only [position, Option.some.injEq] at taken
          subst taken
          cases state.registry.vecNodeBase.isEmpty <;> cases call <;>
            simp only [remaining, Cursor.remaining, position, Bool.not_true, Bool.not_false,
              if_true, if_false, Bool.false_eq_true] <;> omega
      | loop index =>
          simp only [position] at taken
          split at taken
          · simp only [Option.some.injEq] at taken
            subst taken
            cases call with
            | register packet =>
                simp only [remaining, Cursor.remaining, position]
                omega
            | pong packet => simp [remaining, Cursor.remaining, position]
          · split at taken
            · simp only [Option.some.injEq] at taken
              subst taken
              simp [remaining, Cursor.remaining, position]
            next node found =>
              obtain ⟨inside, _⟩ := List.getElem?_eq_some_iff.mp found
              split at taken
              · cases call with
                | register packet =>
                    simp only [Option.some.injEq] at taken
                    subst taken
                    simp only [remaining, Cursor.remaining, position]
                    omega
                | pong packet =>
                    simp only [Option.some.injEq] at taken
                    subst taken
                    simp [remaining, Cursor.remaining, position]
              · simp only [Option.some.injEq] at taken
                subst taken
                simp only [remaining, Cursor.remaining, position]
                omega
      | behind index =>
          simp only [position, Option.some.injEq] at taken
          subst taken
          split <;> simp [remaining, Cursor.remaining, position]
      | pushing =>
          cases call with
          | pong packet => simp [position] at taken
          | register packet =>
              simp only [position, Option.some.injEq] at taken
              subst taken
              have grows : (state.registry.pushNodeToVector packet).vecNodeBase.length ≤
                  state.registry.vecNodeBase.length + 1 := by
                rw [Registry.pushNodeToVector_eq]
                split <;> simp
              cases send : state.send <;>
                simp only [remaining, Cursor.remaining, position, send] <;> omega
      | _ => simp [position] at taken
  | send =>
      simp only [step] at taken
      unfold sendStep at taken
      cases position : state.send with
      | start =>
          simp only [position] at taken
          split at taken
          · simp only [Option.some.injEq] at taken
            subst taken
            simp [remaining, Cursor.remaining, position]
          · split at taken <;> simp only [Option.some.injEq] at taken <;> subst taken <;>
              simp [remaining, Cursor.remaining, position]
      | loop index =>
          simp only [position] at taken
          split at taken
          · simp only [Option.some.injEq] at taken
            subst taken
            simp [remaining, Cursor.remaining, position]
          · split at taken
            · simp only [Option.some.injEq] at taken
              subst taken
              simp [remaining, Cursor.remaining, position]
            next node found =>
              obtain ⟨inside, _⟩ := List.getElem?_eq_some_iff.mp found
              split at taken
              · simp only [Option.some.injEq] at taken
                subst taken
                simp only [remaining, Cursor.remaining, position]
                omega
              · split at taken
                · simp only [Option.some.injEq] at taken
                  subst taken
                  have shorter := List.length_eraseIdx_le state.registry.vecNodeBase index
                  cases received : state.received <;>
                    simp only [remaining, Cursor.remaining, position, received] <;> omega
                · simp only [Option.some.injEq] at taken
                  subst taken
                  simp only [remaining, Cursor.remaining, position]
                  omega
      | _ => simp [position] at taken

theorem run_remaining {workers : List Worker}
    (run : runFrom (step call message) state workers = some after) :
    workers.length + after.remaining ≤ state.remaining := by
  induction workers generalizing state with
  | nil =>
      simp only [runFrom, Option.some.injEq] at run
      simp [run]
  | cons worker rest ih =>
      simp only [runFrom, Option.bind_eq_some_iff] at run
      obtain ⟨middle, taken, tail⟩ := run
      have less := step_remaining taken
      have rest := ih tail
      simp only [List.length_cons]
      omega

theorem receivedWalk {packets : List PacketObject} {send : Cursor} {first last : Nat}
    (order : first ≤ last) (inside : last ≤ registry.vecNodeBase.length)
    (others : ∀ (index : Nat) node, first ≤ index → index < last →
      registry.vecNodeBase[index]? = some node → node.getPortInfo ≠ call.port) :
    Reaches (step call message) anyStep ⟨registry, packets, .loop first, send⟩
      ⟨registry, packets, .loop last, send⟩ := by
  induction last, order using Nat.le_induction with
  | base => exact .refl
  | succ last order ih =>
      have found := List.getElem?_eq_getElem (l := registry.vecNodeBase) (i := last) (by omega)
      have other := others last _ order (by omega) found
      have taken : step call message ⟨registry, packets, .loop last, send⟩ .received =
          some ⟨registry, packets, .loop (last + 1), send⟩ := by
        simp only [step, receivedStep, found, if_neg other]
        rw [if_neg (by omega)]
      exact .step (ih (by omega) fun index node low high => others index node low (by omega))
        trivial taken

theorem sendWalk (dead : message.state = .dead) {packets : List PacketObject} {received : Cursor}
    {last : Nat} (inside : last ≤ registry.vecNodeBase.length)
    (others : ∀ (index : Nat) node, index < last → registry.vecNodeBase[index]? = some node →
      node.getPortInfo ≠ message.clientAddr.sinPort) :
    Reaches (step call message) anyStep ⟨registry, packets, received, .loop 0⟩
      ⟨registry, packets, received, .loop last⟩ := by
  induction last with
  | zero => exact .refl
  | succ last ih =>
      have found := List.getElem?_eq_getElem (l := registry.vecNodeBase) (i := last) (by omega)
      have other := others last _ (by omega) found
      have taken : step call message ⟨registry, packets, received, .loop last⟩ .send =
          some ⟨registry, packets, received, .loop (last + 1)⟩ := by
        simp only [step, sendStep, found, dead, if_neg other]
        rw [if_neg (by omega)]
        rfl
      exact .step (ih (by omega) fun index node high => others index node (by omega))
        trivial taken

theorem reaches_erased (call : ReceivedCall) (isDead : message.isDead = true)
    (distinct : registry.PortsDistinct)
    {position last : Nat} {dead : NodeBase}
    (found : registry.vecNodeBase[position]? = some dead)
    (port : dead.getPortInfo = message.clientAddr.sinPort)
    (inside : last ≤ registry.vecNodeBase.length)
    (others : ∀ (index : Nat) node, index < last → registry.vecNodeBase[index]? = some node →
      node.getPortInfo ≠ call.port) :
    Reaches (step call message) anyStep (called registry)
      ⟨registry.eraseAt position, [], .loop last, .returned⟩ := by
  obtain ⟨bound, _⟩ := List.getElem?_eq_some_iff.mp found
  have nonempty : registry.vecNodeBase.isEmpty = false := by
    cases contents : registry.vecNodeBase <;> simp_all
  have notify : message.messageType = 1 ∧ message.state = .dead := by
    simpa [StrMessageState.isDead] using isDead
  have entered : step call message (called registry) .received =
      some ⟨registry, [], .loop 0, .start⟩ := by
    simp [step, receivedStep, called, nonempty]
  have passed : Reaches (step call message) anyStep ⟨registry, [], .loop 0, .start⟩
      ⟨registry, [], .loop last, .start⟩ :=
    receivedWalk (Nat.zero_le _) inside fun index node _ => others index node
  have looking : step call message ⟨registry, [], .loop last, .start⟩ .send =
      some ⟨registry, [], .loop last, .loop 0⟩ := by
    simp [step, sendStep, notify]
  have arrived : Reaches (step call message) anyStep ⟨registry, [], .loop last, .loop 0⟩
      ⟨registry, [], .loop last, .loop position⟩ := by
    apply sendWalk notify.2 (by omega)
    intro index node before at_ same
    have equal := index_unique distinct at_ found (same.trans port.symm)
    omega
  have erased : step call message ⟨registry, [], .loop last, .loop position⟩ .send =
      some ⟨registry.eraseAt position, [], .loop last, .returned⟩ := by
    simp only [step, sendStep, found, notify.2, if_pos port]
    rw [if_neg (by omega)]
    rfl
  exact .step ((Reaches.step ((Reaches.step .refl trivial entered).trans passed) trivial
    looking).trans arrived) trivial erased

end SharedVector

theorem Registry.checkPongMessage_flagged {registry : Registry} (distinct : registry.PortsDistinct)
    {packet : Packet} {node : NodeBase}
    (member : node ∈ (registry.checkPongMessage packet).vecNodeBase)
    (port : node.getPortInfo = packet.clientAddr.sinPort) : node.pongState = true := by
  rw [checkPongMessage_eq] at member
  exact updateFirst_all (fun node => node.pongState = true) distinct (fun _ => rfl) member port

section

variable {call : ReceivedCall} {message : StrMessageState} {registry : Registry}

theorem serialReceivedFirst_ports (distinct : registry.PortsDistinct) :
    (serialReceivedFirst call message registry).1.PortsDistinct :=
  Registry.handle_portsDistinct (ReceivedCall.run_portsDistinct distinct) (.message message)

theorem serialSendFirst_ports (distinct : registry.PortsDistinct) :
    (serialSendFirst call message registry).1.PortsDistinct :=
  ReceivedCall.run_portsDistinct (registry.handle_portsDistinct distinct (.message message))

theorem serialisable_of_no_conflict (distinct : registry.PortsDistinct)
    (safe : ¬Conflict call message registry) : Serialisable call message registry := by
  have serial (state : SharedVector)
      (reached : Reaches (SharedVector.step call message) anyStep (.called registry) state)
      (received : state.received = .returned) (send : state.send = .returned) :
      (state.registry, state.packets) = serialReceivedFirst call message registry ∨
        (state.registry, state.packets) = serialSendFirst call message registry := by
    cases SharedVector.reached_progress distinct safe reached with
    | undecided _ walking _ => simp [received, Walking] at walking
    | receivedFirst _ _ sending => simp [send, Sending] at sending
    | sentFirst _ _ walking => simp [received, Walking] at walking
    | done _ _ serial => exact serial
  refine ⟨?_, ?_, ?_, serial, ?_, ?_⟩
  · exact fun state reached => (SharedVector.reached_progress distinct safe reached).moves.1
  · exact fun state reached => (SharedVector.reached_progress distinct safe reached).moves.2
  · intro workers state run
    have bound := SharedVector.run_remaining run
    simp only [SharedVector.remaining, SharedVector.called, Cursor.remaining] at bound
    omega
  · intro state reached received send
    rcases serial state reached received send with same | same
    · have final : state.registry = _ := congrArg Prod.fst same
      exact final ▸ serialReceivedFirst_ports distinct
    · have final : state.registry = _ := congrArg Prod.fst same
      exact final ▸ serialSendFirst_ports distinct
  · rintro state reached received send packet rfl node member port
    rcases serial state reached received send with same | same
    · have final : state.registry = _ := congrArg Prod.fst same
      rw [final, serialReceivedFirst, Registry.handleMessage_registry] at member
      split at member
      · exact Registry.checkPongMessage_flagged distinct (eraseFirst_sublist.subset member) port
      · exact Registry.checkPongMessage_flagged distinct member port
    · have final : state.registry = _ := congrArg Prod.fst same
      rw [final] at member
      exact Registry.checkPongMessage_flagged
        (registry.handle_portsDistinct distinct (.message message)) member port

/-- A conflict has an interleaving that goes wrong: the erase shifts the entry the receive thread
is about to examine behind its position, or the end of the vector in front of it. -/
theorem not_serialisable_of_conflict (distinct : registry.PortsDistinct)
    (conflict : Conflict call message registry) : ¬Serialisable call message registry := by
  intro serialisable
  obtain ⟨isDead, _, position, dead, found, port, cause⟩ := conflict
  obtain ⟨bound, _⟩ := List.getElem?_eq_some_iff.mp found
  have shorter := List.length_eraseIdx_of_lt bound
  rcases cause with absent | ⟨later, node, behind, at_, matched, concerns⟩
  · have run := SharedVector.reaches_erased call isDead distinct found port (le_refl _)
      fun index node _ at_ => absent node (List.mem_of_getElem? at_)
    have fault : SharedVector.step call message ⟨registry.eraseAt position, [],
        .loop registry.vecNodeBase.length, .returned⟩ .received =
        some ⟨registry.eraseAt position, [], .outOfRange, .returned⟩ := by
      have past : registry.vecNodeBase.length ≠ (registry.eraseAt position).vecNodeBase.length := by
        simp only [Registry.eraseAt]
        omega
      have nothing : (registry.eraseAt position).vecNodeBase[registry.vecNodeBase.length]? = none :=
        List.getElem?_eq_none (by simp only [Registry.eraseAt]; omega)
      simp only [SharedVector.step, SharedVector.receivedStep, if_neg past, nothing]
    exact (serialisable.inRange _ (.step run trivial fault)).1 rfl
  · obtain ⟨inside, _⟩ := List.getElem?_eq_some_iff.mp at_
    have run := SharedVector.reaches_erased call isDead distinct found port
      (Nat.le_of_lt inside) fun index other before found same => by
        have equal := index_unique distinct found at_ (same.trans matched.symm)
        omega
    -- the node that the call is for has slipped in front of the iterator
    have slipped : node ∈ (registry.eraseAt position).vecNodeBase := by
      apply List.mem_of_getElem? (i := later - 1)
      rw [Registry.eraseAt, List.getElem?_eraseIdx_of_ge (by omega),
        Nat.sub_add_cancel (by omega)]
      exact at_
    have passed : Reaches (SharedVector.step call message) anyStep (.called registry)
        ⟨registry.eraseAt position, [], .loop (registry.eraseAt position).vecNodeBase.length,
          .returned⟩ := by
      refine run.trans (SharedVector.receivedWalk (by simp only [Registry.eraseAt]; omega)
        (le_refl _) fun index other low _ found same => ?_)
      rw [Registry.eraseAt, List.getElem?_eraseIdx_of_ge (by omega)] at found
      have equal := index_unique distinct found at_ (same.trans matched.symm)
      omega
    cases call with
    | pong packet =>
        have ended : SharedVector.step (.pong packet) message ⟨registry.eraseAt position, [],
            .loop (registry.eraseAt position).vecNodeBase.length, .returned⟩ .received =
            some ⟨registry.eraseAt position, [], .returned, .returned⟩ := by
          simp only [SharedVector.step, SharedVector.receivedStep, if_true]
        have flagged := serialisable.flagged _ (.step passed trivial ended) rfl rfl packet rfl node
          slipped matched
        simp [ReceivedCall.concerns, flagged] at concerns
    | register packet =>
        have ended : SharedVector.step (.register packet) message ⟨registry.eraseAt position, [],
            .loop (registry.eraseAt position).vecNodeBase.length, .returned⟩ .received =
            some ⟨registry.eraseAt position, [],
              .behind (registry.eraseAt position).vecNodeBase.length, .returned⟩ := by
          simp only [SharedVector.step, SharedVector.receivedStep, if_true]
        have tested : SharedVector.step (.register packet) message ⟨registry.eraseAt position, [],
            .behind (registry.eraseAt position).vecNodeBase.length, .returned⟩ .received =
            some ⟨registry.eraseAt position, [], .pushing, .returned⟩ := by
          simp only [SharedVector.step, SharedVector.receivedStep, if_true]
        have pushed : SharedVector.step (.register packet) message
            ⟨registry.eraseAt position, [], .pushing, .returned⟩ .received =
            some ⟨(registry.eraseAt position).pushNodeToVector packet, [], .returned,
              .returned⟩ := rfl
        have ports := serialisable.ports _ (.step (.step (.step passed trivial ended) trivial
          tested) trivial pushed) rfl rfl
        have monitored : packet.typeNode.isMonitored = true := concerns
        simp only [Registry.PortsDistinct, Registry.pushNodeToVector_eq, monitored, if_true,
          List.map_append, List.map_cons, List.map_nil] at ports
        exact (List.nodup_append.mp ports).2.2 node.getPortInfo (List.mem_map_of_mem slipped)
          _ (List.mem_singleton_self _) matched

/-- The two threads are serialisable exactly when the calls do not conflict. -/
theorem serialisable_iff (call : ReceivedCall) (message : StrMessageState) (registry : Registry)
    (distinct : registry.PortsDistinct) :
    Serialisable call message registry ↔ ¬Conflict call message registry :=
  ⟨fun serialisable conflict => not_serialisable_of_conflict distinct conflict serialisable,
    serialisable_of_no_conflict distinct⟩

def registerFromPort (port : BitVec 16) : RigisterPacket :=
  { RigisterPacket.create with
    typeNode := .dataPlane
    clientAddr := ⟨0x0100007f, port⟩ }

def twoNodes : Registry :=
  (Registry.empty.checkRegisterMessage (registerFromPort 1)).checkRegisterMessage
    (registerFromPort 2)

def firstDead : StrMessageState :=
  { StrMessageState.initial with
    messageType := 1
    state := .dead
    clientAddr := ⟨0x0100007f, 1⟩ }

theorem serialisable_iff_same_port :
    Serialisable (.register (registerFromPort 1)) firstDead twoNodes :=
  (serialisable_iff _ _ _ (by decide)).mpr fun conflict => conflict.2.1 rfl

theorem not_serialisable : ¬∀ (call : ReceivedCall) (message : StrMessageState)
    (registry : Registry), registry.PortsDistinct → Serialisable call message registry := by
  intro always
  obtain ⟨state, reached, found⟩ := exists_reaches
    (SharedVector.step (.register (registerFromPort 2)) firstDead) (fun _ _ => true)
    (fun state => state.received == .returned && state.send == .returned &&
      !decide state.registry.PortsDistinct)
    (.called twoNodes) [.received, .received, .send, .send, .received, .received, .received]
    (fun _ _ _ => trivial) (by decide +kernel) (by decide +kernel)
  simp only [Bool.and_eq_true, beq_iff_eq, Bool.not_eq_true', decide_eq_false_iff_not] at found
  exact found.2 ((always _ _ twoNodes (by decide)).ports state reached found.1.1 found.1.2)

end

end NodeManagement
