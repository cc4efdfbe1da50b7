import NodeManagement.SharedVector

/-!
The loops of the two threads on the shared vector: what each has established about the entries
it has passed, and what an erase by the other thread leaves of that.
-/

namespace NodeManagement

open KeyedList Transition

def Registry.eraseAt (registry : Registry) (position : Nat) : Registry :=
  { registry with vecNodeBase := registry.vecNodeBase.eraseIdx position }

namespace ReceivedCall

variable {call : ReceivedCall} {registry : Registry}

theorem run_eq_handle (call : ReceivedCall) (registry : Registry) :
    ∃ handler, call.run registry = registry.handle handler := by
  cases call with
  | register packet => exact ⟨.register packet, rfl⟩
  | pong packet => exact ⟨.pong packet, rfl⟩

theorem run_portsDistinct (distinct : registry.PortsDistinct) :
    (call.run registry).PortsDistinct := by
  obtain ⟨handler, same⟩ := run_eq_handle call registry
  exact same ▸ registry.handle_portsDistinct distinct handler

def Idle (call : ReceivedCall) (nodes : List NodeBase) : Prop :=
  match call with
  | register packet => packet.typeNode.isMonitored = false
  | pong packet => ∀ node ∈ nodes, node.getPortInfo = packet.clientAddr.sinPort →
      node.pongState = true

theorem run_of_idle (idle : call.Idle registry.vecNodeBase) : call.run registry = registry := by
  cases call with
  | register packet =>
      simp only [Idle] at idle
      simp [run, Registry.checkRegisterMessage_eq, idle]
  | pong packet =>
      have fixed : updateFirst NodeBase.getPortInfo packet.clientAddr.sinPort
          (fun node => node.setPongState true) registry.vecNodeBase = registry.vecNodeBase := by
        apply updateFirst_of_fixed
        intro node member port
        have flagged := idle node member port
        cases node
        simp_all [NodeBase.setPongState]
      simp [run, Registry.checkPongMessage_eq, fixed]

theorem run_of_absent
    (absent : ∀ node ∈ registry.vecNodeBase, node.getPortInfo ≠ call.port) :
    call.run registry = match call with
      | register packet => registry.pushNodeToVector packet
      | pong _ => registry := by
  cases call with
  | register packet =>
      have unknown := hasKey_eq_false_iff.mpr absent
      simp only [port] at unknown
      simp [run, Registry.checkRegisterMessage_eq, Registry.pushNodeToVector_eq, unknown]
  | pong packet =>
      have fixed : updateFirst NodeBase.getPortInfo packet.clientAddr.sinPort
          (fun node => node.setPongState true) registry.vecNodeBase = registry.vecNodeBase :=
        updateFirst_of_fixed fun node member port => absurd port (absent node member)
      simp [run, Registry.checkPongMessage_eq, fixed]

theorem run_map (call : ReceivedCall) (registry : Registry) {Feature : Type}
    (feature : NodeBase → Feature)
    (kept : ∀ node, feature (node.setPongState true) = feature node) :
    ∃ added, (call.run registry).vecNodeBase.map feature =
      registry.vecNodeBase.map feature ++ added := by
  cases call with
  | register packet =>
      simp only [run, Registry.checkRegisterMessage_eq]
      split
      · exact ⟨_, List.map_append⟩
      · exact ⟨[], by simp⟩
  | pong packet =>
      simp only [run, Registry.checkPongMessage_eq]
      exact ⟨[], by rw [map_updateFirst feature kept, List.append_nil]⟩

end ReceivedCall

theorem ReceivedCall.run_take_map (call : ReceivedCall) (registry : Registry) {Feature : Type}
    (feature : NodeBase → Feature)
    (kept : ∀ node, feature (node.setPongState true) = feature node) {position : Nat}
    (inside : position ≤ registry.vecNodeBase.length) :
    position ≤ (call.run registry).vecNodeBase.length ∧
      ((call.run registry).vecNodeBase.take position).map feature =
        (registry.vecNodeBase.take position).map feature := by
  obtain ⟨added, same⟩ := call.run_map registry feature kept
  constructor
  · have lengths := congrArg List.length same
    simp only [List.length_map, List.length_append] at lengths
    omega
  · rw [List.map_take, same, List.map_take]
    exact List.take_append_of_le_length (by simpa using inside)

def Sending (message : StrMessageState) (nodes : List NodeBase) (packets : List PacketObject) :
    Cursor → Prop
  | .start => packets = []
  | .loop position => position ≤ nodes.length ∧ message.messageType = 1 ∧
      ((message.state = .timeout ∧
          packets = (nodes.take position).map fun node => .notify (notifyPacketTo message node)) ∨
        (message.state = .dead ∧ packets = [] ∧
          ClearBefore NodeBase.getPortInfo message.clientAddr.sinPort position nodes))
  | _ => False

def Walking (idle : Prop) (call : ReceivedCall) (nodes : List NodeBase) : Cursor → Prop
  | .start => True
  | .loop position => position ≤ nodes.length ∧
      (idle ∨ ClearBefore NodeBase.getPortInfo call.port position nodes)
  | .behind position => (∃ packet, call = .register packet) ∧
      (idle ∨ (position = nodes.length ∧ ∀ node ∈ nodes, node.getPortInfo ≠ call.port) ∨
        ∃ node, nodes[position]? = some node ∧ node.getPortInfo = call.port)
  | .pushing => (∃ packet, call = .register packet) ∧
      (idle ∨ ∀ node ∈ nodes, node.getPortInfo ≠ call.port)
  | _ => False

section

variable {call : ReceivedCall} {message : StrMessageState}

theorem Walking.mono {idle : Prop} {nodes : List NodeBase} {cursor : Cursor}
    (walking : Walking False call nodes cursor) : Walking idle call nodes cursor := by
  cases cursor with
  | loop position => exact ⟨walking.1, walking.2.imp_left False.elim⟩
  | behind position => exact ⟨walking.1, walking.2.imp_left False.elim⟩
  | pushing => exact ⟨walking.1, walking.2.imp_left False.elim⟩
  | _ => exact walking

theorem Sending.run {registry : Registry} {packets : List PacketObject} {send : Cursor}
    (sending : Sending message registry.vecNodeBase packets send) (call : ReceivedCall) :
    Sending message (call.run registry).vecNodeBase packets send := by
  cases send with
  | loop position =>
      obtain ⟨inside, notify, walk⟩ := sending
      have packetsKept := call.run_take_map registry
        (fun node => PacketObject.notify (notifyPacketTo message node)) (fun _ => rfl) inside
      have portsKept := (call.run_take_map registry NodeBase.getPortInfo (fun _ => rfl) inside).2
      refine ⟨packetsKept.1, notify, ?_⟩
      rcases walk with ⟨timeout, packets⟩ | ⟨dead, packets, clear⟩
      · exact .inl ⟨timeout, packets.trans packetsKept.2.symm⟩
      · refine .inr ⟨dead, packets, fun node member port => ?_⟩
        have present := List.mem_map_of_mem (f := NodeBase.getPortInfo) member
        rw [portsKept] at present
        obtain ⟨old, before, same⟩ := List.mem_map.mp present
        exact clear old before (same.trans port)
  | _ => exact sending

/-- Without a conflict an erase leaves the receive thread where it belongs on the shifted
vector, or its call, which found the erased node, is already as good as done. -/
theorem Walking.erase {registry : Registry} (distinct : registry.PortsDistinct)
    {cursor : Cursor} (walking : Walking False call registry.vecNodeBase cursor)
    (safe : ¬Conflict call message registry) (isDead : message.isDead = true) {position : Nat}
    {dead : NodeBase} (found : registry.vecNodeBase[position]? = some dead)
    (port : dead.getPortInfo = message.clientAddr.sinPort) :
    (Walking (call.Idle (registry.vecNodeBase.eraseIdx position)) call
        (registry.vecNodeBase.eraseIdx position) cursor) ∨
      ((∃ index, cursor = .behind index ∧ index ≠ (registry.vecNodeBase.eraseIdx position).length) ∧
        call.run registry = registry) := by
  obtain ⟨inside, here⟩ := List.getElem?_eq_some_iff.mp found
  have length : (registry.vecNodeBase.eraseIdx position).length + 1 =
      registry.vecNodeBase.length := by
    rw [List.length_eraseIdx_of_lt inside]
    omega
  -- either the erased node is the one of the call's port, or that port has an entry in front of
  -- the erased node or nothing to do
  have order : message.clientAddr.sinPort = call.port ∨ ∃ (index : Nat) (node : NodeBase),
      registry.vecNodeBase[index]? = some node ∧ node.getPortInfo = call.port ∧
        (index < position ∨ (position < index ∧
          call.Idle (registry.vecNodeBase.eraseIdx position))) := by
    by_contra neither
    simp only [not_or, not_exists, not_and] at neither
    refine safe ⟨isDead, neither.1, position, dead, found, port, ?_⟩
    by_cases absent : ∀ node ∈ registry.vecNodeBase, node.getPortInfo ≠ call.port
    · exact .inl absent
    · simp only [not_forall, not_not] at absent
      obtain ⟨node, member, matched⟩ := absent
      obtain ⟨index, at_⟩ := List.mem_iff_getElem?.mp member
      have behind := neither.2 index node at_ matched
      have elsewhere : index ≠ position := by
        rintro rfl
        rw [found] at at_
        exact neither.1 (port.symm.trans (Option.some.inj at_ ▸ matched))
      have later : position < index := by omega
      refine .inr ⟨index, node, later, at_, matched, ?_⟩
      by_contra nothing
      refine behind.2 later ?_
      cases call with
      | register packet =>
          change packet.typeNode.isMonitored = false
          simpa [ReceivedCall.concerns] using nothing
      | pong packet =>
          intro other present samePort
          have same : other = node := List.inj_on_of_nodup_map distinct
            ((List.eraseIdx_sublist _ _).subset present) member (samePort.trans matched.symm)
          simpa [ReceivedCall.concerns, same] using nothing
  have notAbsent (absent : ∀ node ∈ registry.vecNodeBase, node.getPortInfo ≠ call.port) :
      False := by
    rcases order with same | ⟨_, node, at_, matched, _⟩
    · exact absent dead (List.mem_of_getElem? found) (port.trans same)
    · exact absent node (List.mem_of_getElem? at_) matched
  cases cursor with
  | start => exact .inl trivial
  | loop index =>
      obtain ⟨_, clear⟩ := walking
      have clear := clear.resolve_left id
      -- the entries in front of the iterator are those in front of the erased one
      have unmoved (before : index ≤ position) :
          index ≤ (registry.vecNodeBase.eraseIdx position).length ∧
            ClearBefore NodeBase.getPortInfo call.port index
              (registry.vecNodeBase.eraseIdx position) := by
        refine ⟨by omega, ?_⟩
        rwa [ClearBefore, List.take_eraseIdx_eq_take_of_le _ _ _ before]
      left
      rcases order with same | ⟨place, node, at_, matched, side⟩
      · have before : index ≤ position := by
          by_contra after
          exact clear.getElem (by omega) found (port.trans same)
        exact ⟨(unmoved before).1, .inr (unmoved before).2⟩
      · have notPast : index ≤ place := by
          by_contra after
          exact clear.getElem (by omega) at_ matched
        obtain ⟨bound, _⟩ := List.getElem?_eq_some_iff.mp at_
        rcases side with front | ⟨back, idle⟩
        · exact ⟨(unmoved (by omega)).1, .inr (unmoved (by omega)).2⟩
        · exact ⟨by omega, .inl idle⟩
  | behind index =>
      obtain ⟨⟨packet, rfl⟩, walk⟩ := walking
      rcases walk.resolve_left id with ⟨_, absent⟩ | ⟨node, at_, matched⟩
      · exact (notAbsent absent).elim
      rcases order with same | ⟨place, other, atOther, matchedOther, side⟩
      · have here := index_unique distinct at_ found (matched.trans (port.trans same).symm)
        subst here
        by_cases last : index = (registry.vecNodeBase.eraseIdx index).length
        · refine .inl ⟨⟨packet, rfl⟩, .inr (.inl ⟨last, fun other member samePort => ?_⟩)⟩
          exact key_ne_of_mem_eraseIdx distinct found member
            (samePort.trans (port.trans same).symm)
        · refine .inr ⟨⟨index, rfl, last⟩, ?_⟩
          have known : hasKey NodeBase.getPortInfo packet.clientAddr.sinPort
              registry.vecNodeBase = true :=
            hasKey_iff.mpr ⟨node, List.mem_of_getElem? at_, matched⟩
          simp [ReceivedCall.run, Registry.checkRegisterMessage_eq, known]
      · have here := index_unique distinct at_ atOther (matched.trans matchedOther.symm)
        subst here
        refine .inl ⟨⟨packet, rfl⟩, ?_⟩
        rcases side with front | ⟨_, idle⟩
        · exact .inr (.inr ⟨node, by rwa [List.getElem?_eraseIdx_of_lt front], matched⟩)
        · exact .inl idle
  | pushing => exact (notAbsent (walking.2.resolve_left id)).elim
  | _ => exact walking.elim

end

namespace SharedVector

variable {call : ReceivedCall} {message : StrMessageState} {state after : SharedVector}

theorem sendStep_cases
    (sending : Sending message state.registry.vecNodeBase state.packets state.send)
    (taken : state.sendStep message = some after) :
    after.received = state.received ∧
      ((after.registry = state.registry ∧
          Sending message after.registry.vecNodeBase after.packets after.send) ∨
        (after.send = .returned ∧
          (after.registry, after.packets) = state.registry.handleMessage message ∧
          (after.registry = state.registry ∨ (message.isDead = true ∧
            ∃ (position : Nat) (dead : NodeBase),
            state.registry.vecNodeBase[position]? = some dead ∧
            dead.getPortInfo = message.clientAddr.sinPort ∧
            after.registry.vecNodeBase = state.registry.vecNodeBase.eraseIdx position)))) := by
  unfold sendStep at taken
  cases position : state.send with
  | start =>
      simp only [position, Sending] at sending taken
      split at taken
      next ping =>
        simp only [Option.some.injEq] at taken
        subst taken
        exact ⟨rfl, .inr ⟨rfl, by simp [Registry.handleMessage, ping, sending], .inl rfl⟩⟩
      next notPing =>
        split at taken
        next walks =>
          simp only [Option.some.injEq] at taken
          subst taken
          refine ⟨rfl, .inl ⟨rfl, Nat.zero_le _, walks.1, ?_⟩⟩
          rcases walks.2 with timeout | dead
          · exact .inl ⟨timeout, by simp [sending]⟩
          · exact .inr ⟨dead, sending, by simp [ClearBefore]⟩
        next rests =>
          simp only [Option.some.injEq] at taken
          subst taken
          refine ⟨rfl, .inr ⟨rfl, ?_, .inl rfl⟩⟩
          by_cases notify : message.messageType = 1
          · simp only [notify, true_and, not_or] at rests
            simp [Registry.handleMessage, Registry.checkNotifyMessage, notify, rests, sending]
          · rw [Registry.handleMessage, if_neg notPing, if_neg notify, sending]
  | loop index =>
      simp only [position, Sending] at sending taken
      obtain ⟨inside, notify, walk⟩ := sending
      split at taken
      next ended =>
        simp only [Option.some.injEq] at taken
        subst taken
        refine ⟨rfl, .inr ⟨rfl, ?_, .inl rfl⟩⟩
        rcases walk with ⟨timeout, packets⟩ | ⟨dead, packets, clear⟩
        · simp only [ended, List.take_length] at packets
          simp [Registry.handleMessage, Registry.checkNotifyMessage, notify, timeout, packets,
            Function.comp_def]
        · have absent : eraseFirst NodeBase.getPortInfo message.clientAddr.sinPort
              state.registry.vecNodeBase = state.registry.vecNodeBase :=
            eraseFirst_of_absent (by simpa [ClearBefore, ended] using clear)
          simp [Registry.handleMessage, Registry.checkNotifyMessage, notify, dead, packets, absent]
      next going =>
        obtain ⟨node, found⟩ : ∃ node, state.registry.vecNodeBase[index]? = some node :=
          ⟨_, List.getElem?_eq_getElem (by omega)⟩
        have more : index + 1 ≤ state.registry.vecNodeBase.length := by omega
        simp only [found] at taken
        split at taken
        next timeout =>
          simp only [Option.some.injEq] at taken
          subst taken
          rcases walk with ⟨_, packets⟩ | ⟨dead, _⟩
          · refine ⟨rfl, .inl ⟨rfl, more, notify, .inl ⟨timeout, ?_⟩⟩⟩
            simp [packets, List.take_add_one, found]
          · simp [timeout] at dead
        next notTimeout =>
          obtain ⟨dead, packets, clear⟩ := walk.resolve_left fun walk => notTimeout walk.1
          split at taken
          next matched =>
            simp only [Option.some.injEq] at taken
            subst taken
            refine ⟨rfl, .inr ⟨rfl, ?_, .inr ⟨?_, index, node, found, matched, rfl⟩⟩⟩
            · simp [Registry.handleMessage, Registry.checkNotifyMessage, notify, dead, packets,
                eraseFirst_of_clear clear found matched]
            · simp [StrMessageState.isDead, notify, dead]
          next other =>
            simp only [Option.some.injEq] at taken
            subst taken
            exact ⟨rfl, .inl ⟨rfl, more, notify,
              .inr ⟨dead, packets, clear.next found other⟩⟩⟩
  | _ => simp [position, Sending] at sending

theorem receivedStep_cases {idle : Prop} (known : idle → call.Idle state.registry.vecNodeBase)
    (walking : Walking idle call state.registry.vecNodeBase state.received)
    (taken : state.receivedStep call = some after) :
    after.send = state.send ∧ after.packets = state.packets ∧
      ((after.registry = state.registry ∧
          Walking idle call after.registry.vecNodeBase after.received) ∨
        (after.received = .returned ∧ after.registry = call.run state.registry)) := by
  unfold receivedStep at taken
  cases position : state.received with
  | start =>
      simp only [position, Option.some.injEq] at taken
      subst taken
      refine ⟨rfl, rfl, ?_⟩
      cases empty : state.registry.vecNodeBase with
      | cons first rest => exact .inl ⟨rfl, by simp [Walking, ClearBefore]⟩
      | nil =>
          cases call with
          | register packet => exact .inl ⟨rfl, ⟨packet, rfl⟩, .inr (by simp)⟩
          | pong packet =>
              refine .inr ⟨by simp, ?_⟩
              rw [ReceivedCall.run_of_absent (by simp [empty])]
  | loop index =>
      simp only [position, Walking] at walking taken
      obtain ⟨inside, clear⟩ := walking
      split at taken
      next ended =>
        have absent : idle ∨ ∀ node ∈ state.registry.vecNodeBase, node.getPortInfo ≠ call.port :=
          clear.imp_right fun clear => by simpa [ClearBefore, ended] using clear
        simp only [Option.some.injEq] at taken
        subst taken
        refine ⟨rfl, rfl, ?_⟩
        cases call with
        | register packet =>
            exact .inl ⟨rfl, ⟨packet, rfl⟩, absent.imp_right fun absent => .inl ⟨ended, absent⟩⟩
        | pong packet =>
            refine .inr ⟨rfl, ?_⟩
            rcases absent with idle | absent
            · exact (ReceivedCall.run_of_idle (known idle)).symm
            · rw [ReceivedCall.run_of_absent absent]
      next going =>
        obtain ⟨node, found⟩ : ∃ node, state.registry.vecNodeBase[index]? = some node :=
          ⟨_, List.getElem?_eq_getElem (by omega)⟩
        have more : index + 1 ≤ state.registry.vecNodeBase.length := by omega
        simp only [found] at taken
        split at taken
        next matched =>
          cases call with
          | register packet =>
              simp only [Option.some.injEq] at taken
              subst taken
              exact ⟨rfl, rfl, .inl ⟨rfl, ⟨packet, rfl⟩, .inr (.inr ⟨node, found, matched⟩)⟩⟩
          | pong packet =>
              simp only [Option.some.injEq] at taken
              subst taken
              refine ⟨rfl, rfl, .inr ⟨rfl, ?_⟩⟩
              rcases clear with idle | clear
              · rw [ReceivedCall.run_of_idle (known idle)]
                have flagged := known idle node (List.mem_of_getElem? found) matched
                have same : node.setPongState true = node := by
                  cases node
                  simp_all [NodeBase.setPongState]
                obtain ⟨bound, equal⟩ := List.getElem?_eq_some_iff.mp found
                rw [same, ← equal, List.set_getElem_self]
              · have updated : updateFirst NodeBase.getPortInfo packet.clientAddr.sinPort
                    (fun node => node.setPongState true) state.registry.vecNodeBase =
                    state.registry.vecNodeBase.set index (node.setPongState true) :=
                  updateFirst_of_clear clear found matched
                simp only [ReceivedCall.run, Registry.checkPongMessage_eq, updated]
        next other =>
          simp only [Option.some.injEq] at taken
          subst taken
          exact ⟨rfl, rfl, .inl ⟨rfl, more, clear.imp_right fun clear => clear.next found other⟩⟩
  | behind index =>
      simp only [position, Walking, Option.some.injEq] at walking taken
      subst taken
      obtain ⟨⟨packet, rfl⟩, walk⟩ := walking
      refine ⟨rfl, rfl, ?_⟩
      split
      next ended =>
        refine .inl ⟨rfl, ⟨packet, rfl⟩, ?_⟩
        rcases walk with idle | ⟨_, absent⟩ | ⟨node, found, _⟩
        · exact .inl idle
        · exact .inr absent
        · simp [ended] at found
      next inside =>
        refine .inr ⟨rfl, ?_⟩
        rcases walk with idle | ⟨ended, _⟩ | ⟨node, found, matched⟩
        · exact (ReceivedCall.run_of_idle (known idle)).symm
        · exact absurd ended inside
        · have registered : hasKey NodeBase.getPortInfo packet.clientAddr.sinPort
              state.registry.vecNodeBase = true :=
            hasKey_iff.mpr ⟨node, List.mem_of_getElem? found, matched⟩
          simp [ReceivedCall.run, Registry.checkRegisterMessage_eq, registered]
  | pushing =>
      simp only [position, Walking] at walking taken
      obtain ⟨⟨packet, rfl⟩, walk⟩ := walking
      simp only [Option.some.injEq] at taken
      subst taken
      refine ⟨rfl, rfl, .inr ⟨rfl, ?_⟩⟩
      rcases walk with idle | absent
      · have unmonitored := known idle
        simp only [ReceivedCall.Idle] at unmonitored
        rw [ReceivedCall.run_of_idle (known idle), Registry.pushNodeToVector_eq]
        simp [unmonitored]
      · rw [ReceivedCall.run_of_absent absent]
  | _ => simp [position, Walking] at walking

end SharedVector

end NodeManagement
