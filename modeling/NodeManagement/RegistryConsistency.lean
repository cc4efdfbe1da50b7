import NodeManagement.MonitorInvariant

/-!
Consistency of the registry and the message queue in every reachable state.
-/

namespace NodeManagement

open KeyedList Transition

namespace Monitor

/-- What the registry and the messages on their way satisfy.  The last field is about the
next call of `checkNotifyMessage`: it erases the sender of the DEAD message and nothing else,
and the thread joined by `~NodeBase` has pushed DEAD and exits without waiting. -/
structure Consistent (monitor : Monitor) : Prop where
  portsDistinct : monitor.registry.vecNodeBase.Pairwise fun node other =>
    node.getPortInfo ≠ other.getPortInfo
  idsIncrease : monitor.registry.made < 2 ^ 31 →
    monitor.registry.vecNodeBase.Pairwise fun node other =>
      node.getObjectNodeID < other.getObjectNodeID
  typesMonitored : ∀ node ∈ monitor.registry.vecNodeBase,
    node.type = .dataPlane ∨ node.type = .controlPlane ∨ node.type = .oam
  senderRegistered : ∀ posted ∈ monitor.pending, ∃ node ∈ monitor.registry.vecNodeBase,
    node.serial = posted.sender ∧ node.clientAddr = posted.message.clientAddr
  deadIsLast : ∀ front posted back, monitor.pending = front ++ posted :: back →
    posted.message.isDead = true → ∀ later ∈ back, later.sender ≠ posted.sender
  deadErasesSender : ∀ after, monitor.step .handleMessage = some after →
    monitor.nodeHandleThread.item.message.isDead = true →
    ∃ node ∈ monitor.registry.vecNodeBase,
      node.serial = monitor.nodeHandleThread.item.sender ∧
      node.clientAddr = monitor.nodeHandleThread.item.message.clientAddr ∧
      after.registry.vecNodeBase = monitor.registry.vecNodeBase.filter
        (fun other => decide (other.serial ≠ node.serial)) ∧
      node.pushedDead = true ∧ node.EndsWithin 3

theorem Invariant.deadErasesSender {monitor after : Monitor} (inv : monitor.Invariant)
    (taken : monitor.step .handleMessage = some after)
    (dead : monitor.nodeHandleThread.item.message.isDead = true) :
    ∃ node ∈ monitor.registry.vecNodeBase,
      node.serial = monitor.nodeHandleThread.item.sender ∧
      node.clientAddr = monitor.nodeHandleThread.item.message.clientAddr ∧
      after.registry.vecNodeBase = monitor.registry.vecNodeBase.filter
        (fun other => decide (other.serial ≠ node.serial)) ∧
      node.pushedDead = true ∧ node.EndsWithin 3 := by
  cases step_move taken with
  | handleMessage working =>
      have inHand := inv.item_mem_pending working
      obtain ⟨node, member, sender, address⟩ := inv.sent.senders _ inHand
      have past := inv.sent.deadPushed _ inHand dead node member sender
      refine ⟨node, member, sender, address, ?_, past,
        NodeBase.endsWithin_of_pushedDead (inv.formed.coherent node member) past⟩
      rw [Registry.handleMessage_registry, if_pos dead, eraseFirst_eq_filter inv.formed.ports]
      apply List.filter_congr
      intro other inside
      -- the port and the object NodeID single out the same entry
      have portMatches : other.getPortInfo =
          monitor.nodeHandleThread.item.message.clientAddr.sinPort ↔
            other.serial = node.serial := by
        constructor
        · intro port
          have same := inv.formed.eq_of_getPortInfo inside member
            (port.trans (congrArg SockaddrIn.sinPort address.symm))
          rw [same]
        · intro id
          rw [inv.formed.eq_of_serial inside member id, ← address]
          rfl
      simp [portMatches]

theorem Invariant.idsIncrease {monitor : Monitor} (inv : monitor.Invariant)
    (few : monitor.registry.made < 2 ^ 31) :
    monitor.registry.vecNodeBase.Pairwise fun node other =>
      node.getObjectNodeID < other.getObjectNodeID := by
  have ids (node : NodeBase) (member : node ∈ monitor.registry.vecNodeBase) :
      node.getObjectNodeID = node.serial :=
    int32_of_lt ((inv.formed.counted node member).trans_lt few)
  refine (List.pairwise_map.mp inv.formed.increasing).imp_of_mem ?_
  intro node other member otherMember less
  rw [ids node member, ids other otherMember]
  exact_mod_cast less

theorem Invariant.consistent {monitor : Monitor} (inv : monitor.Invariant) :
    monitor.Consistent where
  portsDistinct := List.pairwise_map.mp inv.formed.ports
  idsIncrease := inv.idsIncrease
  typesMonitored := by
    intro node member
    have known := inv.formed.monitored node member
    cases type : node.type <;> simp [TypeNode.isMonitored, type] at known ⊢
  senderRegistered := inv.sent.senders
  deadIsLast := by
    intro front posted back split dead later member same
    have order := inv.sent.deadLast
    rw [split] at order
    have first := (List.pairwise_cons.mp (List.pairwise_append.mp order).2.1).1 later member
      same.symm
    simp [first] at dead
  deadErasesSender := fun _ taken dead => inv.deadErasesSender taken dead

/-- Over every interleaving, with stops, restarts and overflow. -/
theorem reachable_consistent {monitor : Monitor} (reached : Reachable monitor) :
    monitor.Consistent :=
  (reachableBy_invariant reached).consistent

end Monitor

def startEvents : List MonitorEvent := [.start, .proceed, .proceed, .proceed, .proceed]

def localRegister : RigisterPacket := registerFromHost 0x0100007f

def frontSteps (steps : Nat) : List MonitorEvent := List.replicate steps (.nodeStep 0 [] true)

def silentSteps : List MonitorEvent := frontSteps 30

def handleOne : List MonitorEvent := [.waitAndPop, .checkRunning, .handleMessage]

theorem reachable_consistent_dead_in_hand :
    ∃ monitor : Monitor, (monitor.nodeHandleThread.pc = .working ∧
      monitor.nodeHandleThread.item.message.isDead = true) ∧ monitor.Consistent := by
  obtain ⟨monitor, reached, found⟩ := exists_reaches Monitor.step (fun _ _ => true)
    (fun monitor => monitor.nodeHandleThread.pc == .working &&
      monitor.nodeHandleThread.item.message.isDead)
    .initial
    (startEvents ++ [.register localRegister] ++ silentSteps ++
      (List.replicate 7 handleOne).flatten ++
      [.waitAndPop, .checkRunning])
    (fun _ _ _ => trivial) (by decide +kernel) (by decide +kernel)
  simp only [Bool.and_eq_true, beq_iff_eq] at found
  exact ⟨monitor, found, Monitor.reachable_consistent reached⟩

/-! The bound on the number of nodes cannot go: one silent client after the other brings the
counter to `INT_MAX`. -/

def caughtUp (nodes : List NodeBase) (made : Nat) (last : PostedMessage) : Monitor where
  registry := ⟨nodes, made⟩
  messageNodeQueue := .create
  running := true
  phase := .idle
  nodeHandleThread := ⟨.waiting, last, false⟩

def localNodeAt (serial : Nat) (state : StateList) (pc : NodePc) : NodeBase where
  type := .dataPlane
  serial := serial
  currentState := state
  clientAddr := localRegister.clientAddr
  running := true
  pongState := false
  pc := pc

def firstPingFails : List MonitorEvent :=
  [.register localRegister] ++ frontSteps 4 ++ handleOne ++ frontSteps 3 ++ handleOne

def retryFails : List MonitorEvent := frontSteps 3 ++ handleOne ++ frontSteps 1

def deadAndErased : List MonitorEvent := frontSteps 6 ++ handleOne

def retrying (serial retryTime : Nat) : NodeBase :=
  (localNodeAt serial .timeout .notifyTimeout).retryLoop retryTime

theorem firstPingFails_run (made : Nat) (last : PostedMessage) :
    runFrom Monitor.step (caughtUp [] made last) firstPingFails =
      some (caughtUp [retrying (made + 1) 0] (made + 1)
        ⟨(localNodeAt (made + 1) .timeout .notifyTimeout).timeoutMessage [], made + 1⟩) := rfl

theorem retryFails_run {retryTime : Nat} (more : retryTime < retryNum) (made : Nat)
    (last : PostedMessage) :
    ∃ handled, runFrom Monitor.step (caughtUp [retrying made retryTime] made last) retryFails =
      some (caughtUp [retrying made (retryTime + 1)] made handled) := by
  have next : retrying made retryTime =
      localNodeAt made .timeout (.resetPong (.retry retryTime)) := if_pos more
  rw [next]
  exact ⟨_, rfl⟩

theorem retriesFail_run {retryTime : Nat} (within : retryTime ≤ retryNum) (made : Nat)
    (last : PostedMessage) :
    ∃ handled, runFrom Monitor.step (caughtUp [retrying made 0] made last)
        (List.replicate retryTime retryFails).flatten =
      some (caughtUp [retrying made retryTime] made handled) := by
  induction retryTime with
  | zero => exact ⟨last, rfl⟩
  | succ retryTime ih =>
      obtain ⟨middle, before⟩ := ih (Nat.le_of_succ_le within)
      obtain ⟨handled, step⟩ := retryFails_run within made middle
      refine ⟨handled, ?_⟩
      rw [List.replicate_succ', List.flatten_append, runFrom_append, before, Option.bind_some]
      simpa using step

theorem deadAndErased_run (made : Nat) (last : PostedMessage) :
    runFrom Monitor.step (caughtUp [retrying made retryNum] made last) deadAndErased =
      some (caughtUp [] made
        ⟨(localNodeAt made .dead .notifyDead).deadMessage [], made⟩) := rfl

theorem reachable_made (made : Nat) : ∃ last, Monitor.Reachable (caughtUp [] made last) := by
  induction made with
  | zero =>
      have started :
          runFrom Monitor.step .initial startEvents = some (caughtUp [] 0 .initial) := rfl
      exact ⟨.initial, .of_runFrom started⟩
  | succ made ih =>
      obtain ⟨last, reached⟩ := ih
      obtain ⟨handled, retries⟩ := retriesFail_run (le_refl retryNum) (made + 1) _
      exact ⟨_, ((reached.trans (.of_runFrom (firstPingFails_run made last))).trans
        (.of_runFrom retries)).trans (.of_runFrom (deadAndErased_run (made + 1) handled))⟩

def otherRegister : RigisterPacket :=
  { localRegister with clientAddr := ⟨0x0100007f, 0x214e⟩ }

theorem registerTwo_run (made : Nat) (last : PostedMessage) :
    runFrom Monitor.step (caughtUp [] made last)
        [.register localRegister, .register otherRegister] =
      some (caughtUp [localRegister.newNode (made + 1), otherRegister.newNode (made + 2)]
        (made + 2) last) := rfl

/-- Of two clients that register after 2^31 - 2 others have come and gone, the second one gets
the NodeID -2^31. -/
theorem nodeIDs_wrap : ∃ monitor : Monitor, Monitor.Reachable monitor ∧
    ¬ monitor.registry.vecNodeBase.Pairwise fun node other =>
      node.getObjectNodeID < other.getObjectNodeID := by
  obtain ⟨last, reached⟩ := reachable_made (2 ^ 31 - 2)
  refine ⟨_, reached.trans (.of_runFrom (registerTwo_run _ last)), ?_⟩
  intro increase
  have less := List.rel_of_pairwise_cons increase (List.mem_singleton.mpr rfl)
  have wraps : ¬ int32 (2 ^ 31 - 2 + 1) < int32 (2 ^ 31 - 2 + 2) := by decide +kernel
  exact wraps less

end NodeManagement
