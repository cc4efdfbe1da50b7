import NodeManagement.ThreadSafeQueue

/-!
The shape shared by the four consumer loops (`handleReceivedData`, `handleSendData`,
`handleTxThread`, `handleRxThread`) and by the `start` and `stop` of the two modules that own
them: pop with the return code ignored, leave if the module stopped, otherwise work.
-/

namespace NodeManagement

inductive LoopPc
  | absent
  | waiting
  | checking
  | working
  | ended
deriving DecidableEq

/-- `item` is the variable that the loop passes to `waitAndPop`.  The ghost flag `popped` says
that the last `waitAndPop` delivered it and the loop has not worked on it yet. -/
structure ConsumerThread (α : Type) where
  pc : LoopPc
  item : α
  popped : Bool
deriving DecidableEq

namespace ConsumerThread

variable {α : Type}

def spawn (item : α) : ConsumerThread α := ⟨.waiting, item, false⟩

def absent (item : α) : ConsumerThread α := ⟨.absent, item, false⟩

def live (thread : ConsumerThread α) : Bool :=
  match thread.pc with
  | .waiting | .checking | .working => true
  | _ => false

def pop (thread : ConsumerThread α) (q : ThreadSafeQueue α) :
    Option (ConsumerThread α × ThreadSafeQueue α) :=
  if thread.pc = .waiting then
    (q.waitAndPop thread.item).map fun (code, item, rest) =>
      ({ pc := .checking, item := item, popped := code == 0 }, rest)
  else none

def check (thread : ConsumerThread α) (running : Bool) : Option (ConsumerThread α) :=
  if thread.pc = .checking then
    some { thread with pc := if running then .working else .ended }
  else none

def finish (thread : ConsumerThread α) (item : α) : ConsumerThread α :=
  { thread with pc := .waiting, item := item, popped := false }

def held (thread : ConsumerThread α) : List α :=
  if thread.live && thread.popped then [thread.item] else []

end ConsumerThread

namespace ConsumerThread

variable {α : Type} {thread after : ConsumerThread α}

theorem pop_cases {q rest : ThreadSafeQueue α} (popped : thread.pop q = some (after, rest)) :
    thread.pc = .waiting ∧
      (q.running = false ∧ after = ⟨.checking, thread.item, false⟩ ∧ rest = q ∨
        q.running = true ∧ ∃ front others, q.queue = front :: others ∧
          after = ⟨.checking, front, true⟩ ∧ rest = { q with queue := others }) := by
  simp only [pop, Option.ite_none_right_eq_some] at popped
  obtain ⟨waiting, popped⟩ := popped
  refine ⟨waiting, ?_⟩
  obtain ⟨⟨code, item, left⟩, returned, same⟩ := Option.map_eq_some_iff.mp popped
  simp only [Prod.mk.injEq] at same
  obtain ⟨rfl, rfl⟩ := same
  rcases ThreadSafeQueue.waitAndPop_cases returned with
    ⟨stopped, rfl, rfl, rfl⟩ | ⟨running, rfl, others, front, rfl⟩
  · exact .inl ⟨stopped, rfl, rfl⟩
  · exact .inr ⟨running, item, others, front, rfl, rfl⟩

theorem pop_running {q rest : ThreadSafeQueue α} (popped : thread.pop q = some (after, rest)) :
    rest.running = q.running := by
  obtain ⟨_, ⟨_, _, rfl⟩ | ⟨_, front, others, _, _, rfl⟩⟩ := pop_cases popped <;> rfl

theorem check_cases {running : Bool} (checked : thread.check running = some after) :
    thread.pc = .checking ∧ after = { thread with pc := if running then .working else .ended } := by
  simp only [check, Option.ite_none_right_eq_some, Option.some.injEq] at checked
  exact ⟨checked.1, checked.2.symm⟩

theorem live_of_check {running : Bool} (checked : thread.check running = some after) :
    thread.live = true := by
  simp [live, (check_cases checked).1]

theorem held_of_not_live (gone : thread.live = false) : thread.held = [] := by
  simp [held, gone]

theorem check_held {running : Bool} (checked : thread.check running = some after) :
    after.held = if running then thread.held else [] := by
  obtain ⟨checking, rfl⟩ := check_cases checked
  cases running <;> simp [held, live, checking]

@[simp] theorem finish_held (item : α) : (thread.finish item).held = [] := by
  simp [held, finish]

@[simp] theorem spawn_held (item : α) : (spawn item).held = [] := by simp [held, spawn]

end ConsumerThread

inductive ModulePhase
  | idle
  | startFirstQueue
  | startSecondQueue
  | spawnFirst
  | spawnSecond
  | stopFirstQueue
  | stopSecondQueue
  | joinFirst
  | joinSecond
deriving DecidableEq

namespace ModulePhase

def starting : ModulePhase → Bool
  | startFirstQueue | startSecondQueue | spawnFirst | spawnSecond => true
  | _ => false

def stopping : ModulePhase → Bool
  | stopFirstQueue | stopSecondQueue | joinFirst | joinSecond => true
  | _ => false

def next : ModulePhase → ModulePhase
  | idle => idle
  | startFirstQueue => startSecondQueue
  | startSecondQueue => spawnFirst
  | spawnFirst => spawnSecond
  | spawnSecond => idle
  | stopFirstQueue => stopSecondQueue
  | stopSecondQueue => joinFirst
  | joinFirst => joinSecond
  | joinSecond => idle

end ModulePhase

inductive Turn
  | first
  | second
deriving DecidableEq

namespace Turn

def openIn : Turn → ModulePhase → Bool
  | _, .spawnFirst | _, .spawnSecond => true
  | first, .startSecondQueue => true
  | _, _ => false

def awayIn : Turn → ModulePhase → Bool
  | _, .startFirstQueue | _, .startSecondQueue | _, .spawnFirst => true
  | second, .spawnSecond => true
  | first, .joinSecond => true
  | _, _ => false

def startsQueueIn : Turn → ModulePhase → Bool
  | first, .startFirstQueue => true
  | second, .startSecondQueue => true
  | _, _ => false

def spawnsIn : Turn → ModulePhase → Bool
  | first, .spawnFirst => true
  | second, .spawnSecond => true
  | _, _ => false

def joinsIn : Turn → ModulePhase → Bool
  | first, .joinFirst => true
  | second, .joinSecond => true
  | _, _ => false

end Turn

/-- The handshake between a module and one of its consumer threads.  It is what makes the
ignored return code of `waitAndPop` harmless: a loop that goes on holds a fresh item. -/
structure Handshake {α : Type} (queueTurn threadTurn : Turn) (phase : ModulePhase)
    (running queueRunning : Bool) (thread : ConsumerThread α) : Prop where
  starting : phase.starting = true → running = true
  stopping : phase.stopping = true → running = false
  away : threadTurn.awayIn phase = true ∨ (phase = .idle ∧ running = false) →
    thread.live = false
  opened : queueTurn.openIn phase = true ∨ (phase = .idle ∧ running = true) →
    queueRunning = true
  stale : thread.pc = .checking → thread.popped = false → running = false
  fresh : thread.pc = .working → thread.popped = true
  rested : thread.pc = .waiting → thread.popped = false

namespace Handshake

variable {α : Type} {queueTurn threadTurn : Turn} {phase : ModulePhase}
  {running queueRunning : Bool} {thread : ConsumerThread α} {q : ThreadSafeQueue α}

theorem absent (item : α) :
    Handshake queueTurn threadTurn .idle false queueRunning (ConsumerThread.absent item) :=
  ⟨by simp [ModulePhase.starting], by simp, by simp [ConsumerThread.live, ConsumerThread.absent],
    by cases queueTurn <;> simp [Turn.openIn], by simp, by simp [ConsumerThread.absent],
    by simp [ConsumerThread.absent]⟩

theorem queue_open (agrees : Handshake queueTurn threadTurn phase running queueRunning thread)
    (live : thread.live = true) (runs : running = true) : queueRunning = true := by
  have notAway : threadTurn.awayIn phase = false := by
    cases away : threadTurn.awayIn phase with
    | false => rfl
    | true => simp [agrees.away (.inl away)] at live
  have notStopping : phase.stopping = false := by
    cases stopping : phase.stopping with
    | false => rfl
    | true => simp [agrees.stopping stopping] at runs
  apply agrees.opened
  cases phase <;> cases queueTurn <;>
    simp_all [Turn.awayIn, Turn.openIn, ModulePhase.stopping]

theorem pop_agrees (agrees : Handshake queueTurn threadTurn phase running q.running thread)
    {after : ConsumerThread α} {rest : ThreadSafeQueue α}
    (popped : thread.pop q = some (after, rest)) :
    Handshake queueTurn threadTurn phase running rest.running after := by
  obtain ⟨waiting, taken⟩ := ConsumerThread.pop_cases popped
  have live : thread.live = true := by simp [ConsumerThread.live, waiting]
  have present : ¬(threadTurn.awayIn phase = true ∨ (phase = .idle ∧ running = false)) := by
    intro away
    simp [agrees.away away] at live
  obtain ⟨stopped, rfl, rfl⟩ | ⟨_, front, others, _, rfl, rfl⟩ := taken
  · refine ⟨agrees.starting, agrees.stopping, fun away => absurd away present,
      agrees.opened, ?_, by simp, by simp⟩
    intro _ _
    cases runs : running with
    | false => rfl
    | true => simp [agrees.queue_open live runs] at stopped
  · exact ⟨agrees.starting, agrees.stopping, fun away => absurd away present,
      agrees.opened, by simp, by simp, by simp⟩

theorem check_agrees (agrees : Handshake queueTurn threadTurn phase running queueRunning thread)
    {after : ConsumerThread α} (checked : thread.check running = some after) :
    Handshake queueTurn threadTurn phase running queueRunning after := by
  obtain ⟨checking, rfl⟩ := ConsumerThread.check_cases checked
  have live : thread.live = true := ConsumerThread.live_of_check checked
  refine ⟨agrees.starting, agrees.stopping, ?_, agrees.opened, ?_, ?_, ?_⟩
  · intro away
    simp [agrees.away away] at live
  · cases running <;> simp
  · intro working
    cases runs : running with
    | false => simp [runs] at working
    | true =>
        cases popped : thread.popped with
        | true => rfl
        | false => simp [agrees.stale checking popped] at runs
  · cases running <;> simp

theorem finish_agrees (agrees : Handshake queueTurn threadTurn phase running queueRunning thread)
    (working : thread.pc = .working) (item : α) :
    Handshake queueTurn threadTurn phase running queueRunning (thread.finish item) := by
  have live : thread.live = true := by simp [ConsumerThread.live, working]
  refine ⟨agrees.starting, agrees.stopping, ?_, agrees.opened, ?_, ?_, fun _ => rfl⟩
  · intro away
    simp [agrees.away away] at live
  · simp [ConsumerThread.finish]
  · simp [ConsumerThread.finish]

theorem start_agrees (agrees : Handshake queueTurn threadTurn .idle false queueRunning thread) :
    Handshake queueTurn threadTurn .startFirstQueue true queueRunning thread := by
  have gone : thread.live = false := agrees.away (.inr ⟨rfl, rfl⟩)
  refine ⟨fun _ => rfl, by simp [ModulePhase.stopping], fun _ => gone, ?_, ?_, agrees.fresh,
    agrees.rested⟩
  · cases queueTurn <;> simp [Turn.openIn]
  · intro checking
    simp [ConsumerThread.live, checking] at gone

theorem stop_agrees (agrees : Handshake queueTurn threadTurn .idle true queueRunning thread) :
    Handshake queueTurn threadTurn .stopFirstQueue false queueRunning thread := by
  refine ⟨by simp [ModulePhase.starting], fun _ => rfl, ?_, ?_, fun _ _ => rfl, agrees.fresh,
    agrees.rested⟩
  · cases threadTurn <;> simp [Turn.awayIn]
  · cases queueTurn <;> simp [Turn.openIn]

theorem proceed_agrees (agrees : Handshake queueTurn threadTurn phase running queueRunning thread)
    (busy : phase ≠ .idle) {queueAfter : Bool} {after : ConsumerThread α} (item : α)
    (starts : queueTurn.startsQueueIn phase = true → queueAfter = true)
    (keeps : phase.starting = true → queueRunning = true → queueAfter = true)
    (spawns : after = if threadTurn.spawnsIn phase then .spawn item else thread)
    (joins : threadTurn.joinsIn phase = true → thread.live = false) :
    Handshake queueTurn threadTurn phase.next running queueAfter after := by
  have quiet := agrees.away
  have open' := agrees.opened
  have starting := agrees.starting
  have stopping := agrees.stopping
  constructor
  case starting => cases phase <;> simp_all [ModulePhase.starting, ModulePhase.next]
  case stopping => cases phase <;> simp_all [ModulePhase.stopping, ModulePhase.next]
  case away =>
      cases phase <;> cases threadTurn <;>
        simp_all [Turn.awayIn, Turn.spawnsIn, Turn.joinsIn, ModulePhase.next,
          ModulePhase.starting, ModulePhase.stopping]
  case opened =>
      cases phase <;> cases queueTurn <;>
        simp_all [Turn.openIn, Turn.startsQueueIn, ModulePhase.next, ModulePhase.starting,
          ModulePhase.stopping]
  case stale =>
      intro checking stale
      cases spawning : threadTurn.spawnsIn phase with
      | true => simp [spawns, spawning, ConsumerThread.spawn] at checking
      | false =>
          simp only [spawns, spawning, Bool.false_eq_true, if_false] at checking stale
          exact agrees.stale checking stale
  case fresh =>
      intro working
      cases spawning : threadTurn.spawnsIn phase with
      | true => simp [spawns, spawning, ConsumerThread.spawn] at working
      | false =>
          simp only [spawns, spawning, Bool.false_eq_true, if_false] at working ⊢
          exact agrees.fresh working
  case rested =>
      intro waiting
      cases spawning : threadTurn.spawnsIn phase with
      | true => simp [spawns, spawning, ConsumerThread.spawn]
      | false =>
          simp only [spawns, spawning, Bool.false_eq_true, if_false] at waiting ⊢
          exact agrees.rested waiting

theorem pop_held (agrees : Handshake queueTurn threadTurn phase running q.running thread)
    {after : ConsumerThread α} {rest : ThreadSafeQueue α}
    (popped : thread.pop q = some (after, rest)) :
    after.held ++ rest.queue = thread.held ++ q.queue := by
  obtain ⟨waiting, taken⟩ := ConsumerThread.pop_cases popped
  have none : thread.held = [] := by simp [ConsumerThread.held, agrees.rested waiting]
  rw [none]
  obtain ⟨_, rfl, rfl⟩ | ⟨_, front, others, first, rfl, rfl⟩ := taken
  · simp [ConsumerThread.held]
  · simp [ConsumerThread.held, ConsumerThread.live, first]

end Handshake

end NodeManagement
