import NodeManagement.ConsumerThread

/-!
A queue together with the one thread that consumes it, as the four queues of the program are
used: the moves of the two, and what each does to the items on their way to the thread.
-/

namespace NodeManagement

structure Consumer (α : Type) where
  queue : ThreadSafeQueue α
  thread : ConsumerThread α
deriving DecidableEq

/-- At which turn the `start` of the owning module starts the queue, its `stop` stops it, and
both spawn and join the thread. -/
structure Role where
  starts : Turn
  stops : Turn
  thread : Turn

def Turn.stopsQueueIn : Turn → ModulePhase → Bool
  | .first, .stopFirstQueue => true
  | .second, .stopSecondQueue => true
  | _, _ => false

theorem ModulePhase.next_calm {phase : ModulePhase} (calm : phase.stopping = false) :
    phase.next.stopping = false := by
  cases phase <;> simp_all [ModulePhase.stopping, ModulePhase.next]

namespace Consumer

variable {α : Type}

def create (item : α) : Consumer α := ⟨.create, .absent item⟩

def push (consumer : Consumer α) (value : α) : Consumer α :=
  { consumer with queue := consumer.queue.push value true }

def pop (consumer : Consumer α) : Option (Consumer α) :=
  (consumer.thread.pop consumer.queue).map fun (thread, rest) => ⟨rest, thread⟩

def check (consumer : Consumer α) (running : Bool) : Option (Consumer α) :=
  (consumer.thread.check running).map fun thread => { consumer with thread := thread }

def finish (consumer : Consumer α) (item : α) : Consumer α :=
  { consumer with thread := consumer.thread.finish item }

/-- What the next statement of the owning module's `start` or `stop` does here; a join waits
until the thread has ended. -/
def proceed (consumer : Consumer α) (role : Role) (phase : ModulePhase) (item : α) :
    Option (Consumer α) :=
  if role.thread.joinsIn phase && consumer.thread.live then none
  else some {
    queue :=
      if role.starts.startsQueueIn phase then consumer.queue.start
      else if role.stops.stopsQueueIn phase then consumer.queue.stop
      else consumer.queue
    thread := if role.thread.spawnsIn phase then .spawn item else consumer.thread }

def items (consumer : Consumer α) : List α := consumer.thread.held ++ consumer.queue.queue

def Agrees (consumer : Consumer α) (role : Role) (phase : ModulePhase) (running : Bool) : Prop :=
  Handshake role.starts role.thread phase running consumer.queue.running consumer.thread

@[simp] theorem create_items (item : α) : (create item).items = [] := by
  simp [items, create, ConsumerThread.held, ConsumerThread.absent]

@[simp] theorem push_thread (consumer : Consumer α) (value : α) :
    (consumer.push value).thread = consumer.thread := rfl

theorem push_queue (consumer : Consumer α) (value : α) :
    (consumer.push value).queue.queue =
      if !consumer.queue.running then consumer.queue.queue
      else if consumer.queue.isFull then consumer.queue.queue.tail ++ [value]
      else consumer.queue.queue ++ [value] := by
  unfold push ThreadSafeQueue.push
  split
  · rfl
  · split <;> rfl

def accepts (consumer : Consumer α) : Bool := consumer.queue.running && !consumer.queue.isFull

structure PushEffect (accepted : Bool) (before : List α) (value : α) (after : List α) : Prop where
  sublist : after.Sublist (before ++ [value])
  length : after.length + (if accepted then 0 else 1) = before.length + 1

theorem PushEffect.eq_of_accepted {before after : List α} {value : α}
    (effect : PushEffect true before value after) : after = before ++ [value] := by
  apply effect.sublist.eq_of_length_le
  have length := effect.length
  simp only [if_true, List.length_append, List.length_singleton] at length ⊢
  omega

theorem push_queue_effect (consumer : Consumer α) (value : α) :
    PushEffect consumer.accepts consumer.queue.queue value (consumer.push value).queue.queue := by
  rw [push_queue, accepts]
  cases running : consumer.queue.running with
  | false => exact ⟨List.sublist_append_left _ _, by simp⟩
  | true =>
      cases full : consumer.queue.isFull with
      | false => exact ⟨List.Sublist.refl _, by simp⟩
      | true =>
          refine ⟨(List.tail_sublist _).append_right _, ?_⟩
          have some_ : maxSafeQueue ≤ consumer.queue.queue.length := by
            simpa [ThreadSafeQueue.isFull] using full
          have positive : 0 < maxSafeQueue := by decide
          simp
          omega

theorem push_items_effect (consumer : Consumer α) (value : α) :
    PushEffect consumer.accepts consumer.items value (consumer.push value).items := by
  have effect := push_queue_effect consumer value
  simp only [items, push_thread]
  constructor
  · rw [List.append_assoc]
    exact effect.sublist.append_left _
  · have length := effect.length
    simp only [List.length_append]
    omega

variable {consumer after : Consumer α} {role : Role} {phase : ModulePhase} {running : Bool}

theorem create_agrees (item : α) : (create item).Agrees role .idle false :=
  Handshake.absent item

theorem push_agrees (agrees : consumer.Agrees role phase running) (value : α) :
    (consumer.push value).Agrees role phase running := by
  simpa [Agrees, push] using agrees

theorem pop_agrees (agrees : consumer.Agrees role phase running)
    (popped : consumer.pop = some after) : after.Agrees role phase running := by
  obtain ⟨⟨thread, rest⟩, taken, rfl⟩ := Option.map_eq_some_iff.mp popped
  exact Handshake.pop_agrees agrees taken

theorem check_agrees (agrees : consumer.Agrees role phase running)
    (checked : consumer.check running = some after) : after.Agrees role phase running := by
  obtain ⟨thread, taken, rfl⟩ := Option.map_eq_some_iff.mp checked
  exact Handshake.check_agrees agrees taken

theorem finish_agrees (agrees : consumer.Agrees role phase running)
    (working : consumer.thread.pc = .working) (item : α) :
    (consumer.finish item).Agrees role phase running :=
  Handshake.finish_agrees agrees working item

theorem start_agrees (agrees : consumer.Agrees role .idle false) :
    consumer.Agrees role .startFirstQueue true :=
  Handshake.start_agrees agrees

theorem stop_agrees (agrees : consumer.Agrees role .idle true) :
    consumer.Agrees role .stopFirstQueue false :=
  Handshake.stop_agrees agrees

theorem proceed_cases {item : α} (taken : consumer.proceed role phase item = some after) :
    (role.thread.joinsIn phase = true → consumer.thread.live = false) ∧
      after.queue.queue = consumer.queue.queue ∧
      after.queue.running =
        (if role.starts.startsQueueIn phase then true
          else if role.stops.stopsQueueIn phase then false else consumer.queue.running) ∧
      after.thread =
        if role.thread.spawnsIn phase then .spawn item else consumer.thread := by
  unfold proceed at taken
  split at taken
  next => simp at taken
  next free =>
    simp only [Option.some.injEq] at taken
    subst taken
    refine ⟨by simpa using free, ?_, ?_, rfl⟩
    · dsimp only
      split
      · simp
      · split <;> simp
    · dsimp only
      split
      · simp
      · split <;> simp

theorem proceed_agrees (agrees : consumer.Agrees role phase running) (busy : phase ≠ .idle)
    {item : α} (taken : consumer.proceed role phase item = some after) :
    after.Agrees role phase.next running := by
  obtain ⟨joins, _, queue, thread⟩ := proceed_cases taken
  apply Handshake.proceed_agrees agrees busy item _ _ thread joins
  · intro starts
    simp [queue, starts]
  · intro starting runs
    have keeps : role.stops.stopsQueueIn phase = false := by
      cases phase <;> cases role.stops <;> simp_all [ModulePhase.starting, Turn.stopsQueueIn]
    simp [queue, keeps, runs]

theorem pop_items (agrees : consumer.Agrees role phase running)
    (popped : consumer.pop = some after) : after.items = consumer.items := by
  obtain ⟨⟨thread, rest⟩, taken, rfl⟩ := Option.map_eq_some_iff.mp popped
  exact Handshake.pop_held agrees taken

theorem check_items (checked : consumer.check running = some after) :
    after.items = if running then consumer.items else consumer.queue.queue := by
  obtain ⟨thread, taken, rfl⟩ := Option.map_eq_some_iff.mp checked
  simp only [items, ConsumerThread.check_held taken]
  split <;> rfl

theorem check_items_sublist (checked : consumer.check running = some after) :
    after.items.Sublist consumer.items := by
  rw [check_items checked]
  split
  · exact List.Sublist.refl _
  · exact List.sublist_append_right _ _

theorem items_of_working (agrees : consumer.Agrees role phase running)
    (working : consumer.thread.pc = .working) :
    consumer.items = consumer.thread.item :: consumer.queue.queue := by
  simp [items, ConsumerThread.held, ConsumerThread.live, working,
    Handshake.fresh agrees working]

@[simp] theorem finish_items (consumer : Consumer α) (item : α) :
    (consumer.finish item).items = consumer.queue.queue := by
  simp [items, finish]

theorem proceed_items (agrees : consumer.Agrees role phase running) {item : α}
    (taken : consumer.proceed role phase item = some after) :
    after.items = consumer.items := by
  obtain ⟨_, queue, _, thread⟩ := proceed_cases taken
  rw [items, items, queue, thread]
  split
  next spawns =>
    have away : role.thread.awayIn phase = true := by
      cases phase <;> cases turn : role.thread <;> simp_all [Turn.spawnsIn, Turn.awayIn]
    rw [ConsumerThread.spawn_held,
      ConsumerThread.held_of_not_live (Handshake.away agrees (.inl away))]
  next => rfl

theorem running_of_live (agrees : consumer.Agrees role phase running)
    (undisturbed : phase.stopping = false) (live : consumer.thread.live = true) :
    running = true := by
  cases runs : running with
  | true => rfl
  | false =>
      subst runs
      have idle : phase = .idle := by
        have notStarting := Handshake.starting agrees
        cases phase <;> simp_all [ModulePhase.starting, ModulePhase.stopping]
      simp [Handshake.away agrees (.inr ⟨idle, rfl⟩)] at live

@[simp] theorem push_queue_running (value : α) :
    (consumer.push value).queue.running = consumer.queue.running := by
  simp [push]

theorem pop_running (popped : consumer.pop = some after) :
    after.queue.running = consumer.queue.running := by
  obtain ⟨⟨thread, rest⟩, taken, rfl⟩ := Option.map_eq_some_iff.mp popped
  exact ConsumerThread.pop_running taken

theorem check_running {running : Bool} (checked : consumer.check running = some after) :
    after.queue.running = consumer.queue.running := by
  obtain ⟨thread, _, rfl⟩ := Option.map_eq_some_iff.mp checked
  rfl

theorem proceed_running {role : Role} {phase : ModulePhase} {item : α}
    (calm : phase.stopping = false) (runs : consumer.queue.running = true)
    (taken : consumer.proceed role phase item = some after) : after.queue.running = true := by
  obtain ⟨_, _, running, _⟩ := proceed_cases taken
  have kept : role.stops.stopsQueueIn phase = false := by
    cases phase <;> cases role.stops <;> simp_all [ModulePhase.stopping, Turn.stopsQueueIn]
  rw [running, kept, runs]
  simp

end Consumer

end NodeManagement
