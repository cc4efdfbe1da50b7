import NodeManagement.ThreadSafeQueue
import NodeManagement.Library.BoundedFifo

/-!
`ThreadSafeQueue` as a bounded queue: every sequence of calls gives the results of the abstract
queue and acts on the contents as it does, with a history that tells what became of each
accepted element.
-/

namespace NodeManagement

open BoundedFifo

inductive QueueCall (α : Type)
  | push (value : α) (bForce : Bool)
  | peek (value : α)
  | pop
  | resetQueue
  | tryPop (value : α)
  | getSize
  | waitAndPop (value : α)
  | stop
  | start

inductive QueueResult (α : Type)
  | done
  | peeked (found : Bool) (value : α)
  | popped (removed : Bool)
  | tried (removed : Bool) (value : α)
  | size (size : Int)
  | waited (code : Int) (value : α)
deriving DecidableEq

def QueueResult.handed {α : Type} : QueueResult α → Option α
  | tried true value => some value
  | waited code value => if code = 0 then some value else none
  | _ => none

namespace ThreadSafeQueue

variable {α : Type}

def perform (q : ThreadSafeQueue α) : QueueCall α → Option (QueueResult α × ThreadSafeQueue α)
  | .push value bForce => some (.done, q.push value bForce)
  | .peek value => some (.peeked (q.peek value).1 (q.peek value).2, q)
  | .pop => some (.popped q.pop.1, q.pop.2)
  | .resetQueue => some (.done, q.resetQueue)
  | .tryPop value => some (.tried (q.tryPop value).1 (q.tryPop value).2.1, (q.tryPop value).2.2)
  | .getSize => some (.size q.getSize, q)
  | .waitAndPop value =>
      (q.waitAndPop value).map fun (code, delivered, after) => (.waited code delivered, after)
  | .stop => some (.done, q.stop)
  | .start => some (.done, q.start)

def performAll (q : ThreadSafeQueue α) :
    List (QueueCall α) → Option (List (QueueResult α) × ThreadSafeQueue α)
  | [] => some ([], q)
  | call :: rest =>
      (q.perform call).bind fun (result, next) =>
        (next.performAll rest).map fun (results, after) => (result :: results, after)

end ThreadSafeQueue

namespace QueueCall

variable {α : Type}

def takes : QueueCall α → Bool
  | pop | tryPop _ | waitAndPop _ => true
  | _ => false

def specify (history : State α) : QueueCall α → State α
  | push value bForce => history.offer maxSafeQueue value bForce
  | pop | tryPop _ | waitAndPop _ => history.take
  | resetQueue => history.flush
  | stop => history.setOpened false
  | start => history.setOpened true
  | peek _ | getSize => history

/-- What the abstract queue returns; a closed queue ends a wait, an open one serves its oldest
element, and a caller finds its variable unchanged where there is nothing to read. -/
def returns (history : State α) : QueueCall α → Option (QueueResult α)
  | push _ _ | resetQueue | stop | start => some .done
  | peek value => some (.peeked history.contents.head?.isSome (history.contents.head?.getD value))
  | pop => some (.popped history.next.isSome)
  | tryPop value => some (.tried history.next.isSome (history.next.getD value))
  | getSize => some (.size history.contents.length)
  | waitAndPop value =>
      if history.opened then history.next.map (.waited 0) else some (.waited (-1) value)

def specifyAll (history : State α) :
    List (QueueCall α) → Option (List (QueueResult α) × State α)
  | [] => some ([], history)
  | call :: rest =>
      (call.returns history).bind fun result =>
        (specifyAll (call.specify history) rest).map fun (results, after) =>
          (result :: results, after)

theorem specify_accounted {history : State α} (accounted : history.Accounted maxSafeQueue)
    (call : QueueCall α) : (call.specify history).Accounted maxSafeQueue := by
  cases call with
  | push value bForce => exact accounted.offer (by decide) value bForce
  | pop | tryPop | waitAndPop => exact accounted.take
  | resetQueue => exact accounted.flush
  | stop | start => exact accounted.setOpened _
  | peek | getSize => exact accounted

theorem handed_leaves {history : State α} {call : QueueCall α} {result : QueueResult α}
    (returned : call.returns history = some result) :
    (history.leavers ++ result.handed.toList).Sublist (call.specify history).leavers := by
  cases call with
  | push value bForce =>
      obtain rfl := Option.some.inj returned
      exact (List.append_nil _).symm ▸ (history.leavers_offer _ value bForce).sublist
  | resetQueue =>
      obtain rfl := Option.some.inj returned
      exact (List.append_nil _).symm ▸ history.leavers_flush.sublist
  | pop =>
      obtain rfl := Option.some.inj returned
      simp [QueueResult.handed, specify, State.take_leavers]
  | tryPop value =>
      obtain rfl := Option.some.inj returned
      cases next : history.next <;>
        simp [QueueResult.handed, specify, State.take_leavers, next]
  | waitAndPop value =>
      simp only [returns] at returned
      split at returned
      · obtain ⟨front, next, rfl⟩ := Option.map_eq_some_iff.mp returned
        simp [QueueResult.handed, specify, State.take_leavers, next]
      · obtain rfl := Option.some.inj returned
        simp [QueueResult.handed, specify, State.take_leavers]
  | peek | getSize | stop | start =>
      obtain rfl := Option.some.inj returned
      exact (List.append_nil _).symm ▸ List.Sublist.refl _

theorem specifyAll_accounts {history : State α} (accounted : history.Accounted maxSafeQueue)
    (calls : List (QueueCall α)) :
    ∀ results after, specifyAll history calls = some (results, after) →
      after.Accounted maxSafeQueue ∧
        (history.leavers ++ results.filterMap QueueResult.handed).Sublist after.leavers := by
  induction calls generalizing history with
  | nil =>
      intro results after ran
      obtain ⟨rfl, rfl⟩ := Prod.mk.inj (Option.some.inj ran)
      simp [accounted]
  | cons call rest ih =>
      intro results after ran
      obtain ⟨result, returned, ran⟩ := Option.bind_eq_some_iff.mp ran
      obtain ⟨⟨others, last⟩, continued, same⟩ := Option.map_eq_some_iff.mp ran
      obtain ⟨rfl, rfl⟩ := Prod.mk.inj same
      obtain ⟨bounded, handed⟩ := ih (specify_accounted accounted call) others last continued
      have first := (handed_leaves returned).append_right (others.filterMap QueueResult.handed)
      refine ⟨bounded, ?_⟩
      cases handing : result.handed with
      | none => exact (by simpa [handing] using first : List.Sublist _ _).trans handed
      | some value => exact (by simpa [handing] using first : List.Sublist _ _).trans handed

end QueueCall

namespace ThreadSafeQueue

variable {α : Type} {q after : ThreadSafeQueue α}

def Refines (q : ThreadSafeQueue α) (history : State α) : Prop :=
  history.contents = q.queue ∧ history.opened = q.running

theorem push_contents (q : ThreadSafeQueue α) (value : α) (bForce : Bool) :
    (q.push value bForce).queue =
      if !q.running then q.queue
      else if maxSafeQueue ≤ q.queue.length then
        if bForce then q.queue.tail ++ [value] else q.queue
      else q.queue ++ [value] := by
  simp only [push, isFull, decide_eq_true_eq]
  split
  · rfl
  · split
    · split <;> rfl
    · rfl

theorem push_refused (full : q.isFull = true) (value : α) : q.push value false = q := by
  simp [push, full]

theorem peek_eq (q : ThreadSafeQueue α) (value : α) :
    q.peek value = (q.queue.head?.isSome, q.queue.head?.getD value) := by
  unfold peek
  split <;> simp_all

theorem serves {front : α} {rest : List α} (running : q.running = true)
    (contents : q.queue = front :: rest) :
    q.pop = (true, { q with queue := rest }) ∧ ∀ value : α,
      q.tryPop value = (true, front, { q with queue := rest }) ∧
        q.waitAndPop value = some (0, front, { q with queue := rest }) := by
  simp [pop, tryPop, waitAndPop, running, contents]

theorem serves_nothing (running : q.running = true) (empty : q.queue = []) :
    q.pop = (false, q) ∧ ∀ value : α,
      q.tryPop value = (false, value, q) ∧ q.waitAndPop value = none := by
  simp [pop, tryPop, waitAndPop, running, empty]

theorem refuses (stopped : q.running = false) :
    q.pop = (false, q) ∧ ∀ value : α,
      q.tryPop value = (false, value, q) ∧ q.waitAndPop value = some (-1, value, q) := by
  simp [pop, tryPop, waitAndPop, stopped]

theorem tryPop_pop (q : ThreadSafeQueue α) (value : α) :
    (q.tryPop value).1 = q.pop.1 ∧ (q.tryPop value).2.2 = q.pop.2 := by
  unfold tryPop pop
  cases running : q.running with
  | false => simp
  | true => cases elements : q.queue <;> simp

theorem pop_cases (q : ThreadSafeQueue α) :
    q.pop.2 = q ∨ ∃ front, q.queue = front :: q.pop.2.queue := by
  cases running : q.running with
  | false => exact .inl (by rw [(refuses running).1])
  | true =>
      cases elements : q.queue with
      | nil => exact .inl (by rw [(serves_nothing running elements).1])
      | cons front rest => exact .inr ⟨front, by rw [(serves running elements).1]⟩

theorem Refines.push {history : State α} (refines : q.Refines history) (value : α)
    (bForce : Bool) : (q.push value bForce).Refines (history.offer maxSafeQueue value bForce) := by
  obtain ⟨contents, opened⟩ := refines
  refine ⟨?_, by simp [opened]⟩
  rw [State.offer_contents, push_contents, contents, opened]

theorem Refines.pop {history : State α} (refines : q.Refines history) :
    q.pop.1 = history.next.isSome ∧ q.pop.2.Refines history.take := by
  obtain ⟨contents, opened⟩ := refines
  refine (?_ : _ ∧ _ ∧ _)
  rw [State.take_contents, State.take_opened, State.next, contents, opened]
  cases running : q.running with
  | false => simp [(refuses running).1, running]
  | true =>
      cases elements : q.queue with
      | nil => simp [(serves_nothing running elements).1, elements, running]
      | cons front rest => simp [(serves running elements).1, running]

theorem Refines.tryPop {history : State α} (refines : q.Refines history) (value : α) :
    (q.tryPop value).1 = history.next.isSome ∧ (q.tryPop value).2.1 = history.next.getD value ∧
      (q.tryPop value).2.2.Refines history.take := by
  obtain ⟨removed, taken⟩ := refines.pop
  obtain ⟨sameFlag, sameQueue⟩ := q.tryPop_pop value
  refine ⟨sameFlag.trans removed, ?_, sameQueue ▸ taken⟩
  rw [State.next, refines.1, refines.2]
  cases running : q.running with
  | false => simp [((refuses running).2 value).1]
  | true =>
      cases elements : q.queue with
      | nil => simp [((serves_nothing running elements).2 value).1]
      | cons front rest => simp [((serves running elements).2 value).1]

theorem Refines.waitAndPop {history : State α} (refines : q.Refines history) (value : α) :
    Option.Rel (fun concrete result => concrete.1 = result ∧ concrete.2.Refines history.take)
      (q.perform (.waitAndPop value)) (QueueCall.returns history (.waitAndPop value)) := by
  obtain ⟨contents, opened⟩ := refines
  simp only [perform, QueueCall.returns, State.next, Refines, State.take_contents,
    State.take_opened, contents, opened]
  cases running : q.running with
  | false =>
      rw [((refuses running).2 value).2]
      exact .some (by simp [running])
  | true =>
      cases elements : q.queue with
      | nil =>
          rw [((serves_nothing running elements).2 value).2]
          exact .none
      | cons front rest =>
          rw [((serves running elements).2 value).2]
          exact .some (by simp [running])

/-- The simulation: a call waits exactly when the abstract queue has nothing to return, and a
call that returns has its result and acts on the contents as it does. -/
theorem perform_refines {history : State α} (refines : q.Refines history) (call : QueueCall α) :
    Option.Rel (fun concrete result => concrete.1 = result ∧
        concrete.2.Refines (call.specify history)) (q.perform call) (call.returns history) := by
  cases call with
  | push value bForce => exact .some ⟨rfl, refines.push value bForce⟩
  | peek value => exact .some ⟨by rw [peek_eq, refines.1], refines⟩
  | getSize => exact .some ⟨by rw [refines.1, getSize], refines⟩
  | pop =>
      obtain ⟨removed, taken⟩ := refines.pop
      exact .some ⟨by rw [removed], taken⟩
  | tryPop value =>
      obtain ⟨removed, read, taken⟩ := refines.tryPop value
      exact .some ⟨by rw [removed, read], taken⟩
  | waitAndPop value => exact refines.waitAndPop value
  | resetQueue => exact .some ⟨rfl, rfl, refines.2⟩
  | stop => exact .some ⟨rfl, refines.1.trans q.stop_queue.symm, q.stop_running.symm⟩
  | start => exact .some ⟨rfl, refines.1.trans q.start_queue.symm, q.start_running.symm⟩

theorem Refines.answers {history : State α} (refines : q.Refines history) (call : QueueCall α) :
    (q.perform call).map Prod.fst = call.returns history := by
  have related := perform_refines refines call
  revert related
  generalize q.perform call = concrete
  generalize call.returns history = result
  rintro (⟨same, _⟩ | _)
  · exact congrArg some same
  · rfl

theorem performAll_refines {history : State α} (refines : q.Refines history)
    (calls : List (QueueCall α)) :
    Option.Rel (fun concrete abstract => concrete.1 = abstract.1 ∧ concrete.2.Refines abstract.2)
      (q.performAll calls) (QueueCall.specifyAll history calls) := by
  induction calls generalizing q history with
  | nil => exact .some ⟨rfl, refines⟩
  | cons call rest ih =>
      have first := perform_refines refines call
      unfold performAll QueueCall.specifyAll
      revert first
      generalize q.perform call = concrete
      generalize call.returns history = result
      rintro (⟨rfl, next⟩ | _)
      · have others := ih next
        revert others
        rename_i concrete
        simp only [Option.bind_some]
        generalize concrete.2.performAll rest = concrete
        generalize QueueCall.specifyAll (call.specify history) rest = abstract
        rintro (⟨same, last⟩ | _)
        · exact .some ⟨congrArg _ same, last⟩
        · exact .none
      · exact .none

/-- What holds of a queue, the history of the calls made on it and the results they gave, and of
the next call.  `inOrder` and `handedOut` account for all elements; `answers` gives the result of
the next call and `leaves` says how it can remove an element. -/
structure Contract (results : List (QueueResult α)) (q : ThreadSafeQueue α) (history : State α) :
    Prop where
  contents : history.contents = q.queue
  opened : history.opened = q.running
  bounded : q.queue.length ≤ maxSafeQueue
  inOrder : history.leavers ++ q.queue = history.accepted
  handedOut : (results.filterMap QueueResult.handed).Sublist history.leavers
  answers : ∀ call : QueueCall α, (q.perform call).map Prod.fst = call.returns history
  served : ∀ front rest, q.running = true → q.queue = front :: rest →
    q.pop = (true, { q with queue := rest }) ∧ ∀ value,
      q.tryPop value = (true, front, { q with queue := rest }) ∧
        q.waitAndPop value = some (0, front, { q with queue := rest })
  unserved : q.running = true → q.queue = [] →
    q.pop = (false, q) ∧ ∀ value, q.tryPop value = (false, value, q) ∧ q.waitAndPop value = none
  closed : q.running = false → (∀ value bForce, q.push value bForce = q) ∧
    q.pop = (false, q) ∧ ∀ value,
      q.tryPop value = (false, value, q) ∧ q.waitAndPop value = some (-1, value, q)
  refused : ∀ value, q.isFull = true → q.push value false = q
  restarted : q.stop.start.queue = q.queue
  delivered : ∀ value delivered after, q.waitAndPop value = some (0, delivered, after) →
    q.queue = delivered :: after.queue
  leaves : ∀ call result after, q.perform call = some (result, after) → q.queue <+: after.queue ∨
    (call.takes = true ∧ ∃ front, q.queue = front :: after.queue) ∨ call = .resetQueue ∨
    ∃ value, call = .push value true ∧ q.isFull = true ∧ after.queue = q.queue.tail ++ [value]

theorem leaves_by {call : QueueCall α} {result : QueueResult α}
    (returned : q.perform call = some (result, after)) :
    q.queue <+: after.queue ∨ (call.takes = true ∧ ∃ front, q.queue = front :: after.queue) ∨
      call = .resetQueue ∨
      ∃ value, call = .push value true ∧ q.isFull = true ∧
        after.queue = q.queue.tail ++ [value] := by
  have popped : q.queue <+: q.pop.2.queue ∨ ∃ front, q.queue = front :: q.pop.2.queue := by
    rcases q.pop_cases with same | served
    · exact .inl (by rw [same])
    · exact .inr served
  cases call with
  | push value bForce =>
      obtain ⟨rfl, rfl⟩ := Prod.mk.inj (Option.some.inj returned)
      by_cases forced : q.running = true ∧ maxSafeQueue ≤ q.queue.length ∧ bForce = true
      · obtain ⟨running, full, rfl⟩ := forced
        refine .inr (.inr (.inr ⟨value, rfl, by simpa [isFull] using full, ?_⟩))
        simp [push_contents, running, full]
      · left
        rw [push_contents]
        split
        · exact List.prefix_refl _
        · split
          · split
            · simp_all
            · exact List.prefix_refl _
          · exact List.prefix_append _ _
  | pop =>
      obtain ⟨rfl, rfl⟩ := Prod.mk.inj (Option.some.inj returned)
      exact popped.imp_right fun front => .inl ⟨rfl, front⟩
  | tryPop value =>
      obtain ⟨rfl, rfl⟩ := Prod.mk.inj (Option.some.inj returned)
      rw [(q.tryPop_pop value).2]
      exact popped.imp_right fun front => .inl ⟨rfl, front⟩
  | waitAndPop value =>
      obtain ⟨⟨code, delivered, rest⟩, waited, taken⟩ := Option.map_eq_some_iff.mp returned
      obtain ⟨_, rfl⟩ := Prod.mk.inj taken
      rcases waitAndPop_cases waited with ⟨_, _, _, rfl⟩ | ⟨_, _, rest, elements, rfl⟩
      · exact .inl (List.prefix_refl _)
      · exact .inr (.inl ⟨rfl, delivered, elements⟩)
  | resetQueue => exact .inr (.inr (.inl rfl))
  | peek | getSize =>
      obtain ⟨_, rfl⟩ := Prod.mk.inj (Option.some.inj returned)
      exact .inl (List.prefix_refl _)
  | stop =>
      obtain ⟨_, rfl⟩ := Prod.mk.inj (Option.some.inj returned)
      simp
  | start =>
      obtain ⟨_, rfl⟩ := Prod.mk.inj (Option.some.inj returned)
      simp

theorem Refines.contract {history : State α} {results : List (QueueResult α)}
    (refines : q.Refines history) (accounted : history.Accounted maxSafeQueue)
    (handedOut : (results.filterMap QueueResult.handed).Sublist history.leavers) :
    q.Contract results history where
  contents := refines.1
  opened := refines.2
  bounded := refines.1 ▸ accounted.bounded
  inOrder := refines.1 ▸ accounted.inOrder
  handedOut := handedOut
  answers := refines.answers
  served := fun _ _ running contents => serves running contents
  unserved := serves_nothing
  closed := fun stopped => ⟨push_of_stopped stopped, refuses stopped⟩
  refused := fun value full => push_refused full value
  restarted := by simp
  delivered := fun value delivered after returned => by
    rcases waitAndPop_cases returned with ⟨_, code, _⟩ | ⟨_, _, rest, elements, rfl⟩
    · simp at code
    · exact elements
  leaves := fun _ _ _ returned => leaves_by returned

/-- For every sequence of calls on a new queue: the abstract queue waits where it waits, returns
what it returns, and the contract holds behind them. -/
theorem calls_contract (calls : List (QueueCall α)) :
    Option.Rel (fun concrete abstract => concrete.1 = abstract.1 ∧
        concrete.2.Contract concrete.1 abstract.2)
      (create.performAll calls) (QueueCall.specifyAll .empty calls) := by
  have fresh : (create : ThreadSafeQueue α).Refines .empty := ⟨rfl, rfl⟩
  have related := performAll_refines fresh calls
  have accounts := QueueCall.specifyAll_accounts (α := α) .empty calls
  revert related accounts
  generalize create.performAll calls = concrete
  generalize QueueCall.specifyAll .empty calls = abstract
  rintro (⟨same, refines⟩ | _) accounts
  · obtain ⟨accounted, handedOut⟩ := accounts _ _ rfl
    exact .some ⟨same, refines.contract accounted (by rw [same]; exact handedOut)⟩
  · exact .none

def callsWithRestart : List (QueueCall Nat) :=
  [.push 1 true, .push 2 false, .push 4 true, .peek 0, .tryPop 0, .stop, .push 3 true, .pop,
    .waitAndPop 7, .start, .getSize, .waitAndPop 0, .pop, .tryPop 8]

def resultsWithRestart : List (QueueResult Nat) :=
  [.done, .done, .done, .peeked true 1, .tried true 1, .done, .done, .popped false,
    .waited (-1) 7, .done, .size 2, .waited 0 2, .popped true, .tried false 8]

theorem calls_contract_restart :
    create.performAll callsWithRestart = some (resultsWithRestart, ⟨[], true⟩) ∧
      ∃ history, QueueCall.specifyAll .empty callsWithRestart = some (resultsWithRestart, history) ∧
        (⟨[], true⟩ : ThreadSafeQueue Nat).Contract resultsWithRestart history := by
  have ran : create.performAll callsWithRestart = some (resultsWithRestart, ⟨[], true⟩) := by
    decide +kernel
  have related := calls_contract callsWithRestart
  rw [ran] at related
  refine ⟨ran, ?_⟩
  revert related
  generalize QueueCall.specifyAll .empty callsWithRestart = abstract
  rintro (⟨same, contract⟩ | _)
  exact ⟨_, congrArg some (Prod.ext same.symm rfl), contract⟩

end ThreadSafeQueue

end NodeManagement
