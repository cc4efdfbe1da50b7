import Mathlib.Logic.Basic

/-!
A mutex and the lock object that one thread keeps on it for a scope.  The thread may wait on a
condition variable inside the scope, which gives the mutex up until it wakes; other threads take
the mutex for one critical section.
-/

/-- Where the thread stands: outside the scope, inside it with the mutex before and after a wait,
in the wait, and past the last statement of the scope. -/
inductive LockScope
  | outside
  | entered
  | waiting
  | woken
  | closing
deriving DecidableEq

namespace LockScope

def inside : LockScope → Bool
  | entered | woken => true
  | _ => false

def owns : LockScope → Bool
  | entered | woken | closing => true
  | _ => false

theorem owns_of_inside {scope : LockScope} (inner : scope.inside = true) : scope.owns = true := by
  cases scope <;> simp_all [inside, owns]

end LockScope

inductive MutexOwner (Other : Type)
  | scoped
  | other (thread : Other)
deriving DecidableEq

structure ScopedLock (Other : Type) where
  owner : Option (MutexOwner Other)
  scope : LockScope
deriving DecidableEq

namespace ScopedLock

variable {Other : Type}

def free : ScopedLock Other := ⟨none, .outside⟩

def enter (lock : ScopedLock Other) : Option (ScopedLock Other) :=
  if lock.owner.isNone && lock.scope == .outside then some ⟨some .scoped, .entered⟩ else none

def wait (lock : ScopedLock Other) : Option (ScopedLock Other) :=
  if lock.scope.inside then some ⟨none, .waiting⟩ else none

def wake (lock : ScopedLock Other) : Option (ScopedLock Other) :=
  if lock.owner.isNone && lock.scope == .waiting then some ⟨some .scoped, .woken⟩ else none

def close (lock : ScopedLock Other) : Option (ScopedLock Other) :=
  if lock.scope.inside then some { lock with scope := .closing } else none

def leave (lock : ScopedLock Other) : Option (ScopedLock Other) :=
  if lock.scope = .closing then some ⟨none, .outside⟩ else none

def acquire (thread : Other) (lock : ScopedLock Other) : Option (ScopedLock Other) :=
  if lock.owner.isNone then some { lock with owner := some (.other thread) } else none

def release [DecidableEq Other] (thread : Other) (lock : ScopedLock Other) :
    Option (ScopedLock Other) :=
  if lock.owner = some (.other thread) then some { lock with owner := none } else none

def Consistent (lock : ScopedLock Other) : Prop :=
  lock.owner = some .scoped ↔ lock.scope.owns = true

theorem free_consistent : (free : ScopedLock Other).Consistent := by
  simp [Consistent, free, LockScope.owns]

variable {lock after : ScopedLock Other}

theorem Consistent.enter (taken : lock.enter = some after) : after.Consistent := by
  simp only [ScopedLock.enter, Option.ite_none_right_eq_some, Option.some.injEq] at taken
  obtain ⟨_, rfl⟩ := taken
  simp [Consistent, LockScope.owns]

theorem Consistent.wait (taken : lock.wait = some after) : after.Consistent := by
  simp only [ScopedLock.wait, Option.ite_none_right_eq_some, Option.some.injEq] at taken
  obtain ⟨_, rfl⟩ := taken
  simp [Consistent, LockScope.owns]

theorem Consistent.wake (taken : lock.wake = some after) : after.Consistent := by
  simp only [ScopedLock.wake, Option.ite_none_right_eq_some, Option.some.injEq] at taken
  obtain ⟨_, rfl⟩ := taken
  simp [Consistent, LockScope.owns]

theorem Consistent.close (consistent : lock.Consistent) (taken : lock.close = some after) :
    after.Consistent := by
  simp only [ScopedLock.close, Option.ite_none_right_eq_some, Option.some.injEq] at taken
  obtain ⟨inner, rfl⟩ := taken
  exact iff_of_true (consistent.mpr (LockScope.owns_of_inside inner)) rfl

theorem Consistent.leave (taken : lock.leave = some after) : after.Consistent := by
  simp only [ScopedLock.leave, Option.ite_none_right_eq_some, Option.some.injEq] at taken
  obtain ⟨_, rfl⟩ := taken
  simp [Consistent, LockScope.owns]

theorem Consistent.acquire {thread : Other} (consistent : lock.Consistent)
    (taken : lock.acquire thread = some after) : after.Consistent := by
  simp only [ScopedLock.acquire, Option.ite_none_right_eq_some, Option.some.injEq] at taken
  obtain ⟨free, rfl⟩ := taken
  refine iff_of_false (by simp) fun owns => ?_
  simp [consistent.mpr owns] at free

theorem Consistent.release [DecidableEq Other] {thread : Other} (consistent : lock.Consistent)
    (taken : lock.release thread = some after) : after.Consistent := by
  simp only [ScopedLock.release, Option.ite_none_right_eq_some, Option.some.injEq] at taken
  obtain ⟨taken, rfl⟩ := taken
  refine iff_of_false (by simp) fun owns => ?_
  simp [consistent.mpr owns] at taken

end ScopedLock
