import PlugWatch.Registry.Delivery

/-! # Sessions

  What is done to a registry from outside, operation by operation. A panic in a callback ends the
  operation that led to it; what was done until then stays, and the next operation goes on from
  there. A registry is **reachable** if a session on a fresh one leads to it.
-/

namespace PlugWatch

variable {β : Type} [Bus β]

/-- Something that is done to a registry from outside. -/
inductive Operation (β : Type) [Bus β] where
  | register (registration : Registration β)
  /-- Whatever a callback may ask for too. -/
  | act (action : Action β)
  | dispatch (device : Device) (change : Change)
  | handlePending
  | handleEvents
  | sweep

/-- What an operation does; its answer is dropped. -/
def Operation.walk : Operation β → Walk β Unit
  | .register g => discard (Registry.register g)
  | .act a => discard (modifyGet (·.perform a))
  | .dispatch d c => discard (Registry.dispatch d c)
  | .handlePending => discard Registry.handlePending
  | .handleEvents => discard Registry.handleEvents
  | .sweep => discard Registry.sweep

namespace Registry

/-- The registry that a walk leaves, also if it panics. -/
def left {α : Type} (walk : Walk β α) (r : Registry β) : Registry β :=
  match walk.run r with
  | .ok _ r => r
  | .error _ r => r

/-- The registry after an operation. -/
def after (r : Registry β) (o : Operation β) : Registry β :=
  left o.walk r

/-- The registry after a session. -/
def afterAll (r : Registry β) (os : List (Operation β)) : Registry β :=
  os.foldl after r

/-- A session on a fresh registry leads here. -/
inductive Reachable : Registry β → Prop where
  | fresh (b : β) : Reachable { bus := b }
  | after {r : Registry β} (o : Operation β) : Reachable r → Reachable (r.after o)

/-- A session on a reachable registry leads to a reachable one. -/
theorem Reachable.afterAll {r : Registry β} (h : r.Reachable) (os : List (Operation β)) :
    (r.afterAll os).Reachable := by
  induction os generalizing r with
  | nil => exact h
  | cons o os ih => exact ih (h.after o)

end Registry

end PlugWatch
