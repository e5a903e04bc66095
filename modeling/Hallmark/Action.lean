import Hallmark.Audit.Event

/-!
# `Hallmark/Action.lean` — what modules and pipelines do

An action runs in a world and leaves a value, the world as it is afterwards, and the events that it
logged. Actions one after the other log one after the other: the monad laws hold by computation, and
`events_bind` says what a sequence logs. Operations of the host log nothing (`events_liftHost`).
-/

set_option autoImplicit false

namespace Hallmark

open Audit (Event)

/-- What an action leaves behind. -/
structure Outcome (σ α : Type) where
  value : α
  world : σ
  events : List Event

/-- How a call ends: with a value, or in a panic that leaves none. -/
inductive Ending (α : Type) where
  | returned (value : α)
  | panicked
deriving DecidableEq, Repr

/-- The value of a call that does not panic. -/
def Ending.get {α : Type} : (ending : Ending α) → ending ≠ .panicked → α
  | .returned value, _ => value
  | .panicked, h => absurd rfl h

/-- Something done in a world. -/
def Action (σ α : Type) : Type := σ → Outcome σ α

namespace Action

variable {σ α β : Type}

instance : Monad (Action σ) where
  pure a := fun world => ⟨a, world, []⟩
  bind x f := fun world =>
    let first := x world
    let second := f first.value first.world
    ⟨second.value, second.world, first.events ++ second.events⟩

def emit (event : Event) : Action σ Unit := fun world => ⟨(), world, [event]⟩

def emitIf (condition : Bool) (event : Event) : Action σ Unit :=
  fun world => ⟨(), world, if condition then [event] else []⟩

/-- An operation of the host. -/
def liftHost (operation : StateM σ α) : Action σ α := fun world =>
  let (value, after) := operation world
  ⟨value, after, []⟩

instance : MonadLift (StateM σ) (Action σ) := ⟨liftHost⟩

/-- What the world is like. -/
def observe (view : σ → α) : Action σ α := fun world => ⟨view world, world, []⟩

@[simp] theorem pure_apply (a : α) (world : σ) : (pure a : Action σ α) world = ⟨a, world, []⟩ := rfl

@[simp] theorem bind_apply (x : Action σ α) (f : α → Action σ β) (world : σ) :
    (x >>= f) world =
      ⟨(f (x world).value (x world).world).value, (f (x world).value (x world).world).world,
        (x world).events ++ (f (x world).value (x world).world).events⟩ := rfl

@[simp] theorem emit_apply (event : Event) (world : σ) :
    emit event world = ⟨(), world, [event]⟩ := rfl

@[simp] theorem emitIf_apply (condition : Bool) (event : Event) (world : σ) :
    emitIf condition event world = ⟨(), world, if condition then [event] else []⟩ := rfl

@[simp] theorem observe_apply (view : σ → α) (world : σ) :
    observe view world = ⟨view world, world, []⟩ := rfl

@[simp] theorem liftHost_apply (operation : StateM σ α) (world : σ) :
    liftHost operation world = ⟨(operation world).1, (operation world).2, []⟩ := rfl

/-- A sequence logs what its parts log, in order. -/
theorem events_bind (x : Action σ α) (f : α → Action σ β) (world : σ) :
    ((x >>= f) world).events =
      (x world).events ++ (f (x world).value (x world).world).events := rfl

/-- An operation of the host logs nothing. -/
theorem events_liftHost (operation : StateM σ α) (world : σ) :
    (liftHost operation world).events = [] := rfl

end Action

end Hallmark
