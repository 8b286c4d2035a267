import Mathlib.Data.List.Basic

/-!
# Balanced traces

A trace opens and closes a resource. It is settled when the resource is closed only
while it is open, and no more of it stays open than is handed on.
-/

set_option autoImplicit false

namespace Imperative

/-- The events that open a resource and those that close it. -/
structure Resource (Event : Type) where
  opens : Event → Bool
  closes : Event → Bool

namespace Resource

variable {Event : Type} (resource : Resource Event)

/-- How many are open after the trace; nothing when one is closed that is not open. -/
def held : Nat → List Event → Option Nat
  | count, [] => some count
  | count, event :: rest =>
      if resource.opens event then held (count + 1) rest
      else if resource.closes event then
        match count with
        | 0 => none
        | count + 1 => held count rest
      else held count rest

@[simp] theorem held_nil (count : Nat) : resource.held count [] = some count := rfl

theorem held_append (count : Nat) (first second : List Event) :
    resource.held count (first ++ second) =
      (resource.held count first).bind fun count => resource.held count second := by
  induction first generalizing count with
  | nil => rfl
  | cons event rest ih =>
      simp only [List.cons_append, held]
      split
      · exact ih _
      · split
        · cases count with
          | zero => rfl
          | succ count => exact ih count
        · exact ih _

end Resource

end Imperative
