import Mathlib
import NcclExts.Foundation.System

/-!
# One system refines another

A concrete system refines an abstract one when every state of it stands for an abstract
state, and every step for a list of abstract events that lead from the one to the other.
A step that means nothing to the abstract system stands for the empty list.
-/

namespace NcclExts.Foundation

universe u v w x

variable {State : Type u} {Event : Type v} {State' : Type w} {Event' : Type x}

/-- The permitted runs of `system` are runs of `spec`: `view` is the abstract state of a
state, and `means` the abstract events of a step between two states. -/
structure Refines (system : System State Event) (permitted : State → Event → Prop)
    (spec : System State' Event') (view : State → State')
    (means : State → State → List Event') : Prop where
  starts : ∀ state, system.starts state → spec.starts (view state)
  steps : ∀ state event after, system.Reaches permitted state → permitted state event →
    system.step state event = some after →
      spec.replay (view state) (means state after) = some (view after)

end NcclExts.Foundation
