/-!
# Character classes as boundaries

A class of characters is given by the ascending list of code points at which membership changes:
the first starts a run of members, the second ends it, and so on. A code point is a member exactly
when the number of boundaries at or below it is odd.
-/

namespace MessageBridge.Text

/-- Whether an odd number of the boundaries is at or below `n`. -/
def withinBoundaries (boundaries : List Nat) (n : Nat) : Bool :=
  match boundaries with
  | [] => false
  | start :: rest =>
    if n < start then false
    else
      match rest with
      | [] => true
      | stop :: more => if n < stop then true else withinBoundaries more n

end MessageBridge.Text
