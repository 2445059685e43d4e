/-!
# Faults on purpose

A plan is a list of rules. A rule watches the calls of one kind, counts them from the moment it was
set, and fires on one of them; the call then fails with the rule's error and nothing else happens.
Where several rules fire on one call the first in the list wins, and all of them count.
-/

namespace DiskArray

namespace Fault

/-- Fail the `on`-th call of a kind, counted from one. -/
structure Rule (κ ε : Type) where
  kind : κ
  on : Nat
  error : ε
  /-- Calls counted so far. -/
  seen : Nat := 0
deriving Repr

/-- Rules, the earlier ones first. -/
abbrev Plan (κ ε : Type) := List (Rule κ ε)

/-- Counts a call of a kind; gives the error it is to fail with, if any. -/
def Plan.call {κ ε : Type} [DecidableEq κ] (kind : κ) : Plan κ ε → Option ε × Plan κ ε
  | [] => (none, [])
  | rule :: rest =>
    let (later, rest) := Plan.call kind rest
    if rule.kind = kind then
      let rule := { rule with seen := rule.seen + 1 }
      (if rule.seen = rule.on then some rule.error else later, rule :: rest)
    else (later, rule :: rest)

end Fault

end DiskArray
