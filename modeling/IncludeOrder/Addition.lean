/-!
# Addition

A run numbers lines and adds counts up.  Whatever adds does so by an addition it is given, and in
the monad of that addition: in numbers, where every sum is there and is exact, or in machine words,
where a sum may be too large.  The operations under their plain names are those in numbers.
-/

set_option autoImplicit false

namespace IncludeOrder

/-- A way to add two numbers. -/
abbrev Addition (m : Type → Type) := Nat → Nat → m Nat

/-- The exact sum, without any effect. -/
def Addition.exactly : Addition Id := fun a b => pure (a + b)

end IncludeOrder
