/-!
# Powers of Two and Ten

The two scales that numbers are written on: places of a binary format, and
decimal places.

## Main definitions

* `twoTo`, `tenTo`: The powers.

## Theorems

* `twoTo_succ`: One place more.
* `twoTo_pos`: A power is not zero.
-/

namespace AccelMonitor

/-- A power of two. -/
def twoTo (n : Nat) : Nat :=
  Nat.pow 2 n

/-- A power of ten. -/
def tenTo (n : Nat) : Nat :=
  Nat.pow 10 n

/-- One place more doubles a power of two. -/
theorem twoTo_succ (n : Nat) : twoTo (n + 1) = twoTo n * 2 := rfl

/-- A power of two is not zero. -/
theorem twoTo_pos (n : Nat) : 0 < twoTo n :=
  Nat.pow_pos (by decide)

end AccelMonitor
