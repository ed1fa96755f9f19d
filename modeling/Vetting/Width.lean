/-!
Contract: the whole numbers that a field of a given width in bits can hold.

Owns: how many numbers a width tells apart, and its least and greatest numbers with and without a
sign.

Does not own: what becomes of a number that does not fit, which is said by its field.
-/

namespace Vetting.Width

/-- How many numbers a width tells apart. -/
def count (bits : Nat) : Nat := Nat.pow 2 bits

/-- The greatest number without a sign. -/
def greatestNat (bits : Nat) : Nat := count bits - 1

/-- The least number with a sign. -/
def leastInt (bits : Nat) : Int := -Int.ofNat (count (bits - 1))

/-- The greatest number with a sign. -/
def greatestInt (bits : Nat) : Int := Int.ofNat (count (bits - 1)) - 1

end Vetting.Width
