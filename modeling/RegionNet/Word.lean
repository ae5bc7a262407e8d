namespace RegionNet

/-!
# Machine words

Counts, indices and sizes in this library are natural numbers that the engine keeps in 64-bit
words. This module fixes the word bound and the ways an operation can leave it: a checked
product or sum that reports overflow, and a product that saturates at the largest word.
Arithmetic that the engine leaves unchecked panics instead in its overflow-checked builds; that
outcome lives with the data layer's errors (`addOrPanic`, `mulOrPanic`).
-/

/-- Two to the power `n`. It is `Nat.pow` applied by name, so the term is the same whichever
power instances are in scope. -/
def pow2 (n : Nat) : Nat := Nat.pow 2 n

/-- Ten to the power `n`, as `Nat.pow` applied by name. -/
def pow10 (n : Nat) : Nat := Nat.pow 10 n

@[simp]
theorem pow2_pos (n : Nat) : 0 < pow2 n := Nat.two_pow_pos n

/-- The number of distinct 64-bit words, one more than the largest count. -/
def wordSize : Nat := pow2 64

/-- The largest value a 64-bit word holds. -/
def wordMax : Nat := wordSize - 1

/-- The largest byte size of one allocation: the largest signed 64-bit word. -/
def isizeMax : Nat := pow2 63 - 1

/-- An allocation's byte size is a word. -/
theorem isizeMax_lt_wordSize : isizeMax < wordSize := by decide

/-- Twice an allocation's byte size is still a word. -/
theorem two_mul_isizeMax_lt_wordSize : 2 * isizeMax < wordSize := by decide

/-- The largest value of a signed 64-bit word. -/
def int64Max : Int := (pow2 63 : Int) - 1

/-- The smallest value of a signed 64-bit word. -/
def int64Min : Int := -(pow2 63 : Int)

/-- A product that must stay within one word: `none` when it does not. -/
def checkedMul (a b : Nat) : Option Nat :=
  if a * b < wordSize then some (a * b) else none

/-- A sum that must stay within one word: `none` when it does not. -/
def checkedAdd (a b : Nat) : Option Nat :=
  if a + b < wordSize then some (a + b) else none

/-- A product that stops at the largest word instead of overflowing. -/
def saturatingMul (a b : Nat) : Nat := min (a * b) wordMax

theorem checkedMul_eq_some {a b n : Nat} (checked : checkedMul a b = some n) :
    n = a * b ∧ n < wordSize := by
  unfold checkedMul at checked
  split at checked
  · cases checked; exact ⟨rfl, by assumption⟩
  · cases checked

theorem checkedAdd_eq_some {a b n : Nat} (checked : checkedAdd a b = some n) :
    n = a + b ∧ n < wordSize := by
  unfold checkedAdd at checked
  split at checked
  · cases checked; exact ⟨rfl, by assumption⟩
  · cases checked

end RegionNet
