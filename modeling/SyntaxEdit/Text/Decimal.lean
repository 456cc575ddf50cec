/-
Natural numbers in decimal notation.

* `Decimal.render` — the digits of a number, without leading zeros;
* `Decimal.read?` — the number that a text of ASCII digits denotes;
* `Decimal.readIndex?` — the same for an index: one plus sign may precede the digits, and numbers
  past `maxIndex` are refused;
* `Decimal.read?_render` — what is written reads back.
-/
import SyntaxEdit.Text.Basic

namespace SyntaxEdit

/-- The largest index and line number, an unsigned number of 64 bits. -/
def maxIndex : Nat := 18446744073709551615

namespace Decimal

/-- The character of a digit below ten. -/
def digit (d : Nat) : Char :=
  Char.ofNat (48 + d)

/-- The value of an ASCII digit. -/
def digitValue? (c : Char) : Option Nat :=
  if '0' ≤ c ∧ c ≤ '9' then some (c.toNat - 48) else none

/-- The digits of a number, without leading zeros. -/
def render (n : Nat) : Text :=
  if n < 10 then [digit n] else render (n / 10) ++ [digit (n % 10)]

/-- The number that a run of digits denotes when it follows digits of value `high`. -/
def readAfter? (high : Nat) : Text → Option Nat
  | [] => some high
  | c :: rest => do readAfter? (high * 10 + (← digitValue? c)) rest

/-- The number that a non-empty text of ASCII digits denotes; leading zeros are allowed. -/
def read? (t : Text) : Option Nat :=
  if t = [] then none else readAfter? 0 t

/-- An index: digits, after at most one plus sign, of a number up to `maxIndex`. -/
def readIndex? (t : Text) : Option Nat := do
  let n ← read? (match t with
    | '+' :: digits => digits
    | digits => digits)
  if n ≤ maxIndex then some n else none

theorem digitValue?_digit {d : Nat} (h : d < 10) : digitValue? (digit d) = some d := by
  have : d = 0 ∨ d = 1 ∨ d = 2 ∨ d = 3 ∨ d = 4 ∨ d = 5 ∨ d = 6 ∨ d = 7 ∨ d = 8 ∨ d = 9 := by
    omega
  rcases this with rfl | rfl | rfl | rfl | rfl | rfl | rfl | rfl | rfl | rfl <;> decide

theorem readAfter?_append (high : Nat) (s t : Text) :
    readAfter? high (s ++ t) = (readAfter? high s).bind fun n => readAfter? n t := by
  induction s generalizing high with
  | nil => rfl
  | cons c s ih =>
    simp only [List.cons_append, readAfter?]
    cases digitValue? c with
    | none => rfl
    | some d => exact ih _

theorem readAfter?_render (n : Nat) : readAfter? 0 (render n) = some n := by
  induction n using Nat.strongRecOn with
  | ind n ih =>
    rw [render]
    split
    · rename_i small
      simp [readAfter?, digitValue?_digit small]
    · rename_i large
      rw [readAfter?_append, ih (n / 10) (by omega)]
      have last : n % 10 < 10 := Nat.mod_lt _ (by omega)
      simp only [Option.bind_some, readAfter?, digitValue?_digit last]
      show some (n / 10 * 10 + n % 10) = some n
      congr 1
      omega

theorem render_ne_nil (n : Nat) : render n ≠ [] := by
  rw [render]
  split <;> simp

/-- What is written reads back. -/
theorem read?_render (n : Nat) : read? (render n) = some n := by
  rw [read?, if_neg (render_ne_nil n), readAfter?_render]

end Decimal

end SyntaxEdit
