/-!
# Decimal numerals

Reading the decimal digits that `toString` writes: `readNat_toString`,
`readInt_toString`.
-/

namespace Decimal

/-- The number that the digits write; `none` for no digits, or what is none. -/
def readDigits (digits : List Char) : Option Nat :=
  if digits ≠ [] ∧ digits.all Char.isDigit then some (Nat.ofDigitChars 10 digits 0) else none

def readNat (text : String) : Option Nat := readDigits text.toList

/-- A number with a minus sign if it is negative. -/
def readInt (text : String) : Option Int :=
  match text.toList with
  | '-' :: digits => (readDigits digits).map fun n : Nat => -(n : Int)
  | digits => (readDigits digits).map Int.ofNat

theorem readDigits_toDigits (n : Nat) : readDigits (Nat.toDigits 10 n) = some n := by
  have hdigits : (Nat.toDigits 10 n).all Char.isDigit = true :=
    List.all_eq_true.mpr fun c hc => Nat.isDigit_of_mem_toDigits (by decide) (by decide) hc
  unfold readDigits
  rw [if_pos ⟨Nat.toDigits_ne_nil, hdigits⟩, Nat.ofDigitChars_toDigits (by decide) (by decide)]

theorem readNat_toString (n : Nat) : readNat (toString n) = some n := by
  show readDigits (Nat.repr n).toList = some n
  rw [Nat.toList_repr, readDigits_toDigits]

theorem readInt_toString (n : Int) : readInt (toString n) = some n := by
  cases n with
  | ofNat n =>
    show readInt (Nat.repr n) = some (n : Int)
    unfold readInt
    rw [Nat.toList_repr]
    split
    · rename_i digits hminus
      -- a minus sign is no digit
      have hdigit : ('-').isDigit = true :=
        Nat.isDigit_of_mem_toDigits (by decide) (by decide) (hminus ▸ List.mem_cons_self : '-' ∈ Nat.toDigits 10 n)
      exact absurd hdigit (by decide)
    · rw [readDigits_toDigits]
      rfl
  | negSucc n =>
    show readInt ("-" ++ Nat.repr (n + 1)) = some (Int.negSucc n)
    unfold readInt
    have hminus : ("-" : String).toList = ['-'] := rfl
    rw [String.toList_append, Nat.toList_repr, hminus]
    show (readDigits (Nat.toDigits 10 (n + 1))).map _ = _
    rw [readDigits_toDigits]
    rfl

end Decimal
