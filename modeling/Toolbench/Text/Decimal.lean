import Toolbench.Text.Digit
import Toolbench.Text.Word

/-!
# Numbers in decimal notation

Reading a run of ASCII digits as a natural number, as a 32-bit word or as a 64-bit word, and
writing a natural number back. A number that does not fit its word is not read at all. The main
statement, `readNat?_write`, says that reading inverts writing.
-/

namespace Toolbench.Text.Decimal

/-- Read further digits onto the number read so far. -/
def readOnto : Nat → List Char → Option Nat
  | acc, [] => some acc
  | acc, c :: cs => do
      let value ← digitValue? c
      readOnto (10 * acc + value) cs

/-- The number that a non-empty run of ASCII digits denotes. Leading zeros are allowed. -/
def readNat? : List Char → Option Nat
  | [] => none
  | cs => readOnto 0 cs

/-- The 32-bit number that a non-empty run of ASCII digits denotes. -/
def readWord32? (cs : List Char) : Option UInt32 :=
  (readNat? cs).bind Word.ofNat?

/-- As `readWord32?`, after an optional plus sign. -/
def readSignedWord32? : List Char → Option UInt32
  | '+' :: cs => readWord32? cs
  | cs => readWord32? cs

/-- The decimal digits of a number, without leading zeros. -/
def write (n : Nat) : List Char :=
  Nat.toDigits 10 n

/-- The text of a 32-bit number. -/
def wordText (w : UInt32) : String :=
  String.ofList (write w.toNat)

theorem readOnto_append (acc : Nat) (xs ys : List Char) :
    readOnto acc (xs ++ ys) = (readOnto acc xs).bind fun mid => readOnto mid ys := by
  induction xs generalizing acc with
  | nil => rfl
  | cons x xs ih =>
      simp only [List.cons_append, readOnto]
      cases digitValue? x with
      | none => rfl
      | some value => exact ih (10 * acc + value)

/-- The digit character of a value below ten has that value. -/
theorem digitValue?_digitChar {d : Nat} (h : d < 10) : digitValue? (Nat.digitChar d) = some d := by
  match d, h with
  | 0, _ | 1, _ | 2, _ | 3, _ | 4, _ | 5, _ | 6, _ | 7, _ | 8, _ | 9, _ => decide
  | _ + 10, h => exact absurd h (by omega)

theorem write_ne_nil (n : Nat) : write n ≠ [] :=
  Nat.toDigits_ne_nil

theorem readOnto_write (n : Nat) : readOnto 0 (write n) = some n := by
  induction n using Nat.strongRecOn with
  | ind n ih =>
      by_cases hn : n < 10
      · rw [write, Nat.toDigits_of_lt_base hn]
        simp [readOnto, digitValue?_digitChar hn]
      · have hq : 0 < n / 10 := by omega
        have hr : n % 10 < 10 := Nat.mod_lt _ (by decide)
        have hsplit := Nat.toDigits_append_toDigits (b := 10) (n := n / 10) (d := n % 10)
          (by decide) hq hr
        rw [Nat.div_add_mod] at hsplit
        rw [write, ← hsplit, readOnto_append]
        have hprev : readOnto 0 (Nat.toDigits 10 (n / 10)) = some (n / 10) := ih (n / 10) (by omega)
        rw [hprev, Nat.toDigits_of_lt_base hr]
        simp [readOnto, digitValue?_digitChar hr, Nat.div_add_mod]

/-- Reading inverts writing. -/
theorem readNat?_write (n : Nat) : readNat? (write n) = some n := by
  unfold readNat?
  split
  · exact absurd ‹write n = []› (write_ne_nil n)
  · exact readOnto_write n

/-- Every 32-bit word is read back from its digits. -/
theorem readWord32?_write (w : UInt32) : readWord32? (write w.toNat) = some w := by
  simp [readWord32?, readNat?_write, Word.ofNat?_toNat]

end Toolbench.Text.Decimal
