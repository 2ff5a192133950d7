import Toolbench.Text.Blank
import Toolbench.Text.Decimal
import Mathlib.Data.Nat.Digits.Defs

/-!
# Runs of characters

Runs of white space, of digits and of blanks, as the forms of a line name them. No digit is white
space, so one ends where the other begins. A run of ASCII digits denotes its value in base ten
(`readWord32?_eq_some_iff`); a run of other digits denotes nothing.
-/

namespace Toolbench.Text

/-- The text holds characters of one kind, at least one. -/
def IsRun (p : Char → Bool) (run : List Char) : Prop :=
  run ≠ [] ∧ ∀ c ∈ run, p c = true

instance (p : Char → Bool) (run : List Char) : Decidable (IsRun p run) :=
  decidable_of_iff (run ≠ [] ∧ run.all p = true) (and_congr_right fun _ => List.all_eq_true)

variable {p : Char → Bool} {run rest : List Char}

/-- A run read backwards is a run. -/
theorem IsRun.reverse (h : IsRun p run) : IsRun p run.reverse :=
  ⟨List.reverse_ne_nil_iff.2 h.1, fun c hc => h.2 c (List.mem_reverse.1 hc)⟩

/-- A text that begins with a run begins with a character of its kind. -/
theorem IsRun.of_head? {c : Char} (h : IsRun p run) (hc : c ∈ (run ++ rest).head?) :
    p c = true := by
  obtain ⟨first, others, rfl⟩ := List.exists_cons_of_ne_nil h.1
  obtain rfl : first = c := by simpa using hc
  exact h.2 first List.mem_cons_self

/-- What holds of its first character holds of the beginning of a text. -/
theorem forall_head?_cons {q : Char → Prop} {c : Char} (h : q c) (cs : List Char) :
    ∀ d ∈ (c :: cs).head?, q d := by
  intro d hd
  obtain rfl := Option.some.inj hd
  exact h

/-- A run in front of a text that does not go on with it is dropped as a whole. -/
theorem dropWhile_append_of_head (hrun : ∀ c ∈ run, p c = true)
    (hrest : ∀ c ∈ rest.head?, p c = false) : (run ++ rest).dropWhile p = rest := by
  rw [List.dropWhile_append_of_pos hrun]
  cases rest with
  | nil => rfl
  | cons c cs => exact List.dropWhile_cons_of_neg (by simp [hrest c rfl])

/-- A run in front of a text that does not go on with it is taken as a whole. -/
theorem takeWhile_append_of_head (hrun : ∀ c ∈ run, p c = true)
    (hrest : ∀ c ∈ rest.head?, p c = false) : (run ++ rest).takeWhile p = run := by
  rw [List.takeWhile_append_of_pos hrun]
  cases rest with
  | nil => exact List.append_nil run
  | cons c cs =>
      rw [List.takeWhile_cons_of_neg (by simp [hrest c rfl]), List.append_nil]

/-! ## White space and digits -/

/-- The code points of white space. -/
def whiteCodes : List Nat :=
  [0x9, 0xA, 0xB, 0xC, 0xD, 0x20, 0x85, 0xA0, 0x1680, 0x2000, 0x2001, 0x2002, 0x2003, 0x2004,
    0x2005, 0x2006, 0x2007, 0x2008, 0x2009, 0x200A, 0x2028, 0x2029, 0x202F, 0x205F, 0x3000]

theorem mem_whiteCodes_of_isWhite {c : Char} (h : isWhite c = true) : c.toNat ∈ whiteCodes := by
  simp only [isWhite, Bool.or_eq_true, Bool.and_eq_true, decide_eq_true_eq, beq_iff_eq] at h
  simp only [whiteCodes, List.mem_cons, List.not_mem_nil, or_false]
  omega

/-- No digit is white space. -/
theorem isWhite_of_isDecimalDigit {c : Char} (h : isDecimalDigit c = true) : isWhite c = false := by
  have hcodes : ∀ n ∈ whiteCodes,
      ¬ (48 ≤ n ∧ n ≤ 57) ∧ (digitZeros.any fun first => first ≤ n && n < first + 10) = false := by
    decide
  rw [Bool.eq_false_iff]
  intro hwhite
  obtain ⟨hascii, hblocks⟩ := hcodes c.toNat (mem_whiteCodes_of_isWhite hwhite)
  rw [isDecimalDigit, hblocks, Bool.or_false, Char.isDigit_iff_toNat] at h
  exact hascii h

/-- White space is no digit. -/
theorem isDecimalDigit_of_isWhite {c : Char} (h : isWhite c = true) : isDecimalDigit c = false := by
  rw [Bool.eq_false_iff]
  intro hdigit
  rw [isWhite_of_isDecimalDigit hdigit] at h
  exact nomatch h

/-- Blanks inside a line are white space. -/
theorem isWhite_of_isInlineBlank {c : Char} (h : isInlineBlank c = true) : isWhite c = true := by
  rw [isInlineBlank, Bool.or_eq_true, beq_iff_eq, beq_iff_eq] at h
  rcases h with rfl | rfl <;> decide

/-! ## Numbers -/

namespace Decimal

/-- The number that ASCII digits have in base ten. -/
def value (digits : List Char) : Nat :=
  Nat.ofDigits 10 (digits.reverse.map fun c => c.toNat - '0'.toNat)

/-- The text is a run of ASCII digits whose value in base ten is the word. -/
def Denotes (digits : List Char) (w : UInt32) : Prop :=
  IsRun Char.isDigit digits ∧ value digits = w.toNat

theorem value_cons (c : Char) (cs : List Char) :
    value (c :: cs) = (c.toNat - '0'.toNat) * 10 ^ cs.length + value cs := by
  unfold value
  rw [List.reverse_cons, List.map_append, Nat.ofDigits_append, List.length_map, List.length_reverse]
  simp only [List.map_cons, List.map_nil, Nat.ofDigits_singleton]
  ring

/-- Reading on multiplies what was read by ten for each further digit. -/
theorem readOnto_eq_some_iff {acc n : Nat} {cs : List Char} :
    readOnto acc cs = some n ↔
      (∀ c ∈ cs, c.isDigit = true) ∧ n = acc * 10 ^ cs.length + value cs := by
  induction cs generalizing acc with
  | nil =>
      have hnone : value [] = 0 := rfl
      rw [hnone, readOnto, Option.some.injEq, List.length_nil, pow_zero, Nat.mul_one, Nat.add_zero]
      exact eq_comm.trans (and_iff_right (List.forall_mem_nil _)).symm
  | cons c cs ih =>
      simp only [readOnto, digitValue?]
      by_cases hdigit : c.isDigit = true
      · rw [if_pos hdigit]
        show readOnto (10 * acc + (c.toNat - '0'.toNat)) cs = some n ↔ _
        rw [ih, value_cons, List.length_cons, List.forall_mem_cons, and_iff_right hdigit]
        refine and_congr_right fun _ => ?_
        rw [pow_succ]
        constructor
        · rintro rfl
          ring
        · rintro rfl
          ring
      · rw [if_neg hdigit]
        simp [hdigit]

/-- A text is read as a word exactly when it denotes the word. -/
theorem readWord32?_eq_some_iff {cs : List Char} {w : UInt32} :
    readWord32? cs = some w ↔ Denotes cs w := by
  have hword : ∀ n : Nat, Word.ofNat? n = some w ↔ n = w.toNat := by
    intro n
    refine ⟨fun h => (Word.toNat_of_ofNat? h).symm, ?_⟩
    rintro rfl
    exact Word.ofNat?_toNat w
  cases cs with
  | nil => simp [readWord32?, readNat?, Denotes, IsRun]
  | cons c cs =>
      rw [readWord32?, Option.bind_eq_some_iff]
      show (∃ n, readOnto 0 (c :: cs) = some n ∧ Word.ofNat? n = some w) ↔ _
      simp only [readOnto_eq_some_iff, hword, Nat.zero_mul, Nat.zero_add]
      constructor
      · rintro ⟨n, ⟨hdigits, rfl⟩, hvalue⟩
        exact ⟨⟨List.cons_ne_nil c cs, hdigits⟩, hvalue⟩
      · rintro ⟨⟨-, hdigits⟩, hvalue⟩
        exact ⟨_, ⟨hdigits, rfl⟩, hvalue⟩

/-- A text is read as a word, perhaps behind a plus sign, exactly when what it has behind the sign
denotes the word. -/
theorem readSignedWord32?_eq_some_iff {cs : List Char} {w : UInt32} :
    readSignedWord32? cs = some w ↔
      ∃ digits, Denotes digits w ∧ (cs = digits ∨ cs = '+' :: digits) := by
  have hplus : ∀ {digits : List Char}, ¬ Denotes ('+' :: digits) w := by
    intro digits h
    exact absurd (h.1.2 '+' List.mem_cons_self) (by decide)
  unfold readSignedWord32?
  split
  · rename_i digits
    rw [readWord32?_eq_some_iff]
    constructor
    · intro h
      exact ⟨digits, h, .inr rfl⟩
    · rintro ⟨others, h, rfl | hsame⟩
      · exact absurd h hplus
      · rwa [(List.cons.inj hsame).2]
  · rename_i hplain
    rw [readWord32?_eq_some_iff]
    constructor
    · intro h
      exact ⟨cs, h, .inl rfl⟩
    · rintro ⟨digits, h, rfl | hsigned⟩
      · exact h
      · exact absurd hsigned (hplain digits)

/-- The digits of a number are a run of ASCII digits. -/
theorem isRun_write (n : Nat) : IsRun Char.isDigit (write n) :=
  ⟨write_ne_nil n, fun _ hc => Nat.isDigit_of_mem_toDigits (by decide) (by decide) hc⟩

/-- A word is denoted by its digits. -/
theorem denotes_write (w : UInt32) : Denotes (write w.toNat) w :=
  readWord32?_eq_some_iff.1 (readWord32?_write w)

end Decimal

/-- ASCII digits are decimal digits. -/
theorem IsRun.isDecimalDigit (h : IsRun Char.isDigit run) : IsRun isDecimalDigit run :=
  ⟨h.1, fun c hc => isDecimalDigit_of_isDigit (h.2 c hc)⟩

end Toolbench.Text
