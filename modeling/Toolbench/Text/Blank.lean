/-!
# White space

The white-space characters are those with the Unicode property `White_Space`. Trimming removes
them from the ends of a text and keeps everything between. The lemmas say which texts a trim leaves
nothing of, which it leaves as they are, and that white space behind a text does not change it.
-/

namespace Toolbench.Text

/-- The character has the Unicode property `White_Space`. -/
def isWhite (c : Char) : Bool :=
  let n := c.toNat
  (0x9 ≤ n && n ≤ 0xD) || n == 0x20 || n == 0x85 || n == 0xA0 || n == 0x1680 ||
    (0x2000 ≤ n && n ≤ 0x200A) || n == 0x2028 || n == 0x2029 || n == 0x202F || n == 0x205F ||
    n == 0x3000

/-- A space or a tab: the blanks that may stand inside one line of a report. -/
def isInlineBlank (c : Char) : Bool :=
  c == ' ' || c == '\t'

/-- The text without its leading white space. -/
def trimStart (cs : List Char) : List Char :=
  cs.dropWhile isWhite

/-- The text without its trailing white space. -/
def trimEnd (cs : List Char) : List Char :=
  (cs.reverse.dropWhile isWhite).reverse

/-- The text without the white space at either end. -/
def trim (cs : List Char) : List Char :=
  trimEnd (trimStart cs)

/-- The text holds nothing but white space. -/
def isBlank (cs : List Char) : Bool :=
  cs.all isWhite

/-- A blank text has nothing left after trimming, and only a blank text does. -/
theorem trimStart_eq_nil_iff {cs : List Char} : trimStart cs = [] ↔ isBlank cs = true := by
  induction cs with
  | nil => simp [trimStart, isBlank]
  | cons c cs ih =>
      by_cases hc : isWhite c = true <;> simp_all [trimStart, isBlank]

/-- A text that does not begin with white space is its own leading trim. -/
theorem trimStart_eq_self {cs : List Char} (h : ∀ c ∈ cs.head?, isWhite c = false) :
    trimStart cs = cs := by
  cases cs with
  | nil => rfl
  | cons c cs => exact List.dropWhile_cons_of_neg (by simp [h c rfl])

/-- A text that does not end in white space is its own trailing trim. -/
theorem trimEnd_eq_self {cs : List Char} (h : ∀ c ∈ cs.getLast?, isWhite c = false) :
    trimEnd cs = cs := by
  rcases List.eq_nil_or_concat cs with rfl | ⟨front, last, rfl⟩
  · rfl
  · have hlast : isWhite last = false := h last (by simp)
    simp [trimEnd, hlast]

/-- White space behind a text does not change where a leading trim begins. -/
theorem head?_trimStart_concat {c : Char} (hc : isWhite c = true) (cs : List Char) :
    (trimStart (cs ++ [c])).head? = (trimStart cs).head? := by
  simp only [trimStart, List.dropWhile_append]
  cases hrest : cs.dropWhile isWhite with
  | nil => simp [hc]
  | cons first rest => rfl

/-- White space behind a text does not change its trim. -/
theorem trim_concat {c : Char} (hc : isWhite c = true) (cs : List Char) :
    trim (cs ++ [c]) = trim cs := by
  simp only [trim, trimStart, List.dropWhile_append]
  cases hrest : cs.dropWhile isWhite with
  | nil => simp [hc]
  | cons first rest => simp [trimEnd, hc]

end Toolbench.Text
