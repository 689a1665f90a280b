/-!
# Blanks

The characters with the Unicode property White_Space, and the division of a text at them.

* `isBlank c` says whether `c` is one of the 25 characters.
* `fields cs` are the longest runs without a blank, in order.
-/

namespace Aperture.Text

/-- The characters with the property White_Space. -/
def isBlank (c : Char) : Bool :=
  let n := c.toNat
  (9 ≤ n && n ≤ 13) || n == 0x20 || n == 0x85 || n == 0xa0 || n == 0x1680 ||
    (0x2000 ≤ n && n ≤ 0x200a) || n == 0x2028 || n == 0x2029 || n == 0x202f ||
    n == 0x205f || n == 0x3000

/-- Everything that core calls white space is blank. -/
theorem isBlank_of_isWhitespace {c : Char} (h : c.isWhitespace = true) : isBlank c = true := by
  simp only [Char.isWhitespace, Bool.or_eq_true, decide_eq_true_eq] at h
  rcases h with ((rfl | rfl) | rfl) | rfl <;> decide

/-- The longest runs without a blank, in order. -/
def fields : List Char → List (List Char)
  | [] => []
  | c :: cs =>
    if isBlank c then fields cs
    else (c :: cs.takeWhile fun d => !isBlank d) :: fields (cs.dropWhile fun d => !isBlank d)
termination_by cs => cs.length
decreasing_by
  · simp
  · have := (List.dropWhile_suffix (p := fun d => !isBlank d) (l := cs)).length_le
    simp only [List.length_cons]
    omega

end Aperture.Text
