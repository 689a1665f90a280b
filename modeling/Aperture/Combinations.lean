/-!
# Combinations

The subsets of `{0, …, n - 1}` with `k` members, as increasing lists in lexicographic order.

* `successor n c` is the next subset after `c`.
* `first m n k` lists the first `m` of them, `combinations n k` all of them.
* `binomial n k` is their number.
-/

namespace Aperture

/-- The subset after an increasing list, of the same size and below `n`: the last member that can
grow does so, and those behind it follow directly. -/
def successor (n : Nat) : List Nat → Option (List Nat)
  | [] => none
  | a :: rest =>
    match successor n rest with
    | some next => some (a :: next)
    | none => if a + rest.length + 1 < n then some (List.range' (a + 1) (rest.length + 1)) else none

/-- The subset to start with. There is none without members, and none with more than `n`. -/
def leastSubset (n k : Nat) : Option (List Nat) :=
  if k = 0 ∨ n < k then none else some (List.range k)

/-- A subset and its successors, at most `m` of them. -/
def iterate (n : Nat) : Nat → Option (List Nat) → List (List Nat)
  | 0, _ => []
  | _, none => []
  | m + 1, some c => c :: iterate n m (successor n c)

/-- The first `m` subsets of size `k`. -/
def firstCombinations (m n k : Nat) : List (List Nat) := iterate n m (leastSubset n k)

/-- Number of subsets of size `k`, zero for `k > n`. Multiplying before dividing keeps every
quotient whole. -/
def binomial (n k : Nat) : Nat :=
  if n < k then 0
  else (List.range (min k (n - k))).foldl (fun c i => c * (n - i) / (i + 1)) 1

/-- All subsets of size `k`. -/
def combinations (n k : Nat) : List (List Nat) := firstCombinations (binomial n k) n k

example : combinations 3 2 = [[0, 1], [0, 2], [1, 2]] := by decide
example : combinations 4 0 = [] ∧ combinations 2 3 = [] := by decide
example : (combinations 6 3).length = 20 ∧ binomial 30 15 = 155117520 := by decide

theorem length_of_successor {n : Nat} {c d : List Nat} (h : successor n c = some d) :
    d.length = c.length := by
  induction c generalizing d with
  | nil => simp [successor] at h
  | cons a rest ih =>
    simp only [successor] at h
    split at h
    · next next hn =>
      obtain rfl := Option.some.inj h
      simp [ih hn]
    · split at h
      · obtain rfl := Option.some.inj h
        simp
      · simp at h

end Aperture
