import Aperture.Proofs.Combinations
import Mathlib.Data.List.Sort

/-!
# Combinations are all subsets, in lexicographic order

A combination is a subset that is written as an increasing list (`IsSubset`), and the lists are in
lexicographic order.

* `pairwise_choices`: choices from increasing numbers increase. A choice with the first number
  comes before one without it.
* `successor_eq_refill`: the successor by a search from behind. The **pivot** is the last member
  that can grow. It does, and the members behind it follow directly. The search subtracts the
  size of the subset from the number of all members, which needs it not to be larger.
* `dvd_running_mul`: multiplied before it is divided, every quotient of `binomial` is whole.

Main results: `combinations_enumerate_subsets`.
-/

namespace Aperture

/-- A subset of `{0, …, n - 1}` with `k` members, as an increasing list. -/
structure IsSubset (n k : Nat) (c : List Nat) : Prop where
  length : c.length = k
  increasing : c.Pairwise (· < ·)
  below : ∀ i ∈ c, i < n

theorem IsSubset.subperm {n k : Nat} {c : List Nat} (h : IsSubset n k c) :
    c.Subperm (List.range n) := by
  have hnodup : c.Nodup := h.increasing.imp Nat.ne_of_lt
  exact hnodup.subperm fun i hi => List.mem_range.2 (h.below i hi)

theorem IsSubset.le {n k : Nat} {c : List Nat} (h : IsSubset n k c) : k ≤ n := by
  simpa [h.length] using h.subperm.length_le

theorem mem_choices_range {n k : Nat} {c : List Nat} :
    c ∈ choices k (List.range n) ↔ IsSubset n k c := by
  rw [mem_choices]
  constructor
  · rintro ⟨hsub, hlength⟩
    exact ⟨hlength, List.pairwise_lt_range.sublist hsub, fun i hi =>
      List.mem_range.1 (hsub.subset hi)⟩
  · intro h
    exact ⟨List.sublist_of_subperm_of_pairwise h.subperm h.increasing List.pairwise_lt_range,
      h.length⟩

/-! ## The order -/

theorem pairwise_choices (k : Nat) {l : List Nat} (h : l.Pairwise (· < ·)) :
    (choices k l).Pairwise (· < ·) := by
  induction l generalizing k with
  | nil =>
    cases k with
    | zero => exact List.pairwise_singleton _ _
    | succ k => exact List.Pairwise.nil
  | cons a l ih =>
    cases k with
    | zero => exact List.pairwise_singleton _ _
    | succ k =>
      obtain ⟨hfirst, hrest⟩ := List.pairwise_cons.1 h
      rw [choices, List.pairwise_append, List.pairwise_map]
      refine ⟨(ih k hrest).imp List.cons_lt_cons_self.2, ih (k + 1) hrest, fun x hx y hy => ?_⟩
      obtain ⟨c, -, rfl⟩ := List.mem_map.1 hx
      obtain ⟨hsub, hlength⟩ := mem_choices.1 hy
      obtain ⟨b, d, rfl⟩ := List.exists_cons_of_length_eq_add_one hlength
      exact List.Lex.rel (hfirst b (hsub.subset List.mem_cons_self))

/-! ## The pivot -/

/-- The last position whose member can grow. -/
def pivot? (n : Nat) (c : List Nat) : Option Nat :=
  (List.range c.length).reverse.find? fun i => c.getD i 0 < n - c.length + i

/-- The list in which a member grew by one and those behind it follow directly. -/
def refill (c : List Nat) (i : Nat) : List Nat :=
  c.take i ++ List.range' (c.getD i 0 + 1) (c.length - i)

/-- Behind the first member, the pivot is found as without it. -/
theorem pivot?_cons {n a : Nat} {c : List Nat} (h : c.length < n) :
    pivot? n (a :: c) =
      ((pivot? n c).map (· + 1)).or (if a + c.length + 1 < n then some 0 else none) := by
  have hgap : n - (c.length + 1) + 1 = n - c.length := by omega
  have hbehind (i : Nat) : n - (c.length + 1) + (i + 1) = n - c.length + i := by omega
  have hfirst : a < n - (c.length + 1) ↔ a + c.length + 1 < n := by omega
  rw [pivot?, List.length_cons, List.range_succ_eq_map, List.reverse_cons, List.find?_append,
    ← List.map_reverse, List.find?_map, pivot?]
  simp only [Function.comp_def, List.getD_cons_succ, hbehind, List.find?_singleton,
    List.getD_cons_zero, Nat.add_zero, hfirst]
  simp

theorem refill_cons_succ (a : Nat) (c : List Nat) (i : Nat) :
    refill (a :: c) (i + 1) = a :: refill c i := by
  simp [refill]

/-- **The successor is found from behind.** -/
theorem successor_eq_refill {n : Nat} {c : List Nat} (h : c.length ≤ n) :
    successor n c = (pivot? n c).map (refill c) := by
  induction c with
  | nil => rfl
  | cons a c ih =>
    have hlt : c.length < n := h
    have hrest := ih (Nat.le_of_lt hlt)
    rw [pivot?_cons hlt]
    cases hpivot : pivot? n c with
    | some i =>
      rw [hpivot] at hrest
      rw [successor_cons_of_some hrest, Option.map_some, Option.some_or, Option.map_some,
        refill_cons_succ]
    | none =>
      rw [hpivot] at hrest
      rw [successor_cons_of_none hrest, Option.map_none, Option.none_or]
      split
      · simp [refill]
      · rfl

/-! ## Exact quotients -/

/-- What `binomial` has come to after `i` quotients. -/
def running (n i : Nat) : Nat := (List.range i).foldl (fun c i => c * (n - i) / (i + 1)) 1

theorem binomial_eq_running {n k : Nat} (h : k ≤ n) : binomial n k = running n (min k (n - k)) :=
  if_neg (Nat.not_lt.2 h)

theorem dvd_running_mul (n i : Nat) : i + 1 ∣ running n i * (n - i) := by
  rw [running, foldl_binomial, ← Nat.choose_succ_right_eq]
  exact Nat.dvd_mul_left _ _

/-! ## All combinations -/

theorem combinations_zero (n : Nat) : combinations n 0 = [] := by
  have hleast : leastSubset n 0 = none := if_pos (.inl rfl)
  rw [combinations, firstCombinations, hleast]
  cases binomial n 0 <;> rfl

theorem mem_combinations {n k : Nat} {c : List Nat} :
    c ∈ combinations n k ↔ 0 < k ∧ IsSubset n k c := by
  rcases Nat.eq_zero_or_pos k with rfl | hk
  · simp [combinations_zero]
  · rw [combinations_eq_choices n hk, mem_choices_range]
    exact (and_iff_right hk).symm

theorem pairwise_combinations (n k : Nat) : (combinations n k).Pairwise (· < ·) := by
  rcases Nat.eq_zero_or_pos k with rfl | hk
  · rw [combinations_zero]
    exact List.Pairwise.nil
  · rw [combinations_eq_choices n hk]
    exact pairwise_choices k List.pairwise_lt_range

theorem length_combinations (n : Nat) {k : Nat} (hk : 0 < k) :
    (combinations n k).length = n.choose k := by
  rw [combinations_eq_choices n hk, length_choices, List.length_range]

theorem walksThrough_combinations (n k : Nat) :
    (combinations n k).head? = leastSubset n k ∧ WalksThrough n (combinations n k) := by
  rcases Nat.eq_zero_or_pos k with rfl | hk
  · rw [combinations_zero]
    exact ⟨rfl, List.isChain_nil, nofun⟩
  · have hwalk := successor_choices 0 n k
    rw [Nat.zero_add, ← List.range_eq_range', ← combinations_eq_choices n hk] at hwalk
    refine ⟨?_, hwalk⟩
    rw [combinations_eq_choices n hk, leastSubset, List.range_eq_range']
    split
    · next h =>
      rw [choices_eq_nil (by rw [List.length_range']; omega)]
      rfl
    · next h => rw [head?_choices 0 (by omega), ← List.range_eq_range']

/-- **The combinations are all subsets, in lexicographic order.** For all `n` and `k`:

* The walk from the least subset to the successors comes to an end. However many subsets it is asked
  for, it gives the first ones of the same list and then no more.
* The list is in strict lexicographic order, and no subset comes twice. It holds the subsets of size
  `k` and nothing else, and it is empty for `k = 0` and for `k > n`.
* Where a successor is looked for, the subset is not larger than `n`, and the search from behind
  finds it.
* For `k ≥ 1` there are `binomial n k` of them. All quotients that this number is computed by are
  whole, and it is the binomial coefficient. -/
theorem combinations_enumerate_subsets (n k : Nat) :
    ((combinations n k).head? = leastSubset n k ∧ WalksThrough n (combinations n k) ∧
      ∀ m, firstCombinations m n k = (combinations n k).take m) ∧
    ((combinations n k).Pairwise (· < ·) ∧ (combinations n k).Nodup ∧
      (∀ c, c ∈ combinations n k ↔ 0 < k ∧ IsSubset n k c) ∧
      (k = 0 ∨ n < k → combinations n k = [])) ∧
    (∀ c ∈ combinations n k, c.length ≤ n ∧ successor n c = (pivot? n c).map (refill c)) ∧
    (0 < k → (combinations n k).length = binomial n k) ∧
    (binomial n k = n.choose k ∧ (k ≤ n → binomial n k = running n (min k (n - k))) ∧
      ∀ i, i + 1 ∣ running n i * (n - i)) := by
  obtain ⟨hhead, hwalk⟩ := walksThrough_combinations n k
  have hsorted := pairwise_combinations n k
  have hmem {c : List Nat} (hc : c ∈ combinations n k) : IsSubset n k c :=
    (mem_combinations.1 hc).2
  refine ⟨⟨hhead, hwalk, fun m => ?_⟩, ⟨hsorted, hsorted.imp ne_of_lt, fun _ => mem_combinations,
    fun hnone => ?_⟩, fun c hc => ?_, fun hk => ?_, binomial_eq_choose n k, binomial_eq_running,
    dvd_running_mul n⟩
  · rw [firstCombinations, ← hhead, iterate_eq_take hwalk]
  · rw [List.eq_nil_iff_forall_not_mem]
    intro c hc
    have hpos := (mem_combinations.1 hc).1
    have hle := (hmem hc).le
    omega
  · have hle : c.length ≤ n := (hmem hc).length ▸ (hmem hc).le
    exact ⟨hle, successor_eq_refill hle⟩
  · rw [length_combinations n hk, binomial_eq_choose]

end Aperture
