import Aperture.Combinations
import Mathlib.Data.List.Chain
import Mathlib.Data.List.Sublists
import Mathlib.Data.Nat.Choose.Basic

/-!
# Combinations are the sublists of a length

`choices k l` lists the sublists of `l` of length `k` in the lexicographic order of their positions.
It does not walk from one sublist to the next; it either takes the first item or leaves it.

* `choices_perm`: up to the order they are Mathlib's `List.sublistsLen`.
* `successor_choices`: on a range of numbers, each choice is the successor of the one before, and
  the last one has no successor.
* `binomial_eq_choose`: every division in `binomial` is exact.

Main results: `combinations_eq_choices`.
-/

namespace Aperture

variable {α β : Type}

/-- The sublists of length `k`, those with the first item first. -/
def choices : Nat → List α → List (List α)
  | 0, _ => [[]]
  | _ + 1, [] => []
  | k + 1, a :: l => (choices k l).map (a :: ·) ++ choices (k + 1) l

theorem choices_perm (k : Nat) (l : List α) : (choices k l).Perm (l.sublistsLen k) := by
  induction l generalizing k with
  | nil => cases k <;> exact List.Perm.refl _
  | cons a l ih =>
    cases k with
    | zero => exact List.Perm.refl _
    | succ k =>
      rw [List.sublistsLen_succ_cons, choices]
      exact (((ih k).map (a :: ·)).append (ih (k + 1))).trans List.perm_append_comm

theorem mem_choices {k : Nat} {l s : List α} : s ∈ choices k l ↔ s.Sublist l ∧ s.length = k := by
  rw [(choices_perm k l).mem_iff, List.mem_sublistsLen]

theorem length_choices (k : Nat) (l : List α) : (choices k l).length = l.length.choose k := by
  rw [(choices_perm k l).length_eq, List.length_sublistsLen]

theorem nodup_choices (k : Nat) {l : List α} (h : l.Nodup) : (choices k l).Nodup :=
  (choices_perm k l).nodup_iff.2 (List.nodup_sublistsLen k h)

theorem choices_map (f : α → β) (k : Nat) (l : List α) :
    choices k (l.map f) = (choices k l).map (List.map f) := by
  induction l generalizing k with
  | nil => cases k <;> rfl
  | cons a l ih =>
    cases k with
    | zero => rfl
    | succ k =>
      simp only [choices, List.map_cons, List.map_append, ih, List.map_map]
      rfl

/-! ## Walking through the choices -/

theorem choices_eq_nil {k : Nat} {l : List α} (h : l.length < k) : choices k l = [] := by
  rw [← List.length_eq_zero_iff, length_choices, Nat.choose_eq_zero_of_lt h]

theorem head?_choices (lo : Nat) {gap k : Nat} (h : k ≤ gap) :
    (choices k (List.range' lo gap)).head? = some (List.range' lo k) := by
  induction gap generalizing lo k with
  | zero =>
    obtain rfl := Nat.le_zero.1 h
    rfl
  | succ gap ih =>
    cases k with
    | zero => rfl
    | succ k =>
      have hhead := ih (lo + 1) (Nat.le_of_succ_le_succ h)
      rw [List.range'_succ, choices, List.head?_append, List.head?_map, hhead]
      rfl

/-- The walk goes from each choice to the next one and ends at the last one. -/
structure WalksThrough (n : Nat) (l : List (List Nat)) : Prop where
  next : l.IsChain fun c d => successor n c = some d
  last : ∀ c ∈ l.getLast?, successor n c = none

theorem successor_cons_of_some {n a : Nat} {c d : List Nat} (h : successor n c = some d) :
    successor n (a :: c) = some (a :: d) := by
  simp [successor, h]

theorem successor_cons_of_none {n a : Nat} {c : List Nat} (h : successor n c = none) :
    successor n (a :: c) =
      if a + c.length + 1 < n then some (List.range' (a + 1) (c.length + 1)) else none := by
  simp [successor, h]

theorem successor_choices (lo gap k : Nat) :
    WalksThrough (lo + gap) (choices k (List.range' lo gap)) := by
  induction gap generalizing lo k with
  | zero =>
    cases k with
    | zero => exact ⟨List.isChain_singleton _, fun c hc => by
        obtain rfl := Option.some.inj hc
        rfl⟩
    | succ k => exact ⟨List.isChain_nil, fun c hc => by cases hc⟩
  | succ gap ih =>
    cases k with
    | zero => exact ⟨List.isChain_singleton _, fun c hc => by
        obtain rfl := Option.some.inj hc
        rfl⟩
    | succ k =>
      have hfirst := ih (lo + 1) k
      have hrest := ih (lo + 1) (k + 1)
      rw [show lo + 1 + gap = lo + (gap + 1) by omega] at hfirst hrest
      rw [List.range'_succ, choices]
      -- The last choice with the first number cannot grow behind it, so that number grows.
      have hturn (x) (hx : x ∈ ((choices k (List.range' (lo + 1) gap)).map (lo :: ·)).getLast?) :
          successor (lo + (gap + 1)) x =
            if k < gap then some (List.range' (lo + 1) (k + 1)) else none := by
        rw [List.getLast?_map] at hx
        obtain ⟨c, hc, rfl⟩ := Option.map_eq_some_iff.1 hx
        have hlength := (mem_choices.1 (List.mem_of_getLast? hc)).2
        rw [successor_cons_of_none (hfirst.last c hc), hlength]
        exact if_congr (by omega) rfl rfl
      refine ⟨List.isChain_append.2 ⟨?_, hrest.next, fun x hx y hy => ?_⟩, fun c hc => ?_⟩
      · rw [List.isChain_map]
        exact hfirst.next.imp fun c d h => successor_cons_of_some h
      · rcases Nat.lt_or_ge k gap with hlt | hge
        · rw [head?_choices (lo + 1) hlt] at hy
          rw [hturn x hx, if_pos hlt, Option.some.inj hy]
        · rw [choices_eq_nil (by simpa using Nat.lt_succ_of_le hge)] at hy
          cases hy
      · rw [List.getLast?_append] at hc
        cases hlast : (choices (k + 1) (List.range' (lo + 1) gap)).getLast? with
        | some d =>
          rw [hlast] at hc
          obtain rfl := Option.some.inj hc
          exact hrest.last d hlast
        | none =>
          rw [hlast] at hc
          rw [hturn c hc, if_neg]
          intro hlt
          have hhead := head?_choices (lo + 1) (Nat.succ_le_of_lt hlt)
          rw [List.getLast?_eq_none_iff.1 hlast] at hhead
          cases hhead

theorem iterate_eq_take {n : Nat} {l : List (List Nat)} (h : WalksThrough n l) (m : Nat) :
    iterate n m l.head? = l.take m := by
  induction l generalizing m with
  | nil => cases m <;> rfl
  | cons c l ih =>
    cases m with
    | zero => rfl
    | succ m =>
      have hnext : successor n c = l.head? := by
        cases l with
        | nil => exact h.last c rfl
        | cons d l => exact (List.isChain_cons_cons.1 h.next).1
      have hrest : WalksThrough n l := by
        refine ⟨h.next.tail, fun d hd => h.last d ?_⟩
        rw [List.getLast?_cons, hd]
        rfl
      show c :: iterate n m (successor n c) = c :: l.take m
      rw [hnext, ih hrest]

/-- The choices of positions are the positions of the choices. -/
theorem choices_positions (k : Nat) (l : List α) :
    (choices k (List.range l.length)).map (fun c => c.filterMap fun i => l[i]?) = choices k l := by
  have hfrom (gap : Nat) : ∀ lo k, l.length = lo + gap →
      (choices k (List.range' lo gap)).map (fun c => c.filterMap fun i => l[i]?) =
        choices k (l.drop lo) := by
    induction gap with
    | zero =>
      intro lo k hlength
      rw [List.drop_eq_nil_of_le (by omega)]
      cases k <;> rfl
    | succ gap ih =>
      intro lo k hlength
      cases k with
      | zero => cases l.drop lo <;> rfl
      | succ k =>
        have hlo : lo < l.length := by omega
        rw [List.range'_succ, choices, List.drop_eq_getElem_cons hlo, choices, List.map_append,
          ih (lo + 1) (k + 1) (by omega), ← ih (lo + 1) k (by omega), List.map_map, List.map_map]
        simp [List.getElem?_eq_getElem hlo, Function.comp_def]
  have hall := hfrom l.length 0 k (by omega)
  rwa [← List.range_eq_range', List.drop_zero] at hall

/-! ## How many there are -/

theorem foldl_binomial (n j : Nat) :
    (List.range j).foldl (fun c i => c * (n - i) / (i + 1)) 1 = n.choose j := by
  induction j with
  | zero => exact (Nat.choose_zero_right n).symm
  | succ j ih =>
    rw [List.range_succ, List.foldl_append, ih]
    show n.choose j * (n - j) / (j + 1) = n.choose (j + 1)
    rw [← Nat.choose_succ_right_eq, Nat.mul_div_cancel _ (Nat.succ_pos j)]

theorem binomial_eq_choose (n k : Nat) : binomial n k = n.choose k := by
  unfold binomial
  split
  · next h => exact (Nat.choose_eq_zero_of_lt h).symm
  · next h =>
    rw [foldl_binomial]
    rcases Nat.le_total k (n - k) with hle | hle
    · rw [Nat.min_eq_left hle]
    · rw [Nat.min_eq_right hle, Nat.choose_symm (Nat.not_lt.1 h)]

/-- **The combinations are the increasing lists of numbers below `n`, in lexicographic order.** -/
theorem combinations_eq_choices (n : Nat) {k : Nat} (hk : 0 < k) :
    combinations n k = choices k (List.range n) := by
  have hwalk := successor_choices 0 n k
  rw [Nat.zero_add, ← List.range_eq_range'] at hwalk
  have hlength := length_choices k (List.range n)
  rw [List.length_range] at hlength
  rw [combinations, firstCombinations, binomial_eq_choose, leastSubset]
  split
  · next h =>
    have hlt : n < k := by omega
    rw [choices_eq_nil (by simpa using hlt)]
    cases n.choose k <;> rfl
  · next h =>
    have hhead : (choices k (List.range' 0 n)).head? = some (List.range' 0 k) :=
      head?_choices 0 (by omega)
    rw [← List.range_eq_range', ← List.range_eq_range'] at hhead
    rw [← hhead, iterate_eq_take hwalk, ← hlength, List.take_length]

end Aperture
