import Aperture.Imaging.Worker
import Aperture.Proofs.Cube.Loops
import Aperture.Proofs.Exact.Scalar
import Mathlib.Algebra.Order.BigOperators.Group.List
import Mathlib.Data.List.Induction

/-!
# Running means are means

Over exact scalars a mean that takes one value after the other is the sum of the values over their
number, as long as they can be counted (`foldlM_add_empty`).

What is done to an image of means is done to each of its cells (`Cellwise`), so a loop over values
or images is a loop for each cell. An image of means is made of the means of its values
(`getElem?_meanImage`), and so is the average of images, where a cell takes the means of the images
that wrote to it (`getElem?_average`). Both have an answer if and only if no cell takes more than
can be counted.

The average does not depend on the order of the images (`average_perm`), and the average of values
that are not negative is zero where no value is positive (`average_ne_zero_iff`).
-/

namespace Aperture

open Exact

variable {K : Type} [Field K]

/-! ## Means -/

namespace Mean

section

variable {R : Type} [Scalar R] {m : Mean R} {xs : List R}

omit [Scalar R] in
theorem count_le (m : Mean R) : m.count.toNat ≤ room := Nat.le_pred_of_lt m.count.toNat_lt

theorem count_fold (h : m.count.toNat < room) (x : R) :
    (m.fold x).count.toNat = m.count.toNat + 1 := by
  have hlt : m.count.toNat + 1 < UInt32.size := Nat.add_lt_of_lt_sub h
  rw [fold, UInt32.toNat_add]
  exact Nat.mod_eq_of_lt hlt

/-- **Values are folded in as long as they can be counted.** -/
theorem foldlM_add (xs : List R) (m : Mean R) : xs.foldlM add m =
    if m.count.toNat + xs.length ≤ room then .ok (xs.foldl fold m) else abort .overflow := by
  induction xs generalizing m with
  | nil => exact (if_pos m.count_le).symm
  | cons x xs ih =>
    rw [List.foldlM_cons, add, List.length_cons]
    rcases Nat.lt_or_ge m.count.toNat room with hlt | hge
    · rw [if_pos hlt]
      refine (ih (m.fold x)).trans ?_
      rw [count_fold hlt, Nat.add_right_comm, Nat.add_assoc]
      rfl
    · rw [if_neg (Nat.not_lt.2 hge), if_neg (by omega)]
      rfl

theorem exists_foldlM_add_iff : (∃ m', xs.foldlM add m = .ok m') ↔
    m.count.toNat + xs.length ≤ room := by
  rw [foldlM_add]
  split
  · next h => exact ⟨fun _ => h, fun _ => ⟨_, rfl⟩⟩
  · next h => exact ⟨fun ⟨_, hok⟩ => (nomatch hok), fun hle => absurd hle h⟩

/-- To join the mean of a cell is to fold in at most one value. -/
theorem join_eq (m : Mean R) (cell : Option (Mean R)) : m.join cell =
    ((cell.filter fun c => c.count != 0).map value).toList.foldlM add m := by
  cases cell with
  | none => rfl
  | some c =>
    by_cases h : c.count = 0
    · simp [join, h, Option.filter_some, pure, Except.pure]
    · simp [join, h, Option.filter_some]

theorem failsOnOverflow_add (m : Mean R) (x : R) : FailsOnOverflow (m.add x) :=
  .ite (.ok _) .overflow

theorem failsOnOverflow_join (m : Mean R) (cell : Option (Mean R)) :
    FailsOnOverflow (m.join cell) := by
  unfold join
  split
  · exact .ite (.ok m) (failsOnOverflow_add m _)
  · exact .ok m

end

/-- The mean of a list of values. -/
def of (xs : List K) : Mean K := ⟨xs.sum / xs.length, UInt32.ofNat xs.length⟩

section

variable [LinearOrder K] [IsStrictOrderedRing K] {xs : List K}

theorem value_of_nonneg (h : ∀ x ∈ xs, 0 ≤ x) : 0 ≤ (of xs).value :=
  div_nonneg (List.sum_nonneg h) (Nat.cast_nonneg _)

theorem value_of_pos_iff (h : ∀ x ∈ xs, 0 ≤ x) : 0 < (of xs).value ↔ ∃ x ∈ xs, 0 < x := by
  constructor
  · intro hpos
    by_contra! hnone
    have hzero : xs.sum = 0 := List.sum_eq_zero fun x hx => le_antisymm (hnone x hx) (h x hx)
    rw [of, hzero, zero_div] at hpos
    exact lt_irrefl 0 hpos
  · rintro ⟨x, hx, hpos⟩
    have hlength : (0 : K) < xs.length := Nat.cast_pos.2 (List.length_pos_of_mem hx)
    exact div_pos (hpos.trans_le (List.single_le_sum h x hx)) hlength

theorem value_of_ne_zero_iff (h : ∀ x ∈ xs, 0 ≤ x) : (of xs).value ≠ 0 ↔ ∃ x ∈ xs, 0 < x := by
  rw [← value_of_pos_iff h, (value_of_nonneg h).lt_iff_ne, ne_comm]

end

variable [LinearOrder K] [FloorRing K]

omit [LinearOrder K] [FloorRing K] in
/-- Values that can be counted are counted. -/
theorem count_of {xs : List K} (h : xs.length ≤ room) : (of xs).count.toNat = xs.length :=
  UInt32.toNat_ofNat_of_lt (Nat.lt_of_le_of_lt h (by decide))

omit [LinearOrder K] [FloorRing K] in
theorem count_of_eq_zero_iff {xs : List K} (h : xs.length ≤ room) :
    (of xs).count = 0 ↔ xs = [] := by
  rw [← UInt32.toNat_inj, count_of h]
  exact List.length_eq_zero_iff

theorem fold_of [IsStrictOrderedRing K] {xs : List K} (h : xs.length < room) (x : K) :
    (of xs).fold x = of (xs ++ [x]) := by
  have hsum : xs.sum / xs.length * xs.length = xs.sum := by
    cases xs with
    | nil => simp
    | cons y ys => exact div_mul_cancel₀ _ (Nat.cast_ne_zero.2 (Nat.succ_ne_zero _))
  rw [fold, count_of (Nat.le_of_lt h)]
  simp only [of, ofNat_eq, one_eq, hsum, List.sum_append, List.sum_singleton,
    List.length_append, List.length_singleton, Nat.cast_add, Nat.cast_one, UInt32.ofNat_add]
  rfl

/-- **A running mean is the mean,** if its values can be counted. -/
theorem foldl_fold_empty [IsStrictOrderedRing K] {xs : List K} (h : xs.length ≤ room) :
    xs.foldl fold empty = of xs := by
  induction xs using List.reverseRecOn with
  | nil => simp [empty, of]
  | append_singleton xs x ih =>
    rw [List.length_append, List.length_singleton] at h
    rw [List.foldl_concat, ih (Nat.le_of_succ_le h), fold_of h]

theorem foldlM_add_empty [IsStrictOrderedRing K] (xs : List K) :
    xs.foldlM add empty = if xs.length ≤ room then .ok (of xs) else abort .overflow := by
  rw [foldlM_add, show (empty : Mean K).count.toNat + xs.length = xs.length from Nat.zero_add _]
  split
  · next h => rw [foldl_fold_empty h]
  · rfl

end Mean

/-! ## Images of means -/

/-- The values written to a cell, in order. -/
def valuesAt {R : Type} (cell : Nat) (writes : List (Write R)) : List R :=
  (writes.filter fun w => w.cell == cell).map Write.value

namespace MeanImage

section

variable {R : Type}

/-- When all cells are known, an image is. -/
theorem ext_cells {p q : MeanImage R}
    (h : ∀ cell : Nat, q.cells[cell]? = p.cells[cell]?) : q = p := by
  obtain ⟨cells⟩ := q
  obtain rfl : cells = p.cells := Array.ext_getElem? h
  rfl

/-- What is done to an image is done to each of its cells, and fails when it fails for one. -/
def Cellwise (step : MeanImage R → Result (MeanImage R))
    (f : Nat → Mean R → Result (Mean R)) : Prop :=
  ∀ p q, step p = .ok q ↔ ∀ cell, q.cells[cell]?.map Except.ok = p.cells[cell]?.map (f cell)

theorem Cellwise.exists_iff {step : MeanImage R → Result (MeanImage R)}
    {f : Nat → Mean R → Result (Mean R)} (h : Cellwise step f) (p : MeanImage R) :
    (∃ q, step p = .ok q) ↔ ∀ cell m, p.cells[cell]? = some m → ∃ m', f cell m = .ok m' := by
  constructor
  · rintro ⟨q, hq⟩ cell m hm
    have hcell := (h p q).1 hq cell
    rw [hm, Option.map_some] at hcell
    obtain ⟨m', -, hm'⟩ := Option.map_eq_some_iff.1 hcell
    exact ⟨m', hm'.symm⟩
  · intro hall
    refine ⟨⟨p.cells.mapIdx fun cell m => (f cell m).toOption.getD m⟩, (h p _).2 fun cell => ?_⟩
    rw [Array.getElem?_mapIdx, Option.map_map]
    cases hm : p.cells[cell]? with
    | none => rfl
    | some m =>
      obtain ⟨m', hm'⟩ := hall cell m hm
      simp [hm', Except.toOption]

theorem Cellwise.size_eq {step : MeanImage R → Result (MeanImage R)}
    {f : Nat → Mean R → Result (Mean R)} (h : Cellwise step f) {p q : MeanImage R}
    (hq : step p = .ok q) : q.cells.size = p.cells.size := by
  have hcells := (h p q).1 hq
  refine Nat.le_antisymm ?_ ?_
  · rw [← Array.getElem?_eq_none_iff, ← Option.map_eq_none_iff (f := Except.ok), hcells,
      Option.map_eq_none_iff, Array.getElem?_eq_none_iff]
  · rw [← Array.getElem?_eq_none_iff, ← Option.map_eq_none_iff, ← hcells, Option.map_eq_none_iff,
      Array.getElem?_eq_none_iff]

/-- What comes after a step starts from the cells that the step left behind. -/
theorem Cellwise.map_bind {step : MeanImage R → Result (MeanImage R)}
    {f : Nat → Mean R → Result (Mean R)} (h : Cellwise step f) {p q : MeanImage R}
    (hq : step p = .ok q) (g : Mean R → Result (Mean R)) (cell : Nat) :
    (p.cells[cell]?.map fun m => f cell m >>= g) = q.cells[cell]?.map g := by
  have hcell := (h p q).1 hq cell
  cases hm : p.cells[cell]? with
  | none =>
    rw [hm, Option.map_none, Option.map_eq_none_iff] at hcell
    rw [hcell]
    rfl
  | some m =>
    rw [hm, Option.map_some] at hcell
    obtain ⟨m', hm', hf⟩ := Option.map_eq_some_iff.1 hcell
    rw [hm', Option.map_some, Option.map_some, ← hf]
    rfl

/-- **A loop over an image is a loop for each of its cells.** -/
theorem Cellwise.foldlM {α : Type} {step : MeanImage R → α → Result (MeanImage R)}
    {f : α → Nat → Mean R → Result (Mean R)} (h : ∀ a, Cellwise (fun p => step p a) (f a))
    (l : List α) :
    Cellwise (fun p => l.foldlM step p) fun cell m => l.foldlM (fun m a => f a cell m) m := by
  induction l with
  | nil =>
    intro p q
    refine ⟨fun hsame cell => ?_, fun hall => ?_⟩
    · obtain rfl := Except.ok.inj hsame
      rfl
    · have hcells (cell) : p.cells[cell]? = q.cells[cell]? :=
        (Option.map_injective (fun _ _ => Except.ok.inj) (hall cell)).symm
      exact congrArg Except.ok (ext_cells hcells)
  | cons a l ih =>
    intro p q
    simp only [List.foldlM_cons, bind_eq_ok_iff]
    constructor
    · rintro ⟨r, hr, hq⟩ cell
      exact ((ih r q).1 hq cell).trans ((h a).map_bind hr _ cell).symm
    · intro hall
      obtain ⟨r, hr⟩ : ∃ r, step p a = .ok r := by
        refine ((h a).exists_iff p).2 fun cell m hm => ?_
        have hcell := hall cell
        rw [hm, Option.map_some] at hcell
        obtain ⟨last, -, hlast⟩ := Option.map_eq_some_iff.1 hcell
        obtain ⟨m', hm', -⟩ := bind_eq_ok_iff.1 hlast.symm
        exact ⟨m', hm'⟩
      exact ⟨r, hr, (ih r q).2 fun cell => (hall cell).trans ((h a).map_bind hr _ cell)⟩

variable [Scalar R]

theorem write_of_none {p : MeanImage R} {cell : Nat} (h : p.cells[cell]? = none) (value : R) :
    p.write cell value = .ok p := by
  simp only [write, h]

theorem write_of_some {p : MeanImage R} {cell : Nat} {m : Mean R} (h : p.cells[cell]? = some m)
    (value : R) : p.write cell value =
      (m.add value).map fun m' => ⟨p.cells.setIfInBounds cell m'⟩ := by
  simp only [write, h]
  cases m.add value <;> rfl

theorem cellwise_write (cell : Nat) (value : R) :
    Cellwise (fun p => p.write cell value) fun i m => if i = cell then m.add value else .ok m := by
  intro p q
  show p.write cell value = .ok q ↔ _
  -- Either way, the cells of an answer are known one by one.
  have hsame {r : MeanImage R} (hcells : ∀ i : Nat,
      (p.cells[i]?.map fun m => if i = cell then m.add value else .ok m) = r.cells[i]?.map .ok) :
      r = q ↔ ∀ i : Nat, q.cells[i]?.map .ok =
        p.cells[i]?.map fun m => if i = cell then m.add value else .ok m := by
    simp only [hcells]
    exact ⟨fun h i => h ▸ rfl, fun h => (ext_cells fun i =>
      Option.map_injective (fun _ _ => Except.ok.inj) (h i)).symm⟩
  cases hm : p.cells[cell]? with
  | none =>
    rw [write_of_none hm, Except.ok.injEq]
    refine hsame fun i => ?_
    split
    · next hi => rw [hi, hm]; rfl
    · rfl
  | some m =>
    rw [write_of_some hm]
    cases hadd : m.add value with
    | error e =>
      refine ⟨fun h => ?_, fun h => ?_⟩
      · cases h
      · have hcell : q.cells[cell]?.map Except.ok = some (m.add value) := by simpa [hm] using h cell
        obtain ⟨_, -, hok⟩ := Option.map_eq_some_iff.1 hcell
        rw [hadd] at hok
        cases hok
    | ok m' =>
      have hcell := (Array.getElem?_eq_some_iff.1 hm).1
      rw [Except.map, Except.ok.injEq]
      refine hsame fun i => ?_
      rw [Array.getElem?_setIfInBounds]
      rcases eq_or_ne cell i with rfl | hi
      · rw [if_pos rfl, if_pos hcell, hm, Option.map_some, if_pos rfl, hadd, Option.map_some]
      · simp [hi, hi.symm]

theorem cellwise_merge (p : MeanImage R) :
    Cellwise (fun means => merge means p) fun i m => m.join p.cells[i]? := by
  intro means q
  simp only [merge, bind_eq_ok_iff, mapM_eq_ok_iff, List.map_id, Except.ok.injEq]
  constructor
  · rintro ⟨cells, hcells, rfl⟩ i
    have hi := congrArg (fun l => l[i]?) hcells
    simpa using hi.symm
  · intro h
    refine ⟨q.cells.toList, List.ext_getElem? fun i => ?_, rfl⟩
    simpa using (h i).symm

/-- A loop over values is a loop over the values of each cell. -/
theorem cellwise_writes (writes : List (Write R)) :
    Cellwise (fun p => writes.foldlM (fun p w => p.write w.cell w.value) p)
      fun cell m => (valuesAt cell writes).foldlM Mean.add m := by
  have hvalues (cell : Nat) (m : Mean R) :
      writes.foldlM (fun m w => if cell = w.cell then m.add w.value else .ok m) m =
        (valuesAt cell writes).foldlM Mean.add m := by
    induction writes generalizing m with
    | nil => rfl
    | cons w writes ih =>
      rw [List.foldlM_cons]
      rcases eq_or_ne cell w.cell with rfl | hne
      · have hhere : valuesAt w.cell (w :: writes) = w.value :: valuesAt w.cell writes := by
          simp [valuesAt]
        rw [if_pos rfl, hhere, List.foldlM_cons]
        exact congrArg _ (funext ih)
      · have hthere : valuesAt cell (w :: writes) = valuesAt cell writes := by
          simp [valuesAt, hne.symm]
        rw [if_neg hne, hthere]
        exact ih m
  have hloop := Cellwise.foldlM (fun w : Write R => cellwise_write w.cell w.value) writes
  simpa only [hvalues] using hloop

/-- What the images contribute to a cell: the means of those that wrote to it. -/
def shares {R : Type} (cell : Nat) (images : List (MeanImage R)) : List R :=
  (images.filterMap fun p => p.cells[cell]?.filter fun m => m.count != 0).map Mean.value

omit [Scalar R] in
theorem shares_cons (cell : Nat) (p : MeanImage R) (images : List (MeanImage R)) :
    shares cell (p :: images) =
      ((p.cells[cell]?.filter fun m => m.count != 0).map Mean.value).toList ++
        shares cell images := by
  simp only [shares, List.filterMap_cons]
  cases p.cells[cell]?.filter fun m => m.count != 0 <;> rfl

/-- A loop over images is a loop over what they contribute to each cell. -/
theorem cellwise_merges (images : List (MeanImage R)) :
    Cellwise (fun means => images.foldlM merge means)
      fun cell m => (shares cell images).foldlM Mean.add m := by
  have hshares (cell : Nat) (m : Mean R) :
      images.foldlM (fun m p => m.join p.cells[cell]?) m =
        (shares cell images).foldlM Mean.add m := by
    induction images generalizing m with
    | nil => rfl
    | cons p images ih =>
      rw [List.foldlM_cons, shares_cons, List.foldlM_append, Mean.join_eq]
      exact congrArg _ (funext ih)
  have hloop := Cellwise.foldlM cellwise_merge images
  simpa only [hshares] using hloop

theorem failsOnOverflow_write (p : MeanImage R) (cell : Nat) (value : R) :
    FailsOnOverflow (p.write cell value) := by
  unfold write
  split
  · exact .ok p
  · exact (Mean.failsOnOverflow_add _ value).bind fun _ => .ok _

theorem failsOnOverflow_merge (means p : MeanImage R) : FailsOnOverflow (merge means p) := by
  refine (FailsOnOverflow.mapM fun x hx => ?_).bind fun _ => .ok _
  obtain ⟨i, -, rfl⟩ := List.mem_mapIdx.1 hx
  exact Mean.failsOnOverflow_join _ _

theorem failsOnOverflow_average (images : List (MeanImage R)) (size : Nat) :
    FailsOnOverflow (average images size) :=
  (FailsOnOverflow.foldlM failsOnOverflow_merge images _).bind fun _ => .ok _

/-! ### Images that start blank -/

theorem getElem?_blank (size cell : Nat) :
    (blank size : MeanImage R).cells[cell]? = if cell < size then some .empty else none := by
  rw [blank, Array.getElem?_replicate]

/-- What becomes of a cell of a blank image. -/
theorem Cellwise.getElem?_of_blank {step : MeanImage R → Result (MeanImage R)}
    {f : Nat → Mean R → Result (Mean R)} (h : Cellwise step f) {size cell : Nat} {q : MeanImage R}
    (hq : step (blank size) = .ok q) (hcell : cell < size) :
    ∃ m, q.cells[cell]? = some m ∧ f cell .empty = .ok m := by
  have hmapped := (h _ q).1 hq cell
  rw [getElem?_blank, if_pos hcell, Option.map_some] at hmapped
  obtain ⟨m, hm, hf⟩ := Option.map_eq_some_iff.1 hmapped
  exact ⟨m, hm, hf.symm⟩

/-- **Cells of a blank image take as many values as can be counted.** -/
theorem Cellwise.exists_of_blank_iff {step : MeanImage R → Result (MeanImage R)}
    {values : Nat → List R} (h : Cellwise step fun cell m => (values cell).foldlM Mean.add m)
    (size : Nat) : (∃ p, step (blank size) = .ok p) ↔
      ∀ cell < size, (values cell).length ≤ Mean.room := by
  rw [h.exists_iff]
  refine forall_congr' fun cell => ?_
  rw [getElem?_blank]
  split
  · next hcell =>
    simp only [Option.some.injEq, forall_eq', hcell, true_imp_iff, Mean.exists_foldlM_add_iff]
    rw [show (Mean.empty : Mean R).count.toNat = 0 from rfl, Nat.zero_add]
  · next hcell => simp [hcell]

theorem exists_writes_iff {writes : List (Write R)} {size : Nat} :
    (∃ p, writes.foldlM (fun p w => p.write w.cell w.value) (blank size) = .ok p) ↔
      ∀ cell < size, (valuesAt cell writes).length ≤ Mean.room :=
  (cellwise_writes writes).exists_of_blank_iff size

theorem exists_average_iff {images : List (MeanImage R)} {size : Nat} :
    (∃ cells, average images size = .ok cells) ↔
      ∀ cell < size, (shares cell images).length ≤ Mean.room := by
  rw [← (cellwise_merges images).exists_of_blank_iff]
  simp only [average, bind_eq_ok_iff, Except.ok.injEq]
  exact ⟨fun ⟨_, means, h, _⟩ => ⟨means, h⟩, fun ⟨means, h⟩ => ⟨_, means, h, rfl⟩⟩

theorem size_average {images : List (MeanImage R)} {size : Nat} {cells : Array R}
    (h : average images size = .ok cells) : cells.size = size := by
  obtain ⟨means, hmeans, h⟩ := bind_eq_ok_iff.1 h
  obtain rfl := Except.ok.inj h
  rw [Array.size_map, (cellwise_merges images).size_eq hmeans, blank, Array.size_replicate]

end

/-! ### Images of exact scalars -/

variable [LinearOrder K] [FloorRing K] [IsStrictOrderedRing K]

/-- A worker's own image holds the means of what it wrote. -/
theorem getElem?_meanImage {r : WorkerRun K} {p : MeanImage K} {size cell : Nat}
    (hp : r.meanImage size = .ok p) (h : cell < size) :
    (valuesAt cell r.writes).length ≤ Mean.room ∧
      p.cells[cell]? = some (Mean.of (valuesAt cell r.writes)) := by
  have hcount := exists_writes_iff.1 ⟨p, hp⟩ cell h
  obtain ⟨m, hm, hok⟩ := (cellwise_writes r.writes).getElem?_of_blank hp h
  rw [Mean.foldlM_add_empty, if_pos hcount] at hok
  exact ⟨hcount, hm.trans (congrArg some (Except.ok.inj hok).symm)⟩

/-- **The average of images is the mean of their means.** -/
theorem getElem?_average {images : List (MeanImage K)} {size cell : Nat} {cells : Array K}
    (hcells : average images size = .ok cells) (h : cell < size) :
    cells[cell]? = some (Mean.of (shares cell images)).value := by
  have hcount := exists_average_iff.1 ⟨cells, hcells⟩ cell h
  obtain ⟨means, hmeans, hvalues⟩ := bind_eq_ok_iff.1 hcells
  obtain rfl := Except.ok.inj hvalues
  obtain ⟨m, hm, hok⟩ := (cellwise_merges images).getElem?_of_blank hmeans h
  rw [Mean.foldlM_add_empty, if_pos hcount] at hok
  rw [Array.getElem?_map, hm, Except.ok.inj hok]
  rfl

end MeanImage

/-! ## Averages of workers -/

namespace WorkerRun

section

variable {R : Type} [Scalar R] {runs : List (WorkerRun R)} {size : Nat}

theorem failsOnOverflow_average (size : Nat) (runs : List (WorkerRun R)) :
    FailsOnOverflow (average size runs) := by
  refine (FailsOnOverflow.mapM fun r _ => ?_).bind fun images =>
    MeanImage.failsOnOverflow_average images size
  exact .foldlM (fun p w => MeanImage.failsOnOverflow_write p w.cell w.value) r.writes _

/-- The images of the workers whose average was taken. -/
theorem exists_images {cells : Array R} (h : average size runs = .ok cells) :
    ∃ images, runs.map (meanImage size) = images.map .ok ∧
      MeanImage.average images size = .ok cells := by
  obtain ⟨images, himages, haverage⟩ := bind_eq_ok_iff.1 h
  exact ⟨images, mapM_eq_ok_iff.1 himages, haverage⟩

theorem size_average {cells : Array R} (h : average size runs = .ok cells) : cells.size = size := by
  obtain ⟨images, -, haverage⟩ := exists_images h
  exact MeanImage.size_average haverage

/-- In each cell, every worker can count its values, and the workers that wrote there can be
counted. -/
def Counted {R : Type} (size : Nat) (runs : List (WorkerRun R)) : Prop :=
  ∀ cell < size, (∀ r ∈ runs, (valuesAt cell r.writes).length ≤ Mean.room) ∧
    (runs.countP fun r => !(valuesAt cell r.writes).isEmpty) ≤ Mean.room

end

variable [LinearOrder K] [FloorRing K] [IsStrictOrderedRing K] {runs : List (WorkerRun K)}
  {images : List (MeanImage K)} {size cell : Nat} {cells : Array K}

/-- Workers that wrote nothing to a cell have no share in it. -/
theorem shares_eq (himages : runs.map (meanImage size) = images.map .ok) (h : cell < size) :
    MeanImage.shares cell images =
      ((runs.map fun r => valuesAt cell r.writes).filter fun xs => !xs.isEmpty).map
        fun xs => (Mean.of xs).value := by
  induction runs generalizing images with
  | nil =>
    obtain rfl := List.map_eq_nil_iff.1 himages.symm
    rfl
  | cons r runs ih =>
    obtain ⟨p, images, rfl⟩ : ∃ p images', images = p :: images' := by
      cases images with
      | nil => cases himages
      | cons p images => exact ⟨p, images, rfl⟩
    obtain ⟨hp, hrest⟩ := List.cons.inj himages
    obtain ⟨hcount, hcell⟩ := MeanImage.getElem?_meanImage hp h
    rw [MeanImage.shares_cons, ih hrest, hcell, List.map_cons, Option.filter_some]
    have hempty : ((Mean.of (valuesAt cell r.writes)).count != 0) =
        !(valuesAt cell r.writes).isEmpty := by
      rw [Bool.eq_iff_iff, bne_iff_ne, ne_eq, Mean.count_of_eq_zero_iff hcount]
      simp
    rw [hempty]
    cases hvalues : valuesAt cell r.writes <;> simp

/-- **When workers can be averaged.** -/
theorem exists_average_iff : (∃ cells, average size runs = .ok cells) ↔ Counted size runs := by
  have hlength {images : List (MeanImage K)} (himages : runs.map (meanImage size) = images.map .ok)
      {cell : Nat} (hcell : cell < size) : (MeanImage.shares cell images).length =
        runs.countP fun r => !(valuesAt cell r.writes).isEmpty := by
    rw [shares_eq himages hcell, List.length_map, List.filter_map, List.length_map,
      ← List.countP_eq_length_filter]
    rfl
  constructor
  · rintro ⟨cells, h⟩ cell hcell
    obtain ⟨images, himages, haverage⟩ := exists_images h
    refine ⟨fun r hr => ?_, ?_⟩
    · have hmem : r.meanImage size ∈ images.map .ok := himages ▸ List.mem_map_of_mem hr
      obtain ⟨p, -, hp⟩ := List.mem_map.1 hmem
      exact (MeanImage.getElem?_meanImage hp.symm hcell).1
    · rw [← hlength himages hcell]
      exact MeanImage.exists_average_iff.1 ⟨cells, haverage⟩ cell hcell
  · intro hall
    obtain ⟨images, himages⟩ : ∃ images, runs.mapM (meanImage size) = .ok images := by
      have hruns (r) (hr : r ∈ runs) : ∃ p, r.meanImage size = .ok p :=
        MeanImage.exists_writes_iff.2 fun cell hcell => (hall cell hcell).1 r hr
      obtain ⟨images, h, -⟩ := exists_mapM hruns
      exact ⟨images, h⟩
    obtain ⟨cells, hcells⟩ : ∃ cells, MeanImage.average images size = .ok cells := by
      refine MeanImage.exists_average_iff.2 fun cell hcell => ?_
      rw [hlength (mapM_eq_ok_iff.1 himages) hcell]
      exact (hall cell hcell).2
    exact ⟨cells, bind_eq_ok_iff.2 ⟨images, himages, hcells⟩⟩

/-! ## Values that are not negative -/

theorem mem_shares (himages : runs.map (meanImage size) = images.map .ok) (hcell : cell < size)
    {x : K} : x ∈ MeanImage.shares cell images ↔
      ∃ r ∈ runs, valuesAt cell r.writes ≠ [] ∧ (Mean.of (valuesAt cell r.writes)).value = x := by
  rw [shares_eq himages hcell]
  simp [and_assoc]

/-- A cell of the average is zero unless a worker has a positive value in it. -/
theorem average_ne_zero_iff (h : average size runs = .ok cells) (hcell : cell < size)
    (hvalues : ∀ r ∈ runs, ∀ v ∈ valuesAt cell r.writes, 0 ≤ v) :
    ∃ y, cells[cell]? = some y ∧
      (y ≠ 0 ↔ ∃ r ∈ runs, ∃ v ∈ valuesAt cell r.writes, 0 < v) := by
  obtain ⟨images, himages, haverage⟩ := exists_images h
  refine ⟨_, MeanImage.getElem?_average haverage hcell, ?_⟩
  rw [Mean.value_of_ne_zero_iff]
  · constructor
    · rintro ⟨x, hx, hpos⟩
      obtain ⟨r, hr, -, rfl⟩ := (mem_shares himages hcell).1 hx
      exact ⟨r, hr, (Mean.value_of_pos_iff (hvalues r hr)).1 hpos⟩
    · rintro ⟨r, hr, v, hv, hpos⟩
      have hmean := (Mean.value_of_pos_iff (hvalues r hr)).2 ⟨v, hv, hpos⟩
      exact ⟨_, (mem_shares himages hcell).2 ⟨r, hr, List.ne_nil_of_mem hv, rfl⟩, hmean⟩
  · intro x hx
    obtain ⟨r, hr, -, rfl⟩ := (mem_shares himages hcell).1 hx
    exact Mean.value_of_nonneg (hvalues r hr)

end WorkerRun

end Aperture
