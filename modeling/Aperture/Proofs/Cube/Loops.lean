import Aperture.Fourier.Transform
import Mathlib.Data.List.Forall2
import Mathlib.Data.List.Pairwise

/-!
# Loops over the cells of a grid

Loops that read and write cells which are there, and what they leave in the cells.

* `Grid.exists_gather`: reads of a number of cells give their values in order.
* `Grid.exists_scatter`: writes to different cells leave each value in its cell and nothing else.
* `exists_transformAxis`: the lines of a transform stay in the blocks that were counted, and these
  fill no more than the buffer, whatever the shape says. The lines do not meet, so each one is
  transformed as it was before the loop.
* `transformAxes_answers`: a transform stops only where a block has no cells, and for which shapes
  this happens.
-/

namespace Aperture

/-! ## Loops that always answer -/

theorem foldlM_eq_ok {α σ : Type} {f : σ → α → Result σ} {g : σ → α → σ} {l : List α}
    (step : ∀ a ∈ l, ∀ s, f s a = .ok (g s a)) (s : σ) : l.foldlM f s = .ok (l.foldl g s) := by
  induction l generalizing s with
  | nil => rfl
  | cons a l ih =>
    exact bind_eq_ok_iff.2 ⟨g s a, step a List.mem_cons_self s,
      ih (fun b hb => step b (List.mem_cons_of_mem _ hb)) (g s a)⟩

/-- A loop that counts keeps an invariant that counts along. -/
theorem exists_foldlM_range {σ : Type} {P : Nat → σ → Prop} {f : σ → Nat → Result σ} {n : Nat}
    (step : ∀ i < n, ∀ s, P i s → ∃ t, f s i = .ok t ∧ P (i + 1) t) {s : σ} (hs : P 0 s) :
    ∃ t, (List.range n).foldlM f s = .ok t ∧ P n t := by
  induction n with
  | zero => exact ⟨s, rfl, hs⟩
  | succ n ih =>
    obtain ⟨t, hinit, ht⟩ := ih fun i hi => step i (Nat.lt_succ_of_lt hi)
    obtain ⟨u, hlast, hu⟩ := step n (Nat.lt_succ_self n) t ht
    refine ⟨u, ?_, hu⟩
    rw [List.range_succ, List.foldlM_append]
    exact bind_eq_ok_iff.2 ⟨t, hinit, bind_eq_ok_iff.2 ⟨u, hlast, rfl⟩⟩

theorem exists_mapM {α β : Type} {f : α → Result β} {l : List α}
    (h : ∀ a ∈ l, ∃ b, f a = .ok b) :
    ∃ bs, l.mapM f = .ok bs ∧ List.Forall₂ (fun a b => f a = .ok b) l bs := by
  induction l with
  | nil => exact ⟨[], rfl, .nil⟩
  | cons a l ih =>
    obtain ⟨b, hb⟩ := h a List.mem_cons_self
    obtain ⟨bs, hbs, hall⟩ := ih fun c hc => h c (List.mem_cons_of_mem _ hc)
    refine ⟨b :: bs, ?_, .cons hb hall⟩
    rw [List.mapM_cons]
    exact bind_eq_ok_iff.2 ⟨b, hb, bind_eq_ok_iff.2 ⟨bs, hbs, rfl⟩⟩

namespace Grid

variable {α : Type}

theorem cellAt_eq_ok_iff {data : Array α} {i : Nat} {value : α} :
    cellAt data i = .ok value ↔ data[i]? = some value := by
  unfold cellAt
  split
  · next h => rw [Array.getElem?_eq_getElem h, Except.ok.injEq, Option.some.injEq]
  · next h => simp [abort, h]

/-- Cells that are there are read in order. -/
theorem exists_gather {data : Array α} {n : Nat} {cell : Nat → Nat}
    (hin : ∀ k < n, cell k < data.size) :
    ∃ values, (List.range n).mapM (fun k => cellAt data (cell k)) = .ok values ∧
      values.length = n ∧ ∀ k < n, values[k]? = data[cell k]? := by
  obtain ⟨values, hvalues, hread⟩ : ∃ values,
      (List.range n).mapM (fun k => cellAt data (cell k)) = .ok values ∧
        List.Forall₂ (fun k a => cellAt data (cell k) = .ok a) (List.range n) values :=
    exists_mapM fun k hk => ⟨_, cellAt_of_lt (hin k (List.mem_range.1 hk))⟩
  have hlength : values.length = n := by rw [← hread.length_eq, List.length_range]
  refine ⟨values, hvalues, hlength, fun k hk => ?_⟩
  have hk' : k < values.length := hlength ▸ hk
  have hat := hread.get (by rwa [List.length_range]) hk'
  rw [List.get_eq_getElem, List.getElem_range, cellAt_eq_ok_iff] at hat
  rw [hat, List.getElem?_eq_getElem hk', List.get_eq_getElem]

/-- Writes to different cells leave each value in its cell, and the other cells as they were. -/
theorem exists_scatter {β : Type} {l : List β} {step : Array α → β → Result (Array α)}
    {cell : β → Nat} {value : β → α}
    (hstep : ∀ b ∈ l, ∀ out, step out b = setCell out (cell b) (value b))
    (hapart : l.Pairwise fun b c => cell b ≠ cell c) {data : Array α}
    (hin : ∀ b ∈ l, cell b < data.size) :
    ∃ out, l.foldlM step data = .ok out ∧ out.size = data.size ∧
      (∀ b ∈ l, out[cell b]? = some (value b)) ∧
      ∀ i, (∀ b ∈ l, cell b ≠ i) → out[i]? = data[i]? := by
  induction l generalizing data with
  | nil => exact ⟨data, rfl, rfl, nofun, fun _ _ => rfl⟩
  | cons b l ih =>
    rw [List.forall_mem_cons] at hstep hin
    rw [List.pairwise_cons] at hapart
    let next := data.set (cell b) (value b) hin.1
    have hnext : step data b = .ok next := (hstep.1 data).trans (setCell_of_lt hin.1 _)
    have hsize : next.size = data.size := Array.size_set hin.1
    have hrest : ∀ c ∈ l, cell c < next.size := by rw [hsize]; exact hin.2
    obtain ⟨out, hout, hlength, hwritten, hkept⟩ := ih hstep.2 hapart.2 hrest
    refine ⟨out, bind_eq_ok_iff.2 ⟨next, hnext, hout⟩, hlength.trans hsize,
      List.forall_mem_cons.2 ⟨?_, hwritten⟩, fun i hi => ?_⟩
    · rw [hkept _ fun c hc => (hapart.1 c hc).symm]
      exact Array.getElem?_set_self hin.1
    · rw [List.forall_mem_cons] at hi
      rw [hkept i hi.2]
      exact Array.getElem?_set_ne hin.1 hi.1

end Grid

/-! ## Transforms -/

namespace Fourier

/-- The lines of a number of blocks stay in the blocks. -/
theorem lineCell_lt {stride n blocks l k : Nat} (hl : l < blocks * stride) (hk : k < n) :
    lineCell stride n l k < blocks * (stride * n) := by
  have hstride : 0 < stride := Nat.pos_of_lt_mul_left hl
  have hblock : l / stride + 1 ≤ blocks := (Nat.div_lt_iff_lt_mul hstride).2 hl
  have hinner : l % stride + 1 ≤ stride := Nat.mod_lt l hstride
  calc lineCell stride n l k
      < l / stride * (stride * n) + (l % stride + 1) + k * stride := by
        rw [lineCell]
        omega
    _ ≤ l / stride * (stride * n) + (stride + k * stride) := by
        rw [Nat.add_assoc]
        exact Nat.add_le_add_left (Nat.add_le_add_right hinner _) _
    _ = l / stride * (stride * n) + stride * (k + 1) := by
        rw [Nat.mul_succ, Nat.add_comm stride, Nat.mul_comm k]
    _ ≤ l / stride * (stride * n) + stride * n :=
        Nat.add_le_add_left (Nat.mul_le_mul_left _ hk) _
    _ = (l / stride + 1) * (stride * n) := (Nat.succ_mul _ _).symm
    _ ≤ blocks * (stride * n) := Nat.mul_le_mul_right _ hblock

theorem lineCell_mod {stride : Nat} (n l k : Nat) :
    lineCell stride n l k % stride = l % stride := by
  have hblock : l / stride * (stride * n) = stride * (l / stride * n) := Nat.mul_left_comm _ _ _
  rw [lineCell, hblock, Nat.add_mul_mod_self_right, Nat.mul_add_mod, Nat.mod_mod]

theorem lineCell_div {stride : Nat} (hstride : 0 < stride) (n l k : Nat) :
    lineCell stride n l k / stride = l / stride * n + k := by
  have hblock : l / stride * (stride * n) = stride * (l / stride * n) := Nat.mul_left_comm _ _ _
  rw [lineCell, hblock, Nat.add_mul_div_right _ _ hstride, Nat.mul_add_div hstride,
    Nat.div_eq_of_lt (Nat.mod_lt l hstride), Nat.add_zero]

/-- Lines do not meet, and the cells of a line are different. -/
theorem lineCell_injective {stride n l l' k k' : Nat} (hstride : 0 < stride) (hk : k < n)
    (hk' : k' < n) (h : lineCell stride n l k = lineCell stride n l' k') : l = l' ∧ k = k' := by
  have hn : 0 < n := Nat.zero_lt_of_lt hk
  have hinner : l % stride = l' % stride := by
    rw [← lineCell_mod n l k, h, lineCell_mod]
  have houter : l / stride * n + k = l' / stride * n + k' := by
    rw [← lineCell_div hstride, h, lineCell_div hstride]
  have hrank : k = k' := by
    rw [← Nat.mod_eq_of_lt hk, ← Nat.mul_add_mod_self_right (l / stride) n k, houter,
      Nat.mul_add_mod_self_right, Nat.mod_eq_of_lt hk']
  have hblock : l / stride = l' / stride := by
    rw [hrank] at houter
    exact Nat.eq_of_mul_eq_mul_right hn (Nat.add_right_cancel houter)
  exact ⟨by rw [← Nat.div_add_mod l stride, hblock, hinner, Nat.div_add_mod], hrank⟩

/-- Behind an axis without cells come only axes of at most one cell. -/
def Transformable (shape : List Nat) : Prop := shape.Pairwise fun m n => m = 0 → n ≤ 1

instance (shape : List Nat) : Decidable (Transformable shape) :=
  inferInstanceAs (Decidable (List.Pairwise _ shape))

example : Transformable [2, 3, 0] ∧ Transformable [4, 0, 1, 0] ∧ ¬Transformable [3, 0, 1, 2] := by
  decide

variable {R : Type} [Spectral R]

/-- The line `l` of a buffer is transformed in `out`. -/
def Transformed (direction : Direction) (stride n l : Nat) (buffer out : Array (Complex R)) :
    Prop :=
  ∃ cells : Array (Complex R), cells.size = n ∧ ∀ k < n,
    cells[k]? = buffer[lineCell stride n l k]? ∧
    out[lineCell stride n l k]? = (Spectral.line direction cells)[k]?

/-- Transforming a line leaves the other cells as they were. -/
theorem exists_transformLineAt (direction : Direction) {stride n blocks l : Nat}
    (hl : l < blocks * stride) {buffer : Array (Complex R)}
    (hsize : blocks * (stride * n) ≤ buffer.size) :
    ∃ out, transformLineAt direction stride n buffer l = .ok out ∧ out.size = buffer.size ∧
      Transformed direction stride n l buffer out ∧
      ∀ i, (∀ k < n, lineCell stride n l k ≠ i) → out[i]? = buffer[i]? := by
  have hstride : 0 < stride := Nat.pos_of_lt_mul_left hl
  have hcell (k : Nat) (hk : k < n) : lineCell stride n l k < buffer.size :=
    Nat.lt_of_lt_of_le (lineCell_lt hl hk) hsize
  obtain ⟨line, hline, hlength, hcells⟩ := Grid.exists_gather hcell
  let values := (Spectral.line direction line.toArray).toList
  have hvalues : values.length = n := by
    rw [Array.length_toList, Spectral.size_line, List.size_toArray, hlength]
  have hbelow {cell} (hmem : cell ∈ values.zipIdx) : cell.2 < n := by
    have hlt := List.snd_lt_of_mem_zipIdx hmem
    rwa [hvalues, Nat.add_zero] at hlt
  have hapart : values.zipIdx.Pairwise fun b c =>
      lineCell stride n l b.2 ≠ lineCell stride n l c.2 := by
    refine List.pairwise_iff_getElem.2 fun i j hi hj hij heq => ?_
    have hsame := (lineCell_injective hstride (hbelow (List.getElem_mem hi))
      (hbelow (List.getElem_mem hj)) heq).2
    rw [List.getElem_zipIdx, List.getElem_zipIdx] at hsame
    omega
  obtain ⟨out, hout, hsame, hwritten, hkept⟩ :=
    Grid.exists_scatter (fun _ _ _ => rfl) hapart fun cell hmem => hcell _ (hbelow hmem)
  refine ⟨out, bind_eq_ok_iff.2 ⟨line, hline, hout⟩, hsame,
    ⟨line.toArray, hlength, fun k hk => ⟨?_, ?_⟩⟩, fun i hi => ?_⟩
  · rw [List.getElem?_toArray, hcells k hk]
  · have hvalue : values[k]? = some values[k] := List.getElem?_eq_getElem (hvalues ▸ hk)
    rw [hwritten (values[k], k) (List.mk_mem_zipIdx_iff_getElem?.2 hvalue), ← hvalue,
      Array.getElem?_toList]
  · exact hkept i fun cell hmem => hi cell.2 (hbelow hmem)

/-- Of some lines, those before line `count` are transformed in `out`, and the others are as they
were. -/
def Progress (direction : Direction) (stride n lines count : Nat)
    (buffer out : Array (Complex R)) : Prop :=
  out.size = buffer.size ∧ ∀ l < lines,
    (l < count → Transformed direction stride n l buffer out) ∧
    (count ≤ l → ∀ k < n, out[lineCell stride n l k]? = buffer[lineCell stride n l k]?)

theorem exists_progress_succ {direction : Direction} {stride n blocks l : Nat}
    (hl : l < blocks * stride) {buffer s : Array (Complex R)}
    (hsize : blocks * (stride * n) ≤ buffer.size)
    (hs : Progress direction stride n (blocks * stride) l buffer s) :
    ∃ t, transformLineAt direction stride n s l = .ok t ∧
      Progress direction stride n (blocks * stride) (l + 1) buffer t := by
  have hstride : 0 < stride := Nat.pos_of_lt_mul_left hl
  obtain ⟨hsame, hlines⟩ := hs
  rw [← hsame] at hsize
  obtain ⟨t, ht, hsame', hline, hkept⟩ := exists_transformLineAt direction hl hsize
  have hother {l' k : Nat} (hne : l' ≠ l) (hk : k < n) :
      t[lineCell stride n l' k]? = s[lineCell stride n l' k]? :=
    hkept _ fun j hj heq => hne (lineCell_injective hstride hj hk heq).1.symm
  refine ⟨t, ht, hsame'.trans hsame, fun l' hl' => ⟨fun hdone => ?_, fun hlater k hk => ?_⟩⟩
  · rcases Nat.lt_succ_iff_lt_or_eq.1 hdone with hbefore | rfl
    · obtain ⟨line, hlength, hcells⟩ := (hlines l' hl').1 hbefore
      exact ⟨line, hlength, fun k hk => ⟨(hcells k hk).1,
        (hother (Nat.ne_of_lt hbefore) hk).trans (hcells k hk).2⟩⟩
    · obtain ⟨line, hlength, hcells⟩ := hline
      exact ⟨line, hlength, fun k hk => ⟨(hcells k hk).1.trans
        ((hlines l' hl').2 (Nat.le_refl l') k hk), (hcells k hk).2⟩⟩
  · rw [hother (Nat.ne_of_gt hlater) hk]
    exact (hlines l' hl').2 (Nat.le_of_succ_le hlater) k hk

/-- Transforming an axis reads and writes cells of the buffer only, once its blocks are counted.
Every line of a longer axis is transformed; an axis of at most one cell changes nothing. -/
theorem exists_transformAxis (direction : Direction) {stride n : Nat} (h : stride * n ≠ 0)
    (buffer : Array (Complex R)) :
    ∃ out, transformAxis direction stride n buffer = .ok out ∧ out.size = buffer.size ∧
      (n ≤ 1 → out = buffer) ∧
      (1 < n → ∀ l < buffer.size / (stride * n) * stride,
        Transformed direction stride n l buffer out) := by
  by_cases hn : n ≤ 1
  · exact ⟨buffer, if_pos hn, rfl, fun _ => rfl, fun hlong => absurd hn (Nat.not_le_of_lt hlong)⟩
  have hblocks : buffer.size / (stride * n) * (stride * n) ≤ buffer.size := Nat.div_mul_le_self _ _
  obtain ⟨out, hout, hsize, hlines⟩ := exists_foldlM_range
    (P := fun count => Progress direction stride n _ count buffer)
    (fun l hl s hs => exists_progress_succ hl hblocks hs)
    ⟨rfl, fun l _ => ⟨fun h => absurd h (Nat.not_lt_zero l), fun _ _ _ => rfl⟩⟩
  refine ⟨out, ?_, hsize, fun hshort => absurd hshort hn, fun _ l hl => (hlines l hl).1 hl⟩
  rw [transformAxis, if_neg hn, if_neg h]
  exact hout

/-- Behind an axis without cells the stride is zero. -/
theorem transformAxes_zero (direction : Direction) (shape : List Nat) (buffer : Array (Complex R)) :
    transformAxes direction shape 0 buffer =
      if ∀ n ∈ shape, n ≤ 1 then .ok buffer else abort .divisionByZero := by
  induction shape with
  | nil => rfl
  | cons n shape ih =>
    simp only [transformAxes, transformAxis, Nat.zero_mul, List.forall_mem_cons]
    by_cases hn : n ≤ 1
    · simp only [hn, if_true, true_and]
      exact ih
    · simp only [hn, if_false, if_true, false_and]
      rfl

theorem transformable_cons_of_pos {n : Nat} (hn : 0 < n) {shape : List Nat} :
    Transformable (n :: shape) ↔ Transformable shape := by
  rw [Transformable, List.pairwise_cons]
  refine and_iff_right fun m _ hzero => ?_
  rw [hzero] at hn
  cases hn

theorem transformable_cons_zero {shape : List Nat} :
    Transformable (0 :: shape) ↔ ∀ n ∈ shape, n ≤ 1 := by
  rw [Transformable, List.pairwise_cons]
  constructor
  · rintro ⟨hfirst, -⟩ n hn
    exact hfirst n hn rfl
  · intro h
    exact ⟨fun n hn _ => h n hn, List.pairwise_of_forall_mem_list fun _ _ n hn _ => h n hn⟩

/-- A transform answers, in a buffer of any size, exactly when the shape is transformable. -/
theorem transformAxes_answers (direction : Direction) (shape : List Nat) {stride : Nat}
    (hstride : 0 < stride) (buffer : Array (Complex R)) :
    (Transformable shape →
      ∃ out, transformAxes direction shape stride buffer = .ok out ∧ out.size = buffer.size) ∧
    (¬Transformable shape →
      transformAxes direction shape stride buffer = abort .divisionByZero) := by
  induction shape generalizing stride buffer with
  | nil => exact ⟨fun _ => ⟨buffer, rfl, rfl⟩, fun h => absurd List.Pairwise.nil h⟩
  | cons n shape ih =>
    rcases Nat.eq_zero_or_pos n with rfl | hn
    · have hrest : transformAxes direction (0 :: shape) stride buffer =
          transformAxes direction shape 0 buffer := rfl
      rw [hrest, transformAxes_zero, transformable_cons_zero]
      refine ⟨fun h => ⟨buffer, if_pos h, rfl⟩, fun h => if_neg h⟩
    · rw [transformable_cons_of_pos hn]
      have hnext : 0 < stride * n := Nat.mul_pos hstride hn
      obtain ⟨out, haxis, hsize, -⟩ := exists_transformAxis direction (Nat.ne_of_gt hnext) buffer
      have hrest : transformAxes direction (n :: shape) stride buffer =
          transformAxes direction shape (stride * n) out := by
        rw [transformAxes, haxis]
        rfl
      rw [hrest, ← hsize]
      exact ih hnext out

end Fourier

end Aperture
