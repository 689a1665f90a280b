import Aperture.Cube.Arithmetic
import Aperture.Fourier.Arrangement
import Aperture.Proofs.Codec.Payload
import Aperture.Proofs.Cube.Loops
import Aperture.Proofs.Grid.Padding
import Aperture.Proofs.Grid.Rotation

/-!
# Where operations on cubes stop on a fault

**Theorem (`operations_answer`).** An operation on cubes of any shapes, with axes of any sizes in
any order, gives a result or reports sizes that do not fit, with one exception: a Fourier transform
divides by zero when an axis of two or more cells comes behind an axis without cells.

`transform_behind_empty_axis` is a payload that is decoded to such a cube.
-/

namespace Aperture

namespace Cube

variable {R : Type}

/-- A call gives a result when what it was given fits, and reports the sizes otherwise. -/
def Answers {α : Type} (x : Result α) (fits : Prop) (expected found : List Nat) : Prop :=
  (fits → ∃ y, x = .ok y) ∧ (¬fits → x = fail (.sizeMismatch expected found))

theorem exists_derive (a : Cube R) {samples : Array R} {shape : List Nat}
    (h : samples.size = Grid.volume shape) : ∃ c, a.derive samples shape = .ok c :=
  ⟨_, dif_pos h⟩

theorem requireSameShape_of_eq {a b : Cube R} (h : a.shape = b.shape) :
    requireSameShape a b = .ok () := if_pos h

theorem requireSameShape_of_ne {a b : Cube R} (h : a.shape ≠ b.shape) :
    requireSameShape a b = fail (.sizeMismatch a.shape b.shape) := if_neg h

theorem answers_zipWith (f : R → R → R) (a b : Cube R) :
    Answers (zipWith f a b) (a.shape = b.shape) a.shape b.shape := by
  constructor
  · intro h
    have hsize : (Array.zipWith f a.samples b.samples).size = Grid.volume a.shape := by
      rw [Array.size_zipWith, a.size_eq, b.size_eq, h, Nat.min_self]
    obtain ⟨c, hc⟩ := a.exists_derive hsize
    exact ⟨c, bind_eq_ok_iff.2 ⟨(), requireSameShape_of_eq h, hc⟩⟩
  · intro h
    exact bind_eq_error_iff.2 (.inl (requireSameShape_of_ne h))

variable [Scalar R]

theorem answers_difference (a b : Cube R) :
    Answers (difference a b) (a.shape = b.shape) a.shape b.shape := by
  obtain ⟨hsame, hdiffer⟩ := answers_zipWith (fun x y => Scalar.abs (x - y)) a b
  constructor
  · intro h
    obtain ⟨distance, hdistance⟩ := hsame h
    exact ⟨_, bind_eq_ok_iff.2 ⟨distance, hdistance, rfl⟩⟩
  · intro h
    exact bind_eq_error_iff.2 (.inl (hdiffer h))

theorem answers_convolve (a kernel : Cube R) :
    (Grid.Flat a.shape → Answers (convolve a kernel) (Grid.Flat kernel.shape) [0, 0] kernel.shape) ∧
    (¬Grid.Flat a.shape → convolve a kernel = fail (.sizeMismatch [0, 0] a.shape)) := by
  refine ⟨fun hflat => ⟨fun hflat' => ?_, fun hflat' => ?_⟩, fun hflat => ?_⟩
  · obtain ⟨w, h, hplane⟩ := Grid.exists_plane hflat
    obtain ⟨kw, kh, hplane'⟩ := Grid.exists_plane hflat'
    obtain ⟨out, hout, hsize, -⟩ :=
      Grid.exists_convolve a.size_eq kernel.size_eq hplane hplane'
    obtain ⟨c, hc⟩ := a.exists_derive (hsize.trans a.size_eq)
    exact ⟨c, bind_eq_ok_iff.2 ⟨out, hout, hc⟩⟩
  · obtain ⟨w, h, hplane⟩ := Grid.exists_plane hflat
    have hplane' := Grid.plane_of_not_flat hflat'
    have hgrid : Grid.convolve a.samples a.shape kernel.samples kernel.shape =
        fail (.sizeMismatch [0, 0] kernel.shape) :=
      bind_eq_error_iff.2 (.inr ⟨_, hplane, bind_eq_error_iff.2 (.inl hplane')⟩)
    exact bind_eq_error_iff.2 (.inl hgrid)
  · have hgrid : Grid.convolve a.samples a.shape kernel.samples kernel.shape =
        fail (.sizeMismatch [0, 0] a.shape) :=
      bind_eq_error_iff.2 (.inl (Grid.plane_of_not_flat hflat))
    exact bind_eq_error_iff.2 (.inl hgrid)

theorem exists_shift (a : Cube R) : ∃ c, a.shift = .ok c := by
  obtain ⟨out, hout, hsize, -⟩ := Grid.exists_shift a.size_eq
  obtain ⟨c, hc⟩ := a.exists_derive (hsize.trans a.size_eq)
  exact ⟨c, bind_eq_ok_iff.2 ⟨out, hout, hc⟩⟩

variable [Trig R] [Fourier.Spectral R]

theorem answers_dft (a : Cube R) :
    (Fourier.Transformable a.shape → ∃ pair, a.dft = .ok pair) ∧
    (¬Fourier.Transformable a.shape → a.dft = abort .divisionByZero) := by
  obtain ⟨hok, hfault⟩ := Fourier.transformAxes_answers .forward a.shape Nat.zero_lt_one
    (a.samples.map Complex.ofReal)
  constructor
  · intro h
    obtain ⟨spectrum, hspectrum, hsize⟩ := hok h
    rw [Array.size_map, a.size_eq] at hsize
    have hpart (f : Complex R → R) : ∃ c, a.derive (spectrum.map f) a.shape = .ok c :=
      a.exists_derive ((Array.size_map ..).trans hsize)
    obtain ⟨magnitudes, hmagnitudes⟩ := hpart Complex.magnitude
    obtain ⟨phases, hphases⟩ := hpart Complex.phase
    have hpolar : Fourier.dftPolar a.samples a.shape =
        .ok (spectrum.map Complex.magnitude, spectrum.map Complex.phase) :=
      bind_eq_ok_iff.2 ⟨spectrum, hspectrum, rfl⟩
    exact ⟨(magnitudes, phases), bind_eq_ok_iff.2 ⟨_, hpolar, bind_eq_ok_iff.2 ⟨_, hmagnitudes,
      bind_eq_ok_iff.2 ⟨_, hphases, rfl⟩⟩⟩⟩
  · intro h
    have hpolar : Fourier.dftPolar a.samples a.shape = abort .divisionByZero :=
      bind_eq_error_iff.2 (.inl (hfault h))
    exact bind_eq_error_iff.2 (.inl hpolar)

theorem answers_idft (a b : Cube R) (h : Fourier.Transformable a.shape) :
    Answers (a.idft b) (a.shape = b.shape) a.shape b.shape := by
  refine ⟨fun hshape => ?_, fun hshape => ?_⟩
  · obtain ⟨hok, -⟩ := Fourier.transformAxes_answers .inverse a.shape Nat.zero_lt_one
      (Array.zipWith Complex.ofPolar a.samples b.samples)
    obtain ⟨buffer, hbuffer, hsize⟩ := hok h
    rw [Array.size_zipWith, a.size_eq, b.size_eq, ← hshape, Nat.min_self] at hsize
    let scaled := buffer.map (Complex.scale (Scalar.one / Scalar.ofNat buffer.size))
    have hidft :
        Fourier.idft (Array.zipWith Complex.ofPolar a.samples b.samples) a.shape = .ok scaled :=
      bind_eq_ok_iff.2 ⟨buffer, hbuffer, rfl⟩
    have hpolar : Fourier.idftPolar a.samples b.samples a.shape = .ok (scaled.map Complex.re) :=
      bind_eq_ok_iff.2 ⟨scaled, hidft, rfl⟩
    have hscaled : (scaled.map Complex.re).size = Grid.volume a.shape := by
      rw [Array.size_map, Array.size_map, hsize]
    obtain ⟨c, hc⟩ := a.exists_derive hscaled
    exact ⟨c, bind_eq_ok_iff.2 ⟨(), requireSameShape_of_eq hshape,
      bind_eq_ok_iff.2 ⟨_, hpolar, hc⟩⟩⟩
  · exact bind_eq_error_iff.2 (.inl (requireSameShape_of_ne hshape))

theorem idft_eq_abort {a b : Cube R} (hshape : a.shape = b.shape)
    (h : ¬Fourier.Transformable a.shape) : a.idft b = abort .divisionByZero := by
  obtain ⟨-, hfault⟩ := Fourier.transformAxes_answers .inverse a.shape Nat.zero_lt_one
    (Array.zipWith Complex.ofPolar a.samples b.samples)
  have hidft : Fourier.idft (Array.zipWith Complex.ofPolar a.samples b.samples) a.shape =
      abort .divisionByZero := bind_eq_error_iff.2 (.inl (hfault h))
  have hpolar : Fourier.idftPolar a.samples b.samples a.shape = abort .divisionByZero :=
    bind_eq_error_iff.2 (.inl hidft)
  exact bind_eq_error_iff.2 (.inr ⟨(), requireSameShape_of_eq hshape,
    bind_eq_error_iff.2 (.inl hpolar)⟩)

/-- **Where operations on cubes stop on a fault.** For cubes of any shapes, read from a payload or
not:

* stacks, differences and products give a result when the shapes are equal and report them when
  they differ;
* a convolution gives a result when both cubes have one or two axes and reports the first shape that
  has not;
* a shift always gives a result;
* a Fourier transform, in both directions, gives a result when only axes of at most one cell come
  behind an axis without cells, and divides by zero otherwise. -/
theorem operations_answer (a b : Cube R) :
    Answers (a.stack b) (a.shape = b.shape) a.shape b.shape ∧
    Answers (a.difference b) (a.shape = b.shape) a.shape b.shape ∧
    Answers (a.mask b) (a.shape = b.shape) a.shape b.shape ∧
    (Grid.Flat a.shape → Answers (a.convolve b) (Grid.Flat b.shape) [0, 0] b.shape) ∧
    (¬Grid.Flat a.shape → a.convolve b = fail (.sizeMismatch [0, 0] a.shape)) ∧
    (∃ c, a.shift = .ok c) ∧
    (Fourier.Transformable a.shape → (∃ pair, a.dft = .ok pair) ∧
      Answers (a.idft b) (a.shape = b.shape) a.shape b.shape) ∧
    (¬Fourier.Transformable a.shape → a.dft = abort .divisionByZero ∧
      (a.shape = b.shape → a.idft b = abort .divisionByZero)) := by
  obtain ⟨hdft, hfault⟩ := a.answers_dft
  obtain ⟨hflat, hnotFlat⟩ := answers_convolve a b
  refine ⟨answers_zipWith _ a b, answers_difference a b, answers_zipWith _ a b, hflat, hnotFlat,
    a.exists_shift, fun h => ⟨hdft h, answers_idft a b h⟩, fun h => ⟨hfault h, ?_⟩⟩
  exact fun hshape => idft_eq_abort hshape h

/-- A cube without samples, whose first axis has cells and whose last axis has one. -/
def drained : Cube Binary64 := ofShape #[] [3, 0, 1] (by decide)

theorem operations_answer_drained :
    Fourier.Transformable drained.shape ∧ ¬Grid.Flat drained.shape ∧
    (∃ c, drained.stack drained = .ok c) ∧
    drained.convolve drained = fail (.sizeMismatch [0, 0] [3, 0, 1]) ∧
    (∃ c, drained.shift = .ok c) ∧ (∃ pair, drained.dft = .ok pair) ∧
    ∃ c, drained.idft drained = .ok c := by
  obtain ⟨hstack, -, -, -, hconvolve, hshift, htransform, -⟩ := operations_answer drained drained
  have htransformable : Fourier.Transformable drained.shape := by decide
  have hnotFlat : ¬Grid.Flat drained.shape := by decide
  obtain ⟨hdft, hidft⟩ := htransform htransformable
  exact ⟨htransformable, hnotFlat, hstack.1 rfl, hconvolve hnotFlat, hshift, hdft, hidft.1 rfl⟩

/-- The payload of two axes, of no cells and of two cells, is decoded, and its Fourier transform
divides by zero. -/
theorem transform_behind_empty_axis :
    ∃ a : Cube Binary64,
      Raw.decode [2, 0, 0, 0, 0, 0, 0, 0, 0, 0, 0, 0, 2, 0, 0, 0, 0, 0, 0, 0] = .ok a ∧
      a.shape = [0, 2] ∧ (∃ c, a.shift = .ok c) ∧ a.dft = abort .divisionByZero ∧
      a.idft a = abort .divisionByZero := by
  let a : Cube Binary64 := ofShape #[] [0, 2] rfl
  have hbytes : Raw.encode a = [2, 0, 0, 0, 0, 0, 0, 0, 0, 0, 0, 0, 2, 0, 0, 0, 0, 0, 0, 0] := by
    decide +kernel
  have hportable : Raw.Portable a.shape := by decide
  have hshape : ¬Fourier.Transformable a.shape := by decide
  refine ⟨a, ?_, rfl, a.exists_shift, a.answers_dft.2 hshape, idft_eq_abort rfl hshape⟩
  rw [← hbytes]
  exact Raw.decode_encode hportable

end Cube

end Aperture
