import Aperture.Codec.Raw
import Aperture.Proofs.Codec.Words
import Mathlib.Data.List.Basic

/-!
# Raw payloads are the written forms of cubes

**Theorem (`payloads_are_encodings`).** Writing a cube of a `Portable` shape and reading it back
gives its shape and its samples bit for bit. Every payload that is read is what writing the answer
gives, and every other byte string is refused as undecodable.

Every part of the reader comes with one statement that says which byte strings it accepts:
`splitOff_eq_ok_iff`, `takeNat_eq_ok_iff`, `takeShape_eq_ok_iff` and `bodySize_eq_some_iff`.
`decode_eq_ok_iff` puts them together. That a payload is refused for no other reason is shown apart
(`Refuses`).
-/

namespace Aperture.Raw

theorem wordLimit_eq : wordLimit = 2 ^ 64 := Bytes.capacity_eight

/-- The shapes that a payload can have. No product on the way to the number of bytes may outgrow a
machine word. -/
structure Portable (shape : List Nat) : Prop where
  axes : 1 ≤ shape.length ∧ shape.length ≤ 8
  sizes : ∀ n ∈ shape, n < 2 ^ 64
  products : ∀ k ≤ shape.length, Grid.volume (shape.take k) < 2 ^ 64
  body : 8 * Grid.volume shape < 2 ^ 64

instance (shape : List Nat) : Decidable (Portable shape) :=
  decidable_of_iff ((1 ≤ shape.length ∧ shape.length ≤ 8) ∧ (∀ n ∈ shape, n < 2 ^ 64) ∧
      (∀ k ≤ shape.length, Grid.volume (shape.take k) < 2 ^ 64) ∧ 8 * Grid.volume shape < 2 ^ 64)
    ⟨fun ⟨axes, sizes, products, body⟩ => ⟨axes, sizes, products, body⟩,
      fun ⟨axes, sizes, products, body⟩ => ⟨axes, sizes, products, body⟩⟩

/-! ## What the readers accept -/

theorem splitOff_eq_ok_iff {n : Nat} {bytes head rest : Bytes} :
    splitOff n bytes = .ok (head, rest) ↔ bytes = head ++ rest ∧ head.length = n := by
  unfold splitOff
  split
  · next hshort =>
    refine ⟨fun h => (nomatch h), ?_⟩
    rintro ⟨rfl, rfl⟩
    rw [List.length_append] at hshort
    exact absurd (Nat.le_add_right _ _) (Nat.not_le.2 hshort)
  · next hlong =>
    constructor
    · intro h
      obtain ⟨rfl, rfl⟩ := Prod.mk.inj (Except.ok.inj h)
      exact ⟨(List.take_append_drop n bytes).symm, List.length_take_of_le (Nat.not_lt.1 hlong)⟩
    · rintro ⟨rfl, rfl⟩
      rw [List.take_left, List.drop_left]

theorem takeNat_eq_ok_iff {width n : Nat} {bytes rest : Bytes} :
    takeNat width bytes = .ok (n, rest) ↔
      bytes = Bytes.ofNat width n ++ rest ∧ n < Bytes.capacity width := by
  rw [takeNat, bind_eq_ok_iff]
  constructor
  · rintro ⟨⟨word, tail⟩, hsplit, hanswer⟩
    obtain ⟨rfl, rfl⟩ := Prod.mk.inj (Except.ok.inj hanswer)
    obtain ⟨rfl, rfl⟩ := splitOff_eq_ok_iff.1 hsplit
    exact ⟨by rw [Bytes.ofNat_toNat], Bytes.toNat_lt word⟩
  · rintro ⟨rfl, hlt⟩
    have hsplit : splitOff width (Bytes.ofNat width n ++ rest) = .ok (Bytes.ofNat width n, rest) :=
      splitOff_eq_ok_iff.2 ⟨rfl, Bytes.length_ofNat width n⟩
    refine ⟨_, hsplit, ?_⟩
    simp only [Bytes.toNat_ofNat, Nat.mod_eq_of_lt hlt]

theorem takeShape_eq_ok_iff {count : Nat} {shape : List Nat} {bytes rest : Bytes} :
    takeShape count bytes = .ok (shape, rest) ↔
      bytes = shape.flatMap (Bytes.ofNat 8) ++ rest ∧ shape.length = count ∧
        ∀ n ∈ shape, n < 2 ^ 64 := by
  induction count generalizing shape bytes with
  | zero =>
    rw [takeShape, List.length_eq_zero_iff]
    constructor
    · intro h
      obtain ⟨rfl, rfl⟩ := Prod.mk.inj (Except.ok.inj h)
      simp
    · rintro ⟨rfl, rfl, -⟩
      rfl
  | succ count ih =>
    rw [takeShape, bind_eq_ok_iff]
    constructor
    · rintro ⟨⟨n, tail⟩, hn, hrest⟩
      obtain ⟨⟨sizes, behind⟩, hsizes, hanswer⟩ := bind_eq_ok_iff.1 hrest
      obtain ⟨rfl, rfl⟩ := Prod.mk.inj (Except.ok.inj hanswer)
      obtain ⟨rfl, hlt⟩ := takeNat_eq_ok_iff.1 hn
      obtain ⟨rfl, hlength, hall⟩ := ih.1 hsizes
      rw [Bytes.capacity_eight] at hlt
      refine ⟨?_, congrArg (· + 1) hlength, List.forall_mem_cons.2 ⟨hlt, hall⟩⟩
      rw [List.flatMap_cons, List.append_assoc]
    · rintro ⟨rfl, hlength, hall⟩
      cases shape with
      | nil => cases hlength
      | cons n sizes =>
        obtain ⟨hlt, hrest⟩ := List.forall_mem_cons.1 hall
        rw [← Bytes.capacity_eight] at hlt
        have hsizes : takeShape count (sizes.flatMap (Bytes.ofNat 8) ++ rest) = .ok (sizes, rest) :=
          ih.2 ⟨rfl, Nat.succ.inj hlength, hrest⟩
        refine ⟨(n, sizes.flatMap (Bytes.ofNat 8) ++ rest), ?_, ?_⟩
        · refine takeNat_eq_ok_iff.2 ⟨?_, hlt⟩
          rw [List.flatMap_cons, List.append_assoc]
        · exact bind_eq_ok_iff.2 ⟨_, hsizes, rfl⟩

theorem checkedMul_eq_some_iff {a b c : Nat} :
    checkedMul a b = some c ↔ c = a * b ∧ a * b < 2 ^ 64 := by
  rw [checkedMul, wordLimit_eq, Option.ite_none_right_eq_some]
  simp [and_comm, eq_comm]

theorem foldlM_checkedMul {shape : List Nat} {a volume : Nat} (ha : a < 2 ^ 64) :
    shape.foldlM checkedMul a = some volume ↔
      volume = a * Grid.volume shape ∧
        ∀ k ≤ shape.length, a * Grid.volume (shape.take k) < 2 ^ 64 := by
  induction shape generalizing a with
  | nil =>
    have hproducts (k) (_ : k ≤ ([] : List Nat).length) :
        a * Grid.volume (([] : List Nat).take k) < 2 ^ 64 := by
      rwa [List.take_nil, Grid.volume_nil, Nat.mul_one]
    rw [List.foldlM_nil, Grid.volume_nil, Nat.mul_one, and_iff_left hproducts]
    exact Option.some_inj.trans eq_comm
  | cons n shape ih =>
    rw [List.foldlM_cons, Option.bind_eq_bind, Option.bind_eq_some_iff]
    constructor
    · rintro ⟨b, hb, hrest⟩
      obtain ⟨rfl, hlt⟩ := checkedMul_eq_some_iff.1 hb
      obtain ⟨rfl, hproducts⟩ := (ih hlt).1 hrest
      refine ⟨Nat.mul_assoc .., fun k hk => ?_⟩
      cases k with
      | zero => simpa using ha
      | succ k =>
        rw [List.take_succ_cons, Grid.volume_cons, ← Nat.mul_assoc]
        exact hproducts k (Nat.le_of_succ_le_succ hk)
    · rintro ⟨rfl, hproducts⟩
      have hlt : a * n < 2 ^ 64 := by simpa using hproducts 1 (by simp)
      refine ⟨a * n, checkedMul_eq_some_iff.2 ⟨rfl, hlt⟩, (ih hlt).2 ⟨?_, fun k hk => ?_⟩⟩
      · rw [Grid.volume_cons, Nat.mul_assoc]
      · rw [Nat.mul_assoc, ← Grid.volume_cons, ← List.take_succ_cons]
        exact hproducts (k + 1) (Nat.succ_le_succ hk)

theorem bodySize_eq_some_iff {shape : List Nat} {size : Nat} :
    bodySize shape = some size ↔ size = 8 * Grid.volume shape ∧
      (∀ k ≤ shape.length, Grid.volume (shape.take k) < 2 ^ 64) ∧
        8 * Grid.volume shape < 2 ^ 64 := by
  have hone : (1 : Nat) < 2 ^ 64 := by decide
  rw [bodySize, Option.bind_eq_bind, Option.bind_eq_some_iff]
  simp only [foldlM_checkedMul hone, Nat.one_mul, checkedMul_eq_some_iff]
  constructor
  · rintro ⟨volume, ⟨rfl, hproducts⟩, rfl, hbody⟩
    rw [Nat.mul_comm] at hbody ⊢
    exact ⟨rfl, hproducts, hbody⟩
  · rintro ⟨rfl, hproducts, hbody⟩
    rw [Nat.mul_comm] at hbody ⊢
    exact ⟨_, ⟨rfl, hproducts⟩, rfl, hbody⟩

theorem withShape_eq_ok_iff {R : Type} [Scalar R] {samples : Array R} {shape : List Nat}
    {cube : Cube R} : Cube.withShape samples shape = .ok cube ↔
      ∃ h : samples.size = Grid.volume shape, cube = Cube.ofShape samples shape h := by
  unfold Cube.withShape
  split
  · next h => simp [h, eq_comm]
  · next h => simp [h, fail]

theorem encode_eq (cube : Cube Binary64) : encode cube =
    Bytes.ofNat 4 cube.shape.length ++ (cube.shape.flatMap (Bytes.ofNat 8) ++
      cube.samples.toList.flatMap Binary64.bytes) :=
  List.append_assoc ..

/-! ## Reading and writing -/

theorem decode_encode {cube : Cube Binary64} (h : Portable cube.shape) :
    decode (encode cube) = .ok (Cube.ofShape cube.samples cube.shape cube.size_eq) := by
  let body := cube.samples.toList.flatMap Binary64.bytes
  have haxes : takeNat 4 (encode cube) =
      .ok (cube.shape.length, cube.shape.flatMap (Bytes.ofNat 8) ++ body) := by
    refine takeNat_eq_ok_iff.2 ⟨encode_eq cube, Nat.lt_of_le_of_lt h.axes.2 ?_⟩
    decide
  have hmost : ¬(cube.shape.length = 0 ∨ mostAxes < cube.shape.length) :=
    not_or.2 ⟨Nat.ne_of_gt h.axes.1, Nat.not_lt.2 h.axes.2⟩
  have hshape : takeShape cube.shape.length (cube.shape.flatMap (Bytes.ofNat 8) ++ body) =
      .ok (cube.shape, body) :=
    takeShape_eq_ok_iff.2 ⟨rfl, rfl, h.sizes⟩
  have hsize : bodySize cube.shape = some (8 * Grid.volume cube.shape) :=
    bodySize_eq_some_iff.2 ⟨rfl, h.products, h.body⟩
  have hlength : body.length = 8 * Grid.volume cube.shape := by
    simp only [body, Binary64.bytes, List.length_flatMap, Bytes.length_ofNat, List.map_const',
      List.sum_replicate_nat, Array.length_toList, cube.size_eq, Nat.mul_comm]
  have hbody : splitOff (8 * Grid.volume cube.shape) body = .ok (body, []) :=
    splitOff_eq_ok_iff.2 ⟨(List.append_nil body).symm, hlength⟩
  refine bind_eq_ok_iff.2 ⟨_, haxes, ?_⟩
  simp only [if_neg hmost]
  refine bind_eq_ok_iff.2 ⟨_, hshape, ?_⟩
  simp only [hsize]
  refine bind_eq_ok_iff.2 ⟨_, hbody, ?_⟩
  simp only [List.isEmpty_nil, if_true]
  refine withShape_eq_ok_iff.2 ⟨?_, ?_⟩
  · simp only [body, decode_flatMap_bytes, Array.toArray_toList, cube.size_eq]
  · simp only [body, decode_flatMap_bytes, Array.toArray_toList]

/-- A payload that is decoded is the written form of the answer, and the answer says nothing that
is not in the payload. -/
theorem encode_of_decode {bytes : Bytes} {cube : Cube Binary64} (h : decode bytes = .ok cube) :
    Portable cube.shape ∧ encode cube = bytes ∧
      cube = Cube.ofShape cube.samples cube.shape cube.size_eq := by
  obtain ⟨⟨axes, afterAxes⟩, haxes, hsizes⟩ := bind_eq_ok_iff.1 h
  simp only at hsizes
  split at hsizes
  · cases hsizes
  next hmost =>
  obtain ⟨⟨shape, afterShape⟩, hshape, hbody⟩ := bind_eq_ok_iff.1 hsizes
  simp only at hbody
  split at hbody
  · cases hbody
  next size hsize =>
  obtain ⟨⟨body, rest⟩, hsplit, hsamples⟩ := bind_eq_ok_iff.1 hbody
  simp only at hsamples
  split at hsamples
  next hempty =>
    obtain ⟨hvolume, rfl⟩ := withShape_eq_ok_iff.1 hsamples
    obtain ⟨rfl, -⟩ := takeNat_eq_ok_iff.1 haxes
    obtain ⟨rfl, rfl, hwords⟩ := takeShape_eq_ok_iff.1 hshape
    obtain ⟨rfl, hproducts, hbytes⟩ := bodySize_eq_some_iff.1 hsize
    obtain ⟨rfl, hlength⟩ := splitOff_eq_ok_iff.1 hsplit
    obtain rfl := List.isEmpty_iff.1 hempty
    obtain ⟨hsome, hfew⟩ := not_or.1 hmost
    refine ⟨⟨⟨Nat.pos_of_ne_zero hsome, Nat.not_lt.1 hfew⟩, hwords, hproducts, hbytes⟩, ?_, rfl⟩
    rw [encode_eq]
    simp only [Cube.ofShape, List.append_nil, flatMap_bytes_decode hlength]
  · cases hsamples

/-! ## Refusals -/

/-- A failure is the report that the payload cannot be decoded. -/
def Refuses {α : Type} (x : Result α) : Prop := ∀ e, x = .error e → ∃ reason, x = refuse reason

theorem refuses_ok {α : Type} (a : α) : Refuses (.ok a : Result α) := fun _ h => nomatch h

theorem refuses_refuse {α : Type} (reason : String) : Refuses (refuse reason : Result α) :=
  fun _ _ => ⟨reason, rfl⟩

theorem Refuses.bind {α β : Type} {x : Result α} {f : α → Result β} (hx : Refuses x)
    (hf : ∀ a, x = .ok a → Refuses (f a)) : Refuses (x >>= f) := by
  cases x with
  | ok a => exact hf a rfl
  | error e =>
    intro _ _
    obtain ⟨reason, hreason⟩ := hx e rfl
    exact ⟨reason, by rw [hreason]; rfl⟩

theorem refuses_splitOff (n : Nat) (bytes : Bytes) : Refuses (splitOff n bytes) := by
  unfold splitOff
  split
  · exact refuses_refuse _
  · exact refuses_ok _

theorem refuses_takeNat (width : Nat) (bytes : Bytes) : Refuses (takeNat width bytes) :=
  (refuses_splitOff width bytes).bind fun _ _ => refuses_ok _

theorem refuses_takeShape (count : Nat) (bytes : Bytes) : Refuses (takeShape count bytes) := by
  induction count generalizing bytes with
  | zero => exact refuses_ok _
  | succ count ih =>
    exact (refuses_takeNat 8 bytes).bind fun _ _ => (ih _).bind fun _ _ => refuses_ok _

/-- The number of samples always fits the shape: it was the shape that said how many bytes there
are. -/
theorem refuses_decode (bytes : Bytes) : Refuses (decode bytes : Result (Cube Binary64)) := by
  refine (refuses_takeNat 4 bytes).bind fun ⟨axes, afterAxes⟩ _ => ?_
  simp only
  split
  · exact refuses_refuse _
  refine (refuses_takeShape axes afterAxes).bind fun ⟨shape, afterShape⟩ _ => ?_
  simp only
  split
  · exact refuses_refuse _
  next size hsize =>
  refine (refuses_splitOff size afterShape).bind fun ⟨body, rest⟩ hsplit => ?_
  simp only
  split
  · obtain ⟨rfl, -, -⟩ := bodySize_eq_some_iff.1 hsize
    obtain ⟨-, hlength⟩ := splitOff_eq_ok_iff.1 hsplit
    have hvolume : (SampleFormat.float64.decode body : List Binary64).toArray.size =
        Grid.volume shape := by
      simp [SampleFormat.decode, SampleFormat.width, hlength]
    rw [withShape_eq_ok_iff.2 ⟨hvolume, rfl⟩]
    exact refuses_ok _
  · exact refuses_refuse _

/-- **Raw payloads are the written forms of cubes.**

* A cube of a portable shape is read back from its payload with its shape and its samples, bit for
  bit, and with the metadata of a cube that nothing was said about.
* A payload that is read has a portable shape and is what writing the answer gives.
* Any other byte string is reported as undecodable. -/
theorem payloads_are_encodings :
    (∀ cube : Cube Binary64, Portable cube.shape →
      decode (encode cube) = .ok (Cube.ofShape cube.samples cube.shape cube.size_eq)) ∧
    (∀ (bytes : Bytes) (cube : Cube Binary64), decode bytes = .ok cube →
      Portable cube.shape ∧ encode cube = bytes ∧
        cube = Cube.ofShape cube.samples cube.shape cube.size_eq) ∧
    (∀ bytes : Bytes, (∀ cube : Cube Binary64, Portable cube.shape → encode cube ≠ bytes) →
      ∃ reason, (decode bytes : Result (Cube Binary64)) = refuse reason) := by
  refine ⟨fun cube h => decode_encode h, fun bytes cube h => encode_of_decode h, ?_⟩
  intro bytes hbytes
  cases hdecode : (decode bytes : Result (Cube Binary64)) with
  | ok cube =>
    obtain ⟨hportable, hencode, -⟩ := encode_of_decode hdecode
    exact absurd hencode (hbytes cube hportable)
  | error e =>
    rw [← hdecode]
    exact refuses_decode bytes e hdecode

/-- No samples, on axes whose product is just short of a machine word before the last one. -/
def hollow : Cube Binary64 := Cube.ofShape #[] [4294967296, 4294967295, 0] rfl

/-- A signalling word that is not a number, and the negative zero. -/
def oddities : Cube Binary64 :=
  Cube.ofShape #[⟨0x7ff0000000000001⟩, ⟨0x8000000000000000⟩] [1, 2] rfl

theorem payloads_are_encodings_hollow :
    Portable hollow.shape ∧ decode (encode hollow) = .ok hollow ∧
    Portable oddities.shape ∧ decode (encode oddities) = .ok oddities ∧
    (∀ cube : Cube Binary64, decode (encode oddities) = .ok cube → encode cube = encode oddities) ∧
    (∀ cube : Cube Binary64, Portable cube.shape → encode cube ≠ []) ∧
    ∃ reason, (decode [] : Result (Cube Binary64)) = refuse reason := by
  obtain ⟨hread, hwritten, hrefused⟩ := payloads_are_encodings
  have hhollow : Portable hollow.shape := by decide
  have hoddities : Portable oddities.shape := by decide
  have hnonempty (cube : Cube Binary64) (_ : Portable cube.shape) : encode cube ≠ [] := fun h => by
    have hlength := congrArg List.length h
    simp [encode] at hlength
  exact ⟨hhollow, hread hollow hhollow, hoddities, hread oddities hoddities,
    fun cube h => (hwritten _ cube h).2.1, hnonempty, hrefused [] hnonempty⟩

end Aperture.Raw
