import Aperture.Proofs.Angle.Format
import Aperture.Proofs.Binary64.Range
import Aperture.Proofs.Text.Fields

/-!
# The sign of an angle

An angle is read from three fields, and only the first character of the first one says whether the
angle is negative. The whole part keeps no sign, so a zero in front of the minutes does not lose it.

**Theorem (`signs_govern_angles`).** A `-` in front of the first field negates the declination of
a text, a `+` changes nothing, and the blanks decide nothing. What is accepted lies in its range and
is the sum of the three parts or its negative, and a right ascension that is accepted is a
declination too.

The reader takes the signs off (`read_signs`), so the texts with and without one have the same three
numbers, and the declinations are the products of one size with one and minus one. Those are the
size and its negative, to the last bit (`degrees?_under_minus`), and the bounds are opposite to each
other.

**Names.** Infinities, and what is no number, can be given by name as well (`fieldOrName`). No such
field leaves a sum that is finite, so a reader that knows the names accepts the same texts.
-/

namespace Aperture.Sexagesimal

open Decimal Scalar
open Text (IsField Spacing)

/-! ## From fields to an angle -/

section

variable {R : Type} [Scalar R]

/-- The angle of three fields without a sign in front. -/
def unsigned (a b c : List Char) : Option (Angle R) := do
  let whole ← field a
  let minutes ← field b
  let seconds ← field c
  some ⟨false, whole, minutes, seconds⟩

/-- The angle under a sign. -/
def Angle.under (negative : Bool) (x : Angle R) : Angle R := { x with negative := negative }

/-- Signs in front of the first field change nothing but the sign of the angle. -/
theorem read_signs {text signs a b c : List Char} (h : Text.fields text = [signs ++ a, b, c])
    (hsigns : ∀ s ∈ signs, IsSign s) (ha : ∀ s ∈ a.head?, ¬ IsSign s) :
    (Angle.read text : Option (Angle R)) =
      (unsigned a b c).map (Angle.under (signs.head? == some '-')) := by
  simp only [Angle.read, h, dropWhile_signs hsigns ha, head?_signs ha, unsigned]
  rcases (field a : Option R) with _ | whole
  · rfl
  · rcases (field b : Option R) with _ | minutes
    · rfl
    · rcases (field c : Option R) with _ | seconds <;> rfl

def Angle.degrees (x : Angle R) : R := (if x.negative then -one else one) * x.size

/-- The degrees of an angle, where they are in range. -/
def Angle.degrees? (x : Angle R) : Option R :=
  if within (-ofNat 90) (ofNat 90) x.degrees then some x.degrees else none

/-- The hours of an angle, where they are in range. -/
def Angle.hours? (x : Angle R) : Option R :=
  if !x.negative && le zero x.size && lt x.size (ofNat 24) then some x.size else none

theorem declination?_eq (text : List Char) :
    (declination? text : Option R) = (Angle.read text).bind Angle.degrees? := rfl

theorem rightAscension?_eq (text : List Char) :
    (rightAscension? text : Option R) = (Angle.read text).bind Angle.hours? := rfl

end

/-! ## The sign -/

theorem isNaN_of_within {s x : Binary64} (h : within (-ofNat 90) (ofNat 90) (s * x)) :
    x.isNaN = false :=
  Binary64.isNaN_of_isFinite (Binary64.isFinite_of_mul (Binary64.isFinite_of_within h))

theorem degrees?_under_minus (x : Angle Binary64) :
    (x.under true).degrees? = (x.under false).degrees?.map (- ·) := by
  show (if within (-ofNat 90) (ofNat 90) (-one * x.size) then some (-one * x.size) else none) =
    (if within (-ofNat 90) (ofNat 90) (one * x.size) then some (one * x.size) else none).map (- ·)
  cases hx : x.size.isNaN with
  | false =>
    rw [Binary64.neg_one_mul hx, Binary64.one_mul hx, Binary64.within_neg]
    split <;> rfl
  | true =>
    -- A product that is in range has a factor that is a number.
    have hout (s : Binary64) : ¬ within (-ofNat 90) (ofNat 90) (s * x.size) := fun h =>
      Bool.false_ne_true ((isNaN_of_within h).symm.trans hx)
    rw [if_neg (hout _), if_neg (hout _)]
    rfl

theorem hours?_under_minus (x : Angle Binary64) : (x.under true).hours? = none := rfl

/-! ## Two texts of one angle -/

/-- A sign put in front of the first field. -/
theorem fields_sign {a b c : List Char} (s : Spacing) {sign : Char} (hsign : IsSign sign)
    (ha : IsField a) (hb : IsField b) (hc : IsField c) :
    Text.fields (s.text (sign :: a) b c) = [[sign] ++ a, b, c] := by
  have hfield : IsField (sign :: a) := by
    refine ⟨List.cons_ne_nil _ _, List.forall_mem_cons.2 ⟨?_, ha.not_blank⟩⟩
    rcases hsign with rfl | rfl <;> decide
  exact s.fields_text hfield hb hc

section

variable {R : Type} [Scalar R] {a b c : List Char}
variable (ha : IsField a) (hb : IsField b) (hc : IsField c)
include ha hb hc

/-- The blanks around the fields decide nothing. -/
theorem read_spacing (s t : Spacing) :
    (Angle.read (s.text a b c) : Option (Angle R)) = Angle.read (t.text a b c) := by
  simp only [Angle.read, s.fields_text ha hb hc, t.fields_text ha hb hc]

variable (hsign : ∀ d ∈ a.head?, ¬ IsSign d) (s : Spacing)
include hsign

theorem read_plain :
    (Angle.read (s.text a b c) : Option (Angle R)) =
      (unsigned a b c).map (Angle.under false) := by
  have hfields : Text.fields (s.text a b c) = [[] ++ a, b, c] := s.fields_text ha hb hc
  exact read_signs hfields (by simp) hsign

theorem read_plus :
    (Angle.read (s.text ('+' :: a) b c) : Option (Angle R)) =
      (unsigned a b c).map (Angle.under false) :=
  read_signs (fields_sign s (.inr rfl) ha hb hc) (by simp [IsSign]) hsign

theorem read_minus :
    (Angle.read (s.text ('-' :: a) b c) : Option (Angle R)) =
      (unsigned a b c).map (Angle.under true) :=
  read_signs (fields_sign s (.inl rfl) ha hb hc) (by simp [IsSign]) hsign

theorem declination?_minus (x : Binary64) :
    declination? (s.text ('-' :: a) b c) = some (-x) ↔ declination? (s.text a b c) = some x := by
  have hminus : (declination? (s.text ('-' :: a) b c) : Option Binary64) =
      (declination? (s.text a b c)).map (- ·) := by
    rw [declination?_eq, declination?_eq, read_minus ha hb hc hsign, read_plain ha hb hc hsign,
      Option.bind_map, Option.bind_map, Option.map_bind]
    exact congrArg _ (funext degrees?_under_minus)
  rw [hminus, Option.map_eq_some_iff]
  constructor
  · rintro ⟨y, hy, hxy⟩
    rwa [← Binary64.neg_injective hxy]
  · intro hx
    exact ⟨x, hx, rfl⟩

end

/-! ## What is accepted -/

theorem degrees_eq {r : Reading} (h : within (-ofNat 90) (ofNat 90) (r.degrees : Binary64)) :
    (r.degrees : Binary64) = if r.signs.head? = some '-' then -r.hours else r.hours := by
  have hnumber := isNaN_of_within h
  rw [Reading.degrees]
  split
  · exact Binary64.neg_one_mul hnumber
  · exact Binary64.one_mul hnumber

theorem declination?_of_rightAscension? {text : List Char} {h : Binary64}
    (hra : rightAscension? text = some h) : declination? text = some h := by
  obtain ⟨r, hspells, hplus, rfl, hlow, hhigh⟩ := rightAscension?_eq_some_iff.1 hra
  have hwithin := Binary64.within_ninety hlow hhigh
  have hnumber := Binary64.isNaN_of_isFinite (Binary64.isFinite_of_within hwithin)
  have hdegrees : (r.degrees : Binary64) = r.hours := by
    rw [Reading.degrees, if_neg hplus, Binary64.one_mul hnumber]
  exact declination?_eq_some_iff.2 ⟨r, hspells, hdegrees, hwithin⟩

/-! ## Names of what is no finite number -/

/-- A reader of angles by a reader of their fields. -/
def Angle.readBy {R : Type} (number : List Char → Option R) (text : List Char) : Option (Angle R) :=
  match Text.fields text with
  | [first, second, third] => do
    let whole ← number (first.dropWhile fun c => c == '-' || c == '+')
    let minutes ← number second
    let seconds ← number third
    some ⟨first.head? == some '-', whole, minutes, seconds⟩
  | _ => none

theorem read_eq_readBy {R : Type} [Scalar R] (text : List Char) :
    (Angle.read text : Option (Angle R)) = Angle.readBy field text := rfl

/-- The word with a name, in letters of either case. -/
def nameOf? (cs : List Char) : Option Binary64 :=
  let name := cs.map Char.toLower
  if name = "inf".toList ∨ name = "infinity".toList then some Binary64.infinity
  else if name = "nan".toList then some ⟨0x7ff8000000000000⟩
  else none

/-- The word with a name that may have a sign in front. -/
def named? (cs : List Char) : Option Binary64 :=
  (nameOf? (takeSign cs).2).map fun x => if (takeSign cs).1 then -x else x

theorem isFinite_of_nameOf? {cs : List Char} {x : Binary64} (h : nameOf? cs = some x) :
    x.isFinite = false := by
  unfold nameOf? at h
  dsimp only at h
  split_ifs at h
  · obtain rfl := Option.some.inj h
    rfl
  · obtain rfl := Option.some.inj h
    rfl

theorem isFinite_of_named? {cs : List Char} {x : Binary64} (h : named? cs = some x) :
    x.isFinite = false := by
  obtain ⟨word, hword, rfl⟩ := Option.map_eq_some_iff.1 h
  have hinfinite := isFinite_of_nameOf? hword
  split
  · exact (Binary64.isFinite_neg word).trans hinfinite
  · exact hinfinite

/-- A numeral, or else a name. -/
def fieldOrName (cs : List Char) : Option Binary64 := (field cs).or (named? cs)

example : fieldOrName "-Inf".toList = some (-Binary64.infinity) := by decide +kernel

theorem fieldOrName_eq_some_iff {cs : List Char} {x : Binary64} (hx : x.isFinite) :
    fieldOrName cs = some x ↔ field cs = some x := by
  have hname : named? cs ≠ some x := fun h =>
    Bool.false_ne_true ((isFinite_of_named? h).symm.trans hx)
  rw [fieldOrName, Option.or_eq_some_iff]
  exact ⟨fun h => h.resolve_right fun h => hname h.2, .inl⟩

section

variable {number other : List Char → Option Binary64} {accept : Angle Binary64 → Option Binary64}
variable (haccept : ∀ x, (accept x).isSome →
  x.whole.isFinite ∧ x.minutes.isFinite ∧ x.seconds.isFinite)
include haccept

theorem accept_of_readBy (h : ∀ cs x, Binary64.isFinite x → number cs = some x → other cs = some x)
    {text : List Char} {d : Binary64} (hd : (Angle.readBy number text).bind accept = some d) :
    (Angle.readBy other text).bind accept = some d := by
  obtain ⟨x, hx, hd⟩ := Option.bind_eq_some_iff.1 hd
  refine Option.bind_eq_some_iff.2 ⟨x, ?_, hd⟩
  obtain ⟨hwhole, hminutes, hseconds⟩ := haccept x (by rw [hd]; rfl)
  unfold Angle.readBy at hx ⊢
  split at hx
  · next first second third hfields =>
    simp only [Option.bind_eq_bind, Option.bind_eq_some_iff, Option.some.injEq] at hx
    obtain ⟨whole, hfirst, minutes, hsecond, seconds, hthird, rfl⟩ := hx
    simp only [h _ _ hwhole hfirst, h _ _ hminutes hsecond, h _ _ hseconds hthird]
    rfl
  · cases hx

theorem accept_readBy_fieldOrName (text : List Char) :
    (Angle.readBy fieldOrName text).bind accept = (Angle.read text).bind accept := by
  rw [read_eq_readBy]
  refine Option.ext fun d => ⟨accept_of_readBy haccept ?_, accept_of_readBy haccept ?_⟩
  · exact fun cs x hx => (fieldOrName_eq_some_iff hx).1
  · exact fun cs x hx => (fieldOrName_eq_some_iff hx).2

end

theorem isFinite_of_size {x : Angle Binary64} (h : x.size.isFinite) :
    x.whole.isFinite ∧ x.minutes.isFinite ∧ x.seconds.isFinite := by
  obtain ⟨hsum, hseconds⟩ := Binary64.isFinite_of_add h
  obtain ⟨hwhole, hminutes⟩ := Binary64.isFinite_of_add hsum
  exact ⟨hwhole, Binary64.isFinite_of_div hminutes, Binary64.isFinite_of_div hseconds⟩

theorem isFinite_of_degrees? {x : Angle Binary64} (h : x.degrees?.isSome) : x.size.isFinite := by
  by_cases hwithin : within (-ofNat 90) (ofNat 90) x.degrees
  · exact Binary64.isFinite_of_mul (Binary64.isFinite_of_within hwithin)
  · simp [Angle.degrees?, hwithin] at h

theorem isFinite_of_hours? {x : Angle Binary64} (h : x.hours?.isSome) : x.size.isFinite := by
  by_cases hrange : le zero x.size ∧ lt x.size (ofNat 24)
  · exact Binary64.isFinite_of_within (Binary64.within_ninety hrange.1 hrange.2)
  · simp [Angle.hours?, and_assoc, hrange] at h

/-! ## Every text -/

/-- **The sign of an angle**, for every text.

* The texts of three fields are the fields with blanks around them; which blanks does not matter.
* A `-` in front of a first field without a sign turns each declination into its negative and leaves
  no right ascension; a `+` changes neither.
* A declination lies within ±90 and a right ascension from 0 to below 24. Either is the sum of whole
  part, sixtieths and sixtieths of sixtieths, the declination under the first sign; and a right
  ascension is the declination of the same text.
* Reading names as numbers changes neither answer. -/
theorem signs_govern_angles :
    (∀ text a b c : List Char, Text.fields text = [a, b, c] ↔
      IsField a ∧ IsField b ∧ IsField c ∧ ∃ s : Spacing, s.text a b c = text) ∧
    (∀ (s t : Spacing) (a b c : List Char), IsField a → IsField b → IsField c →
      (declination? (s.text a b c) : Option Binary64) = declination? (t.text a b c) ∧
      (rightAscension? (s.text a b c) : Option Binary64) = rightAscension? (t.text a b c) ∧
      ((∀ d ∈ a.head?, ¬ IsSign d) →
        (∀ x : Binary64, declination? (s.text ('-' :: a) b c) = some (-x) ↔
          declination? (s.text a b c) = some x) ∧
        rightAscension? (s.text ('-' :: a) b c) = (none : Option Binary64) ∧
        (declination? (s.text ('+' :: a) b c) : Option Binary64) = declination? (s.text a b c) ∧
        (rightAscension? (s.text ('+' :: a) b c) : Option Binary64) =
          rightAscension? (s.text a b c))) ∧
    ∀ text : List Char,
      (∀ d : Binary64, declination? text = some d →
        within (-ofNat 90) (ofNat 90) d ∧
        ∃ r : Reading, r.Spells text ∧ d = if r.signs.head? = some '-' then -r.hours else r.hours) ∧
      (∀ h : Binary64, rightAscension? text = some h →
        le zero h ∧ lt h (ofNat 24) ∧ declination? text = some h ∧
        ∃ r : Reading, r.Spells text ∧ r.signs.head? ≠ some '-' ∧ h = r.hours) ∧
      (Angle.readBy fieldOrName text).bind Angle.degrees? = declination? text ∧
      (Angle.readBy fieldOrName text).bind Angle.hours? = rightAscension? text := by
  refine ⟨fun text a b c => Text.fields_eq_iff, ?_, fun text => ⟨?_, ?_, ?_, ?_⟩⟩
  · intro s t a b c ha hb hc
    refine ⟨?_, ?_, fun hsign => ⟨declination?_minus ha hb hc hsign s, ?_, ?_, ?_⟩⟩
    · rw [declination?_eq, read_spacing ha hb hc s t, declination?_eq]
    · rw [rightAscension?_eq, read_spacing ha hb hc s t, rightAscension?_eq]
    · rw [rightAscension?_eq, read_minus ha hb hc hsign, Option.bind_map]
      exact Option.bind_eq_none_iff.2 fun x _ => hours?_under_minus x
    · rw [declination?_eq, read_plus ha hb hc hsign, declination?_eq, read_plain ha hb hc hsign]
    · rw [rightAscension?_eq, read_plus ha hb hc hsign, rightAscension?_eq,
        read_plain ha hb hc hsign]
  · intro d hd
    obtain ⟨r, hspells, rfl, hwithin⟩ := declination?_eq_some_iff.1 hd
    exact ⟨hwithin, r, hspells, degrees_eq hwithin⟩
  · intro h hh
    obtain ⟨r, hspells, hplus, rfl, hlow, hhigh⟩ := rightAscension?_eq_some_iff.1 hh
    exact ⟨hlow, hhigh, declination?_of_rightAscension? hh, r, hspells, hplus, rfl⟩
  · exact accept_readBy_fieldOrName (fun x h => isFinite_of_size (isFinite_of_degrees? h)) text
  · exact accept_readBy_fieldOrName (fun x h => isFinite_of_size (isFinite_of_hours? h)) text

/-- Half a degree below zero, which has no whole part to carry the sign. -/
theorem signs_govern_angles_below_one :
    declination? "-00 30 00".toList = some (-(ofNat 1 / ofNat 2) : Binary64) ∧
      declination? " 00\t30 00".toList = some (ofNat 1 / ofNat 2 : Binary64) := by
  obtain ⟨-, hsigns, haccepted⟩ := signs_govern_angles
  have hzeros : IsField ['0', '0'] := ⟨by decide, by simp [Text.isBlank]⟩
  have hminutes : IsField ['3', '0'] := ⟨by decide, by simp [Text.isBlank]⟩
  let s : Spacing :=
    ⟨[], [' '], [' '], [], by simp, by simp [Text.isBlank], by simp [Text.isBlank], by simp,
      by simp, by simp⟩
  constructor
  · have hminus := (hsigns s s _ _ _ hzeros hminutes hzeros).2.2 (by simp [IsSign])
    exact (hminus.1 _).2 (by decide +kernel)
  · exact ((haccepted " 00\t30 00".toList).2.1 _ (by decide +kernel)).2.2.1

end Aperture.Sexagesimal
