import Aperture.Angle.Sexagesimal
import Aperture.Binary64
import Aperture.Proofs.Angle.Numerals
import Aperture.Proofs.Exact.Scalar

/-!
# The texts that are angles

The format of an angle is `HH MM SS.S` with one sign in front of a declination. The reader accepts
more than that. A `Reading` is how it takes a text apart: signs, any number of them, and three
numerals, of which the last two have signs of their own.

**Theorem (`accepted_iff_read`).** A text is accepted when it has a reading whose total is in range.
The first sign is that of the total and the others in front are dropped; a sign in front of the
minutes or the seconds is that of this part only. A text with a reading is in the documented format
exactly when the reading is plain: at most one sign in front, none elsewhere, and less than sixty
minutes and seconds.

The reader of fields splits off the signs that the numeral then does not have
(`Angle.read_eq_some_iff`); the rest is the grammar of numerals.
-/

namespace Aperture.Sexagesimal

open Decimal Scalar
open scoped Exact

variable {R : Type} [Scalar R]

/-! ## The documented format -/

/-- A numeral from zero to below sixty, without rounding. -/
def InSixty (cs : List Char) : Prop := ∃ x ∈ (field cs : Option ℚ), 0 ≤ x ∧ x < 60

instance : DecidablePred InSixty := fun cs =>
  inferInstanceAs (Decidable (∃ x ∈ (field cs : Option ℚ), 0 ≤ x ∧ x < 60))

/-- Three fields, no sign but one that begins the first, and less than sixty minutes and seconds. -/
def InFormat : List (List Char) → Prop
  | [first, minutes, seconds] =>
    Signless (first.tail ++ minutes ++ seconds) ∧ InSixty minutes ∧ InSixty seconds
  | _ => False

instance : DecidablePred InFormat
  | [_, _, _] => inferInstanceAs (Decidable (_ ∧ _))
  | [] | [_] | [_, _] | _ :: _ :: _ :: _ :: _ => inferInstanceAs (Decidable False)

def Documented (text : List Char) : Prop := InFormat (Text.fields text)

instance : DecidablePred Documented := fun text =>
  inferInstanceAs (Decidable (InFormat (Text.fields text)))

/-! ## Readings -/

/-- How a text is taken apart: the signs in front, and the three numerals. -/
structure Reading where
  signs : List Char
  whole : Decimal.Spelling
  minutes : Decimal.Spelling
  seconds : Decimal.Spelling
  isSign : ∀ c ∈ signs, IsSign c
  whole_sign : whole.sign = .absent

namespace Reading

def fields (r : Reading) : List (List Char) :=
  [r.signs ++ r.whole.text, r.minutes.text, r.seconds.text]

def Spells (r : Reading) (text : List Char) : Prop := Text.fields text = r.fields

def angle (r : Reading) : Angle R :=
  ⟨r.signs.head? == some '-', r.whole.numeral.value, r.minutes.numeral.value,
    r.seconds.numeral.value⟩

/-- Whole part, minutes and seconds, each with the sign of its own. -/
def hours (r : Reading) : R :=
  r.whole.numeral.value + r.minutes.numeral.value / ofNat 60 + r.seconds.numeral.value / ofNat 3600

/-- The same under the first sign in front. -/
def degrees (r : Reading) : R :=
  (if r.signs.head? = some '-' then -one else one) * r.hours

/-- Written in the documented format. -/
structure Plain (r : Reading) : Prop where
  signs : r.signs.length ≤ 1
  whole : r.whole.Unsigned
  minutes : r.minutes.Unsigned
  seconds : r.seconds.Unsigned
  minutes_lt : (r.minutes.numeral.value : ℚ) < 60
  seconds_lt : (r.seconds.numeral.value : ℚ) < 60

end Reading

theorem field_eq_some_iff {cs : List Char} {x : R} :
    field cs = some x ↔ ∃ s : Decimal.Spelling, cs = s.text ∧ s.numeral.value = x := by
  simp only [field, Option.map_eq_some_iff, Numeral.read_eq_some_iff]
  constructor
  · rintro ⟨n, ⟨s, htext, rfl⟩, hx⟩
    exact ⟨s, htext, hx⟩
  · rintro ⟨s, htext, hx⟩
    exact ⟨_, ⟨s, htext, rfl⟩, hx⟩

theorem beq_or_beq_eq : (fun c : Char => c == '-' || c == '+') = fun c => decide (IsSign c) := by
  funext c
  rw [Bool.eq_iff_iff, decide_eq_true_iff]
  simp [IsSign]

/-- What is left of a text begins with no sign, and nothing but signs is taken off. -/
theorem exists_signs (cs : List Char) : ∃ signs : List Char, (∀ c ∈ signs, IsSign c) ∧
    cs = signs ++ cs.dropWhile (fun c => c == '-' || c == '+') ∧
    ∀ c ∈ (cs.dropWhile fun c => c == '-' || c == '+').head?, ¬ IsSign c := by
  rw [beq_or_beq_eq]
  refine ⟨cs.takeWhile fun c => decide (IsSign c), fun c hc => ?_,
    List.takeWhile_append_dropWhile.symm, fun c hc => ?_⟩
  · exact of_decide_eq_true (List.mem_takeWhile_imp (p := fun c => decide (IsSign c)) hc)
  · have hfirst := List.head?_dropWhile_not (fun c => decide (IsSign c)) cs
    rw [hc] at hfirst
    exact of_decide_eq_false hfirst

theorem dropWhile_signs {signs cs : List Char} (hsigns : ∀ c ∈ signs, IsSign c)
    (hcs : ∀ c ∈ cs.head?, ¬ IsSign c) :
    (signs ++ cs).dropWhile (fun c => c == '-' || c == '+') = cs := by
  rw [beq_or_beq_eq, List.dropWhile_append_of_pos fun c hc => decide_eq_true (hsigns c hc)]
  cases cs with
  | nil => rfl
  | cons c cs => simp [hcs c rfl]

/-- Signs in front of a text that begins with none of its own. -/
theorem head?_signs {signs cs : List Char} (hcs : ∀ c ∈ cs.head?, ¬ IsSign c) :
    ((signs ++ cs).head? == some '-') = (signs.head? == some '-') := by
  cases signs with
  | cons c signs => rfl
  | nil =>
    have hminus : cs.head? ≠ some '-' := fun h => hcs '-' h (.inl rfl)
    simpa using hminus

/-- The reader takes off the signs in front, whatever their number, and looks at the first one. -/
theorem Angle.read_eq_some_iff {text : List Char} {a : Angle R} :
    read text = some a ↔ ∃ r : Reading, r.Spells text ∧ r.angle = a := by
  constructor
  · intro h
    unfold read at h
    split at h
    · next first second third hfields =>
      obtain ⟨_, hwhole, _, hminutes, _, hseconds, rfl⟩ := by
        simpa only [Option.bind_eq_bind, Option.bind_eq_some_iff, Option.some.injEq] using h
      obtain ⟨whole, hfirst, rfl⟩ := field_eq_some_iff.1 hwhole
      obtain ⟨minutes, rfl, rfl⟩ := field_eq_some_iff.1 hminutes
      obtain ⟨seconds, rfl, rfl⟩ := field_eq_some_iff.1 hseconds
      obtain ⟨signs, hsigns, hsplit, hhead⟩ := exists_signs first
      rw [hfirst] at hsplit hhead
      refine ⟨⟨signs, whole, minutes, seconds, hsigns, whole.head_iff.1 hhead⟩, ?_, ?_⟩
      · rw [Reading.Spells, hfields, hsplit, Reading.fields]
      · rw [Reading.angle, hsplit, head?_signs hhead]
    · cases h
  · rintro ⟨r, hfields, rfl⟩
    have hhead := r.whole.head_iff.2 r.whole_sign
    have hread (s : Decimal.Spelling) : field s.text = some (s.numeral.value : R) :=
      field_eq_some_iff.2 ⟨s, rfl, rfl⟩
    rw [Reading.Spells, Reading.fields] at hfields
    simp only [read, hfields, dropWhile_signs r.isSign hhead, hread, head?_signs hhead]
    rfl

/-! ## What is accepted -/

theorem degrees_angle (r : Reading) :
    (if (r.angle : Angle R).negative then -one else one) * r.angle.size = (r.degrees : R) := by
  simp only [Reading.angle, Reading.degrees, beq_iff_eq]
  rfl

theorem declination?_eq_some_iff {text : List Char} {d : R} :
    declination? text = some d ↔
      ∃ r : Reading, r.Spells text ∧ r.degrees = d ∧ within (-ofNat 90) (ofNat 90) d := by
  simp only [declination?, Option.bind_eq_bind, Option.bind_eq_some_iff, Angle.read_eq_some_iff]
  constructor
  · rintro ⟨_, ⟨r, hr, rfl⟩, h⟩
    rw [degrees_angle, Option.ite_none_right_eq_some, Option.some.injEq] at h
    obtain ⟨hrange, rfl⟩ := h
    exact ⟨r, hr, rfl, hrange⟩
  · rintro ⟨r, hr, rfl, hrange⟩
    exact ⟨_, ⟨r, hr, rfl⟩, by rw [degrees_angle, if_pos hrange]⟩

theorem rightAscension?_eq_some_iff {text : List Char} {h : R} :
    rightAscension? text = some h ↔
      ∃ r : Reading, r.Spells text ∧ r.signs.head? ≠ some '-' ∧ r.hours = h ∧
        le zero h ∧ lt h (ofNat 24) := by
  simp only [rightAscension?, Option.bind_eq_bind, Option.bind_eq_some_iff, Angle.read_eq_some_iff,
    Option.ite_none_right_eq_some, Option.some.injEq, Bool.and_eq_true, Bool.not_eq_true']
  have hsign (r : Reading) : (r.angle : Angle R).negative = false ↔ r.signs.head? ≠ some '-' :=
    beq_eq_false_iff_ne
  constructor
  · rintro ⟨_, ⟨r, hr, rfl⟩, ⟨⟨hnegative, hlow⟩, hhigh⟩, rfl⟩
    exact ⟨r, hr, (hsign r).1 hnegative, rfl, hlow, hhigh⟩
  · rintro ⟨r, hr, hnegative, rfl, hlow, hhigh⟩
    exact ⟨_, ⟨r, hr, rfl⟩, ⟨⟨(hsign r).2 hnegative, hlow⟩, hhigh⟩, rfl⟩

/-! ## What is documented -/

theorem inSixty_text (s : Decimal.Spelling) :
    InSixty s.text ↔ 0 ≤ (s.numeral.value : ℚ) ∧ (s.numeral.value : ℚ) < 60 := by
  have hread : field s.text = some (s.numeral.value : ℚ) := field_eq_some_iff.2 ⟨s, rfl, rfl⟩
  simp [InSixty, hread]

theorem value_nonneg {s : Decimal.Spelling} (h : s.sign = .absent) :
    0 ≤ (s.numeral.value : ℚ) := by
  have hnegative : s.numeral.negative = false := by rw [Decimal.Spelling.numeral, h]; rfl
  rw [Numeral.value, hnegative, Exact.ofDecimal_eq]
  exact mul_nonneg (Nat.cast_nonneg _) (zpow_nonneg (by decide) _)

/-- The signs behind the first character are those of the run in front but one, and those inside the
first numeral. -/
theorem signless_tail_iff (r : Reading) :
    Signless (r.signs ++ r.whole.text).tail ↔ r.signs.length ≤ 1 ∧ r.whole.Unsigned := by
  rcases hsigns : r.signs with _ | ⟨c, _ | ⟨d, signs⟩⟩
  · have hhead := r.whole.head_iff.2 r.whole_sign
    rw [← r.whole.signless_iff]
    rcases htext : r.whole.text with _ | ⟨c, cs⟩
    · simp
    · have hc : ¬ IsSign c := hhead c (by rw [htext]; rfl)
      simp [signless_cons, hc]
  · simpa using r.whole.signless_iff
  · have hd : IsSign d := r.isSign d (by simp [hsigns])
    simp [signless_cons, hd]

theorem documented_iff_plain {r : Reading} {text : List Char} (h : r.Spells text) :
    Documented text ↔ r.Plain := by
  rw [Reading.Spells, Reading.fields] at h
  rw [Documented, h]
  simp only [InFormat, signless_append, signless_tail_iff, Decimal.Spelling.signless_iff,
    inSixty_text]
  constructor
  · rintro ⟨⟨⟨⟨hsigns, hwhole⟩, hminutes⟩, hseconds⟩, ⟨-, hminutes_lt⟩, -, hseconds_lt⟩
    exact ⟨hsigns, hwhole, hminutes, hseconds, hminutes_lt, hseconds_lt⟩
  · intro hr
    exact ⟨⟨⟨⟨hr.signs, hr.whole⟩, hr.minutes⟩, hr.seconds⟩,
      ⟨value_nonneg hr.minutes.1, hr.minutes_lt⟩, value_nonneg hr.seconds.1, hr.seconds_lt⟩

/-- **What is accepted**, for every text. A declination is read from the texts with a reading whose
degrees are in range and from no other; the first sign in front is that of the degrees. So are the
hours of a right ascension, which no `-` may begin. Such a text is in the documented format when
its reading is plain, and only then. -/
theorem accepted_iff_read (text : List Char) :
    (∀ d : R, declination? text = some d ↔
      ∃ r : Reading, r.Spells text ∧ r.degrees = d ∧ within (-ofNat 90) (ofNat 90) d) ∧
    (∀ h : R, rightAscension? text = some h ↔
      ∃ r : Reading, r.Spells text ∧ r.signs.head? ≠ some '-' ∧ r.hours = h ∧
        le zero h ∧ lt h (ofNat 24)) ∧
    ∀ r : Reading, r.Spells text → (Documented text ↔ r.Plain) :=
  ⟨fun _ => declination?_eq_some_iff, fun _ => rightAscension?_eq_some_iff,
    fun _ => documented_iff_plain⟩

/-- Ten degrees behind two signs. -/
def twoSigns : Reading where
  signs := ['+', '-']
  whole := ⟨.absent, ['1', '0'], none, none, by simp, by simp⟩
  minutes := ⟨.absent, ['0', '0'], none, none, by simp, by simp⟩
  seconds := ⟨.absent, ['0', '0'], none, none, by simp, by simp⟩
  isSign := by simp [IsSign]
  whole_sign := rfl

/-- The second sign is dropped, and the text is not in the documented format. -/
theorem accepted_iff_read_two_signs :
    twoSigns.Spells "+-10 00 00".toList ∧
      declination? "+-10 00 00".toList = some (ofNat 10 : Binary64) ∧
      ¬ Documented "+-10 00 00".toList := by
  have hspells : twoSigns.Spells "+-10 00 00".toList := by
    rw [Reading.Spells]
    decide +kernel
  obtain ⟨hdeclination, -, hdocumented⟩ :=
    accepted_iff_read (R := Binary64) "+-10 00 00".toList
  refine ⟨hspells, (hdeclination _).2 ⟨twoSigns, hspells, ?_⟩, fun h => ?_⟩
  · decide +kernel
  · exact absurd ((hdocumented twoSigns hspells).1 h).signs (by decide)

/-- Texts outside the documented format are accepted: with a second sign, which is dropped and
lets a right ascension pass that is refused without the first; with a sign in front of the minutes
that is theirs alone; with sixty minutes and more; and with a sign inside a numeral. -/
theorem accepted_outside_format :
    (¬ ∀ text : List Char,
      (rightAscension? text : Option Binary64).isSome ∨
        (declination? text : Option Binary64).isSome → Documented text) ∧
    (∀ text ∈ ["+-10 00 00", "+-01 00 00", "91 -60 0", "0 90 0", "1e+1 0 0"],
      ¬ Documented text.toList) ∧
    (declination? "+-10 00 00".toList = some (ofNat 10 : Binary64) ∧
      rightAscension? "+-01 00 00".toList = some (ofNat 1 : Binary64) ∧
      rightAscension? "-01 00 00".toList = (none : Option Binary64)) ∧
    declination? "91 -60 0".toList = some (ofNat 90 : Binary64) ∧
    declination? "0 90 0".toList = some (ofNat 3 / ofNat 2 : Binary64) ∧
    declination? "1e+1 0 0".toList = some (ofNat 10 : Binary64) := by
  refine ⟨fun h => ?_, ?_⟩
  · have hdocumented := h "+-10 00 00".toList (.inr (by decide +kernel))
    exact absurd hdocumented (by decide +kernel)
  · decide +kernel

end Aperture.Sexagesimal
