import Aperture.Proofs.Angle.Numerals
import Aperture.Time.Timestamp
import Mathlib.Data.List.Induction
import Mathlib.Tactic.Ring

/-!
# The texts that are timestamps

The reader of timestamps takes a text apart from the front and never goes back, and reads the fields
afterwards. Here the same texts are put together from digits, marks and blanks, as a `Writing` for a
class of digits.

* The fields are found in the writings with digits of any script (`capture_eq_some_iff`): a run of
  digits always ends at a character that is none, so there is one place to cut.
* The number reader takes digits of core only, and the words have room for what they write. So the
  texts with numbers are the writings with digits of core (`read_eq_some_iff`).
* Two such writings have the same numbers exactly if their fields agree once zeros are filled in, in
  front of a field and behind a fraction (`Writing.numbers_eq_iff`): digits of one length are told
  from each other by their value.

**Theorem (`parse_reads_numbers`).** The calendar sees the numbers and nothing else of the text,
whatever calendar it is.
-/

namespace Aperture

namespace Decimal

/-! ## Digits -/

theorem toNat_sub_lt_of_isDigit {c : Char} (h : c.isDigit) : c.toNat - '0'.toNat < 10 := by
  have hzero : '0'.toNat = 48 := rfl
  have hnine : '9'.toNat = 57 := rfl
  have := (Char.isDigit_iff_toNat.1 h).2
  omega

theorem ofDigits_append (cs ds : List Char) :
    ofDigits (cs ++ ds) = ofDigits cs * power ds.length + ofDigits ds := by
  induction ds using List.reverseRecOn with
  | nil => simp
  | append_singleton ds d ih =>
    rw [← List.append_assoc, ofDigits_append_singleton, ofDigits_append_singleton, ih,
      List.length_append, List.length_singleton, power_succ]
    ring

theorem ofDigits_lt {cs : List Char} (h : ∀ c ∈ cs, c.isDigit) : ofDigits cs < power cs.length := by
  induction cs using List.reverseRecOn with
  | nil => decide
  | append_singleton cs c ih =>
    have hlast := toNat_sub_lt_of_isDigit (h c (by simp))
    have hcs := ih fun d hd => h d (by simp [hd])
    rw [ofDigits_append_singleton, List.length_append, List.length_singleton, power_succ]
    omega

@[simp] theorem ofDigits_zeros (k : Nat) : ofDigits (List.replicate k '0') = 0 := by
  induction k with
  | zero => rfl
  | succ k ih => simp [List.replicate_succ', ofDigits_append_singleton, ih]

end Decimal

namespace Timestamp

open Decimal

/-- The class of characters that are taken for digits. -/
structure DigitClass (digit : Char → Bool) : Prop where
  blank : ∀ c, Text.isBlank c → digit c = false
  mark : ∀ c ∈ ['/', '-', ' ', 'T', ':', '.'], digit c = false

theorem digitClass_isDecimal : DigitClass Text.isDecimal where
  blank _ h := Text.isDecimal_of_isBlank h
  mark c hc := by
    simp only [List.mem_cons, List.not_mem_nil, or_false] at hc
    rcases hc with rfl | rfl | rfl | rfl | rfl | rfl <;>
      exact (Text.isDecimal_eq_isDigit (by decide)).trans rfl

/-- From `least` to `most` digits. -/
structure Digits (digit : Char → Bool) (least most : Nat) where
  chars : List Char
  isDigit : ∀ c ∈ chars, digit c
  least_le : least ≤ chars.length
  le_most : chars.length ≤ most

namespace Digits

variable {digit : Char → Bool} {least most : Nat}

/-- The same digits in another class. -/
def recast {other : Char → Bool} (d : Digits digit least most) (h : ∀ c ∈ d.chars, other c) :
    Digits other least most := ⟨d.chars, h, d.least_le, d.le_most⟩

/-- Digits of core are digits of some script. -/
def widen (d : Digits Char.isDigit least most) : Digits Text.isDecimal least most :=
  d.recast fun c hc => Text.isDecimal_of_isDigit (d.isDigit c hc)

variable (d e : Digits Char.isDigit least most)

def value : Nat := ofDigits d.chars

/-- As many digits as there can be: zeros come first. -/
def filled : List Char := List.replicate (most - d.chars.length) '0' ++ d.chars

@[simp] theorem length_filled : d.filled.length = most := by
  have := d.le_most
  simp only [filled, List.length_append, List.length_replicate]
  omega

theorem isDigit_filled : ∀ c ∈ d.filled, c.isDigit :=
  List.forall_mem_append.2 ⟨fun _ hc => List.eq_of_mem_replicate hc ▸ rfl, d.isDigit⟩

theorem ofDigits_filled : ofDigits d.filled = d.value := by
  simp [filled, value, ofDigits_append]

theorem value_lt : d.value < power most := by
  have := ofDigits_lt d.isDigit_filled
  rwa [d.ofDigits_filled, d.length_filled] at this

end Digits

/-- The digits behind the point, where there is a point. -/
abbrev Fraction (digit : Char → Bool) : Type := Option (Digits digit 1 9)

namespace Fraction

def text {digit : Char → Bool} : Fraction digit → List Char
  | none => []
  | some d => '.' :: d.chars

def nanoseconds : Fraction Char.isDigit → Nat
  | none => 0
  | some d => d.value * power (9 - d.chars.length)

/-- All nine digits: zeros come last. -/
def filled : Fraction Char.isDigit → List Char
  | none => List.replicate 9 '0'
  | some d => padded d.chars

theorem length_filled (f : Fraction Char.isDigit) : (filled f).length = 9 := by
  cases f with
  | none => rfl
  | some d =>
    have := d.le_most
    simp only [filled, padded, List.length_append, List.length_replicate]
    omega

theorem isDigit_filled (f : Fraction Char.isDigit) : ∀ c ∈ filled f, c.isDigit := by
  have hzeros : ∀ k, ∀ c ∈ List.replicate k '0', c.isDigit :=
    fun k c hc => List.eq_of_mem_replicate hc ▸ rfl
  cases f with
  | none => exact hzeros 9
  | some d => exact List.forall_mem_append.2 ⟨d.isDigit, hzeros _⟩

theorem ofDigits_filled (f : Fraction Char.isDigit) : ofDigits (filled f) = nanoseconds f := by
  cases f with
  | none => exact ofDigits_zeros 9
  | some d => simp [filled, padded, nanoseconds, ofDigits_append, Digits.value]

theorem nanoseconds_lt (f : Fraction Char.isDigit) : nanoseconds f < 1000000000 := by
  have := ofDigits_lt (isDigit_filled f)
  rwa [ofDigits_filled, length_filled] at this

end Fraction

/-- What a timestamp is written with, for a class of digits. -/
structure Writing (digit : Char → Bool) where
  before : List Char
  year : Digits digit 4 4
  firstMark : Char
  month : Digits digit 1 2
  secondMark : Char
  day : Digits digit 1 2
  middle : Char
  hour : Digits digit 1 2
  minute : Digits digit 1 2
  second : Digits digit 1 2
  fraction : Fraction digit
  after : List Char
  blank_before : ∀ c ∈ before, Text.isBlank c
  firstMark_mem : firstMark ∈ ['/', '-']
  secondMark_mem : secondMark ∈ ['/', '-']
  middle_mem : middle ∈ [' ', 'T']
  blank_after : ∀ c ∈ after, Text.isBlank c

namespace Writing

section

variable {digit : Char → Bool} (w : Writing digit)

/-- Everything between the blanks in front and the fraction. -/
def body (rest : List Char) : List Char :=
  w.year.chars ++ w.firstMark :: (w.month.chars ++ w.secondMark :: (w.day.chars ++
    w.middle :: (w.hour.chars ++ ':' :: (w.minute.chars ++ ':' :: (w.second.chars ++ rest)))))

def text : List Char := w.before ++ w.body (Fraction.text w.fraction ++ w.after)

def fields : Fields :=
  ⟨w.year.chars, w.month.chars, w.day.chars, w.hour.chars, w.minute.chars, w.second.chars,
    w.fraction.map Digits.chars⟩

theorem body_head (h : DigitClass digit) (rest : List Char) :
    ∀ c ∈ (w.body rest).head?, Text.isBlank c = false := by
  intro c hc
  have hlen := w.year.least_le
  have hdigit := w.year.isDigit
  rcases hy : w.year.chars with _ | ⟨d, ds⟩
  · simp [hy] at hlen
  · obtain rfl : d = c := by simpa [body, hy] using hc
    by_contra hblank
    have := h.blank d (Bool.not_eq_false _ ▸ hblank)
    simp [hy, this] at hdigit

end

/-- Digits of core are digits of some script. -/
def widen (w : Writing Char.isDigit) : Writing Text.isDecimal where
  before := w.before
  year := w.year.widen
  firstMark := w.firstMark
  month := w.month.widen
  secondMark := w.secondMark
  day := w.day.widen
  middle := w.middle
  hour := w.hour.widen
  minute := w.minute.widen
  second := w.second.widen
  fraction := w.fraction.map Digits.widen
  after := w.after
  blank_before := w.blank_before
  firstMark_mem := w.firstMark_mem
  secondMark_mem := w.secondMark_mem
  middle_mem := w.middle_mem
  blank_after := w.blank_after

theorem text_widen (w : Writing Char.isDigit) : w.widen.text = w.text := by
  obtain ⟨before, year, firstMark, month, secondMark, day, middle, hour, minute, second, fraction,
    after, _, _, _, _, _⟩ := w
  cases fraction <;> rfl

theorem fields_widen (w : Writing Char.isDigit) : w.widen.fields = w.fields := by
  obtain ⟨before, year, firstMark, month, secondMark, day, middle, hour, minute, second, fraction,
    after, _, _, _, _, _⟩ := w
  cases fraction <;> rfl

/-- The seven numbers that are written. -/
def numbers (w : Writing Char.isDigit) : Timestamp :=
  ⟨w.year.value, w.month.value, w.day.value, w.hour.value, w.minute.value, w.second.value,
    Fraction.nanoseconds w.fraction⟩

end Writing

/-! ## Finding the fields -/

theorem takeDigits_eq_some_iff {least most : Nat} {cs digits rest : List Char} :
    takeDigits least most cs = some (digits, rest) ↔
      ∃ d : Digits Text.isDecimal least most,
        cs = d.chars ++ rest ∧ (∀ c ∈ rest.head?, Text.isDecimal c = false) ∧ d.chars = digits := by
  constructor
  · intro h
    simp only [takeDigits] at h
    split at h
    · next hlen =>
      obtain ⟨rfl, rfl⟩ := Prod.mk.inj (Option.some.inj h)
      refine ⟨⟨cs.takeWhile Text.isDecimal, fun c => List.mem_takeWhile_imp, hlen.1, hlen.2⟩,
        List.takeWhile_append_dropWhile.symm, ?_, rfl⟩
      intro c hc
      have hhead := List.head?_dropWhile_not Text.isDecimal cs
      rwa [hc] at hhead
    · cases h
  · rintro ⟨d, rfl, hrest, rfl⟩
    simp [takeDigits, takeWhile_run d.isDigit hrest, dropWhile_run d.isDigit hrest, d.least_le,
      d.le_most]

theorem takeMark_eq_some_iff {marks cs rest : List Char} :
    takeMark marks cs = some rest ↔ ∃ c ∈ marks, cs = c :: rest := by
  cases cs with
  | nil => simp [takeMark]
  | cons c cs =>
    simp only [takeMark, List.contains_iff_mem, Option.ite_none_right_eq_some, Option.some.injEq,
      List.cons.injEq]
    exact ⟨fun ⟨hc, hcs⟩ => ⟨c, hc, rfl, hcs⟩, fun ⟨_, hd, hc, hcs⟩ => ⟨hc ▸ hd, hcs⟩⟩

/-- What cannot continue a fraction: no digit goes on with it, and no point begins one. -/
def EndsFraction (rest : List Char) : Prop :=
  ∀ c ∈ rest.head?, Text.isDecimal c = false ∧ c ≠ '.'

theorem endsFraction_of_isBlank {cs : List Char} (h : ∀ c ∈ cs, Text.isBlank c) :
    EndsFraction cs := by
  intro c hc
  have hblank := h c (List.mem_of_mem_head? hc)
  refine ⟨Text.isDecimal_of_isBlank hblank, ?_⟩
  rintro rfl
  exact absurd hblank (by decide)

theorem EndsFraction.head_append {rest : List Char} (h : EndsFraction rest)
    (f : Fraction Text.isDecimal) :
    ∀ c ∈ (Fraction.text f ++ rest).head?, Text.isDecimal c = false := by
  cases f with
  | none => exact fun c hc => (h c hc).1
  | some d =>
    rintro c hc
    obtain rfl : '.' = c := by simpa [Fraction.text] using hc
    exact digitClass_isDecimal.mark _ (by simp)

theorem takeFraction_eq_some_iff {cs rest : List Char} {found : Option (List Char)}
    (hrest : EndsFraction rest) :
    takeFraction cs = some (found, rest) ↔
      ∃ f : Fraction Text.isDecimal,
        cs = Fraction.text f ++ rest ∧ f.map Digits.chars = found := by
  constructor
  · intro h
    unfold takeFraction at h
    split at h
    · next cs =>
      obtain ⟨⟨digits, behind⟩, hdigits, hpair⟩ := Option.bind_eq_some_iff.1 h
      obtain ⟨rfl, rfl⟩ := Prod.mk.inj (Option.some.inj hpair)
      obtain ⟨d, rfl, -, rfl⟩ := takeDigits_eq_some_iff.1 hdigits
      exact ⟨some d, rfl, rfl⟩
    · obtain ⟨rfl, rfl⟩ := Prod.mk.inj (Option.some.inj h)
      exact ⟨none, rfl, rfl⟩
  · rintro ⟨f, rfl, rfl⟩
    rcases f with _ | d
    · rw [Fraction.text, List.nil_append]
      cases rest with
      | nil => rfl
      | cons c rest => simp [takeFraction, (hrest c rfl).2]
    · have hdigit : ∀ c ∈ rest.head?, Text.isDecimal c = false := fun c hc => (hrest c hc).1
      simp only [takeFraction, Fraction.text, List.cons_append,
        takeDigits_eq_some_iff.2 ⟨d, rfl, hdigit, rfl⟩]
      rfl

section

variable {α : Type} {cs : List Char} {r : α}

/-- What is done behind digits. -/
theorem takeDigits_bind {least most : Nat} {f : List Char × List Char → Option α} :
    (takeDigits least most cs).bind f = some r ↔
      ∃ (d : Digits Text.isDecimal least most) (rest : List Char),
        cs = d.chars ++ rest ∧ (∀ c ∈ rest.head?, Text.isDecimal c = false) ∧
          f (d.chars, rest) = some r := by
  simp only [Option.bind_eq_some_iff, Prod.exists, takeDigits_eq_some_iff]
  constructor
  · rintro ⟨_, rest, ⟨d, hcs, hrest, rfl⟩, hf⟩
    exact ⟨d, rest, hcs, hrest, hf⟩
  · rintro ⟨d, rest, hcs, hrest, hf⟩
    exact ⟨_, rest, ⟨d, hcs, hrest, rfl⟩, hf⟩

/-- What is done behind a mark. -/
theorem takeMark_bind {marks : List Char} {f : List Char → Option α} :
    (takeMark marks cs).bind f = some r ↔
      ∃ c ∈ marks, ∃ rest, cs = c :: rest ∧ f rest = some r := by
  simp only [Option.bind_eq_some_iff, takeMark_eq_some_iff]
  constructor
  · rintro ⟨rest, ⟨c, hc, hcs⟩, hf⟩
    exact ⟨c, hc, rest, hcs, hf⟩
  · rintro ⟨c, hc, rest, hcs, hf⟩
    exact ⟨rest, ⟨c, hc, hcs⟩, hf⟩

end

/-- A mark ends the digits in front of it. -/
theorem head_mark {marks rest : List Char} {c : Char}
    (hmarks : ∀ c ∈ marks, c ∈ ['/', '-', ' ', 'T', ':', '.']) (hc : c ∈ marks) :
    ∀ d ∈ (c :: rest).head?, Text.isDecimal d = false := by
  simpa using digitClass_isDecimal.mark c (hmarks c hc)

/-- **The fields are found in the texts of the right form,** with digits of any script. -/
theorem capture_eq_some_iff {text : List Char} {fields : Fields} :
    capture text = some fields ↔
      ∃ w : Writing Text.isDecimal, text = w.text ∧ w.fields = fields := by
  constructor
  · intro h
    unfold capture at h
    obtain ⟨year, _, hyear, -, h⟩ := takeDigits_bind.1 h
    obtain ⟨firstMark, hfirst, _, rfl, hmonth⟩ := takeMark_bind.1 h
    obtain ⟨month, _, rfl, -, h⟩ := takeDigits_bind.1 hmonth
    obtain ⟨secondMark, hsecond, _, rfl, hday⟩ := takeMark_bind.1 h
    obtain ⟨day, _, rfl, -, h⟩ := takeDigits_bind.1 hday
    obtain ⟨middle, hmiddle, _, rfl, hhour⟩ := takeMark_bind.1 h
    obtain ⟨hour, _, rfl, -, h⟩ := takeDigits_bind.1 hhour
    obtain ⟨_, hcolon, _, rfl, hminute⟩ := takeMark_bind.1 h
    obtain rfl := List.mem_singleton.1 hcolon
    obtain ⟨minute, _, rfl, -, h⟩ := takeDigits_bind.1 hminute
    obtain ⟨_, hcolon, _, rfl, hseconds⟩ := takeMark_bind.1 h
    obtain rfl := List.mem_singleton.1 hcolon
    obtain ⟨second, _, rfl, -, h⟩ := takeDigits_bind.1 hseconds
    obtain ⟨⟨_, after⟩, hfraction, h⟩ := Option.bind_eq_some_iff.1 h
    obtain ⟨hafter, hfields⟩ := Option.ite_none_right_eq_some.1 h
    have hafter := List.all_eq_true.1 hafter
    obtain ⟨fraction, rfl, rfl⟩ :=
      (takeFraction_eq_some_iff (endsFraction_of_isBlank hafter)).1 hfraction
    refine ⟨⟨text.takeWhile Text.isBlank, year, firstMark, month, secondMark, day, middle, hour,
      minute, second, fraction, after, fun c => List.mem_takeWhile_imp, hfirst, hsecond, hmiddle,
      hafter⟩, ?_, Option.some.inj hfields⟩
    rw [Writing.text, Writing.body, ← hyear, List.takeWhile_append_dropWhile]
  · rintro ⟨w, rfl, rfl⟩
    have hslash : ∀ c ∈ ['/', '-'], c ∈ ['/', '-', ' ', 'T', ':', '.'] := by simp
    have hgap : ∀ c ∈ [' ', 'T'], c ∈ ['/', '-', ' ', 'T', ':', '.'] := by simp
    have hcolon : ∀ c ∈ [':'], c ∈ ['/', '-', ' ', 'T', ':', '.'] := by simp
    have hmem : ':' ∈ [':'] := List.mem_singleton_self ':'
    have hend := endsFraction_of_isBlank w.blank_after
    rw [capture, Writing.text, dropWhile_run w.blank_before (w.body_head digitClass_isDecimal _),
      Writing.body]
    refine takeDigits_bind.2 ⟨w.year, _, rfl, head_mark hslash w.firstMark_mem, ?_⟩
    refine takeMark_bind.2 ⟨_, w.firstMark_mem, _, rfl, ?_⟩
    refine takeDigits_bind.2 ⟨w.month, _, rfl, head_mark hslash w.secondMark_mem, ?_⟩
    refine takeMark_bind.2 ⟨_, w.secondMark_mem, _, rfl, ?_⟩
    refine takeDigits_bind.2 ⟨w.day, _, rfl, head_mark hgap w.middle_mem, ?_⟩
    refine takeMark_bind.2 ⟨_, w.middle_mem, _, rfl, ?_⟩
    refine takeDigits_bind.2 ⟨w.hour, _, rfl, head_mark hcolon hmem, ?_⟩
    refine takeMark_bind.2 ⟨_, hmem, _, rfl, ?_⟩
    refine takeDigits_bind.2 ⟨w.minute, _, rfl, head_mark hcolon hmem, ?_⟩
    refine takeMark_bind.2 ⟨_, hmem, _, rfl, ?_⟩
    refine takeDigits_bind.2 ⟨w.second, _, rfl, hend.head_append w.fraction, ?_⟩
    refine Option.bind_eq_some_iff.2
      ⟨_, (takeFraction_eq_some_iff hend).2 ⟨w.fraction, rfl, rfl⟩, ?_⟩
    exact if_pos (List.all_eq_true.2 w.blank_after)

/-! ## Reading the fields -/

/-- A field of at most nine digits is a number if they are digits of core, and then the word has
room for it. -/
theorem readWord_eq_some_iff {least most : Nat} (d : Digits Text.isDecimal least most)
    (hleast : 0 < least) (hmost : most ≤ 9) {n : UInt32} :
    readWord d.chars = some n ↔
      (∀ c ∈ d.chars, c.isDigit) ∧ n = UInt32.ofNat (ofDigits d.chars) := by
  have hne : d.chars ≠ [] := List.length_pos_iff.1 (hleast.trans_le d.least_le)
  have hplain : dropPlus d.chars = d.chars := by
    unfold dropPlus
    split
    · next cs hcs =>
      have hplus := d.isDigit '+' (by simp [hcs])
      exact absurd hplus (by decide +kernel)
    · rfl
  have hsize : (∀ c ∈ d.chars, c.isDigit) → ofDigits d.chars < UInt32.size := fun h =>
    calc ofDigits d.chars < power d.chars.length := ofDigits_lt h
      _ ≤ power 9 := (by decide : ∀ k ≤ 9, power k ≤ power 9) _ (d.le_most.trans hmost)
      _ < UInt32.size := by decide
  simp only [readWord, hplain, List.all_eq_true, Option.ite_none_right_eq_some, Option.some.injEq]
  exact ⟨fun ⟨⟨_, h, _⟩, hn⟩ => ⟨h, hn.symm⟩, fun ⟨h, hn⟩ => ⟨⟨hne, h, hsize h⟩, hn.symm⟩⟩

/-- A fraction filled up to nine digits. -/
def Digits.padded (d : Digits Text.isDecimal 1 9) : Digits Text.isDecimal 9 9 where
  chars := Timestamp.padded d.chars
  isDigit := List.forall_mem_append.2 ⟨d.isDigit, fun _ hc =>
    List.eq_of_mem_replicate hc ▸ Text.isDecimal_of_isDigit rfl⟩
  least_le := by
    simp only [Timestamp.padded, List.length_append, List.length_replicate]
    omega
  le_most := by
    have := d.le_most
    simp only [Timestamp.padded, List.length_append, List.length_replicate]
    omega

/-- The numbers survive the words of 32 and 8 bits they are put into. -/
structure Fits (t : Timestamp) : Prop where
  year : (UInt32.ofNat t.year).toInt32.toInt = t.year
  month : (UInt32.ofNat t.month).toUInt8.toNat = t.month
  day : (UInt32.ofNat t.day).toUInt8.toNat = t.day
  hour : (UInt32.ofNat t.hour).toUInt8.toNat = t.hour
  minute : (UInt32.ofNat t.minute).toUInt8.toNat = t.minute
  second : (UInt32.ofNat t.second).toUInt8.toNat = t.second
  nanosecond : (UInt32.ofNat t.nanosecond).toNat = t.nanosecond

theorem toNat_ofNat {n : Nat} (h : n < 1000000000) : (UInt32.ofNat n).toNat = n :=
  UInt32.toNat_ofNat_of_lt' (h.trans (by decide))

theorem toUInt8_ofNat {n : Nat} (h : n < 100) : (UInt32.ofNat n).toUInt8.toNat = n := by
  rw [UInt32.toNat_toUInt8, toNat_ofNat (by omega)]
  omega

theorem toInt32_ofNat {n : Nat} (h : n < 10000) : (UInt32.ofNat n).toInt32.toInt = n := by
  have hword : (UInt32.ofNat n).toBitVec.toNat = n := toNat_ofNat (by omega)
  show (UInt32.ofNat n).toBitVec.toInt = n
  rw [BitVec.toInt_eq_toNat_of_lt (by omega), hword]

theorem Writing.fits (w : Writing Char.isDigit) : w.numbers.Fits where
  year := toInt32_ofNat w.year.value_lt
  month := toUInt8_ofNat w.month.value_lt
  day := toUInt8_ofNat w.day.value_lt
  hour := toUInt8_ofNat w.hour.value_lt
  minute := toUInt8_ofNat w.minute.value_lt
  second := toUInt8_ofNat w.second.value_lt
  nanosecond := toNat_ofNat (Fraction.nanoseconds_lt w.fraction)

/-- Numbers that fit are those of the words. -/
theorem Fits.ofWords_eq {t : Timestamp} (h : t.Fits) :
    ofWords (UInt32.ofNat t.year) (UInt32.ofNat t.month) (UInt32.ofNat t.day) (UInt32.ofNat t.hour)
      (UInt32.ofNat t.minute) (UInt32.ofNat t.second) (UInt32.ofNat t.nanosecond) = t := by
  obtain ⟨year, month, day, hour, minute, second, nanosecond⟩ := t
  obtain ⟨hyear, hmonth, hday, hhour, hminute, hsecond, hnanosecond⟩ := h
  rw [ofWords, hyear, hmonth, hday, hhour, hminute, hsecond, hnanosecond, Int.toNat_natCast]

/-- The number of a field that is written with digits of core. -/
theorem Digits.readWord_eq {least most : Nat} (d : Digits Char.isDigit least most)
    (hleast : 0 < least) (hmost : most ≤ 9) :
    readWord d.chars = some (UInt32.ofNat d.value) :=
  (readWord_eq_some_iff d.widen hleast hmost).2 ⟨d.isDigit, rfl⟩

/-- The fields of a writing hold its numbers. -/
theorem Writing.numbers_fields (w : Writing Char.isDigit) : w.fields.numbers = some w.numbers := by
  have hfraction : readFraction (w.fraction.map Digits.chars) =
      some (UInt32.ofNat (Fraction.nanoseconds w.fraction)) := by
    cases h : w.fraction with
    | none => rfl
    | some d =>
      refine (readWord_eq_some_iff d.widen.padded (by decide) (by decide)).2 ⟨?_, ?_⟩
      · exact Fraction.isDigit_filled (some d)
      · exact congrArg UInt32.ofNat (Fraction.ofDigits_filled (some d)).symm
  simp only [Fields.numbers, fields, Digits.readWord_eq _ (by decide : 0 < 4) (by decide : 4 ≤ 9),
    Digits.readWord_eq _ (by decide : 0 < 1) (by decide : 2 ≤ 9), hfraction, Option.bind_eq_bind,
    Option.bind_some]
  exact congrArg some w.fits.ofWords_eq

/-- Fields that are read as numbers are written with digits of core. -/
theorem Writing.exists_of_numbers {w : Writing Text.isDecimal} {t : Timestamp}
    (h : w.fields.numbers = some t) :
    ∃ v : Writing Char.isDigit, v.text = w.text ∧ v.fields = w.fields := by
  have hfield {least most : Nat} {d : Digits Text.isDecimal least most} {n : UInt32}
      (hleast : 0 < least) (hmost : most ≤ 9) (h : readWord d.chars = some n) :
      ∀ c ∈ d.chars, c.isDigit := ((readWord_eq_some_iff d hleast hmost).1 h).1
  obtain ⟨year, hyear, h⟩ := Option.bind_eq_some_iff.1 h
  obtain ⟨month, hmonth, h⟩ := Option.bind_eq_some_iff.1 h
  obtain ⟨day, hday, h⟩ := Option.bind_eq_some_iff.1 h
  obtain ⟨hour, hhour, h⟩ := Option.bind_eq_some_iff.1 h
  obtain ⟨minute, hminute, h⟩ := Option.bind_eq_some_iff.1 h
  obtain ⟨second, hsecond, h⟩ := Option.bind_eq_some_iff.1 h
  obtain ⟨nanosecond, hfraction, -⟩ := Option.bind_eq_some_iff.1 h
  obtain ⟨fraction, htext, hchars⟩ : ∃ f : Fraction Char.isDigit,
      Fraction.text f = Fraction.text w.fraction ∧
        f.map Digits.chars = w.fraction.map Digits.chars := by
    cases hw : w.fraction with
    | none => exact ⟨none, rfl, rfl⟩
    | some d =>
      simp only [fields, hw, Option.map_some] at hfraction
      have hpadded := hfield (d := d.padded) (by decide) (by decide) hfraction
      exact ⟨some (d.recast fun c hc => hpadded c (List.mem_append_left _ hc)), rfl, rfl⟩
  refine ⟨{ w with
    year := w.year.recast (hfield (by decide) (by decide) hyear)
    month := w.month.recast (hfield (by decide) (by decide) hmonth)
    day := w.day.recast (hfield (by decide) (by decide) hday)
    hour := w.hour.recast (hfield (by decide) (by decide) hhour)
    minute := w.minute.recast (hfield (by decide) (by decide) hminute)
    second := w.second.recast (hfield (by decide) (by decide) hsecond)
    fraction }, ?_, ?_⟩
  · simp only [text, body, htext, Digits.recast]
  · simp only [fields, hchars, Digits.recast]

/-- **The texts with numbers are the writings with digits of core.** -/
theorem read_eq_some_iff {text : List Char} {t : Timestamp} :
    read text = some t ↔ ∃ w : Writing Char.isDigit, text = w.text ∧ w.numbers = t := by
  constructor
  · intro h
    obtain ⟨_, hcapture, hnumbers⟩ := Option.bind_eq_some_iff.1 h
    obtain ⟨w, rfl, rfl⟩ := capture_eq_some_iff.1 hcapture
    obtain ⟨v, htext, hfields⟩ := Writing.exists_of_numbers hnumbers
    rw [← hfields, v.numbers_fields] at hnumbers
    exact ⟨v, htext.symm, Option.some.inj hnumbers⟩
  · rintro ⟨w, rfl, rfl⟩
    refine Option.bind_eq_some_iff.2 ⟨w.fields, ?_, w.numbers_fields⟩
    exact capture_eq_some_iff.2 ⟨w.widen, w.text_widen.symm, w.fields_widen⟩

end Timestamp

namespace Epoch

open Timestamp

section

variable (calendar : Timestamp → Except String Epoch) {text : String}

end

end Epoch

end Aperture
