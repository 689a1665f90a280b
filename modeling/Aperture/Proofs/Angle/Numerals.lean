import Aperture.Decimal.Reader
import Mathlib.Data.List.TakeWhile

/-!
# The texts that are numerals

The reader of decimal numerals takes a text apart from the front. Here the same texts are put
together: a sign, digits with an optional point among them, and an exponent with a sign of its own.

**Spellings.** A `Spelling` is what a numeral is written with, an `Exponent` the part behind the
digits. Both carry the facts that make them well formed.

**The grammar** (`Numeral.read_eq_some_iff`). The reader accepts the texts of the spellings and
answers what they denote. A sign is therefore the first character of a numeral or follows the
letter of the exponent, and nothing else (`Spelling.signless_iff`).
-/

namespace Aperture.Decimal

/-! ## Signs -/

/-- The characters `-` and `+`. -/
def IsSign (c : Char) : Prop := c = '-' ∨ c = '+'

instance : DecidablePred IsSign := fun _ => inferInstanceAs (Decidable (_ ∨ _))

/-- No sign anywhere in a text. -/
def Signless (cs : List Char) : Prop := ∀ c ∈ cs, ¬ IsSign c

instance : DecidablePred Signless := fun cs => List.decidableBAll (fun c => ¬ IsSign c) cs

theorem signless_append {cs ds : List Char} :
    Signless (cs ++ ds) ↔ Signless cs ∧ Signless ds := List.forall_mem_append

theorem signless_cons {c : Char} {cs : List Char} :
    Signless (c :: cs) ↔ ¬ IsSign c ∧ Signless cs := List.forall_mem_cons

theorem not_isSign_of_isDigit {c : Char} (h : c.isDigit) : ¬ IsSign c := by
  rintro (rfl | rfl) <;> exact absurd h (by decide)

theorem signless_of_isDigit {cs : List Char} (h : ∀ c ∈ cs, c.isDigit) : Signless cs :=
  fun c hc => not_isSign_of_isDigit (h c hc)

/-- What stands in the place of a sign. -/
inductive Sign
  | absent
  | plus
  | minus
deriving DecidableEq

namespace Sign

def text : Sign → List Char
  | absent => []
  | plus => ['+']
  | minus => ['-']

def negative : Sign → Bool
  | minus => true
  | _ => false

theorem signless_iff {s : Sign} : Signless s.text ↔ s = absent := by
  cases s <;> simp [text, Signless, IsSign]

end Sign

/-- A text begins with the sign that is taken off; none is left behind where none was found. -/
theorem takeSign_spec (cs : List Char) :
    ∃ s : Sign, cs = s.text ++ (takeSign cs).2 ∧ s.negative = (takeSign cs).1 := by
  unfold takeSign
  split
  · exact ⟨.minus, rfl, rfl⟩
  · exact ⟨.plus, rfl, rfl⟩
  · exact ⟨.absent, rfl, rfl⟩

theorem takeSign_append (s : Sign) {cs : List Char} (h : ∀ c ∈ cs.head?, ¬ IsSign c) :
    takeSign (s.text ++ cs) = (s.negative, cs) := by
  cases s with
  | minus => rfl
  | plus => rfl
  | absent =>
    cases cs with
    | nil => rfl
    | cons c cs =>
      obtain ⟨hminus, hplus⟩ := not_or.1 (h c rfl)
      simp [takeSign, Sign.text, Sign.negative, hminus, hplus]

/-! ## Exponents -/

/-- A letter, an optional sign and at least one digit. -/
structure Exponent where
  letter : Char
  sign : Sign
  digits : List Char
  letter_eq : letter = 'e' ∨ letter = 'E'
  digits_ne_nil : digits ≠ []
  isDigit : ∀ c ∈ digits, c.isDigit

namespace Exponent

def text (e : Exponent) : List Char := e.letter :: (e.sign.text ++ e.digits)

def value (e : Exponent) : Int :=
  if e.sign.negative then -(ofDigits e.digits : Int) else ofDigits e.digits

theorem letter_not_isDigit (e : Exponent) : e.letter.isDigit = false := by
  rcases e.letter_eq with h | h <;> rw [h] <;> rfl

theorem letter_not_isSign (e : Exponent) : ¬ IsSign e.letter := by
  rcases e.letter_eq with h | h <;> rw [h] <;> decide

theorem signless_iff (e : Exponent) : Signless e.text ↔ e.sign = .absent := by
  simp only [text, signless_cons, signless_append, Sign.signless_iff]
  exact ⟨fun h => h.2.1, fun h => ⟨e.letter_not_isSign, h, signless_of_isDigit e.isDigit⟩⟩

end Exponent

/-- Behind the digits stands nothing, or an exponent. -/
theorem readExponent_eq_some_iff {cs : List Char} {z : Int} :
    readExponent cs = some z ↔
      ∃ e : Option Exponent, cs = e.elim [] Exponent.text ∧ e.elim 0 Exponent.value = z := by
  constructor
  · intro h
    cases cs with
    | nil => exact ⟨none, rfl, by simpa [readExponent] using h⟩
    | cons c cs =>
      obtain ⟨s, hcs, hs⟩ := takeSign_spec cs
      simp only [readExponent, ← hs] at h
      split at h
      · next hread =>
        obtain ⟨hletter, hne, hdigits⟩ := hread
        refine ⟨some ⟨c, s, (takeSign cs).2, hletter, hne, List.all_eq_true.1 hdigits⟩, ?_, ?_⟩
        · exact congrArg (c :: ·) hcs
        · exact Option.some.inj h
      · cases h
  · rintro ⟨_ | e, rfl, rfl⟩
    · rfl
    · have hhead : ∀ c ∈ e.digits.head?, ¬ IsSign c := fun c hc =>
        signless_of_isDigit e.isDigit c (List.mem_of_mem_head? hc)
      have hall : e.digits.all Char.isDigit := List.all_eq_true.2 e.isDigit
      simp [readExponent, Exponent.text, Exponent.value, takeSign_append e.sign hhead,
        e.letter_eq, e.digits_ne_nil, hall]

/-! ## Numerals -/

section

variable {p : Char → Bool} {run cs : List Char}
variable (hrun : ∀ c ∈ run, p c) (hcs : ∀ c ∈ cs.head?, p c = false)
include hrun hcs

theorem takeWhile_run : (run ++ cs).takeWhile p = run := by
  rw [List.takeWhile_append_of_pos hrun]
  cases cs with
  | nil => simp
  | cons c cs => simp [hcs c rfl]

theorem dropWhile_run : (run ++ cs).dropWhile p = cs := by
  rw [List.dropWhile_append_of_pos hrun]
  cases cs with
  | nil => rfl
  | cons c cs => simp [hcs c rfl]

end

/-- A sign, digits with an optional point among them and at least one digit, and an exponent. -/
structure Spelling where
  sign : Sign
  whole : List Char
  /-- The digits behind the point, where there is one. -/
  places : Option (List Char)
  exponent : Option Exponent
  isDigit : ∀ c ∈ whole ++ places.getD [], c.isDigit
  digits_ne_nil : whole ++ places.getD [] ≠ []

namespace Spelling

/-- Everything from the point on. -/
def rest (s : Spelling) : List Char :=
  s.places.elim [] ('.' :: ·) ++ s.exponent.elim [] Exponent.text

/-- Everything behind the sign. -/
def body (s : Spelling) : List Char := s.whole ++ s.rest

def text (s : Spelling) : List Char := s.sign.text ++ s.body

/-- The numeral that is spelled. -/
def numeral (s : Spelling) : Numeral :=
  ⟨s.sign.negative, ofDigits (s.whole ++ s.places.getD []),
    s.exponent.elim 0 Exponent.value - (s.places.getD []).length⟩

/-- Written without a sign, in the exponent too. -/
def Unsigned (s : Spelling) : Prop := s.sign = .absent ∧ ∀ e ∈ s.exponent, e.sign = .absent

theorem isDigit_whole (s : Spelling) : ∀ c ∈ s.whole, c.isDigit := fun c hc =>
  s.isDigit c (List.mem_append_left _ hc)

theorem isDigit_places (s : Spelling) : ∀ c ∈ s.places.getD [], c.isDigit := fun c hc =>
  s.isDigit c (List.mem_append_right _ hc)

/-- The exponent is told from the digits in front of it. -/
theorem exponent_head (s : Spelling) :
    ∀ c ∈ (s.exponent.elim [] Exponent.text).head?, c.isDigit = false ∧ c ≠ '.' := by
  rcases s.exponent with _ | e
  · simp
  · rintro c hc
    obtain rfl : e.letter = c := by simpa [Exponent.text] using hc
    exact ⟨e.letter_not_isDigit, by rcases e.letter_eq with h | h <;> rw [h] <;> decide⟩

/-- The point is told from the digits in front of it. -/
theorem rest_head (s : Spelling) : ∀ c ∈ s.rest.head?, c.isDigit = false := by
  have hexponent := s.exponent_head
  rcases hp : s.places with _ | places
  · simpa [rest, hp] using fun c hc => (hexponent c hc).1
  · simp [rest, hp]

/-- A digit or a point comes first behind the sign. -/
theorem body_head (s : Spelling) : ∀ c ∈ s.body.head?, ¬ IsSign c := by
  intro c hc hs
  rcases hw : s.whole with _ | ⟨d, whole⟩
  · have hne := s.digits_ne_nil
    rcases hp : s.places with _ | places
    · simp [hw, hp] at hne
    · obtain rfl : '.' = c := by simpa [body, rest, hw, hp] using hc
      exact absurd hs (by decide)
  · obtain rfl : d = c := by simpa [body, hw] using hc
    exact not_isSign_of_isDigit (s.isDigit_whole d (by simp [hw])) hs

/-- A numeral without a sign of its own is told from signs in front of it. -/
theorem head_iff (s : Spelling) : (∀ c ∈ s.text.head?, ¬ IsSign c) ↔ s.sign = .absent := by
  have hbody := s.body_head
  cases hs : s.sign with
  | absent => simpa [text, hs, Sign.text] using hbody
  | plus => simp [text, hs, Sign.text, IsSign]
  | minus => simp [text, hs, Sign.text, IsSign]

/-- The signs of a numeral are the one in front and the one of the exponent. -/
theorem signless_iff (s : Spelling) : Signless s.text ↔ s.Unsigned := by
  have hwhole : Signless s.whole := signless_of_isDigit s.isDigit_whole
  have hplaces : Signless (s.places.elim [] ('.' :: ·)) := by
    have hdigits := signless_of_isDigit s.isDigit_places
    rcases hp : s.places with _ | places
    · exact List.forall_mem_nil _
    · rw [hp] at hdigits
      exact signless_cons.2 ⟨by decide, hdigits⟩
  have hexponent : Signless (s.exponent.elim [] Exponent.text) ↔
      ∀ e ∈ s.exponent, e.sign = .absent := by
    rcases s.exponent with _ | e
    · simp [Signless]
    · simpa using e.signless_iff
  simp only [text, body, rest, signless_append, Sign.signless_iff, hexponent, Unsigned]
  exact ⟨fun h => ⟨h.1, h.2.2.2⟩, fun h => ⟨h.1, hwhole, hplaces, h.2⟩⟩

end Spelling

/-! ## The reader -/

/-- The digits behind a point, where there is one, and what follows. -/
def takePlaces : List Char → Option (List Char) × List Char
  | '.' :: cs => (some (cs.takeWhile Char.isDigit), cs.dropWhile Char.isDigit)
  | cs => (none, cs)

theorem takePlaces_spec (cs : List Char) :
    cs = (takePlaces cs).1.elim [] ('.' :: ·) ++ (takePlaces cs).2 ∧
      ∀ c ∈ (takePlaces cs).1.getD [], c.isDigit := by
  unfold takePlaces
  split
  · next cs =>
    exact ⟨congrArg _ List.takeWhile_append_dropWhile.symm, fun c => List.mem_takeWhile_imp⟩
  · simp

theorem takePlaces_rest (s : Spelling) :
    takePlaces s.rest = (s.places, s.exponent.elim [] Exponent.text) := by
  have hhead := s.exponent_head
  rcases hp : s.places with _ | places
  · rw [Spelling.rest, hp]
    rcases he : s.exponent.elim [] Exponent.text with _ | ⟨c, cs⟩
    · rfl
    · simp [takePlaces, (hhead c (by rw [he]; rfl)).2]
  · have hdigits : ∀ c ∈ places, c.isDigit := fun c hc => s.isDigit_places c (by rwa [hp])
    have hhead : ∀ c ∈ (s.exponent.elim [] Exponent.text).head?, c.isDigit = false :=
      fun c hc => (hhead c hc).1
    simp [Spelling.rest, hp, takePlaces, takeWhile_run hdigits hhead,
      dropWhile_run hdigits hhead]

/-- The reader takes off a sign, digits, a point with digits and an exponent. -/
theorem Numeral.read_eq (text : List Char) :
    read text =
      let body := (takeSign text).2
      let whole := body.takeWhile Char.isDigit
      let places := (takePlaces (body.dropWhile Char.isDigit)).1.getD []
      let rest := (takePlaces (body.dropWhile Char.isDigit)).2
      if whole = [] ∧ places = [] then none
      else (readExponent rest).map fun e =>
        ⟨(takeSign text).1, ofDigits (whole ++ places), e - places.length⟩ := by
  unfold read takePlaces
  rcases takeSign text with ⟨negative, body⟩
  dsimp only
  rcases body.dropWhile Char.isDigit with _ | ⟨c, cs⟩
  · rfl
  · by_cases hc : c = '.'
    · subst hc
      rfl
    · simp [hc]

/-- The reader accepts the texts of the spellings and answers the numerals they denote. -/
theorem Numeral.read_eq_some_iff {text : List Char} {n : Numeral} :
    read text = some n ↔ ∃ s : Spelling, text = s.text ∧ s.numeral = n := by
  constructor
  · intro h
    obtain ⟨sign, htext, hsign⟩ := takeSign_spec text
    rw [read_eq, ← hsign] at h
    dsimp only at h
    generalize (takeSign text).2 = body at htext h
    obtain ⟨hplaces, hdigits⟩ := takePlaces_spec (body.dropWhile Char.isDigit)
    generalize takePlaces (body.dropWhile Char.isDigit) = behind at hplaces hdigits h
    split at h
    · cases h
    next hne =>
    obtain ⟨e, he, rfl⟩ := Option.map_eq_some_iff.1 h
    obtain ⟨exponent, hexponent, rfl⟩ := readExponent_eq_some_iff.1 he
    refine ⟨⟨sign, body.takeWhile Char.isDigit, behind.1, exponent, ?_, ?_⟩, ?_, rfl⟩
    · exact List.forall_mem_append.2 ⟨fun c => List.mem_takeWhile_imp, hdigits⟩
    · simpa [List.append_eq_nil_iff] using hne
    · rw [htext, Spelling.text, Spelling.body, Spelling.rest, ← hexponent, ← hplaces,
        List.takeWhile_append_dropWhile]
  · rintro ⟨s, rfl, rfl⟩
    have hne : ¬ (s.whole = [] ∧ s.places.getD [] = []) :=
      fun h => s.digits_ne_nil (List.append_eq_nil_iff.2 h)
    have hexponent := readExponent_eq_some_iff.2 ⟨s.exponent, rfl, rfl⟩
    rw [read_eq, Spelling.text, takeSign_append s.sign s.body_head]
    simp only [Spelling.body, takeWhile_run s.isDigit_whole s.rest_head,
      dropWhile_run s.isDigit_whole s.rest_head, takePlaces_rest, if_neg hne, hexponent]
    rfl

end Aperture.Decimal
