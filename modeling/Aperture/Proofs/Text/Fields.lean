import Aperture.Proofs.Angle.Numerals
import Aperture.Text.Blank

/-!
# Fields and the blanks between them

`fields` divides a text at its blanks, however many stand in one place and whichever they are. The
texts of three given fields are therefore the fields with blanks around them and at least one
between two (`fields_eq_iff`); a `Spacing` is what may be chosen freely.

Both directions take one field off at a time. Putting together, a field ends where a blank follows
(`fields_field_append`). Taking apart, what follows a field begins with a blank
(`exists_of_fields_eq_cons`), and the next field does not, so there is a blank in between.
-/

namespace Aperture.Text

/-- What a field is: a run of characters that are not blank. -/
structure IsField (cs : List Char) : Prop where
  ne_nil : cs ≠ []
  not_blank : ∀ c ∈ cs, isBlank c = false

theorem fields_blank_append {blanks : List Char} (h : ∀ c ∈ blanks, isBlank c) (cs : List Char) :
    fields (blanks ++ cs) = fields cs := by
  induction blanks with
  | nil => rfl
  | cons c blanks ih =>
    rw [List.cons_append, fields, if_pos (h c List.mem_cons_self)]
    exact ih fun d hd => h d (List.mem_cons_of_mem _ hd)

theorem fields_field_append {run cs : List Char} (hrun : IsField run)
    (hcs : ∀ c ∈ cs.head?, isBlank c) : fields (run ++ cs) = run :: fields cs := by
  obtain ⟨hne, hblank⟩ := hrun
  cases run with
  | nil => exact absurd rfl hne
  | cons c run =>
    have hrest : ∀ d ∈ run, (!isBlank d) = true := fun d hd => by
      simp [hblank d (List.mem_cons_of_mem _ hd)]
    have hends : ∀ d ∈ cs.head?, (!isBlank d) = false := fun d hd => by simp [hcs d hd]
    rw [List.cons_append, fields, if_neg (by simp [hblank c List.mem_cons_self]),
      Decimal.takeWhile_run hrest hends, Decimal.dropWhile_run hrest hends]

theorem fields_of_isBlank {blanks : List Char} (h : ∀ c ∈ blanks, isBlank c) :
    fields blanks = [] := by
  rw [← List.append_nil blanks, fields_blank_append h, fields]

theorem isBlank_of_fields_eq_nil {text : List Char} (h : fields text = []) :
    ∀ c ∈ text, isBlank c := by
  induction text with
  | nil => simp
  | cons c cs ih =>
    rw [fields] at h
    split at h
    · next hc => exact List.forall_mem_cons.2 ⟨hc, ih h⟩
    · cases h

/-- The first field, the blanks in front of it and what follows. -/
theorem exists_of_fields_eq_cons {text a : List Char} {rest : List (List Char)}
    (h : fields text = a :: rest) :
    ∃ blanks cs : List Char, text = blanks ++ (a ++ cs) ∧ (∀ c ∈ blanks, isBlank c) ∧ IsField a ∧
      (∀ c ∈ cs.head?, isBlank c) ∧ fields cs = rest := by
  induction text with
  | nil =>
    rw [fields] at h
    cases h
  | cons c cs ih =>
    rw [fields] at h
    split at h
    · next hc =>
      obtain ⟨blanks, behind, rfl, hblanks, ha⟩ := ih h
      exact ⟨c :: blanks, behind, rfl, List.forall_mem_cons.2 ⟨hc, hblanks⟩, ha⟩
    · next hc =>
      obtain ⟨rfl, rfl⟩ := List.cons.inj h
      refine ⟨[], cs.dropWhile fun d => !isBlank d, ?_, by simp, ⟨by simp, ?_⟩, fun d hd => ?_, rfl⟩
      · simp [List.takeWhile_append_dropWhile]
      · refine List.forall_mem_cons.2 ⟨by simpa using hc, fun d hd => ?_⟩
        simpa using List.mem_takeWhile_imp hd
      · have hends := List.head?_dropWhile_not (fun d => !isBlank d) cs
        rw [hd] at hends
        simpa using hends

/-- Blanks around three fields. -/
structure Spacing where
  before : List Char
  first : List Char
  second : List Char
  after : List Char
  before_blank : ∀ c ∈ before, isBlank c
  first_blank : ∀ c ∈ first, isBlank c
  second_blank : ∀ c ∈ second, isBlank c
  after_blank : ∀ c ∈ after, isBlank c
  first_ne_nil : first ≠ []
  second_ne_nil : second ≠ []

/-- Three fields with blanks around them. -/
def Spacing.text (s : Spacing) (a b c : List Char) : List Char :=
  s.before ++ (a ++ (s.first ++ (b ++ (s.second ++ (c ++ s.after)))))

theorem head?_blank_append {blanks : List Char} (hne : blanks ≠ []) (h : ∀ c ∈ blanks, isBlank c)
    (cs : List Char) : ∀ c ∈ (blanks ++ cs).head?, isBlank c := by
  cases blanks with
  | nil => exact absurd rfl hne
  | cons d blanks => simpa using h d List.mem_cons_self

theorem Spacing.fields_text (s : Spacing) {a b c : List Char} (ha : IsField a) (hb : IsField b)
    (hc : IsField c) : fields (s.text a b c) = [a, b, c] := by
  have hafter : ∀ d ∈ s.after.head?, isBlank d := fun d hd =>
    s.after_blank d (List.mem_of_mem_head? hd)
  rw [text, fields_blank_append s.before_blank,
    fields_field_append ha (head?_blank_append s.first_ne_nil s.first_blank _),
    fields_blank_append s.first_blank,
    fields_field_append hb (head?_blank_append s.second_ne_nil s.second_blank _),
    fields_blank_append s.second_blank, fields_field_append hc hafter,
    fields_of_isBlank s.after_blank]

theorem ne_nil_of_head? {blanks a cs : List Char} (ha : IsField a)
    (h : ∀ c ∈ (blanks ++ (a ++ cs)).head?, isBlank c) : blanks ≠ [] := by
  rintro rfl
  obtain ⟨hne, hblank⟩ := ha
  cases a with
  | nil => exact hne rfl
  | cons c a =>
    have hc : isBlank c = true := h c rfl
    rw [hblank c List.mem_cons_self] at hc
    cases hc

/-- The texts of three fields are those with blanks around them, and at least one blank between
two. -/
theorem fields_eq_iff {text a b c : List Char} :
    fields text = [a, b, c] ↔
      IsField a ∧ IsField b ∧ IsField c ∧ ∃ s : Spacing, s.text a b c = text := by
  constructor
  · intro h
    obtain ⟨before, _, rfl, hbefore, ha, hfirst, h⟩ := exists_of_fields_eq_cons h
    obtain ⟨first, _, rfl, hfirst_blank, hb, hsecond, h⟩ := exists_of_fields_eq_cons h
    obtain ⟨second, after, rfl, hsecond_blank, hc, -, h⟩ := exists_of_fields_eq_cons h
    exact ⟨ha, hb, hc, ⟨before, first, second, after, hbefore, hfirst_blank, hsecond_blank,
      isBlank_of_fields_eq_nil h, ne_nil_of_head? hb hfirst, ne_nil_of_head? hc hsecond⟩, rfl⟩
  · rintro ⟨ha, hb, hc, s, rfl⟩
    exact s.fields_text ha hb hc

end Aperture.Text
