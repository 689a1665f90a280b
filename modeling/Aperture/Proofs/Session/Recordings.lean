import Aperture.Proofs.Codec.Samples
import Aperture.Proofs.Session.Effects

/-!
# Raw recordings

The number of bits that a session reads raw recordings with is set by one request only, and that
request takes nothing but the codes (`handle_setBits`). So in every session that can be reached it
is a code (`Reachable.bits`), and a recording is never refused for the format of its samples
(`addRaw_error`).

**Theorem (`recordings_are_words`).** What such a recording holds: its samples are its words, one
after the other, whatever follows the last full one.
-/

namespace Aperture

open SampleFormat (codes wordSize sampleOf decodeBits)

variable {R α : Type}

/-- Whether the format of raw recordings is set. -/
def Request.setsBits : Request R → Bool
  | .setBits _ => true
  | _ => false

theorem Network.insert_error {n : Network R} {s : Station R} {e : Failure}
    (h : ((insert s).on n).1 = .error e) : ∃ taken, e = .error (.duplicateName taken) := by
  rw [on_insert] at h
  cases hadd : n.stations.add s with
  | error found =>
    rw [hadd] at h
    exact ⟨_, (Except.error.inj h).symm.trans (Roster.add_eq_error_iff.1 hadd).1⟩
  | ok stations =>
    rw [hadd] at h
    cases h

theorem Network.nameFor_error {n : Network R} {name : String} {e : Failure}
    (h : n.nameFor name = .error e) : ∃ taken, e = .error (.duplicateName taken) := by
  unfold nameFor at h
  split at h
  · unfold freeName at h
    dsimp only at h
    split at h
    · cases h
    · exact ⟨_, (Except.error.inj h).symm⟩
  · cases h

/-- A station is refused for its name only. -/
theorem Network.add_error {n : Network R} {name : String} {recording : Cube R} {e : Failure}
    (h : ((Network.add name recording).on n).1 = .error e) :
    ∃ taken, e = .error (.duplicateName taken) := by
  rw [on_add] at h
  cases hname : n.nameFor name with
  | error found =>
    rw [hname] at h
    exact nameFor_error (hname.trans h)
  | ok given =>
    rw [hname] at h
    exact insert_error h

theorem Epoch.parse_error {text : String} {e : Failure} (h : Epoch.parse text = .error e) :
    ∃ reported, e = .error (.invalidDate reported) := by
  unfold Epoch.parse at h
  split at h
  · exact ⟨_, (Except.error.inj h).symm⟩
  · split at h
    · exact ⟨_, (Except.error.inj h).symm⟩
    · cases h

namespace Session

/-! ## The format that is set -/

section

theorem leaving_onContext (call : Call (Context R) α) : (onContext call).Leaving bits := by
  intro s
  rw [on_onContext]
  cases s.registry.requireCurrent <;> rfl

theorem leaving_onNetwork (call : Call (Network R) α) : (onNetwork call).Leaving bits :=
  leaving_onContext _

/-- A call on the current network fails for want of a context, or as the call does. -/
theorem onNetwork_error {c : Call (Network R) α} {s : Session R} {e : Failure}
    (h : ((onNetwork c).on s).1 = .error e) :
    (∃ text, e = .error (.contextNotFound text)) ∨ ∃ n, (c.on n).1 = .error e := by
  rw [onNetwork, on_onContext, Registry.requireCurrent] at h
  cases hcurrent : s.registry.current? with
  | none =>
    rw [hcurrent] at h
    exact .inl ⟨_, (Except.error.inj h).symm⟩
  | some context =>
    rw [hcurrent] at h
    exact .inr ⟨context.network, h⟩

theorem leaving_addEncoded [Scalar R] (name format : String) (bytes : Bytes) :
    (addEncoded name format bytes : Call (Session R) String).Leaving bits :=
  .bind (.of_quiet (.query _)) fun _ => .bind (.of_quiet (.result _)) fun _ => leaving_onNetwork _

theorem leaving_carryOut [Scalar R] [Trig R] (name : String) (plan : Plan R)
    (refusal : Option Refusal) : (carryOut name plan refusal).Leaving bits :=
  .bind (.modify fun _ => rfl) fun _ => leaving_onContext _

variable [Scalar R] [Trig R] [Fourier.Spectral R] [Word R] [Legible R]

/-- No other request touches the format. -/
theorem leaving_serve {r : Request R} (hr : r.setsBits = false) : (serve r).Leaving bits := by
  cases r with
  | setBits => cases hr
  | addContext name =>
    have hselect : (selectContext name : Call (Session R) Unit).Leaving bits := fun _ => rfl
    exact .answer (c := addContext name) (.bind (fun _ => rfl) fun _ => hselect) _
  | selectContext name => exact .answer (c := selectContext name) (fun _ => rfl) _
  | deleteContext name => exact .answer (c := deleteContext name) (fun _ => rfl) _
  | setTarget target => exact .answer (c := setTarget target) (.modify fun _ => rfl) _
  | setTargetText ra dec =>
    refine .answer (c := setTargetText ra dec) ?_ _
    exact .bind (.of_quiet (.result _)) fun _ => Call.leaving_checked fun _ _ => rfl
  | setFrequency frequency =>
    exact .answer (c := setFrequency frequency) (Call.leaving_checked fun _ _ => rfl) _
  | setRate rate => exact .answer (c := setRate rate) (Call.leaving_checked fun _ _ => rfl) _
  | setResolution width height =>
    exact .answer (c := setResolution width height) (Call.leaving_checked fun _ _ => rfl) _
  | setOrder order => exact .answer (c := setOrder order) (leaving_onNetwork _) _
  | setReference lat lon elevation =>
    refine .answer (c := setReference lat lon elevation) ?_ _
    exact .bind (.of_quiet (.result _)) fun _ => leaving_onNetwork _
  | setRelative relative => exact .answer (c := setRelative relative) (leaving_onNetwork _) _
  | addRaw name location bytes start =>
    refine .answer (c := addRaw name location bytes start) ?_ _
    refine .bind (.of_quiet (.result _)) fun _ => .bind (.of_quiet .get) fun _ => ?_
    exact .bind (.of_quiet (.result _)) fun _ =>
      .bind (.of_quiet (.result _)) fun _ => leaving_onNetwork _
  | addEncoded name format bytes => exact (leaving_addEncoded name format bytes).answer _
  | addFile name path content =>
    refine .answer (c := addFile name path content) ?_ _
    exact .bind (.of_quiet (.result _)) fun format =>
      .bind (.of_quiet (.result _)) fun bytes => leaving_addEncoded name format bytes
  | deleteStation name => exact .answer (c := deleteStation name) (leaving_onNetwork _) _
  | copyStation source target =>
    exact .answer (c := copyStation source target) (leaving_onNetwork _) _
  | filterStation source target filter =>
    exact .answer (c := filterStation source target filter) (leaving_onNetwork _) _
  | listStations => exact .answer (c := stations) (.of_quiet (.query _)) _
  | listBaselines => exact .answer (c := baselines) (leaving_onNetwork _) _
  | lockBaseline name format bytes =>
    refine .answer (c := lockBaseline name format bytes) ?_ _
    exact .bind (.of_quiet (.query _)) fun _ => leaving_onNetwork _
  | unlockBaseline name => exact .answer (c := unlockBaseline name) (leaving_onNetwork _) _
  | plot name mode flag refusal =>
    refine .answer (c := plot name mode flag refusal) ?_ _
    exact .bind (.of_quiet (.query _)) fun plan => leaving_carryOut name plan refusal
  | carryOut name plan refusal => exact (leaving_carryOut name plan refusal).answer _
  | exportModel name format =>
    exact .answer (c := exportModel name format) (.of_quiet (.query _)) _
  | importModel name format bytes =>
    refine .answer (c := importModel name format bytes) ?_ _
    exact .bind (.of_quiet (.query _)) fun _ => leaving_onContext _
  | discardModel name => exact .answer (c := discardModel name) (leaving_onContext _) _
  | listModels => exact .answer (c := models) (.of_quiet (.query _)) _
  | combine operation a b out =>
    exact .answer (c := onContext (Context.combine operation a b out)) (leaving_onContext _) _
  | shift a out =>
    exact .answer (c := onContext (Context.shift a out)) (leaving_onContext _) _
  | dft a magnitude phase =>
    exact .answer (c := onContext (Context.dft a magnitude phase)) (leaving_onContext _) _

/-- The format is set to a code, or the request fails and changes nothing. -/
theorem handle_setBits (s : Session R) (number : Int) :
    s.handle (.setBits number) =
      if number ∈ codes then ({ s with bits := number }, .ok .done)
      else (s, fail (.invalidSampleFormat number)) := by
  have hserve : serve (.setBits number : Request R) = done (setBits number) := rfl
  rw [handle, hserve, done, setBits]
  by_cases h : number ∈ codes
  · rw [if_pos h, SampleFormat.checkBits_of_mem h]
    rfl
  · rw [if_neg h, SampleFormat.checkBits_of_notMem h]
    rfl

theorem bits_handle {s : Session R} (hs : s.bits ∈ codes) (r : Request R) :
    (s.handle r).1.bits ∈ codes := by
  cases hr : r.setsBits with
  | false =>
    have hbits : (s.handle r).1.bits = s.bits := leaving_serve hr s
    rwa [hbits]
  | true =>
    cases r with
    | setBits number =>
      rw [handle_setBits]
      split
      · assumption
      · exact hs
    | _ => cases hr

theorem Step.bits {s s' : Session R} (hs : s.bits ∈ codes) (h : Step s s') : s'.bits ∈ codes := by
  cases h with
  | handle r => exact bits_handle hs r
  | _ => exact hs

/-- The format of raw recordings can always be read. -/
theorem Reachable.bits {s : Session R} (hs : s.Reachable) : s.bits ∈ codes := by
  obtain ⟨workers, h⟩ := hs
  induction h with
  | refl => exact List.mem_cons_self
  | tail _ hstep ih => exact hstep.bits ih

/-- What can go wrong with a raw recording: its date, its length, the context or its name. -/
theorem addRaw_error {s : Session R} (hs : s.bits ∈ codes) {name start : String}
    {location : Location R} {bytes : Bytes} {e : Failure}
    (h : (s.handle (.addRaw name location bytes start)).2 = .error e) :
    ∃ text, e = .error (.invalidDate text) ∨ e = .error (.emptyStream text) ∨
      e = .error (.contextNotFound text) ∨ e = .error (.duplicateName text) := by
  have hcall : ((addRaw name location bytes start).on s).1 = .error e := Call.error_of_answer h
  rcases (Call.Quiet.result _).error_cases hcall with hdate | ⟨date, -, hcall⟩
  · obtain ⟨text, htext⟩ := Epoch.parse_error hdate
    exact ⟨text, .inl htext⟩
  rcases Call.Quiet.get.error_cases hcall with hget | ⟨_, hget, hcall⟩
  · cases hget
  obtain rfl := Except.ok.inj hget
  rcases (Call.Quiet.result _).error_cases hcall with hsamples | ⟨samples, -, hcall⟩
  · have hbits := SampleFormat.decodeBits_eq_error_iff.1 hsamples
    exact absurd hs (SampleFormat.checkBits_eq_error_iff.1 hbits).1
  rcases (Call.Quiet.result _).error_cases hcall with hempty | ⟨_, -, hcall⟩
  · rw [Call.on_result, demand] at hempty
    split at hempty
    · cases hempty
    · exact ⟨name, .inr (.inl (Except.error.inj hempty).symm)⟩
  rcases onNetwork_error hcall with hmissing | ⟨n, hadd⟩
  · exact hmissing.imp fun _ htext => .inr (.inr (.inl htext))
  · exact (Network.add_error hadd).imp fun _ htext => .inr (.inr (.inr htext))

/-- **Raw recordings are words,** one sample each.

* For each of the codes, every byte string is read, and gives as many samples as it has full words.
  Sample `i` is what the code makes of the number in word `i`, whose lowest byte comes first, and no
  other byte has a part in it.
* Behind full words a byte string is read as if it began there. What does not fill a word is
  ignored.
* For any other number of bits, reading fails and so does the check before the format is set, with
  the report of this number. So a recording is never refused for its format, in whatever state the
  session is.
* Words of eight bytes come back as they are. -/
theorem recordings_are_words :
    (∀ number ∈ codes, ∀ bytes : Bytes, ∃ samples : List R, decodeBits bytes number = .ok samples ∧
      samples.length = bytes.length / wordSize number ∧
      ∀ i < samples.length, samples[i]? = some (sampleOf number
        (∑ k ∈ Finset.range (wordSize number),
          (bytes.getD (i * wordSize number + k) 0).toNat * 256 ^ k))) ∧
    (∀ number ∈ codes, ∀ a b : Bytes, wordSize number ∣ a.length →
      ∃ first second : List R, decodeBits a number = .ok first ∧ decodeBits b number = .ok second ∧
        decodeBits (a ++ b) number = .ok (first ++ second) ∧
        (b.length < wordSize number → decodeBits (a ++ b) number = .ok first)) ∧
    (∀ (number : Int) (e : Failure),
      (SampleFormat.checkBits number = .error e ↔
        number ∉ codes ∧ e = .error (.invalidSampleFormat number)) ∧
      ∀ bytes : Bytes, (decodeBits bytes number : Result (List R)) = .error e ↔
        SampleFormat.checkBits number = .error e) ∧
    (∀ s : Session R, s.Reachable →
      (∀ number, s.handle (.setBits number) =
        if number ∈ codes then ({ s with bits := number }, .ok .done)
        else (s, fail (.invalidSampleFormat number))) ∧
      ∀ name location bytes start, (∃ samples : List R, decodeBits bytes s.bits = .ok samples) ∧
        ∀ number, (s.handle (.addRaw name location bytes start)).2 ≠
          fail (.invalidSampleFormat number)) ∧
    (∀ words : List UInt64, decodeBits (words.flatMap fun w => Bytes.ofNat 8 w.toNat) (-64) =
      .ok (words.map Word.ofWord : List R)) ∧
    ∀ words : List UInt64, ∃ samples : List Binary64,
      decodeBits (words.flatMap fun w => Bytes.ofNat 8 w.toNat) (-64) = .ok samples ∧
      samples.map Word.toWord = words := by
  have hwords {S : Type} [Scalar S] [Word S] (words : List UInt64) :
      decodeBits (words.flatMap fun w => Bytes.ofNat 8 w.toNat) (-64) =
        .ok (words.map Word.ofWord : List S) := by
    rw [SampleFormat.decodeBits_eq_ok rfl, decode_flatMap_words]
  refine ⟨?_, ?_, ?_, ?_, hwords, ?_⟩
  · intro number hnumber bytes
    obtain ⟨format, hformat⟩ := SampleFormat.exists_ofBits? hnumber
    refine ⟨_, SampleFormat.decodeBits_eq_ok hformat bytes, ?_, fun i hi => ?_⟩
    · rw [SampleFormat.length_decode, SampleFormat.width_eq_wordSize hformat]
    · rw [SampleFormat.length_decode] at hi
      exact SampleFormat.getElem?_decode hformat hi
  · intro number hnumber a b hfull
    obtain ⟨format, hformat⟩ := SampleFormat.exists_ofBits? hnumber
    have hread := SampleFormat.decodeBits_eq_ok (R := R) hformat
    rw [← SampleFormat.width_eq_wordSize hformat] at hfull ⊢
    refine ⟨_, _, hread a, hread b, ?_, fun hshort => ?_⟩
    · rw [hread, SampleFormat.decode_append format hfull]
    · rw [hread, SampleFormat.decode_append_of_lt format hfull hshort]
  · exact fun number e => ⟨SampleFormat.checkBits_eq_error_iff, fun _ =>
      SampleFormat.decodeBits_eq_error_iff⟩
  · intro s hs
    refine ⟨s.handle_setBits, fun name location bytes start => ⟨?_, fun number hrefused => ?_⟩⟩
    · obtain ⟨format, hformat⟩ := SampleFormat.exists_ofBits? hs.bits
      exact ⟨_, SampleFormat.decodeBits_eq_ok hformat bytes⟩
    · obtain ⟨text, hcause⟩ := addRaw_error hs.bits hrefused
      simp at hcause
  · intro words
    refine ⟨_, hwords words, ?_⟩
    rw [List.map_map]
    exact List.map_id words

/-- Two words of two bytes, of which the second one is cut off. -/
theorem recordings_are_words_cut_off :
    (16 : Int) ∈ codes ∧
    (∃ samples : List Binary64, decodeBits [1, 1, 7] 16 = .ok samples ∧ samples.length = 1 ∧
      samples[0]? = some (Scalar.ofNat 257)) ∧
    (∃ first : List Binary64, decodeBits [1, 1] 16 = .ok first ∧
      decodeBits ([1, 1] ++ [7]) 16 = .ok first) ∧
    coupled.Reachable ∧
    ((coupled.handle (.setBits 16)).1.handle (.addRaw "c" .origin [1] "2000/01/01 12:00:00")).2 =
      fail (.emptyStream "c") ∧
    (coupled.handle (.setBits 12)).2 = fail (.invalidSampleFormat 12) := by
  obtain ⟨hsamples, hbehind, -, hsession, -⟩ := recordings_are_words (R := Binary64)
  have hcode : (16 : Int) ∈ codes := by decide
  refine ⟨hcode, ?_, ?_, reachable_coupled, by rfl, ?_⟩
  · obtain ⟨samples, hread, hlength, hsample⟩ := hsamples 16 hcode [1, 1, 7]
    have hone : samples.length = 1 := hlength
    exact ⟨samples, hread, hone, hsample 0 (hone ▸ Nat.zero_lt_one)⟩
  · obtain ⟨first, -, hfirst, -, -, hshort⟩ := hbehind 16 hcode [1, 1] [7] (by decide)
    exact ⟨first, hfirst, hshort (by decide)⟩
  · rw [(hsession coupled reachable_coupled).1 12, if_neg (by decide)]

end

end Session

end Aperture
