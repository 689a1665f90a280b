import Aperture.Proofs.Cube.Faults
import Aperture.Proofs.Session.Failures

/-!
# Operations read models before they store any

A result may take the name of an operand, and the two results of a Fourier transform may have one
name. The operations are given as data (`Derivation`), and `Derivation.outputs` says what they
leave, as a function of the models before the call.

**Storing** (`Stored`). The models of other names are as before and in their order, and the outputs
come behind them. Storing never meets a name that is taken, because it frees the name first
(`add_dropModel`).

**Theorem (`derivations_read_first`).** A derivation stores the outputs that the models before the
call give, whatever names it is given, or fails and leaves the context as it was.
-/

namespace Aperture

open Relation (ReflTransGen)

variable {R : Type}

namespace Call

variable {σ α β : Type} {c : Call σ α} {s : σ}

/-- A call that only looks leaves the rest to what comes after it. -/
theorem on_bind_of_ok {a : α} {f : α → Call σ β} (hc : c.Quiet) (h : (c.on s).1 = .ok a) :
    (c >>= f).on s = (f a).on s := by
  rw [hc.on_bind, h]

theorem on_bind_of_error {e : Failure} {f : α → Call σ β} (hc : c.Quiet)
    (h : (c.on s).1 = .error e) : (c >>= f).on s = (.error e, s) := by
  rw [hc.on_bind, h]

end Call

namespace Context

/-! ## Storing -/

variable {c c' c'' : Context R}

theorem notMem_dropModel (hc : c.models.Indexed) (name : String) :
    name ∉ (c.dropModel name).models.names := by
  rw [dropModel, Roster.names_compact, hc.names_erase]
  simp

/-- The name of a model that was dropped is free. -/
theorem add_dropModel (hc : c.models.Indexed) (name : String) (cube : Cube R) :
    (c.dropModel name).models.add ⟨name, cube⟩ =
      .ok ((c.dropModel name).models.push ⟨name, cube⟩) :=
  (hc.erase name).compact.add_of_notMem (notMem_dropModel hc name)

theorem storeModel_eq (hc : c.models.Indexed) (name : String) (cube : Cube R) :
    c.storeModel name cube =
      { c.dropModel name with models := (c.dropModel name).models.push ⟨name, cube⟩ } := by
  rw [storeModel, add_dropModel hc]

/-- The context `c'` is `c` with the outputs stored. -/
structure Stored (c : Context R) (outputs : List (Model R)) (c' : Context R) : Prop where
  name : c'.name = c.name
  network : c'.network = c.network
  indexed : c'.models.Indexed
  toList : c'.models.toList =
    (c.models.toList.filter fun m => m.name ∉ outputs.map Model.name) ++ outputs

theorem stored_storeModel (hc : c.models.Indexed) (name : String) (cube : Cube R) :
    c.Stored [⟨name, cube⟩] (c.storeModel name cube) := by
  have hfreed := (hc.erase name).compact
  rw [storeModel_eq hc]
  refine ⟨rfl, rfl, hfreed.push (notMem_dropModel hc name), ?_⟩
  rw [Roster.toList_push, dropModel, Roster.toList_compact, hc.toList_erase]
  congr 1
  refine List.filter_congr fun m _ => ?_
  rw [Bool.eq_iff_iff]
  simp [Named.name]

namespace Stored

variable {outputs : List (Model R)} {m m' : Model R}

/-- A second output of another name comes behind the first. -/
theorem then_other (h : c.Stored [m] c') (h' : c'.Stored [m'] c'') (hne : m.name ≠ m'.name) :
    c.Stored [m, m'] c'' := by
  refine ⟨h'.name.trans h.name, h'.network.trans h.network, h'.indexed, ?_⟩
  rw [h'.toList, h.toList, List.filter_append, List.filter_filter]
  simp [hne, Bool.and_comm]

/-- A second output of the same name takes the place of the first. -/
theorem then_same (h : c.Stored [m] c') (h' : c'.Stored [m'] c'') (heq : m.name = m'.name) :
    c.Stored [m'] c'' := by
  refine ⟨h'.name.trans h.name, h'.network.trans h.network, h'.indexed, ?_⟩
  rw [h'.toList, h.toList, List.filter_append, List.filter_filter]
  simp [heq]

/-- Every output is found under its name. -/
theorem model?_of_mem (h : c.Stored outputs c') (hm : m ∈ outputs) :
    c'.model? m.name = some m.cube := by
  have hmem : m ∈ c'.models.toList := h.toList ▸ List.mem_append_right _ hm
  have hfound : c'.models.find? m.name = some m := h.indexed.find?_eq_some_iff.2 ⟨hmem, rfl⟩
  rw [model?, hfound, Option.map_some]

/-- The other models are found as before. -/
theorem model?_of_notMem (h : c.Stored outputs c') (hc : c.models.Indexed) {name : String}
    (hname : name ∉ outputs.map Model.name) : c'.model? name = c.model? name := by
  have hfind : c'.models.find? name = c.models.find? name := by
    apply Option.ext
    intro m
    rw [h.indexed.find?_eq_some_iff, hc.find?_eq_some_iff, h.toList, List.mem_append,
      List.mem_filter]
    constructor
    · rintro ⟨⟨hm, -⟩ | hm, rfl⟩
      · exact ⟨hm, rfl⟩
      · exact absurd (List.mem_map_of_mem hm) hname
    · rintro ⟨hm, rfl⟩
      exact ⟨.inl ⟨hm, decide_eq_true hname⟩, rfl⟩
  rw [model?, hfind, model?]

/-- The names that are not stored keep their order, and the outputs follow. -/
theorem names (h : c.Stored outputs c') :
    c'.models.names = (c.models.names.filter fun name => name ∉ outputs.map Model.name) ++
      outputs.map Model.name := by
  rw [Roster.names, h.toList, List.map_append, Roster.names, List.filter_map]
  rfl

end Stored

/-! ## Derivations -/

/-- An operation on models, with the names of its operands and of its results. -/
inductive Derivation where
  | combine (operation : Cube.Operation) (a b out : String)
  | shift (a out : String)
  | dft (a magnitude phase : String)
deriving DecidableEq, Repr

variable [Scalar R] [Trig R] [Fourier.Spectral R]

namespace Derivation

/-- The call that carries a derivation out. -/
def call : Derivation → Call (Context R) Unit
  | combine operation a b out => Context.combine operation a b out
  | shift a out => Context.shift a out
  | dft a magnitude phase => Context.dft a magnitude phase

/-- The models that a derivation leaves, in their order, for operands that are looked up in `model`.
Of two results with one name only the phases are left. -/
def outputs (model : String → Result (Cube R)) : Derivation → Result (List (Model R))
  | combine operation a b out => do
    let cube ← operation.apply (← model a) (← model b)
    .ok [⟨out, cube⟩]
  | shift a out => do
    let cube ← (← model a).shift
    .ok [⟨out, cube⟩]
  | dft a magnitude phase => do
    let (magnitudes, phases) ← (← model a).dft
    .ok (if magnitude = phase then [⟨phase, phases⟩]
      else [⟨magnitude, magnitudes⟩, ⟨phase, phases⟩])

/-- The names of the models that a derivation leaves. -/
def targets : Derivation → List String
  | combine _ _ _ out | shift _ out => [out]
  | dft _ magnitude phase => if magnitude = phase then [phase] else [magnitude, phase]

theorem map_name_outputs {model : String → Result (Cube R)} {d : Derivation}
    {outputs : List (Model R)} (h : d.outputs model = .ok outputs) :
    outputs.map Model.name = d.targets := by
  cases d with
  | combine operation a b out =>
    obtain ⟨first, -, h⟩ := bind_eq_ok_iff.1 h
    obtain ⟨second, -, h⟩ := bind_eq_ok_iff.1 h
    obtain ⟨cube, -, h⟩ := bind_eq_ok_iff.1 h
    rw [← Except.ok.inj h]
    rfl
  | shift a out =>
    obtain ⟨first, -, h⟩ := bind_eq_ok_iff.1 h
    obtain ⟨cube, -, h⟩ := bind_eq_ok_iff.1 h
    rw [← Except.ok.inj h]
    rfl
  | dft a magnitude phase =>
    obtain ⟨first, -, h⟩ := bind_eq_ok_iff.1 h
    obtain ⟨⟨magnitudes, phases⟩, -, h⟩ := bind_eq_ok_iff.1 h
    rw [← Except.ok.inj h, targets]
    split <;> rfl

omit [Scalar R] [Trig R] [Fourier.Spectral R] in
theorem on_read_of_ok {α : Type} {c : Context R} {name : String} {cube : Cube R}
    {f : Cube R → Call (Context R) α} (h : c.modelNamed name = .ok cube) :
    (read name >>= f).on c = (f cube).on c :=
  Call.on_bind_of_ok (c := read name) (.query _) h

omit [Scalar R] [Trig R] [Fourier.Spectral R] in
theorem on_read_of_error {α : Type} {c : Context R} {name : String} {e : Failure}
    {f : Cube R → Call (Context R) α} (h : c.modelNamed name = .error e) :
    (read name >>= f).on c = (.error e, c) :=
  Call.on_bind_of_error (c := read name) (.query _) h

/-- A derivation that cannot be made leaves the context as it was. -/
theorem on_call_of_error {d : Derivation} {c : Context R} {e : Failure}
    (h : d.outputs c.modelNamed = .error e) : d.call.on c = (.error e, c) := by
  cases d with
  | combine operation a b out =>
    rcases bind_eq_error_iff.1 h with hfirst | ⟨first, hfirst, h⟩
    · exact on_read_of_error hfirst
    refine (on_read_of_ok hfirst).trans ?_
    rcases bind_eq_error_iff.1 h with hsecond | ⟨second, hsecond, h⟩
    · exact on_read_of_error hsecond
    refine (on_read_of_ok hsecond).trans ?_
    rcases bind_eq_error_iff.1 h with happly | ⟨cube, -, h⟩
    · exact Call.on_bind_of_error (.result _) happly
    · cases h
  | shift a out =>
    rcases bind_eq_error_iff.1 h with hfirst | ⟨first, hfirst, h⟩
    · exact on_read_of_error hfirst
    refine (on_read_of_ok hfirst).trans ?_
    rcases bind_eq_error_iff.1 h with hshift | ⟨cube, -, h⟩
    · exact Call.on_bind_of_error (.result _) hshift
    · cases h
  | dft a magnitude phase =>
    rcases bind_eq_error_iff.1 h with hfirst | ⟨first, hfirst, h⟩
    · exact on_read_of_error hfirst
    refine (on_read_of_ok hfirst).trans ?_
    rcases bind_eq_error_iff.1 h with hdft | ⟨pair, -, h⟩
    · exact Call.on_bind_of_error (.result _) hdft
    · cases h

omit [Scalar R] [Trig R] [Fourier.Spectral R] in
theorem on_store_bind {α : Type} (c : Context R) (name : String) (cube : Cube R)
    (f : Unit → Call (Context R) α) :
    (store name cube >>= f).on c = (f ()).on (c.storeModel name cube) :=
  rfl

omit [Scalar R] [Trig R] [Fourier.Spectral R] in
/-- What a call leaves, once it has been worked out. -/
theorem stored_of_on {call : Call (Context R) Unit} {c c' : Context R} {outputs : List (Model R)}
    (hcall : call.on c = (.ok (), c')) (h : c.Stored outputs c') :
    (call.on c).1 = .ok () ∧ c.Stored outputs (call.on c).2 := by
  rw [hcall]
  exact ⟨rfl, h⟩

/-- A derivation stores its outputs. -/
theorem stored_of_ok {d : Derivation} {c : Context R} (hc : c.models.Indexed)
    {outputs : List (Model R)} (h : d.outputs c.modelNamed = .ok outputs) :
    (d.call.on c).1 = .ok () ∧ c.Stored outputs (d.call.on c).2 := by
  cases d with
  | combine operation a b out =>
    obtain ⟨first, hfirst, h⟩ := bind_eq_ok_iff.1 h
    obtain ⟨second, hsecond, h⟩ := bind_eq_ok_iff.1 h
    obtain ⟨cube, happly, h⟩ := bind_eq_ok_iff.1 h
    obtain rfl := Except.ok.inj h
    have hcall : (call (combine operation a b out)).on c = (.ok (), c.storeModel out cube) :=
      (on_read_of_ok hfirst).trans <|
        (on_read_of_ok hsecond).trans <|
          Call.on_bind_of_ok (.result _) happly
    exact stored_of_on hcall (stored_storeModel hc out cube)
  | shift a out =>
    obtain ⟨first, hfirst, h⟩ := bind_eq_ok_iff.1 h
    obtain ⟨cube, hshift, h⟩ := bind_eq_ok_iff.1 h
    obtain rfl := Except.ok.inj h
    have hcall : (call (shift a out)).on c = (.ok (), c.storeModel out cube) :=
      (on_read_of_ok hfirst).trans <| Call.on_bind_of_ok (.result _) hshift
    exact stored_of_on hcall (stored_storeModel hc out cube)
  | dft a magnitude phase =>
    obtain ⟨first, hfirst, h⟩ := bind_eq_ok_iff.1 h
    obtain ⟨⟨magnitudes, phases⟩, hdft, h⟩ := bind_eq_ok_iff.1 h
    obtain rfl := Except.ok.inj h
    have hcall : (call (dft a magnitude phase)).on c =
        (.ok (), (c.storeModel magnitude magnitudes).storeModel phase phases) := by
      have hquiet : (liftM first.dft : Call (Context R) (Cube R × Cube R)).Quiet := .result _
      rw [call, Context.dft, on_read_of_ok hfirst, Call.on_bind_of_ok hquiet hdft, on_store_bind]
      rfl
    have hmagnitudes := stored_storeModel hc magnitude magnitudes
    have hphases := stored_storeModel hmagnitudes.indexed phase phases
    refine stored_of_on hcall ?_
    split
    · next heq => exact hmagnitudes.then_same hphases heq
    · next hne => exact hmagnitudes.then_other hphases hne

end Derivation

/-- **Derivations read before they write.** In every context that can be reached:

* A derivation fails only if its outputs cannot be computed from the models before the call, and
  then it changes nothing.
* Otherwise it leaves its outputs under their names, computed from the models before the call. The
  models of other names, the network and the name of the context are as before, and the outputs are
  listed behind the other names, the magnitudes before the phases and the phases alone when they
  share a name.
* A name that is freed to store a model is not refused. -/
theorem derivations_read_first {name : String} {c : Context R}
    (hc : ReflTransGen Step (.empty name) c) (d : Derivation) :
    (∀ e, d.outputs c.modelNamed = .error e → d.call.on c = (.error e, c)) ∧
    (∀ outputs, d.outputs c.modelNamed = .ok outputs →
      let c' := (d.call.on c).2
      (d.call.on c).1 = .ok () ∧ c'.name = c.name ∧ c'.network = c.network ∧
      (∀ m ∈ outputs, c'.model? m.name = some m.cube) ∧
      (∀ other, other ∉ d.targets → c'.model? other = c.model? other) ∧
      outputs.map Model.name = d.targets ∧
      c'.models.names = (c.models.names.filter fun other => other ∉ d.targets) ++ d.targets) ∧
    ∀ model cube, ∃ models, (c.dropModel model).models.add ⟨model, cube⟩ = .ok models ∧
      c.storeModel model cube = { c.dropModel model with models } := by
  have hindexed := ((sound_empty name).steps hc).models
  refine ⟨fun e => Derivation.on_call_of_error, fun outputs h => ?_, fun model cube =>
    ⟨_, add_dropModel hindexed model cube, storeModel_eq hindexed model cube⟩⟩
  obtain ⟨hdone, hstored⟩ := Derivation.stored_of_ok hindexed h
  have htargets := Derivation.map_name_outputs h
  refine ⟨hdone, hstored.name, hstored.network, fun m => hstored.model?_of_mem,
    fun other hother => hstored.model?_of_notMem hindexed (htargets ▸ hother), htargets, ?_⟩
  rw [hstored.names, htargets]

/-- A context of two models. -/
def doubled (cube : Cube Binary64) : Context Binary64 :=
  ((empty "sky").storeModel "a" cube).storeModel "b" cube

/-- A mean that takes the name of its first operand moves behind the second, and of a transform
whose results share a name the phases are left. -/
theorem derivations_read_first_aliased :
    let cube : Cube Binary64 := .ofSamples #[Scalar.one, Scalar.one]
    let c := doubled cube
    let stacked := ((Derivation.combine .stack "a" "b" "a").call.on c).2
    let transformed := ((Derivation.dft "a" "p" "p").call.on c).2
    ReflTransGen Step (.empty "sky") c ∧
    (∃ mean, cube.stack cube = .ok mean ∧ stacked.model? "a" = some mean) ∧
    stacked.model? "b" = some cube ∧ stacked.models.names = ["b", "a"] ∧
    (∃ magnitudes phases, cube.dft = .ok (magnitudes, phases) ∧
      transformed.model? "p" = some phases) ∧
    transformed.model? "a" = some cube ∧ transformed.models.names = ["a", "b", "p"] := by
  intro cube c stacked transformed
  have hc : ReflTransGen Step (.empty "sky") c :=
    (ReflTransGen.refl.tail (.store "a" cube)).tail (.store "b" cube)
  have ha : c.modelNamed "a" = .ok cube := rfl
  have hb : c.modelNamed "b" = .ok cube := rfl
  have hlisted : c.models.names = ["a", "b"] := rfl
  obtain ⟨mean, hmean⟩ := (cube.answers_zipWith _ cube).1 rfl
  obtain ⟨⟨magnitudes, phases⟩, hdft⟩ := cube.answers_dft.1 (by decide)
  have hstack : (Derivation.combine .stack "a" "b" "a").outputs c.modelNamed =
      .ok [⟨"a", mean⟩] :=
    bind_eq_ok_iff.2 ⟨cube, ha, bind_eq_ok_iff.2 ⟨cube, hb, bind_eq_ok_iff.2 ⟨mean, hmean, rfl⟩⟩⟩
  have htransform : (Derivation.dft "a" "p" "p").outputs c.modelNamed = .ok [⟨"p", phases⟩] :=
    bind_eq_ok_iff.2 ⟨cube, ha, bind_eq_ok_iff.2 ⟨_, hdft, rfl⟩⟩
  obtain ⟨-, -, -, hfound, hothers, -, hstacked⟩ :=
    (derivations_read_first hc (.combine .stack "a" "b" "a")).2.1 _ hstack
  have hmeans : stacked.model? "a" = some mean := hfound ⟨"a", mean⟩ (.head _)
  have hb : stacked.model? "b" = some cube := (hothers "b" (by decide)).trans rfl
  obtain ⟨-, -, -, hfound, hothers, -, htransformed⟩ :=
    (derivations_read_first hc (.dft "a" "p" "p")).2.1 _ htransform
  have hphases : transformed.model? "p" = some phases := hfound ⟨"p", phases⟩ (.head _)
  have ha : transformed.model? "a" = some cube := (hothers "a" (by decide)).trans rfl
  rw [hlisted] at hstacked htransformed
  exact ⟨hc, ⟨mean, hmean, hmeans⟩, hb, hstacked, ⟨magnitudes, phases, hdft, hphases⟩, ha,
    htransformed⟩

end Context

end Aperture
