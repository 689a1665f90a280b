import Aperture.Proofs.Cube.Faults
import Aperture.Proofs.Plot.Parts
import Aperture.Proofs.Session.Requests

/-!
# Requests on the current context

Networks, cubes and plans know nothing of contexts. So a call on the current context does not report
that there is none (`Call.Oblivious`), and it changes no other context (`Registry.Beside`).

`Session.Local` says both of a call on the session: it leaves all contexts but the current one, and
it reports a missing context only if none is selected, unless it was handed this very report by a
codec or with the contents of a file. A call is local when it only looks before it works on the
current context (`Local.after_quiet`).

Main result: `local_serve`. All requests are local but those that manage the contexts.
-/

namespace Aperture

variable {R α β σ τ : Type}

/-! ## Computations that know nothing of contexts -/

theorem error_eq_fail {e : Failure} {cause : Error} (h : (.error e : Result β) = fail cause) :
    (.error e : Result α) = fail cause := by
  injection h with h
  rw [h]
  rfl

/-- The computation does not report a missing context. -/
def Oblivious (x : Result α) : Prop := ∀ name, x ≠ fail (.contextNotFound name)

namespace Oblivious

theorem ok (a : α) : Oblivious (.ok a : Result α) := nofun

theorem report {e : Error} (h : ∀ name, e ≠ .contextNotFound name) :
    Oblivious (fail e : Result α) := by
  intro name heq
  injection heq with heq
  injection heq with heq
  exact h name heq

theorem stop (f : Fault) : Oblivious (abort f : Result α) := nofun

theorem demand (condition : Bool) {e : Error} (h : ∀ name, e ≠ .contextNotFound name) :
    Oblivious (demand condition e) := by
  unfold Aperture.demand
  split
  · exact .ok _
  · exact .report h

/-- It is the failure that tells, whatever the answer would have been. -/
theorem error {e : Failure} (h : Oblivious (.error e : Result α)) :
    Oblivious (.error e : Result β) := fun name heq => h name (error_eq_fail heq)

theorem bind {x : Result α} {f : α → Result β} (hx : Oblivious x) (hf : ∀ a, Oblivious (f a)) :
    Oblivious (x >>= f) := by
  cases x with
  | ok a => exact hf a
  | error e => exact hx.error

theorem of_failsOnOverflow {x : Result α} (hx : FailsOnOverflow x) : Oblivious x := by
  cases x with
  | ok a => exact .ok a
  | error e => exact hx e rfl ▸ .stop .overflow

theorem of_answers {x : Result α} {fits : Prop} {expected found : List Nat}
    (h : Cube.Answers x fits expected found) : Oblivious x := by
  by_cases hfits : fits
  · obtain ⟨y, rfl⟩ := h.1 hfits
    exact .ok y
  · rw [h.2 hfits]
    exact .report (by simp)

end Oblivious

/-! ## Calls that know nothing of contexts -/

namespace Call

/-- The call does not report a missing context. -/
def Oblivious (c : Call σ α) : Prop := ∀ s, Aperture.Oblivious (c.on s).1

theorem Oblivious.pure (a : α) : Oblivious (pure a : Call σ α) := fun _ => .ok a

theorem Oblivious.result {x : Result α} (hx : Aperture.Oblivious x) :
    Oblivious (liftM x : Call σ α) := fun _ => hx

theorem Oblivious.query {f : σ → Result α} (hf : ∀ s, Aperture.Oblivious (f s)) :
    (query f).Oblivious := hf

theorem Oblivious.attempt {f : σ → σ × Result α} (hf : ∀ s, Aperture.Oblivious (f s).2) :
    (attempt f).Oblivious := hf

theorem Oblivious.of_total {c : Call σ α} (hc : c.Total) : c.Oblivious := by
  intro s
  obtain ⟨a, ha⟩ := hc s
  rw [ha]
  exact .ok a

theorem Oblivious.modify (f : σ → σ) : Oblivious (modify f : Call σ PUnit) :=
  .of_total (.modify f)

theorem Oblivious.update {f : σ → Result σ} (hf : ∀ s, Aperture.Oblivious (f s)) :
    (update f).Oblivious := by
  intro s
  have hs := hf s
  rw [on_update]
  cases hfs : f s with
  | ok t => exact .ok ()
  | error e => exact (hfs ▸ hs).error

theorem Oblivious.bind {c : Call σ α} {f : α → Call σ β} (hc : c.Oblivious)
    (hf : ∀ a, (f a).Oblivious) : (c >>= f).Oblivious := by
  intro s
  have hs := hc s
  rw [on_bind]
  generalize c.on s = left at hs ⊢
  rcases left with ⟨e | a, t⟩
  · exact hs.error
  · exact hf a t

end Call

theorem Call.Oblivious.within {part : σ → τ} {put : σ → τ → σ} {c : Call τ α} (hc : c.Oblivious) :
    (c.within part put).Oblivious := fun s => hc (part s)

/-! ## Cubes -/

section

variable [Scalar R]

theorem Cube.oblivious_withShape (samples : Array R) (shape : List Nat) :
    Oblivious (withShape samples shape) := by
  unfold withShape
  split
  · exact .ok _
  · exact .report (by simp)

theorem Cube.oblivious_shift (a : Cube R) : Oblivious a.shift := by
  obtain ⟨c, hc⟩ := a.exists_shift
  exact hc ▸ .ok c

theorem Cube.oblivious_convolve (a kernel : Cube R) : Oblivious (a.convolve kernel) := by
  obtain ⟨hflat, hnotFlat⟩ := answers_convolve a kernel
  by_cases h : Grid.Flat a.shape
  · exact .of_answers (hflat h)
  · exact hnotFlat h ▸ .report (by simp)

variable [Trig R] [Fourier.Spectral R]

theorem Cube.oblivious_dft (a : Cube R) : Oblivious a.dft := by
  obtain ⟨hok, hfault⟩ := a.answers_dft
  by_cases h : Fourier.Transformable a.shape
  · obtain ⟨pair, hpair⟩ := hok h
    exact hpair ▸ .ok pair
  · exact hfault h ▸ .stop _

theorem Cube.oblivious_idft (a b : Cube R) : Oblivious (a.idft b) := by
  by_cases hshape : a.shape = b.shape
  · by_cases h : Fourier.Transformable a.shape
    · exact .of_answers (answers_idft a b h)
    · exact idft_eq_abort hshape h ▸ .stop _
  · have hdiffer : a.idft b = fail (.sizeMismatch a.shape b.shape) :=
      bind_eq_error_iff.2 (.inl (requireSameShape_of_ne hshape))
    exact hdiffer ▸ .report (by simp)

theorem Cube.oblivious_apply (operation : Operation) (a b : Cube R) :
    Oblivious (operation.apply a b) := by
  cases operation with
  | stack => exact .of_answers (answers_zipWith _ a b)
  | difference => exact .of_answers (answers_difference a b)
  | mask => exact .of_answers (answers_zipWith _ a b)
  | convolve => exact a.oblivious_convolve b
  | idft => exact a.oblivious_idft b

end

/-! ## Networks -/

theorem Network.oblivious_stationNamed (n : Network R) (name : String) :
    Oblivious (n.stationNamed name) := by
  unfold stationNamed
  split
  · exact .ok _
  · exact .report (by simp)

theorem Network.oblivious_insert (s : Station R) : (insert s).Oblivious := by
  refine .bind (.within (.update fun stations => ?_)) fun _ => .bind (.modify _) fun _ =>
    .bind (.modify _) fun _ => .pure s.name
  unfold Roster.add
  split
  · exact .report (by simp)
  · exact .ok _

theorem Network.oblivious_nameFor (n : Network R) (name : String) : Oblivious (n.nameFor name) := by
  unfold nameFor
  split
  · unfold freeName
    dsimp only
    split
    · exact .ok _
    · exact .report (by simp)
  · exact .ok name

theorem Network.oblivious_add (name : String) (recording : Cube R) :
    (Network.add name recording).Oblivious :=
  .bind (.of_total .get) fun n => .bind (.result (n.oblivious_nameFor name)) fun _ =>
    oblivious_insert _

theorem Network.oblivious_derive (source : String) (make : Station R → Nat → Station R) :
    (derive source make).Oblivious :=
  .bind (.of_total .get) fun n => .bind (.result (n.oblivious_stationNamed source)) fun _ =>
    oblivious_insert _

theorem Network.oblivious_setReference (n : Network R) (reference : Location R) :
    Oblivious (n.setReference reference) := by
  unfold setReference
  split
  · exact .report (by simp)
  · exact .ok _

section

variable [Scalar R]

theorem Network.oblivious_lock (n : Network R) (name : String) (stream : Cube R) :
    Oblivious (n.lock name stream).2 := by
  simp only [lock, BaselineSet.lock]
  split
  · exact .ok ()
  · next h =>
    split at h
    · cases h
    · injection h with h
      exact h ▸ .report (by simp)

theorem Extent.oblivious_cells (width height : Nat) : Oblivious (cells width height) :=
  .of_failsOnOverflow (failsOnOverflow_inWord _)

theorem BaselineSet.oblivious_resetImage :
    (resetImage : Call (BaselineSet R) Unit).Oblivious :=
  .bind (.of_total .get) fun s =>
    .bind (.result (.of_failsOnOverflow (Extent.failsOnOverflow_zeros s.width s.height)))
      fun _ => .modify _

omit [Scalar R] in
theorem BaselineSet.oblivious_setImage (set : BaselineSet R) (image : Array R) :
    Oblivious (set.setImage image) := by
  refine .bind (Extent.oblivious_cells _ _) fun size => ?_
  split
  · exact .ok _
  · exact .report (by simp)

theorem BaselineSet.oblivious_imageCube (set : BaselineSet R) : Oblivious set.imageCube :=
  .bind (Extent.oblivious_cells _ _) fun _ =>
    .bind (Cube.oblivious_withShape _ _) fun _ => .ok _

theorem Plot.oblivious_configure (plan : Plan R) : (configure plan).Oblivious :=
  .bind (.bind (.modify _) fun _ => BaselineSet.oblivious_resetImage) fun _ =>
    .bind (.bind (.modify _) fun _ => BaselineSet.oblivious_resetImage) fun _ => .modify _

theorem Plot.oblivious_answer {image : Result (Array R)} (himage : FailsOnOverflow image)
    (outcome : Outcome) : (answer image outcome).Oblivious :=
  .bind (.result (.of_failsOnOverflow himage)) fun _ =>
    .bind (.update fun set => set.oblivious_setImage _) fun _ =>
      .bind (.query fun set => set.oblivious_imageCube) fun _ => .pure _

theorem Plot.oblivious_integrate [Trig R] (plan : Plan R) (view : View R) :
    (integrate plan view).Oblivious := by
  refine .bind (.of_total .get) fun set => .bind (.modify _) fun _ => ?_
  split
  · exact .result (.report (by simp))
  · exact oblivious_answer (failsOnOverflow_image plan _) _

theorem Plot.oblivious_integrateUnder [Trig R] (plan : Plan R) (view : View R)
    (refusal : Option Refusal) : (integrateUnder plan view refusal).Oblivious := by
  cases refusal with
  | none => exact oblivious_integrate plan view
  | some refusal =>
    refine .bind (.of_total .get) fun set => ?_
    split
    · exact oblivious_integrate plan view
    · exact .bind (.modify _) fun _ => .result (.report (by simp))

theorem Network.oblivious_plotUnder [Trig R] (n : Network R) (plan : Plan R)
    (refusal : Option Refusal) : Oblivious (n.plotUnder plan refusal).2 :=
  Call.Oblivious.bind (Plot.oblivious_configure plan)
    (fun _ => Plot.oblivious_integrateUnder plan _ refusal) _

end

/-! ## Codecs -/

/-- A codec in use fails in this way. -/
def Codecs.Report (codecs : Codecs R) (e : Failure) : Prop :=
  ∃ codec ∈ codecs.entries,
    (∃ bytes, codec.decode bytes = .error e) ∨ ∃ cube, codec.encode cube = .error e

section

variable [Scalar R] [Word R]

theorem Raw.oblivious_splitOff (n : Nat) (bytes : Bytes) : Oblivious (splitOff n bytes) := by
  unfold splitOff
  split
  · exact .report (by simp)
  · exact .ok _

theorem Raw.oblivious_takeNat (width : Nat) (bytes : Bytes) : Oblivious (takeNat width bytes) :=
  .bind (oblivious_splitOff width bytes) fun _ => .ok _

theorem Raw.oblivious_takeShape (count : Nat) (bytes : Bytes) :
    Oblivious (takeShape count bytes) := by
  induction count generalizing bytes with
  | zero => exact .ok _
  | succ count ih =>
    exact .bind (oblivious_takeNat 8 bytes) fun (_, rest) => .bind (ih rest) fun _ => .ok _

theorem Raw.oblivious_decode (bytes : Bytes) : Oblivious (decode bytes : Result (Cube R)) := by
  refine .bind (oblivious_takeNat 4 bytes) fun (axes, bytes) => ?_
  dsimp only
  split
  · exact .report (by simp)
  · refine .bind (oblivious_takeShape axes bytes) fun (shape, bytes) => ?_
    dsimp only
    split
    · exact .report (by simp)
    · refine .bind (oblivious_splitOff _ bytes) fun (body, rest) => ?_
      dsimp only
      split
      · exact Cube.oblivious_withShape _ _
      · exact .report (by simp)

/-- The raw codec does not report a missing context. -/
theorem Codecs.not_report_raw (name : String) :
    ¬(⟨[Raw.codec]⟩ : Codecs R).Report (.error (.contextNotFound name)) := by
  rintro ⟨codec, hmem, hreport⟩
  obtain rfl := List.mem_singleton.1 hmem
  rcases hreport with ⟨bytes, hdecode⟩ | ⟨cube, hencode⟩
  · exact Raw.oblivious_decode bytes name hdecode
  · cases hencode

end

/-! ## Contexts -/

namespace Context

theorem oblivious_modelNamed (c : Context R) (name : String) : Oblivious (c.modelNamed name) := by
  unfold modelNamed
  split
  · exact .ok _
  · exact .report (by simp)

theorem oblivious_read (name : String) : (read name : Call (Context R) (Cube R)).Oblivious :=
  .query fun c => c.oblivious_modelNamed name

theorem oblivious_store (name : String) (cube : Cube R) : (store name cube).Oblivious := .modify _

theorem oblivious_onNetwork {call : Call (Network R) α} (h : call.Oblivious) :
    (onNetwork call).Oblivious := h.within

variable [Scalar R]

theorem oblivious_shift (a out : String) : (shift a out : Call (Context R) Unit).Oblivious :=
  .bind (oblivious_read a) fun cube => .bind (.result cube.oblivious_shift) (oblivious_store out)

variable [Trig R]

theorem oblivious_plot (name : String) (plan : Plan R) (refusal : Option Refusal) :
    (plot name plan refusal).Oblivious :=
  .bind (oblivious_onNetwork (.attempt fun n => n.oblivious_plotUnder plan refusal))
    fun (image, outcome) => .bind (oblivious_store name image) fun _ => .pure outcome

variable [Fourier.Spectral R]

theorem oblivious_combine (operation : Cube.Operation) (a b out : String) :
    (combine operation a b out : Call (Context R) Unit).Oblivious :=
  .bind (oblivious_read a) fun first => .bind (oblivious_read b) fun second =>
    .bind (.result (Cube.oblivious_apply operation first second)) (oblivious_store out)

theorem oblivious_dft (a magnitude phase : String) :
    (dft a magnitude phase : Call (Context R) Unit).Oblivious :=
  .bind (oblivious_read a) fun cube => .bind (.result cube.oblivious_dft)
    fun (magnitudes, phases) => .bind (oblivious_store magnitude magnitudes) fun _ =>
      oblivious_store phase phases

end Context

/-! ## Local calls -/

/-- Whether contexts are added, selected or deleted. -/
def Request.managesContexts : Request R → Bool
  | .addContext _ | .selectContext _ | .deleteContext _ => true
  | _ => false

namespace Registry

/-- The registry came from another one by changes of the current context. -/
structure Beside (r' r : Registry R) : Prop where
  selected : r'.selected = r.selected
  names : r'.contexts.names = r.contexts.names
  others {name : String} (h : r.selected ≠ some name) :
    r'.contexts.find? name = r.contexts.find? name

theorem Beside.refl (r : Registry R) : r.Beside r := ⟨rfl, rfl, fun _ => rfl⟩

theorem Beside.trans {r₁ r₂ r₃ : Registry R} (h : r₁.Beside r₂) (h' : r₂.Beside r₃) :
    r₁.Beside r₃ :=
  ⟨h.selected.trans h'.selected, h.names.trans h'.names, fun hother =>
    (h.others (h'.selected ▸ hother)).trans (h'.others hother)⟩

variable [Scalar R]

/-- The registry is sound, and the selection is empty or the name of a context. -/
structure Standing (r : Registry R) : Prop where
  sound : r.Sound
  selection {name : String} (h : r.selected = some name) : name ∈ r.contexts.names

theorem Standing.requireCurrent {r : Registry R} (hr : r.Standing) {name : String}
    (h : r.selected = some name) :
    ∃ c, r.contexts.find? name = some c ∧ c.name = name ∧ r.requireCurrent = .ok c := by
  obtain ⟨c, hc, hname⟩ := List.mem_map.1 (hr.selection h)
  have hfound := hr.sound.indexed.find?_eq_some_iff.2 ⟨hc, hname⟩
  refine ⟨c, hfound, hname, ?_⟩
  rw [Registry.requireCurrent, current?, h, Option.bind_some, hfound]

theorem Standing.selected_eq_none {r : Registry R} (hr : r.Standing) {e : Failure}
    (h : r.requireCurrent = .error e) : r.selected = none := by
  cases hselected : r.selected with
  | none => rfl
  | some name =>
    obtain ⟨c, -, -, hc⟩ := hr.requireCurrent hselected
    cases h.symm.trans hc

theorem Sound.names_modify {r : Registry R} (hr : r.Sound) {name : String} {c : Context R}
    (hname : c.name = name) : (r.modify name fun _ => c).contexts.names = r.contexts.names := by
  rw [Registry.modify, hr.indexed.modify_eq_map, Roster.names, Roster.toList_map, List.map_map]
  refine List.map_congr_left fun d _ => ?_
  rw [Function.comp_apply]
  split
  · next h => exact hname.trans h.symm
  · rfl

theorem Sound.beside_modify {r : Registry R} (hr : r.Sound) {name : String} {c : Context R}
    (hselected : r.selected = some name) (hname : c.name = name) :
    (r.modify name fun _ => c).Beside r := by
  refine ⟨rfl, hr.names_modify hname, fun {other} hother => ?_⟩
  refine hr.indexed.find?_modify_of_ne (fun _ _ => hname) ?_
  rintro rfl
  exact hother hselected

end Registry

namespace Session

/-- The call changes no context but the current one. It reports a missing context only if none is
selected, unless it was `handed` this report. -/
structure Local [Scalar R] (handed : Failure → Prop) (c : Call (Session R) α) : Prop where
  beside {s : Session R} (hs : s.registry.Standing) : (c.on s).2.registry.Beside s.registry
  lacking {s : Session R} (hs : s.registry.Standing) (name : String)
    (h : (c.on s).1 = fail (.contextNotFound name)) :
    s.registry.selected = none ∨ s.codecs.Report (.error (.contextNotFound name)) ∨
      handed (.error (.contextNotFound name))

variable [Scalar R] {handed : Failure → Prop}

namespace Local

theorem of_quiet {c : Call (Session R) α} (hc : c.Quiet) (h : c.Oblivious) : Local handed c where
  beside {s} _ := by
    rw [hc s]
    exact .refl _
  lacking {s} _ name heq := absurd heq (h s name)

theorem result {x : Result α} (h : Oblivious x) : Local handed (liftM x : Call (Session R) α) :=
  .of_quiet (.result x) (.result h)

/-- A call may look before it begins. -/
theorem after_quiet {c : Call (Session R) α} {f : α → Call (Session R) β} (hquiet : c.Quiet)
    (hc : Local handed c) (hf : ∀ a, Local handed (f a)) : Local handed (c >>= f) where
  beside {s} hs := by
    rw [hquiet.on_bind]
    cases (c.on s).1 with
    | error e => exact .refl _
    | ok a => exact (hf a).beside hs
  lacking {s} hs name heq := by
    have hlacking := hc.lacking hs name
    rw [hquiet.on_bind] at heq
    generalize (c.on s).1 = answer at hlacking heq
    cases answer with
    | error e => exact hlacking (error_eq_fail heq)
    | ok a => exact (hf a).lacking hs name heq

theorem answer {c : Call (Session R) α} (hc : Local handed c) (f : α → β) :
    Local handed (c >>= fun a => pure (f a)) where
  beside {s} hs := by
    rw [Call.left_answer]
    exact hc.beside hs
  lacking {s} hs name heq := by
    have hlacking := hc.lacking hs name
    rw [Call.on_bind] at heq
    generalize c.on s = left at hlacking heq
    rcases left with ⟨e | a, t⟩
    · exact hlacking (error_eq_fail heq)
    · cases heq

/-- Settings of the session are nothing that the contexts depend on. -/
theorem set {f : Session R → Session R} (h : ∀ s, (f s).registry = s.registry) :
    Local handed (modify f : Call (Session R) PUnit) where
  beside {s} _ := by
    rw [Call.on_modify, h s]
    exact .refl _
  lacking _ _ heq := nomatch heq

theorem after_set {f : Session R → Session R} {c : Call (Session R) α} (hc : Local handed c)
    (hregistry : ∀ s, (f s).registry = s.registry) (hcodecs : ∀ s, (f s).codecs = s.codecs) :
    Local handed ((modify f : Call (Session R) PUnit) >>= fun _ => c) where
  beside {s} hs := by
    have hset := hc.beside (s := f s) (hregistry s ▸ hs)
    rw [hregistry] at hset
    exact hset
  lacking {s} hs name heq := by
    have hset := hc.lacking (s := f s) (hregistry s ▸ hs) name heq
    rw [hregistry, hcodecs] at hset
    exact hset

/-! ## Calls on the current context -/

theorem ask {f : Context R → Result α} (h : ∀ c, Oblivious (f c)) :
    Local handed (.query fun s => s.registry.requireCurrent >>= f) where
  beside _ := .refl _
  lacking {s} hs name heq := by
    rcases bind_eq_error_iff.1 heq with hcurrent | ⟨c, -, hfail⟩
    · exact .inl (hs.selected_eq_none hcurrent)
    · exact absurd hfail (h c name)

theorem onContext {call : Call (Context R) α} (hcall : call.Oblivious)
    (hname : ∀ name c, c.Sound name → (call.on c).2.name = name) :
    Local handed (onContext call) where
  beside {s} hs := by
    rw [on_onContext]
    cases hcurrent : s.registry.requireCurrent with
    | error e => exact .refl _
    | ok c =>
      obtain ⟨name, hselected, hc⟩ := Registry.requireCurrent_eq_ok hcurrent
      simp only [Registry.putCurrent, hselected]
      exact hs.sound.beside_modify hselected (hname name c (hs.sound.of_find? hc))
  lacking {s} hs name heq := by
    rw [on_onContext] at heq
    cases hcurrent : s.registry.requireCurrent with
    | error e => exact .inl (hs.selected_eq_none hcurrent)
    | ok c =>
      rw [hcurrent] at heq
      exact absurd heq (hcall c name)

theorem of_careful {call : Call (Context R) α} (hcall : call.Oblivious)
    (h : ∀ name, call.Careful (Context.Sound name) (Context.sight BaselineSet.locks)) :
    Local handed (Session.onContext call) :=
  .onContext hcall fun name c hc => (h name c hc).keeps.name

/-- A call on the network cannot rename the context. -/
theorem onNetwork {call : Call (Network R) α} (hcall : call.Oblivious) :
    Local handed (onNetwork call) :=
  .onContext (Context.oblivious_onNetwork hcall) fun _ _ hc => hc.name

end Local

/-! ## All requests -/

omit [Scalar R] in
theorem oblivious_readAngle (name : String) (read : List Char → Option R) (text : String) :
    Oblivious (readAngle name read text) := by
  unfold readAngle
  split
  · exact .ok _
  · exact .report (by simp)

theorem oblivious_checkBits (bits : Int) : Oblivious (SampleFormat.checkBits bits) := by
  unfold SampleFormat.checkBits
  split
  case h_7 => exact .report (by simp)
  all_goals exact .ok _

theorem oblivious_decodeBits [Word R] (bytes : Bytes) (bits : Int) :
    Oblivious (SampleFormat.decodeBits bytes bits : Result (List R)) := by
  unfold SampleFormat.decodeBits
  split
  · exact .ok _
  · exact .report (by simp)

omit [Scalar R] in
theorem oblivious_get (codecs : Codecs R) (format : String) : Oblivious (codecs.get format) := by
  unfold Codecs.get
  split
  · exact .ok _
  · exact .report (by simp)

omit [Scalar R] in
theorem mem_of_get {codecs : Codecs R} {format : String} {codec : Codec R}
    (h : codecs.get format = .ok codec) : codec ∈ codecs.entries := by
  unfold Codecs.get at h
  split at h
  · next hfound =>
    obtain rfl := Except.ok.inj h
    exact List.mem_of_find?_eq_some hfound
  · cases h

theorem local_setTargetText (rightAscension declination : String) :
    Local handed (setTargetText rightAscension declination : Call (Session R) Unit) :=
  .after_quiet (.result _) (.result (oblivious_readAngle _ _ rightAscension)) fun _ =>
    .after_quiet (.result _) (.result (oblivious_readAngle _ _ declination)) fun _ =>
      .set fun _ => rfl

theorem local_setTarget (target : Target R) : Local handed (setTarget target) := .set fun _ => rfl

theorem local_setFrequency (frequency : R) : Local handed (setFrequency frequency) :=
  .after_quiet (.result _) (.result (.demand _ (by simp))) fun _ => .set fun _ => rfl

theorem local_setRate (rate : R) : Local handed (setRate rate) :=
  .after_quiet (.result _) (.result (.demand _ (by simp))) fun _ => .set fun _ => rfl

theorem local_setResolution (width height : Nat) :
    Local handed (setResolution width height : Call (Session R) Unit) :=
  .after_quiet (.result _) (.result (.demand _ (by simp))) fun _ => .set fun _ => rfl

theorem local_setBits (bits : Int) : Local handed (setBits bits : Call (Session R) Unit) :=
  .after_quiet (.result _) (.result (oblivious_checkBits bits)) fun _ => .set fun _ => rfl

theorem local_decode (format : String) (bytes : Bytes) :
    Local handed (decode format bytes : Call (Session R) (Cube R)) where
  beside _ := .refl _
  lacking {s} _ name heq := by
    rcases bind_eq_error_iff.1 heq with hget | ⟨codec, hget, hdecode⟩
    · exact absurd hget (oblivious_get s.codecs format name)
    · exact .inr (.inl ⟨codec, mem_of_get hget, .inl ⟨bytes, hdecode⟩⟩)

theorem local_exportModel (name format : String) :
    Local handed (exportModel name format : Call (Session R) Bytes) where
  beside _ := .refl _
  lacking {s} hs missing heq := by
    rcases bind_eq_error_iff.1 heq with hget | ⟨codec, hget, heq⟩
    · exact absurd hget (oblivious_get s.codecs format missing)
    rcases bind_eq_error_iff.1 heq with hcurrent | ⟨c, -, heq⟩
    · exact .inl (hs.selected_eq_none hcurrent)
    rcases bind_eq_error_iff.1 heq with hmodel | ⟨cube, -, hencode⟩
    · exact absurd hmodel (c.oblivious_modelNamed name missing)
    · exact .inr (.inl ⟨codec, mem_of_get hget, .inr ⟨cube, hencode⟩⟩)

theorem local_addEncoded (name format : String) (bytes : Bytes) :
    Local handed (addEncoded name format bytes : Call (Session R) String) :=
  .after_quiet (.query _) (local_decode format bytes) fun _ =>
    .after_quiet (.result _) (.result (.demand _ (by simp))) fun _ =>
      .onNetwork (Network.oblivious_add name _)

theorem local_addRaw [Word R] (name : String) (location : Location R) (bytes : Bytes)
    (start : String) : Local handed (addRaw name location bytes start) := by
  have hparse : Oblivious (Epoch.parse start) := by
    unfold Epoch.parse
    split
    · exact .report (by simp)
    · split
      · exact .report (by simp)
      · exact .ok _
  refine .after_quiet (.result _) (.result hparse) fun _ =>
    .after_quiet .get (.of_quiet .get (.of_total .get)) fun s => ?_
  refine .after_quiet (.result _) (.result (oblivious_decodeBits bytes s.bits)) fun _ => ?_
  exact .after_quiet (.result _) (.result (.demand _ (by simp))) fun _ =>
    .onNetwork (Network.oblivious_add name _)

theorem oblivious_ofGeographic [Legible R] (latitude longitude elevation : R) :
    Oblivious (Location.ofGeographic latitude longitude elevation) := by
  unfold Location.ofGeographic
  split
  · exact .report (by simp)
  · split
    · exact .report (by simp)
    · exact .ok _

theorem oblivious_validate (plan : Plan R) : Oblivious plan.validate := by
  unfold Plan.validate
  split_ifs
  · exact .report (by simp)
  · exact .report (by simp)
  · exact .report (by simp)
  · exact .report (by simp)
  · exact .ok _

omit [Scalar R] in
theorem oblivious_formatOf (path : String) : Oblivious (formatOf path) := by
  unfold formatOf
  split
  · exact .report (by simp)
  · exact .ok _

theorem local_lockBaseline (name format : String) (bytes : Bytes) :
    Local handed (lockBaseline name format bytes : Call (Session R) Unit) :=
  .after_quiet (.query _) (local_decode format bytes) fun stream =>
    .onNetwork (.attempt fun n => n.oblivious_lock name stream)

theorem local_importModel (name format : String) (bytes : Bytes) :
    Local handed (importModel name format bytes : Call (Session R) Unit) :=
  .after_quiet (.query _) (local_decode format bytes) fun cube =>
    .of_careful (Context.oblivious_store name cube) fun _ => Context.careful_store name cube

theorem local_discardModel (name : String) :
    Local handed (discardModel name : Call (Session R) Unit) :=
  .onContext (.modify _) fun _ _ hc => hc.name

theorem local_setReference [Legible R] (latitude longitude elevation : R) :
    Local handed (setReference latitude longitude elevation) :=
  .after_quiet (.result _) (.result (oblivious_ofGeographic latitude longitude elevation))
    fun reference => .onNetwork (.update fun n => n.oblivious_setReference reference)

theorem local_carryOut [Trig R] (name : String) (plan : Plan R) (refusal : Option Refusal) :
    Local handed (carryOut name plan refusal) :=
  .after_set (.of_careful (Context.oblivious_plot name plan refusal)
    fun _ => Context.careful_plot name plan refusal) (fun _ => rfl) fun _ => rfl

theorem local_plot [Trig R] (name : String) (mode : PlotMode) (flag : Interrupt)
    (refusal : Option Refusal) :
    Local handed (plot name mode flag refusal : Call (Session R) Outcome) :=
  .after_quiet (.query _) (.of_quiet (.query _) (.query fun _ => oblivious_validate _))
    fun plan => local_carryOut name plan refusal

/-- What a request hands over reports a missing context: the contents of a file do. -/
def handedBy (r : Request R) (e : Failure) : Prop := ∃ name path, r = .addFile name path (.error e)

theorem local_addFile (name path : String) (content : Result Bytes) :
    Local (handedBy (.addFile name path content : Request R))
      (addFile name path content : Call (Session R) String) := by
  have hcontent : Local (handedBy (.addFile name path content : Request R))
      (liftM content : Call (Session R) Bytes) :=
    ⟨fun _ => .refl _, fun _ missing heq => .inr (.inr ⟨name, path, by
      obtain rfl : content = fail (.contextNotFound missing) := heq
      rfl⟩)⟩
  exact .after_quiet (.result _) (.result (oblivious_formatOf path)) fun format =>
    .after_quiet (.result _) hcontent fun bytes => local_addEncoded name format bytes

variable [Trig R] [Fourier.Spectral R] [Word R] [Legible R]

/-- **Every request is local** that does not manage the contexts. -/
theorem local_serve {r : Request R} (hr : r.managesContexts = false) :
    Local (handedBy r) (serve r) := by
  cases r with
  | addContext | selectContext | deleteContext => cases hr
  | setTarget target => exact .answer (local_setTarget target) _
  | setTargetText ra dec => exact .answer (local_setTargetText ra dec) _
  | setFrequency frequency => exact .answer (local_setFrequency frequency) _
  | setRate rate => exact .answer (local_setRate rate) _
  | setResolution width height => exact .answer (local_setResolution width height) _
  | setBits bits => exact .answer (local_setBits bits) _
  | setOrder order =>
    refine .answer (.onNetwork (.bind (.modify _) fun _ => ?_)) _
    exact .of_total (.bind .get fun n => .pure n.order)
  | setReference lat lon elevation => exact .answer (local_setReference lat lon elevation) _
  | setRelative relative => exact .answer (.onNetwork (.modify _)) _
  | addRaw name location bytes start => exact .answer (local_addRaw name location bytes start) _
  | addEncoded name format bytes => exact .answer (local_addEncoded name format bytes) _
  | addFile name path content => exact .answer (local_addFile name path content) _
  | deleteStation name => exact .answer (.onNetwork (.modify _)) _
  | copyStation source target =>
    exact .answer (.onNetwork (Network.oblivious_derive source _)) _
  | filterStation source target filter =>
    exact .answer (.onNetwork (Network.oblivious_derive source _)) _
  | listStations => exact .answer (.ask fun _ => .ok _) _
  | listBaselines => exact .answer (.onNetwork (.attempt fun _ => .ok _)) _
  | lockBaseline name format bytes => exact .answer (local_lockBaseline name format bytes) _
  | unlockBaseline name => exact .answer (.onNetwork (.modify _)) _
  | plot name mode flag refusal => exact .answer (local_plot name mode flag refusal) _
  | carryOut name plan refusal => exact .answer (local_carryOut name plan refusal) _
  | exportModel name format => exact .answer (local_exportModel name format) _
  | importModel name format bytes => exact .answer (local_importModel name format bytes) _
  | discardModel name => exact .answer (local_discardModel name) _
  | listModels => exact .answer (.ask fun _ => .ok _) _
  | combine operation a b out =>
    exact .answer (.of_careful (Context.oblivious_combine operation a b out) fun _ =>
      Context.careful_combine operation a b out) _
  | shift a out =>
    exact .answer (.of_careful (Context.oblivious_shift a out) fun _ =>
      Context.careful_shift a out) _
  | dft a magnitude phase =>
    exact .answer (.of_careful (Context.oblivious_dft a magnitude phase) fun _ =>
      Context.careful_dft a magnitude phase) _

end Session

end Aperture
