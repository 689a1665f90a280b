import Aperture.Proofs.Session.Failures
import Aperture.Proofs.Session.Local

/-!
# What requests do to a network

A call on the session **follows** a law between the network of the current context before and after
it (`Session.Follows`). A call that only looks before it works on the network follows the law of
that work (`Follows.after_quiet`), and a call that leaves the network follows any law that allows
this.

**Theorem (`effect_serve`).** The requests that do not manage the contexts follow `Session.Effect`,
which lists all that can become of the network. What requests do to something is then said for one
constructor at a time.
-/

namespace Aperture

variable {R α β σ τ : Type}

/-! ## Calls that leave a part of the state -/

namespace Call

/-- The call leaves a part of the state as it was. -/
def Leaving (part : σ → τ) (c : Call σ α) : Prop := ∀ s, part (c.on s).2 = part s

variable {part : σ → τ}

theorem Leaving.of_quiet {c : Call σ α} (hc : c.Quiet) : c.Leaving part :=
  fun s => congrArg part (hc s)

theorem Leaving.modify {f : σ → σ} (h : ∀ s, part (f s) = part s) :
    (modify f : Call σ PUnit).Leaving part := h

theorem Leaving.bind {c : Call σ α} {f : α → Call σ β} (hc : c.Leaving part)
    (hf : ∀ a, (f a).Leaving part) : (c >>= f).Leaving part := by
  intro s
  have hfirst := hc s
  rw [on_bind]
  generalize c.on s = left at hfirst ⊢
  rcases left with ⟨e | a, t⟩
  · exact hfirst
  · exact (hf a t).trans hfirst

theorem Leaving.answer {c : Call σ α} (hc : c.Leaving part) (f : α → β) :
    (c >>= fun a => pure (f a)).Leaving part :=
  hc.bind fun a => .of_quiet (.pure (f a))

/-- A change with a value that is checked before it. -/
theorem leaving_checked {x : Result α} {f : α → σ → σ} (h : ∀ a s, part (f a s) = part s) :
    ((liftM x : Call σ α) >>= fun a => (modify (f a) : Call σ PUnit)).Leaving part :=
  .bind (.of_quiet (.result x)) fun a => .modify (h a)

end Call

namespace Context

/-- What a call on the models leaves. -/
def rest (c : Context R) : String × Network R := (c.name, c.network)

theorem rest_storeModel (c : Context R) (name : String) (cube : Cube R) :
    (c.storeModel name cube).rest = c.rest := by
  simp only [storeModel]
  split <;> rfl

theorem leaving_store (name : String) (cube : Cube R) : (store name cube).Leaving rest :=
  .modify fun c => c.rest_storeModel name cube

theorem leaving_dropModel (name : String) :
    (modify fun c => c.dropModel name : Call (Context R) PUnit).Leaving rest :=
  .modify fun _ => rfl

variable [Scalar R]

theorem leaving_shift (a out : String) : (shift a out : Call (Context R) Unit).Leaving rest :=
  .bind (.of_quiet (.query _)) fun _ => .bind (.of_quiet (.result _)) fun cube =>
    leaving_store out cube

variable [Trig R]

theorem leaving_combine [Fourier.Spectral R] (operation : Cube.Operation) (a b out : String) :
    (combine operation a b out : Call (Context R) Unit).Leaving rest :=
  .bind (.of_quiet (.query _)) fun _ => .bind (.of_quiet (.query _)) fun _ =>
    .bind (.of_quiet (.result _)) fun cube => leaving_store out cube

theorem leaving_dft [Fourier.Spectral R] (a magnitude phase : String) :
    (dft a magnitude phase : Call (Context R) Unit).Leaving rest :=
  .bind (.of_quiet (.query _)) fun _ => .bind (.of_quiet (.result _)) fun (magnitudes, phases) =>
    .bind (leaving_store magnitude magnitudes) fun _ => leaving_store phase phases

/-- A plot leaves the network that the plot of the network leaves. -/
theorem rest_plot (name : String) (plan : Plan R) (refusal : Option Refusal) (c : Context R) :
    ((plot name plan refusal).on c).2.rest = (c.name, (c.network.plotUnder plan refusal).1) := by
  rw [plot, onNetwork, Call.on_bind, Call.on_within, Call.on_attempt]
  cases (c.network.plotUnder plan refusal).2 with
  | error e => rfl
  | ok answer => exact rest_storeModel _ _ _

end Context

namespace Session

/-! ## The network of the current context -/

/-- The network of the current context. -/
def network? (s : Session R) : Option (Network R) := s.registry.current?.map Context.network

/-- What a call makes of the network of the current context, by a law for networks, depending on
whether it is answered. -/
def Follows (s : Session R) (law : Network R → Bool → Network R → Prop) (c : Call (Session R) α) :
    Prop :=
  ∀ n, s.network? = some n → ∃ n', (c.on s).2.network? = some n' ∧ law n (c.on s).1.isOk n'

namespace Follows

variable {s : Session R} {law : Network R → Bool → Network R → Prop}

theorem answer {c : Call (Session R) α} (hc : s.Follows law c) (f : α → β) :
    s.Follows law (c >>= fun a => pure (f a)) := by
  intro n hn
  obtain ⟨n', hnetwork, hlaw⟩ := hc n hn
  refine ⟨n', by rwa [Call.left_answer], ?_⟩
  rw [Call.on_bind]
  generalize c.on s = left at hlaw ⊢
  rcases left with ⟨e | a, t⟩ <;> exact hlaw

/-- A call that leaves the contexts follows a law that allows this. -/
theorem of_leaving {c : Call (Session R) α} (hc : c.Leaving registry)
    (h : ∀ n answered, law n answered n) : s.Follows law c := by
  intro n hn
  refine ⟨n, ?_, h n _⟩
  rw [network?, hc s]
  exact hn

/-- A call may look before it begins. -/
theorem after_quiet {c : Call (Session R) α} {f : α → Call (Session R) β} (hc : c.Quiet)
    (hfail : ∀ n, law n false n) (hf : ∀ a, (c.on s).1 = .ok a → s.Follows law (f a)) :
    s.Follows law (c >>= f) := by
  intro n hn
  rw [hc.on_bind]
  cases h : (c.on s).1 with
  | error e => exact ⟨n, hn, hfail n⟩
  | ok a => exact hf a h n hn

variable [Scalar R]

/-- A call on the current context does to its network what it does there. -/
theorem onContext (hs : s.Sound) {call : Call (Context R) α}
    (hname : ∀ c, (call.on c).2.name = c.name)
    (h : ∀ c, s.network? = some c.network → c.network.UpToDate →
      law c.network (call.on c).1.isOk (call.on c).2.network) :
    s.Follows law (onContext call) := by
  intro n hn
  obtain ⟨c, hc, rfl⟩ := Option.map_eq_some_iff.1 hn
  obtain ⟨name, hselected, hfound⟩ := Option.bind_eq_some_iff.1 hc
  have hsound := hs.of_find? hfound
  have hrequired : s.registry.requireCurrent = .ok c := by rw [Registry.requireCurrent, hc]
  rw [on_onContext, hrequired]
  refine ⟨(call.on c).2.network, ?_, h c hn hsound.network⟩
  have hput := hs.indexed.find?_modify name (f := fun _ => (call.on c).2)
    (fun _ _ => (hname c).trans hsound.name) name
  rw [if_pos rfl, hfound, Option.map_some] at hput
  simp only [network?, Registry.putCurrent, hselected, Registry.current?, Registry.modify,
    Option.bind_some, hput, Option.map_some]

theorem of_rest (hs : s.Sound) {call : Call (Context R) α} (hcall : call.Leaving Context.rest)
    (h : ∀ n answered, law n answered n) : s.Follows law (Session.onContext call) := by
  refine .onContext hs (fun c => congrArg Prod.fst (hcall c)) fun c _ _ => ?_
  have hnetwork : (call.on c).2.network = c.network := congrArg Prod.snd (hcall c)
  rw [hnetwork]
  exact h _ _

theorem onNetwork (hs : s.Sound) {call : Call (Network R) α}
    (h : ∀ n, s.network? = some n → n.UpToDate → law n (call.on n).1.isOk (call.on n).2) :
    s.Follows law (onNetwork call) :=
  .onContext hs (fun _ => rfl) fun c => h c.network

end Follows

theorem Sound.upToDate [Scalar R] {s : Session R} (hs : s.Sound) {n : Network R}
    (h : s.network? = some n) : n.UpToDate := by
  obtain ⟨c, hc, rfl⟩ := Option.map_eq_some_iff.1 h
  obtain ⟨name, -, hfound⟩ := Option.bind_eq_some_iff.1 hc
  exact (hs.of_find? hfound).network

/-! ## Effects -/

end Session

namespace Request

/-- Whether the stations and the baselines have no part in a request. -/
def sparesNetwork : Request R → Bool
  | .setTarget _ | .setTargetText .. | .setFrequency _ | .setRate _ | .setResolution .. | .setBits _
  | .listStations | .exportModel .. | .importModel .. | .discardModel _ | .listModels | .combine ..
  | .shift .. | .dft .. => true
  | _ => false

/-- Whether a request may be refused before the network is changed. -/
def refusable : Request R → Bool
  | .setReference .. | .addRaw .. | .addEncoded .. | .addFile .. | .copyStation ..
  | .filterStation .. | .lockBaseline .. | .plot .. => true
  | _ => false

/-- The name that a station is to be added under. -/
def adds : Request R → Option String
  | .addRaw name .. | .addEncoded name .. | .addFile name .. => some name
  | _ => none

end Request

namespace Session

section

variable [Scalar R] [Trig R] [Fourier.Spectral R]

/-- What a request makes of the network of the current context, and whether it is answered. -/
inductive Effect (s : Session R) : Request R → Network R → Bool → Network R → Prop
  | spared {r : Request R} (hr : r.sparesNetwork = true) (n : Network R) (answered : Bool) :
      Effect s r n answered n
  | refused {r : Request R} (hr : r.refusable = true) (n : Network R) : Effect s r n false n
  | setOrder (order : Nat) (n : Network R) : Effect s (.setOrder order) n true (n.setOrder order)
  | setReference {lat lon elevation : R} {reference : Location R} {n n' : Network R}
      (h : n.setReference reference = .ok n') : Effect s (.setReference lat lon elevation) n true n'
  | setRelative (relative : Bool) (n : Network R) :
      Effect s (.setRelative relative) n true (n.setRelative relative)
  | add {r : Request R} {name answer : String} {recording : Cube R} {n n' : Network R}
      (hr : r.adds = some name) (h : (Network.add name recording).on n = (.ok answer, n')) :
      Effect s r n true n'
  | remove (name : String) (n : Network R) : Effect s (.deleteStation name) n true (n.remove name)
  | copy {source target answer : String} {n n' : Network R}
      (h : (Network.copy source target).on n = (.ok answer, n')) :
      Effect s (.copyStation source target) n true n'
  | filter {source target answer : String} {filter : Filter R} {n n' : Network R}
      (h : (Network.filter source target filter).on n = (.ok answer, n')) :
      Effect s (.filterStation source target filter) n true n'
  | list (n : Network R) : Effect s .listBaselines n true n.settle.1
  | lock {name format : String} {bytes : Bytes} {stream : Cube R}
      (h : ((decode format bytes).on s).1 = .ok stream) (n : Network R) :
      Effect s (.lockBaseline name format bytes) n (n.lock name stream).2.isOk
        (n.lock name stream).1
  | unlock (name : String) (n : Network R) :
      Effect s (.unlockBaseline name) n true (n.unlock name)
  | plot {r : Request R} (hr : r.plots = true) (plan : Plan R) (refusal : Option Refusal)
      (n : Network R) (answered : Bool) : Effect s r n answered (n.plotUnder plan refusal).1

variable {s : Session R} {r : Request R}

theorem effect_of_leaving {c : Call (Session R) α} (hr : r.sparesNetwork = true)
    (hc : c.Leaving registry) (f : α → Answer R) :
    s.Follows (s.Effect r) (c >>= fun a => pure (f a)) := by
  refine Follows.answer ?_ f
  exact .of_leaving hc fun n answered => .spared hr n answered

theorem effect_of_models (hs : s.Sound) (hr : r.sparesNetwork = true)
    {call : Call (Context R) Unit} (hcall : call.Leaving Context.rest) :
    s.Follows (s.Effect r) (done (onContext call)) := by
  refine Follows.answer ?_ _
  exact .of_rest hs hcall fun n answered => .spared hr n answered

/-- A call that is refused before its first change leaves the network. -/
theorem effect_failsFirst (hs : s.Sound) (hr : r.refusable = true)
    {c : Call (Network R) String} (hc : c.FailsFirst)
    (h : ∀ n answer n', c.on n = (.ok answer, n') → s.Effect r n true n') :
    s.Follows (s.Effect r) (onNetwork c) := by
  refine .onNetwork hs fun n _ _ => ?_
  rcases hc.cases n with ⟨answer, n', hok⟩ | ⟨e, herror⟩
  · rw [hok]
    exact h n answer n' hok
  · rw [herror]
    exact .refused hr n

theorem effect_add (hs : s.Sound) {name : String} (hr : r.adds = some name) (recording : Cube R) :
    s.Follows (s.Effect r) (onNetwork (Network.add name recording)) := by
  have hrefusable : r.refusable = true := by
    cases r with
    | addRaw | addEncoded | addFile => rfl
    | _ => cases hr
  exact effect_failsFirst hs hrefusable (Network.failsFirst_add name recording)
    fun _ _ _ h => .add hr h

theorem effect_addRaw [Word R] (hs : s.Sound) (name : String) (location : Location R)
    (bytes : Bytes) (start : String) :
    s.Follows (s.Effect (.addRaw name location bytes start))
      (addRaw name location bytes start) :=
  .after_quiet (.result _) (fun n => .refused rfl n) fun _ _ =>
    .after_quiet .get (fun n => .refused rfl n) fun _ _ =>
      .after_quiet (.result _) (fun n => .refused rfl n) fun _ _ =>
        .after_quiet (.result _) (fun n => .refused rfl n) fun _ _ => effect_add hs rfl _

theorem effect_addEncoded (hs : s.Sound) {name : String} (hr : r.adds = some name)
    (hrefusable : r.refusable = true) (format : String) (bytes : Bytes) :
    s.Follows (s.Effect r) (addEncoded name format bytes) :=
  .after_quiet (.query _) (fun n => .refused hrefusable n) fun _ _ =>
    .after_quiet (.result _) (fun n => .refused hrefusable n) fun _ _ => effect_add hs hr _

theorem effect_addFile (hs : s.Sound) (name path : String) (content : Result Bytes) :
    s.Follows (s.Effect (.addFile name path content)) (addFile name path content) :=
  .after_quiet (.result _) (fun n => .refused rfl n) fun format _ =>
    .after_quiet (.result _) (fun n => .refused rfl n) fun bytes _ =>
      effect_addEncoded hs rfl rfl format bytes

theorem effect_setReference [Legible R] (hs : s.Sound) (latitude longitude elevation : R) :
    s.Follows (s.Effect (.setReference latitude longitude elevation))
      (setReference latitude longitude elevation) := by
  refine .after_quiet (.result _) (fun n => .refused rfl n) fun reference _ => .onNetwork hs ?_
  intro n _ _
  rw [Call.on_update]
  cases h : n.setReference reference with
  | error e => exact .refused rfl n
  | ok n' => exact .setReference h

theorem effect_lockBaseline (hs : s.Sound) (name format : String) (bytes : Bytes) :
    s.Follows (s.Effect (.lockBaseline name format bytes)) (lockBaseline name format bytes) :=
  .after_quiet (.query _) (fun n => .refused rfl n) fun _ hstream =>
    .onNetwork hs fun n _ _ => .lock hstream n

theorem effect_carryOut (hs : s.Sound) (hr : r.plots = true) (name : String) (plan : Plan R)
    (refusal : Option Refusal) : s.Follows (s.Effect r) (carryOut name plan refusal) := by
  -- The interrupt flag is cleared first, which the contexts do not see.
  have hcleared : ({ s with interrupt := false } : Session R).Sound := hs
  have hplot : ({ s with interrupt := false } : Session R).Follows (s.Effect r)
      (onContext (Context.plot name plan refusal)) := by
    refine .onContext hcleared (fun c => congrArg Prod.fst (c.rest_plot name plan refusal)) ?_
    intro c _ _
    have hnetwork : ((Context.plot name plan refusal).on c).2.network =
      (c.network.plotUnder plan refusal).1 := congrArg Prod.snd (c.rest_plot name plan refusal)
    rw [hnetwork]
    exact .plot hr plan refusal _ _
  exact fun n hn => hplot n hn

variable [Word R] [Legible R]

/-- **What every request does to the network of the current context.** -/
theorem effect_serve (hs : s.Sound) {r : Request R} (hr : r.managesContexts = false) :
    s.Follows (s.Effect r) (serve r) := by
  cases r with
  | addContext | selectContext | deleteContext => cases hr
  | setTarget target => exact effect_of_leaving (c := setTarget target) rfl (.modify fun _ => rfl) _
  | setTargetText ra dec =>
    refine effect_of_leaving (c := setTargetText ra dec) rfl ?_ _
    exact .bind (.of_quiet (.result _)) fun _ => Call.leaving_checked fun _ _ => rfl
  | setFrequency frequency =>
    exact effect_of_leaving (c := setFrequency frequency) rfl
      (Call.leaving_checked fun _ _ => rfl) _
  | setRate rate =>
    exact effect_of_leaving (c := setRate rate) rfl
      (Call.leaving_checked fun _ _ => rfl) _
  | setResolution width height =>
    exact effect_of_leaving (c := setResolution width height) rfl
      (Call.leaving_checked fun _ _ => rfl) _
  | setBits bits =>
    exact effect_of_leaving (c := setBits bits) rfl
      (Call.leaving_checked fun _ _ => rfl) _
  | setOrder order => exact .answer (.onNetwork hs fun n _ _ => .setOrder order n) _
  | setReference lat lon elevation => exact (effect_setReference hs lat lon elevation).answer _
  | setRelative relative => exact .answer (.onNetwork hs fun n _ _ => .setRelative relative n) _
  | addRaw name location bytes start => exact (effect_addRaw hs name location bytes start).answer _
  | addEncoded name format bytes => exact (effect_addEncoded hs rfl rfl format bytes).answer _
  | addFile name path content => exact (effect_addFile hs name path content).answer _
  | deleteStation name => exact .answer (.onNetwork hs fun n _ _ => .remove name n) _
  | copyStation source target =>
    exact (effect_failsFirst hs rfl (Network.failsFirst_derive source _)
      fun _ _ _ h => .copy h).answer _
  | filterStation source target filter =>
    exact (effect_failsFirst hs rfl (Network.failsFirst_derive source _)
      fun _ _ _ h => .filter h).answer _
  | listStations => exact effect_of_leaving (c := stations) rfl (.of_quiet (.query _)) _
  | listBaselines => exact .answer (.onNetwork hs fun n _ _ => .list n) _
  | lockBaseline name format bytes => exact (effect_lockBaseline hs name format bytes).answer _
  | unlockBaseline name => exact .answer (.onNetwork hs fun n _ _ => .unlock name n) _
  | plot name mode flag refusal =>
    refine Follows.answer (.after_quiet (.query _) (fun n => .refused rfl n) fun plan _ => ?_) _
    exact effect_carryOut hs rfl name plan refusal
  | carryOut name plan refusal => exact (effect_carryOut hs rfl name plan refusal).answer _
  | exportModel name format =>
    exact effect_of_leaving (c := exportModel name format) rfl (.of_quiet (.query _)) _
  | importModel name format bytes =>
    refine Follows.answer
      (.after_quiet (.query _) (fun n => .spared rfl n false) fun cube _ => ?_) _
    exact .of_rest hs (Context.leaving_store name cube) fun n answered => .spared rfl n answered
  | discardModel name => exact effect_of_models hs rfl (Context.leaving_dropModel name)
  | listModels => exact effect_of_leaving (c := models) rfl (.of_quiet (.query _)) _
  | combine operation a b out =>
    exact effect_of_models hs rfl (Context.leaving_combine operation a b out)
  | shift a out => exact effect_of_models hs rfl (Context.leaving_shift a out)
  | dft a magnitude phase => exact effect_of_models hs rfl (Context.leaving_dft a magnitude phase)

end

end Session

end Aperture
