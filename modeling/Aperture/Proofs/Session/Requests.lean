import Aperture.Proofs.Session.Sight
import Aperture.Session.Request

/-!
# Requests are careful

Every request keeps the session sound, and one that fails leaves what can be seen (`careful_serve`,
and `careful_serve_of_plots` for plots). Most requests look first and change last. The others are:

* `addContext` makes two changes, and the second one cannot fail after the first;
* `lockBaseline` forms the baselines before it misses one, which cannot be seen;
* a plot works on the baselines before it fails, and leaves their groups and locks.
-/

namespace Aperture

variable {R β : Type} [Scalar R]

/-! ## Plots keep the locks -/

omit [Scalar R] in
theorem BaselineSet.Reworked.locks {s t : BaselineSet R} (h : t.Reworked s) (view : View R) :
    t.locks view = s.locks view := by
  obtain ⟨f, hf, hmap⟩ := h.baselines
  rw [BaselineSet.locks, hmap, Roster.toList_map, List.map_map]
  refine List.map_congr_left fun b _ => ?_
  obtain ⟨hname, hmembers, hlocked⟩ := hf b
  simp only [Function.comp_apply, Baseline.stations, hname, hmembers, hlocked]

variable [Trig R]

namespace Network

/-! ## Calls on networks -/

theorem careful_plot (plan : Plan R) (refusal : Option Refusal) :
    (Call.attempt fun n : Network R => n.plotUnder plan refusal).Careful UpToDate
      (sight BaselineSet.locks) := by
  intro n hn
  obtain ⟨set, hset, heq⟩ := n.exists_plotUnder_fst plan refusal
  refine ⟨hn.plotUnder plan refusal, fun _ _ => ?_⟩
  rw [Call.on_attempt, heq]
  exact sight_keep hn (hset.locks _)

variable [Fourier.Spectral R] {shown : View R → BaselineSet R → β}

/-- A call whose changes make up one step. -/
theorem careful_step {α : Type} {c : Call (Network R) α} (hc : c.FailsFirst)
    (h : ∀ n : Network R, n.Step (c.on n).2) : c.Careful UpToDate (sight shown) := by
  refine .of_failsFirst hc fun n a n' hn heq => ?_
  have hstep := hn.step (h n)
  rwa [heq] at hstep

theorem careful_modify {f : Network R → Network R} (h : ∀ n : Network R, n.Step (f n)) :
    (modify f : Call (Network R) PUnit).Careful UpToDate (sight shown) :=
  .modify fun n hn => hn.step (h n)

/-- A baseline that cannot be locked is missed after the baselines were formed. -/
theorem careful_lock (name : String) (stream : Cube R) :
    (Call.attempt fun n : Network R => n.lock name stream).Careful UpToDate (sight shown) := by
  intro n hn
  refine ⟨hn.step (.lock name stream), fun e he => ?_⟩
  rw [Call.on_attempt] at he ⊢
  cases hset : n.settle.2.lock name stream with
  | ok set =>
    simp only [lock, hset] at he
    cases he
  | error e =>
    simp only [lock, hset]
    exact sight_settle hn shown

end Network

/-! ## Calls on contexts -/

namespace Context

variable {shown : View R → BaselineSet R → β} {name : String}

omit [Trig R] in
theorem careful_store (model : String) (cube : Cube R) :
    (store model cube).Careful (Sound name) (sight shown) :=
  .modify fun _ hc => hc.storeModel model cube

omit [Trig R] in
theorem careful_shift (a out : String) : (shift a out).Careful (Sound name) (sight shown) :=
  .after_quiet (.query _) fun _ => .after_quiet (.result _) fun cube => careful_store out cube

variable [Fourier.Spectral R]

theorem careful_combine (operation : Cube.Operation) (a b out : String) :
    (combine operation a b out).Careful (Sound name) (sight shown) :=
  .after_quiet (.query _) fun _ => .after_quiet (.query _) fun _ =>
    .after_quiet (.result _) fun cube => careful_store out cube

theorem careful_dft (a magnitude phase : String) :
    (dft a magnitude phase).Careful (Sound name) (sight shown) := by
  refine .after_quiet (.query _) fun _ => .after_quiet (.result _) fun (magnitudes, phases) => ?_
  exact (careful_store magnitude magnitudes).then_total (fun _ => .modify _)
    fun _ _ hc => hc.storeModel phase phases

omit [Fourier.Spectral R] in
theorem careful_plot (model : String) (plan : Plan R) (refusal : Option Refusal) :
    (plot model plan refusal).Careful (Sound name) (sight BaselineSet.locks) := by
  refine (careful_onNetwork (Network.careful_plot plan refusal) name).then_total
    (fun (image, outcome) => ?_) fun (image, outcome) c hc => ?_
  · exact .bind (.modify _) fun _ => .pure outcome
  · exact hc.storeModel model image

end Context

/-! ## Calls on sessions -/

theorem Registry.select_of_create {R : Type} [Scalar R] {r r' : Registry R} {name : String}
    (h : r.create name = .ok r') : r'.select name = .ok { r' with selected := some name } := by
  obtain ⟨c, contexts, hc, hadd, rfl⟩ := createUsing_eq_ok h
  obtain rfl := Except.ok.inj hc
  exact if_pos (Roster.contains_of_add hadd)

/-- Whether a plot is asked for. -/
def Request.plots {R : Type} : Request R → Bool
  | .plot .. | .carryOut .. => true
  | _ => false

namespace Session

variable {shown : View R → BaselineSet R → β}

omit [Trig R] in
/-- A context that was created can be selected. -/
theorem careful_addContext (name : String) : (addContext name).Careful Sound (sight shown) := by
  intro s hs
  rw [addContext, Call.on_bind, onRegistry, Call.on_within, Call.on_update]
  cases hcreate : s.registry.create name with
  | error e => exact .unchanged hs
  | ok r =>
    have hr : r.Sound := hs.create (fun c hc => Except.ok.inj hc ▸ Context.sound_empty name) hcreate
    have hselect := Registry.select_of_create hcreate
    simp only [selectContext, onRegistry, Call.on_within, Call.on_update, hselect]
    exact .answered (hr.select hselect)

omit [Trig R] in
theorem careful_selectContext (name : String) :
    (selectContext name).Careful Sound (sight shown) := by
  intro s hs
  rw [selectContext, onRegistry, Call.on_within, Call.on_update]
  cases hselect : s.registry.select name with
  | error e => exact .unchanged hs
  | ok r => exact .answered (hs.select hselect)

omit [Trig R] in
theorem careful_deleteContext (name : String) :
    (deleteContext name).Careful Sound (sight shown) :=
  fun _ hs => .answered (hs.destroy name)

omit [Trig R] in
/-- Settings of the session are nothing that the contexts depend on. -/
theorem careful_set {f : Session R → Session R} (h : ∀ s, (f s).registry = s.registry) :
    (modify f : Call (Session R) PUnit).Careful Sound (sight shown) :=
  .modify fun s hs => by rwa [Sound, h s]

omit [Trig R] in
theorem careful_setTarget (target : Target R) :
    (setTarget target).Careful Sound (sight shown) :=
  careful_set fun _ => rfl

omit [Trig R] in
theorem careful_setTargetText (rightAscension declination : String) :
    (setTargetText rightAscension declination).Careful Sound (sight shown) :=
  .after_quiet (.result _) fun _ => .after_quiet (.result _) fun _ => careful_set fun _ => rfl

omit [Trig R] in
theorem careful_setFrequency (frequency : R) :
    (setFrequency frequency).Careful Sound (sight shown) :=
  .after_quiet (.result _) fun _ => careful_set fun _ => rfl

omit [Trig R] in
theorem careful_setRate (rate : R) : (setRate rate).Careful Sound (sight shown) :=
  .after_quiet (.result _) fun _ => careful_set fun _ => rfl

omit [Trig R] in
theorem careful_setResolution (width height : Nat) :
    (setResolution width height : Call (Session R) Unit).Careful Sound (sight shown) :=
  .after_quiet (.result _) fun _ => careful_set fun _ => rfl

omit [Trig R] in
theorem careful_setBits (bits : Int) :
    (setBits bits : Call (Session R) Unit).Careful Sound (sight shown) :=
  .after_quiet (.result _) fun _ => careful_set fun _ => rfl

variable [Fourier.Spectral R]

theorem careful_setOrder (order : Nat) :
    (setOrder order : Call (Session R) Nat).Careful Sound (sight shown) :=
  careful_onNetwork <| (Network.careful_modify fun _ => .setOrder order).then_total
    (fun _ => .bind .get fun n => .pure n.order) fun _ _ hn => hn

theorem careful_setReference [Legible R] (latitude longitude elevation : R) :
    (setReference latitude longitude elevation).Careful Sound (sight shown) :=
  .after_quiet (.result _) fun reference =>
    careful_onNetwork <| .update fun _ _ hn h => hn.step (.setReference reference h)

theorem careful_setRelative (relative : Bool) :
    (setRelative relative : Call (Session R) Unit).Careful Sound (sight shown) :=
  careful_onNetwork <| Network.careful_modify fun _ => .setRelative relative

theorem careful_addRaw [Word R] (name : String) (location : Location R) (bytes : Bytes)
    (start : String) : (addRaw name location bytes start).Careful Sound (sight shown) := by
  refine .after_quiet (.result _) fun start => .after_quiet .get fun s => ?_
  refine .after_quiet (.result _) fun samples => .after_quiet (.result _) fun _ => ?_
  exact careful_onNetwork <| Network.careful_step (Network.failsFirst_add _ _) fun _ => .add _ _

theorem careful_addEncoded (name format : String) (bytes : Bytes) :
    (addEncoded name format bytes : Call (Session R) String).Careful Sound (sight shown) := by
  refine .after_quiet (.query _) fun cube => .after_quiet (.result _) fun _ => ?_
  exact careful_onNetwork <| Network.careful_step (Network.failsFirst_add _ _) fun _ => .add _ _

theorem careful_addFile (name path : String) (content : Result Bytes) :
    (addFile name path content : Call (Session R) String).Careful Sound (sight shown) :=
  .after_quiet (.result _) fun format => .after_quiet (.result _) fun bytes =>
    careful_addEncoded name format bytes

theorem careful_deleteStation (name : String) :
    (deleteStation name : Call (Session R) Unit).Careful Sound (sight shown) :=
  careful_onNetwork <| Network.careful_modify fun _ => .remove name

theorem careful_copyStation (source target : String) :
    (copyStation source target : Call (Session R) String).Careful Sound (sight shown) :=
  careful_onNetwork <| Network.careful_step (Network.failsFirst_derive _ _) fun _ =>
    .copy source target

theorem careful_filterStation (source target : String) (filter : Filter R) :
    (filterStation source target filter).Careful Sound (sight shown) :=
  careful_onNetwork <| Network.careful_step (Network.failsFirst_derive _ _) fun _ =>
    .filter source target filter

theorem careful_baselines :
    (baselines : Call (Session R) (List (Baseline.Summary R))).Careful Sound (sight shown) :=
  careful_onNetwork fun _ hn => .answered (hn.step .settle)

theorem careful_lockBaseline (name format : String) (bytes : Bytes) :
    (lockBaseline name format bytes : Call (Session R) Unit).Careful Sound (sight shown) :=
  .after_quiet (.query _) fun stream => careful_onNetwork (Network.careful_lock name stream)

theorem careful_unlockBaseline (name : String) :
    (unlockBaseline name : Call (Session R) Unit).Careful Sound (sight shown) :=
  careful_onNetwork <| Network.careful_modify fun _ => .unlock name

omit [Trig R] [Fourier.Spectral R] in
theorem careful_importModel (name format : String) (bytes : Bytes) :
    (importModel name format bytes : Call (Session R) Unit).Careful Sound (sight shown) :=
  .after_quiet (.query _) fun cube => careful_onContext fun _ => Context.careful_store name cube

omit [Trig R] [Fourier.Spectral R] in
theorem careful_discardModel (name : String) :
    (discardModel name : Call (Session R) Unit).Careful Sound (sight shown) :=
  careful_onContext fun _ => .modify fun _ hc => hc.dropModel name

/-- What can be seen of a session but for the interrupt flag, the baselines by their locks. -/
def sightOfLocks (s : Session R) :
    Sight R (List (String × List (Station R) × Option (Cube R))) :=
  { s.sight BaselineSet.locks with interrupt := false }

omit [Fourier.Spectral R] in
/-- A plot clears the interrupt flag before it may fail. -/
theorem careful_carryOut (name : String) (plan : Plan R) (refusal : Option Refusal) :
    (carryOut name plan refusal).Careful Sound sightOfLocks := by
  intro s hs
  have hplot : (onContext (Context.plot name plan refusal)).Careful Sound
      (sight BaselineSet.locks) :=
    careful_onContext fun _ => Context.careful_plot name plan refusal
  have hleft := hplot { s with interrupt := false } hs
  refine ⟨hleft.keeps, fun e he => ?_⟩
  have hunseen := congrArg (fun view => { view with interrupt := false }) (hleft.unseen e he)
  exact hunseen

omit [Fourier.Spectral R] in
theorem careful_plot (name : String) (mode : PlotMode) (flag : Interrupt)
    (refusal : Option Refusal) :
    (plot name mode flag refusal : Call (Session R) Outcome).Careful Sound sightOfLocks :=
  .after_quiet (.query _) fun plan => careful_carryOut name plan refusal

/-! ## All requests -/

variable [Word R] [Legible R]

/-- **Every request is careful,** plots apart. -/
theorem careful_serve {r : Request R} (hr : r.plots = false) :
    (serve r).Careful Sound (sight shown) := by
  cases r with
  | addContext name => exact (careful_addContext name).answer _
  | selectContext name => exact (careful_selectContext name).answer _
  | deleteContext name => exact (careful_deleteContext name).answer _
  | setTarget target => exact (careful_setTarget target).answer _
  | setTargetText ra dec => exact (careful_setTargetText ra dec).answer _
  | setFrequency frequency => exact (careful_setFrequency frequency).answer _
  | setRate rate => exact (careful_setRate rate).answer _
  | setResolution width height => exact (careful_setResolution width height).answer _
  | setBits bits => exact (careful_setBits bits).answer _
  | setOrder order => exact (careful_setOrder order).answer _
  | setReference lat lon elevation => exact (careful_setReference lat lon elevation).answer _
  | setRelative relative => exact (careful_setRelative relative).answer _
  | addRaw name location bytes start => exact (careful_addRaw name location bytes start).answer _
  | addEncoded name format bytes => exact (careful_addEncoded name format bytes).answer _
  | addFile name path content => exact (careful_addFile name path content).answer _
  | deleteStation name => exact (careful_deleteStation name).answer _
  | copyStation source target => exact (careful_copyStation source target).answer _
  | filterStation source target filter =>
    exact (careful_filterStation source target filter).answer _
  | listStations => exact .of_quiet (.bind (.query _) fun _ => .pure _)
  | listBaselines => exact careful_baselines.answer _
  | lockBaseline name format bytes => exact (careful_lockBaseline name format bytes).answer _
  | unlockBaseline name => exact (careful_unlockBaseline name).answer _
  | plot => cases hr
  | carryOut => cases hr
  | exportModel name format => exact .of_quiet (.bind (.query _) fun _ => .pure _)
  | importModel name format bytes => exact (careful_importModel name format bytes).answer _
  | discardModel name => exact (careful_discardModel name).answer _
  | listModels => exact .of_quiet (.bind (.query _) fun _ => .pure _)
  | combine operation a b out =>
    exact (careful_onContext fun _ => Context.careful_combine operation a b out).answer _
  | shift a out => exact (careful_onContext fun _ => Context.careful_shift a out).answer _
  | dft a magnitude phase =>
    exact (careful_onContext fun _ => Context.careful_dft a magnitude phase).answer _

/-- **Plots are careful,** what they do to the settings of the baselines apart. -/
theorem careful_serve_of_plots {r : Request R} (hr : r.plots = true) :
    (serve r).Careful Sound sightOfLocks := by
  cases r with
  | plot name mode flag refusal => exact (careful_plot name mode flag refusal).answer _
  | carryOut name plan refusal => exact (careful_carryOut name plan refusal).answer _
  | _ => cases hr

end Session

end Aperture
