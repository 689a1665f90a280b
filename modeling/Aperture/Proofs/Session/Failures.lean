import Aperture.Decimal.Layout
import Aperture.Fourier.Arrangement
import Aperture.Proofs.Session.Requests
import Mathlib.Logic.Relation

/-!
# Failed requests change nothing

**The steps** (`Session.Step`). What can be done to a session: requests, whether they are answered
or fail; codecs and the interrupt flag; and what a front end can do to the contexts directly.

**Theorem (`failed_request_changes_nothing`).** In whatever state the session is, a request that
fails leaves everything that can be seen of it, and questions are answered as before. Only a plot
that fails may leave the baselines of the current context with the settings of the run, and the
interrupt flag cleared.

The requests are careful on sessions whose parts are sound, and `Reachable.sound` says that no other
session can be reached.
-/

namespace Aperture

open Relation (ReflTransGen)

variable {R β : Type}

/-! ## Sessions that can be reached -/

section

variable [Scalar R] [Trig R] [Fourier.Spectral R]

/-- What can be done to a context directly. -/
inductive Context.Step (c : Context R) : Context R → Prop
  | network {n : Network R} (h : c.network.Step n) : Step c { c with network := n }
  | plot (plan : Plan R) (refusal : Option Refusal) :
      Step c { c with network := (c.network.plotUnder plan refusal).1 }
  | store (name : String) (cube : Cube R) : Step c (c.storeModel name cube)
  | drop (name : String) : Step c (c.dropModel name)

theorem Context.Sound.step {name : String} {c c' : Context R} (hc : c.Sound name)
    (h : c.Step c') : c'.Sound name := by
  cases h with
  | network h => exact ⟨hc.name, hc.network.step h, hc.models⟩
  | plot plan refusal => exact ⟨hc.name, hc.network.plotUnder plan refusal, hc.models⟩
  | store model cube => exact hc.storeModel model cube
  | drop model => exact hc.dropModel model

theorem Context.Sound.steps {name : String} {c c' : Context R} (hc : c.Sound name)
    (h : ReflTransGen Step c c') : c'.Sound name := by
  induction h with
  | refl => exact hc
  | tail _ hstep ih => exact ih.step hstep

namespace Session

variable [Word R] [Legible R]

/-- What can be done to a session. -/
inductive Step (s : Session R) : Session R → Prop
  | handle (r : Request R) : Step s (s.handle r).1
  | registerCodec (codec : Codec R) : Step s (s.registerCodec codec)
  | setInterrupt (interrupt : Bool) : Step s { s with interrupt }
  /-- Work on a context, the current one or another. -/
  | edit (name : String) {c c' : Context R} (hc : s.registry.contexts.find? name = some c)
      (h : c.Step c') : Step s { s with registry := s.registry.modify name fun _ => c' }
  | createUsing (name : String) (setUp : Context R → Result (Context R)) {registry : Registry R}
      (hsetUp : ∀ c, setUp (.empty name) = .ok c → ReflTransGen Context.Step (.empty name) c)
      (h : s.registry.createUsing name setUp = .ok registry) : Step s { s with registry }
  | select (name : String) {registry : Registry R} (h : s.registry.select name = .ok registry) :
      Step s { s with registry }
  | destroy (name : String) : Step s { s with registry := s.registry.destroy name }

/-- A new session comes to `s`. -/
def Reachable (s : Session R) : Prop := ∃ workers, ReflTransGen Step (new workers) s

theorem Sound.handle {s : Session R} (hs : s.Sound) (r : Request R) : (s.handle r).1.Sound := by
  cases hr : r.plots with
  | false =>
    have hcareful : (serve r).Careful Sound (sight BaselineSet.locks) := careful_serve hr
    exact (hcareful s hs).keeps
  | true => exact (careful_serve_of_plots hr s hs).keeps

theorem Sound.step {s s' : Session R} (hs : s.Sound) (h : Step s s') : s'.Sound := by
  cases h with
  | handle r => exact hs.handle r
  | registerCodec codec => exact hs
  | setInterrupt interrupt => exact hs
  | edit name hc h => exact hs.modify ((hs.of_find? hc).step h)
  | createUsing name setUp hsetUp h =>
    exact hs.create (fun c hc => (Context.sound_empty name).steps (hsetUp c hc)) h
  | select name h => exact Registry.Sound.select hs h
  | destroy name => exact Registry.Sound.destroy hs name

theorem Reachable.sound {s : Session R} (hs : s.Reachable) : s.Sound := by
  obtain ⟨workers, h⟩ := hs
  induction h with
  | refl => exact Registry.sound_empty
  | tail _ hstep ih => exact ih.step hstep

end Session

end

/-! ## Questions -/

/-- Whether nothing but stations or models is asked for. -/
def Request.asks : Request R → Bool
  | .listStations | .listModels | .exportModel .. => true
  | _ => false

namespace Session

variable [Scalar R] [Trig R] [Fourier.Spectral R] [Word R] [Legible R]
variable {shown : View R → BaselineSet R → β} {s t : Session R}

theorem answer_congr {α : Type} {call : Call (Session R) α} {form : α → Answer R} {q : Request R}
    (hq : serve q = call >>= fun a => pure (form a)) (h : (call.on t).1 = (call.on s).1) :
    (t.handle q).2 = (s.handle q).2 := by
  show ((serve q).on t).1 = ((serve q).on s).1
  rw [hq]
  exact Call.answer_congr form h

/-- Questions are answered by what can be seen. -/
theorem answer_of_sight (hs : s.Sound) (ht : t.Sound)
    (hcontexts : (t.sight shown).contexts = (s.sight shown).contexts)
    (hselected : t.registry.selected = s.registry.selected) (hcodecs : t.codecs = s.codecs)
    {q : Request R} (hq : q.asks = true) : (t.handle q).2 = (s.handle q).2 := by
  have hask {γ : Type} {f : Context R → Result γ}
      (hf : ∀ name name' c c', c.Sound name → c'.Sound name' →
        c'.sight shown = c.sight shown → f c' = f c) :
      t.registry.requireCurrent >>= f = s.registry.requireCurrent >>= f :=
    ask_of_sight hs ht hcontexts hselected hf
  cases q with
  | listStations =>
    refine answer_congr rfl (hask fun _ _ c c' _ _ hsame => ?_)
    have hnetwork := congrArg Context.Sight.network hsame
    exact congrArg Except.ok (congrArg Network.Sight.stations hnetwork)
  | listModels =>
    refine answer_congr rfl (hask fun _ _ c c' _ _ hsame => ?_)
    have hmodels : c'.models.toList = c.models.toList := congrArg Context.Sight.models hsame
    rw [Roster.names, hmodels, Roster.names]
  | exportModel name format =>
    refine answer_congr rfl ?_
    have hcodec : t.codecs.get format = s.codecs.get format := by rw [hcodecs]
    rw [exportModel, Call.on_query, Call.on_query, hcodec]
    cases s.codecs.get format with
    | error e => rfl
    | ok codec =>
    refine hask fun _ _ c c' hc hc' hsame => ?_
    have hmodels : c'.models.toList = c.models.toList := congrArg Context.Sight.models hsame
    have hfound : c'.modelNamed name = c.modelNamed name := by
      rw [Context.modelNamed, Context.model?, hc'.models.find?_eq, hmodels, ← hc.models.find?_eq]
      rfl
    rw [hfound]
  | _ => cases hq

/-- So are questions about the baselines, if everything about them is seen. -/
theorem baselines_of_sight (hs : s.Sound) (ht : t.Sound)
    (h : t.sight BaselineSet.everything = s.sight BaselineSet.everything) :
    (t.handle .listBaselines).2 = (s.handle .listBaselines).2 := by
  have hlist (s : Session R) : ((baselines : Call (Session R) _).on s).1 =
      s.registry.requireCurrent >>= fun c =>
        .ok (c.network.settle.2.baselines.toList.map fun b =>
          b.summary c.network.settle.1.view) := by
    rw [baselines, onNetwork, on_onContext]
    cases s.registry.requireCurrent <;> rfl
  refine answer_congr rfl ?_
  rw [hlist, hlist]
  refine ask_of_sight hs ht (congrArg Sight.contexts h) (congrArg Sight.selected h)
    fun _ _ c c' _ _ hsame => ?_
  have hshown := congrArg (fun c => c.network.baselines) hsame
  obtain ⟨hview, hset⟩ := Prod.mk.inj hshown
  rw [hview, hset]

/-- A plot works on the current context alone. -/
theorem find?_of_plots {r : Request R} (hr : r.plots = true) (hs : s.Sound) {name : String}
    (hother : s.registry.selected ≠ some name) :
    (s.handle r).1.registry.contexts.find? name = s.registry.contexts.find? name := by
  have hcarried (model : String) (plan : Plan R) (refusal : Option Refusal) :
      ((carryOut model plan refusal).on s).2.registry.contexts.find? name =
        s.registry.contexts.find? name := by
    have hcleared : ({ s with interrupt := false } : Session R).Sound := hs
    exact find?_onContext (fun _ => Context.careful_plot model plan refusal) hcleared hother
  cases r with
  | plot model mode flag refusal =>
    show ((plot model mode flag refusal >>= fun o => pure (Answer.outcome o)).on
      s).2.registry.contexts.find? name = _
    rw [Call.left_answer, plot, Call.on_bind, plan, Call.on_query]
    split
    · next h => rw [← (Prod.mk.inj h).2]; exact hcarried model _ refusal
    · next h => rw [← (Prod.mk.inj h).2]
  | carryOut model plan refusal =>
    show ((carryOut model plan refusal >>= fun o => pure (Answer.outcome o)).on
      s).2.registry.contexts.find? name = _
    rw [Call.left_answer]
    exact hcarried model plan refusal
  | _ => cases hr

/-- **A request that fails changes nothing that can be seen,** whatever was done to the session
before.

* Unless a plot was asked for, all that can be seen is as before, and so is the list of baselines.
* After a plot that fails, all but the settings and the image of the baselines is as before, the
  interrupt flag apart, and nothing changed in any context but the current one.
* The questions about stations and models have the same answers as before. -/
theorem failed_request_changes_nothing (s : Session R) (hs : s.Reachable) (r : Request R)
    (e : Failure) (h : (s.handle r).2 = .error e) :
    let t := (s.handle r).1
    (r.plots = false → t.sight BaselineSet.everything = s.sight BaselineSet.everything ∧
      (t.handle .listBaselines).2 = (s.handle .listBaselines).2) ∧
    (r.plots = true → t.sightOfLocks = s.sightOfLocks ∧
      ∀ name, s.registry.selected ≠ some name →
        t.registry.contexts.find? name = s.registry.contexts.find? name) ∧
    ∀ q : Request R, q.asks = true → (t.handle q).2 = (s.handle q).2 := by
  intro t
  have hsound := hs.sound
  have ht : t.Sound := hsound.handle r
  have hlocks : t.sightOfLocks = s.sightOfLocks := by
    cases hr : r.plots with
    | false =>
      have hcareful : (serve r).Careful Sound (sight BaselineSet.locks) := careful_serve hr
      exact congrArg (fun view => { view with interrupt := false }) ((hcareful s hsound).unseen e h)
    | true => exact (careful_serve_of_plots hr s hsound).unseen e h
  refine ⟨fun hr => ?_, fun hr => ⟨hlocks, fun name => find?_of_plots hr hsound⟩, fun q hq => ?_⟩
  · have hcareful : (serve r).Careful Sound (sight BaselineSet.everything) := careful_serve hr
    have hsame := (hcareful s hsound).unseen e h
    exact ⟨hsame, baselines_of_sight hsound ht hsame⟩
  · have hcontexts : (t.sight BaselineSet.locks).contexts = (s.sight BaselineSet.locks).contexts :=
      (congrArg Sight.contexts hlocks :)
    exact answer_of_sight hsound ht hcontexts (congrArg Sight.selected hlocks)
      (congrArg Sight.codecs hlocks) hq

/-- The payload of one sample. -/
def tick : Bytes := Raw.encode (Cube.ofSamples #[(Scalar.one : Binary64)])

/-- A session with two stations in one context, whose baselines are not formed yet. -/
def coupled : Session Binary64 :=
  let s := ((new 4 : Session Binary64).handle (.addContext "sky")).1
  let s := (s.handle (.addEncoded "a" "raw" tick)).1
  (s.handle (.addEncoded "b" "raw" tick)).1

theorem reachable_coupled : coupled.Reachable :=
  ⟨4, ((ReflTransGen.refl.tail (.handle _)).tail (.handle _)).tail (.handle _)⟩

/-- A baseline that cannot be locked is missed after the baselines were formed; a plot whose first
thread is refused leaves them with its settings. -/
theorem failed_request_changes_nothing_coupled :
    let lock : Request Binary64 := .lockBaseline "b_c" "raw" tick
    let plot : Request Binary64 := .carryOut "uv" .default (some ⟨0, "no thread"⟩)
    let formed := fun s : Session Binary64 =>
      s.registry.current?.map fun c => c.network.baselines.isSome
    coupled.Reachable ∧ formed coupled = some false ∧
    (coupled.handle lock).2 = fail (.baselineNotFound "b_c") ∧
    formed (coupled.handle lock).1 = some true ∧
    (coupled.handle lock).1.sight BaselineSet.everything = coupled.sight BaselineSet.everything ∧
    ((coupled.handle lock).1.handle .listBaselines).2 = (coupled.handle .listBaselines).2 ∧
    (coupled.handle plot).2 = fail (.workerSpawn "a_b: no thread") ∧
    formed (coupled.handle plot).1 = some true ∧
    (coupled.handle plot).1.sightOfLocks = coupled.sightOfLocks ∧
    ((coupled.handle plot).1.handle .listModels).2 = (coupled.handle .listModels).2 := by
  intro lock plot formed
  have hlock : (coupled.handle lock).2 = fail (.baselineNotFound "b_c") := by rfl
  have hplot : (coupled.handle plot).2 = fail (.workerSpawn "a_b: no thread") := by rfl
  obtain ⟨hsame, -, -⟩ := failed_request_changes_nothing coupled reachable_coupled lock _ hlock
  obtain ⟨-, hlocks, hask⟩ := failed_request_changes_nothing coupled reachable_coupled plot _ hplot
  exact ⟨reachable_coupled, by rfl, hlock, by rfl, (hsame rfl).1, (hsame rfl).2, hplot, by rfl,
    (hlocks rfl).1, hask .listModels rfl⟩

end Session

end Aperture
