import Aperture.Proofs.Network.Names
import Aperture.Proofs.Session.Contexts
import Aperture.Proofs.Session.Effects

/-!
# The names of stations

A station that is added under no name gets one, but a copy is put on the roster under whatever name
it is asked for, the empty one included.

**Theorem (`unnamed_only_by_copying`).** All stations of a session have names as long as no copy is
made under the empty name. A request that is answered then leaves a station without a name exactly
if it asks for such a copy.

`copied_under_empty_name` is a session with a nameless station.
-/

namespace Aperture

open Relation (ReflTransGen)

variable {R : Type}

/-- The name that a copy is to be put on the roster under, filtered or not. -/
def Request.copiesTo : Request R → Option String
  | .copyStation _ target | .filterStation _ target _ => some target
  | _ => none

namespace Context

variable [Scalar R] [Trig R] [Fourier.Spectral R] {c c' : Context R}

/-- A step of a context that makes no copy under the empty name. -/
def NamingStep (c c' : Context R) : Prop := c.Step c' ∧ ¬c.network.CopiesUnnamed c'.network

theorem allNamed_step (hc : c.network.UpToDate) (hnamed : c.network.AllNamed)
    (h : c.NamingStep c') : c'.network.AllNamed := by
  obtain ⟨hstep, hcopies⟩ := h
  cases hstep with
  | network h => exact (h.allNamed_iff hc hnamed).2 hcopies
  | plot plan refusal => exact hnamed.of_names (c.network.names_plotUnder plan refusal)
  | store model cube =>
    have hnetwork : (c.storeModel model cube).network = c.network :=
      congrArg Prod.snd (c.rest_storeModel model cube)
    rwa [hnetwork]
  | drop model => exact hnamed

theorem allNamed_steps {name : String} (hc : c.Sound name) (hnamed : c.network.AllNamed)
    (h : ReflTransGen NamingStep c c') : c'.network.AllNamed := by
  have hrun : c'.Sound name ∧ c'.network.AllNamed := by
    induction h with
    | refl => exact ⟨hc, hnamed⟩
    | tail _ hstep ih => exact ⟨ih.1.step hstep.1, allNamed_step ih.1.network ih.2 hstep⟩
  exact hrun.2

end Context

namespace Session

/-- All stations of all contexts have names. -/
def AllNamed (s : Session R) : Prop := ∀ c ∈ s.registry.contexts.toList, c.network.AllNamed

variable [Scalar R] [Trig R] [Fourier.Spectral R] {s t : Session R}

/-! ## Effects on the names -/

namespace Effect

variable {n n' : Network R} {r : Request R} {answered : Bool}

theorem names_of_adds (h : s.Effect r n answered n') (hn : n.UpToDate) {name : String}
    (hr : r.adds = some name) (hanswered : answered = true) :
    ∃ given, n.Gives name given ∧ n'.stations.names = n.stations.names ++ [given] := by
  cases h with
  | add hadds h =>
    obtain rfl := Option.some.inj (hadds.symm.trans hr)
    exact ⟨_, hn.names_add h⟩
  | spared hspared => cases r <;> cases hspared <;> cases hr
  | plot hplots => cases r <;> cases hplots <;> cases hr
  | refused _ => cases hanswered
  | _ => cases hr

theorem names_of_copies (h : s.Effect r n answered n') {target : String}
    (hr : r.copiesTo = some target) (hanswered : answered = true) :
    n'.stations.names = n.stations.names ++ [target] := by
  cases h with
  | copy h =>
    obtain rfl := Option.some.inj hr
    exact Network.names_copy h
  | filter h =>
    obtain rfl := Option.some.inj hr
    exact Network.names_filter h
  | add hadds h => cases r <;> cases hadds <;> cases hr
  | spared hspared => cases r <;> cases hspared <;> cases hr
  | plot hplots => cases r <;> cases hplots <;> cases hr
  | refused _ => cases hanswered
  | _ => cases hr

/-- **What an effect of a request does to the names:** only a copy leaves an empty one. -/
theorem allNamed_iff (h : s.Effect r n answered n') (hn : n.UpToDate) (hnamed : n.AllNamed) :
    n'.AllNamed ↔ ¬(r.copiesTo = some "" ∧ answered = true) := by
  constructor
  · rintro hall ⟨hr, hanswered⟩
    exact Network.not_allNamed_of_append (h.names_of_copies hr hanswered) hall
  · intro hcopies
    cases h with
    | spared _ => exact hnamed
    | refused _ => exact hnamed
    | setOrder order => exact hnamed
    | setReference h => exact hnamed.of_names (Network.names_setReference h)
    | setRelative relative => exact hnamed
    | add _ h =>
      obtain ⟨hgives, hnames⟩ := hn.names_add h
      exact hnamed.of_append hgives.ne_empty hnames
    | remove name => exact hn.allNamed_remove hnamed name
    | copy h =>
      refine hnamed.of_append ?_ (Network.names_copy h)
      rintro rfl
      exact hcopies ⟨rfl, rfl⟩
    | filter h =>
      refine hnamed.of_append ?_ (Network.names_filter h)
      rintro rfl
      exact hcopies ⟨rfl, rfl⟩
    | list => exact hnamed.of_names n.names_settle
    | @lock name _ _ stream _ => exact hnamed.of_names (n.names_lock name stream)
    | unlock name => exact hnamed.of_names n.names_settle
    | plot _ plan refusal => exact hnamed.of_names (n.names_plotUnder plan refusal)

end Effect

/-! ## Requests -/

section

omit [Trig R] [Fourier.Spectral R]

/-- A context is as before, or it is the current one. -/
theorem context_of_beside (hs : s.Sound) (ht : t.Sound) (h : t.registry.Beside s.registry)
    {c : Context R} (hc : c ∈ t.registry.contexts.toList) :
    c ∈ s.registry.contexts.toList ∨ t.network? = some c.network := by
  have hfound : t.registry.contexts.find? c.name = some c :=
    ht.indexed.find?_eq_some_iff.2 ⟨hc, rfl⟩
  by_cases hselected : s.registry.selected = some c.name
  · refine .inr ?_
    rw [network?, Registry.current?, h.selected, hselected, Option.bind_some, hfound,
      Option.map_some]
  · rw [h.others hselected] at hfound
    exact .inl (hs.indexed.find?_eq_some_iff.1 hfound).1

/-- The network of the current context is the one to look at after work there. -/
theorem allNamed_iff_of_beside (hs : s.Sound) (ht : t.Sound) (h : t.registry.Beside s.registry)
    (hnamed : s.AllNamed) :
    t.AllNamed ↔ ∀ n, t.network? = some n → n.AllNamed := by
  constructor
  · intro hall n hn
    obtain ⟨c, hc, rfl⟩ := Option.map_eq_some_iff.1 hn
    obtain ⟨name, -, hfound⟩ := Option.bind_eq_some_iff.1 hc
    exact hall c (ht.indexed.find?_eq_some_iff.1 hfound).1
  · intro hcurrent c hc
    rcases context_of_beside hs ht h hc with hold | hnow
    · exact hnamed c hold
    · exact hcurrent _ hnow

theorem allNamed_destroy (hs : s.Sound) (hnamed : s.AllNamed) (name : String) :
    ({ s with registry := s.registry.destroy name } : Session R).AllNamed := by
  intro c hc
  have hleft : c ∈ (s.registry.destroy name).contexts.toList := hc
  rw [Registry.toList_destroy hs.indexed] at hleft
  exact hnamed c (List.mem_of_mem_filter hleft)

theorem selected_of_network?_eq_none (hs : s.registry.Standing) (h : s.network? = none) :
    s.registry.selected = none := by
  refine hs.selected_eq_none (e := .error (.contextNotFound "<none selected>")) ?_
  rw [Registry.requireCurrent, Option.map_eq_none_iff.1 h]
  rfl

end

variable [Word R] [Legible R]

/-- Nothing is copied without a current context. -/
theorem not_answered_of_copies {r : Request R} {target : String} (hr : r.copiesTo = some target)
    (h : s.network? = none) : (s.handle r).2.isOk = false := by
  have hrequired : s.registry.requireCurrent = fail (.contextNotFound "<none selected>") := by
    rw [Registry.requireCurrent, Option.map_eq_none_iff.1 h]
  have hfails (call : Call (Network R) String) :
      ((onNetwork call >>= fun name => pure (Answer.name name : Answer R)).on s).1 =
        fail (.contextNotFound "<none selected>") := by
    rw [Call.on_bind, onNetwork, on_onContext, hrequired]
    rfl
  have hanswer : (s.handle r).2 = fail (.contextNotFound "<none selected>") := by
    cases r with
    | copyStation source target => exact hfails (Network.copy source target)
    | filterStation source target filter => exact hfails (Network.filter source target filter)
    | _ => cases hr
  rw [hanswer]
  rfl

/-- A context that is added has no stations. -/
theorem allNamed_of_manages (hs : s.Sound) (hnamed : s.AllNamed) {r : Request R}
    (hr : r.managesContexts = true) : (s.handle r).1.AllNamed := by
  cases r with
  | addContext name =>
    rw [handle_of_done rfl]
    by_cases hname : name ∈ s.registry.contexts.names
    · rw [on_addContext_of_mem hs hname]
      exact hnamed
    · rw [on_addContext_of_notMem hs hname]
      intro c hc
      rw [Roster.toList_push, List.mem_append, List.mem_singleton] at hc
      rcases hc with hold | rfl
      · exact hnamed c hold
      · exact List.not_mem_nil
  | selectContext name =>
    rw [handle_of_done rfl, on_selectContext hs]
    split <;> exact hnamed
  | deleteContext name => exact allNamed_destroy hs hnamed name
  | _ => cases hr

/-- **What a request does to the names,** in a session whose stations have names. -/
theorem allNamed_handle_iff (hs : s.registry.Standing) (hnamed : s.AllNamed) (r : Request R) :
    (s.handle r).1.AllNamed ↔ ¬(r.copiesTo = some "" ∧ (s.handle r).2.isOk = true) := by
  have hsound : s.Sound := hs.sound
  cases hr : r.managesContexts with
  | true =>
    refine iff_of_true (allNamed_of_manages hsound hnamed hr) fun ⟨hcopies, _⟩ => ?_
    cases r <;> cases hr <;> cases hcopies
  | false =>
    have hbeside := (local_serve hr).beside hs
    rw [allNamed_iff_of_beside hsound (hsound.handle r) hbeside hnamed]
    cases hnetwork : s.network? with
    | none =>
      have hselected : (s.handle r).1.registry.selected = none :=
        hbeside.selected.trans (selected_of_network?_eq_none hs hnetwork)
      refine iff_of_true (fun n hn => ?_) fun ⟨hcopies, hanswered⟩ => ?_
      · rw [network?, Registry.current?, hselected] at hn
        cases hn
      · rw [not_answered_of_copies hcopies hnetwork] at hanswered
        cases hanswered
    | some n =>
      obtain ⟨n', hn', heffect⟩ := effect_serve hsound hr n hnetwork
      have hcurrent : n.AllNamed :=
        (allNamed_iff_of_beside hsound hsound (.refl _) hnamed).1 hnamed n hnetwork
      refine Iff.trans ?_ (heffect.allNamed_iff (hsound.upToDate hnetwork) hcurrent)
      exact ⟨fun h => h n' hn', fun h m hm => Option.some.inj (hn'.symm.trans hm) ▸ h⟩

/-! ## Runs -/

/-- A step of a session that makes no copy under the empty name. -/
inductive NamingStep (s : Session R) : Session R → Prop
  | handle (r : Request R) (hr : ¬(r.copiesTo = some "" ∧ (s.handle r).2.isOk = true)) :
      NamingStep s (s.handle r).1
  | registerCodec (codec : Codec R) : NamingStep s (s.registerCodec codec)
  | setInterrupt (interrupt : Bool) : NamingStep s { s with interrupt }
  | edit (name : String) {c c' : Context R} (hc : s.registry.contexts.find? name = some c)
      (h : c.NamingStep c') :
      NamingStep s { s with registry := s.registry.modify name fun _ => c' }
  | createUsing (name : String) (setUp : Context R → Result (Context R)) {registry : Registry R}
      (hsetUp : ∀ c, setUp (.empty name) = .ok c →
        ReflTransGen Context.NamingStep (.empty name) c)
      (h : s.registry.createUsing name setUp = .ok registry) : NamingStep s { s with registry }
  | select (name : String) {registry : Registry R} (h : s.registry.select name = .ok registry) :
      NamingStep s { s with registry }
  | destroy (name : String) : NamingStep s { s with registry := s.registry.destroy name }

theorem NamingStep.step (h : s.NamingStep t) : s.Step t := by
  cases h with
  | handle r _ => exact .handle r
  | registerCodec codec => exact .registerCodec codec
  | setInterrupt interrupt => exact .setInterrupt interrupt
  | edit name hc h => exact .edit name hc h.1
  | createUsing name setUp hsetUp h =>
    exact .createUsing name setUp (fun c hc => (hsetUp c hc).lift id fun _ _ h => h.1) h
  | select name h => exact .select name h
  | destroy name => exact .destroy name

/-- **A step without a copy under the empty name keeps the names.** -/
theorem allNamed_step (hs : s.registry.Standing) (hnamed : s.AllNamed) (h : s.NamingStep t) :
    t.AllNamed := by
  have hsound : s.Sound := hs.sound
  cases h with
  | handle r hr => exact (allNamed_handle_iff hs hnamed r).2 hr
  | registerCodec codec => exact hnamed
  | setInterrupt interrupt => exact hnamed
  | edit name hc h =>
    have hold := hnamed _ (hsound.indexed.find?_eq_some_iff.1 hc).1
    have hedited := Context.allNamed_step (hsound.of_find? hc).network hold h
    intro d hd
    have hlisted : d ∈ (s.registry.contexts.modify name fun _ => _).toList := hd
    rw [hsound.indexed.modify_eq_map, Roster.toList_map] at hlisted
    obtain ⟨e, he, rfl⟩ := List.mem_map.1 hlisted
    split
    · exact hedited
    · exact hnamed e he
  | createUsing name setUp hsetUp h =>
    obtain ⟨c, contexts, hc, hadd, rfl⟩ := Registry.createUsing_eq_ok h
    have hmade := Context.allNamed_steps (Context.sound_empty name) List.not_mem_nil (hsetUp c hc)
    intro d hd
    have hlisted : d ∈ contexts.toList := hd
    rw [Roster.toList_add hadd, List.mem_append, List.mem_singleton] at hlisted
    rcases hlisted with hold | rfl
    · exact hnamed d hold
    · exact hmade
  | select name h =>
    unfold Registry.select at h
    split at h
    · obtain rfl := Except.ok.inj h
      exact hnamed
    · cases h
  | destroy name => exact allNamed_destroy hsound hnamed name

/-- **Without copies under the empty name all stations have names,** over runs of any length. -/
theorem allNamed_of_run (hs : s.registry.Standing) (hnamed : s.AllNamed)
    (h : ReflTransGen NamingStep s t) : t.registry.Standing ∧ t.AllNamed := by
  induction h with
  | refl => exact ⟨hs, hnamed⟩
  | tail _ hstep ih =>
    obtain ⟨hmid, hnamed⟩ := ih
    exact ⟨standing_step hmid hstep.step, allNamed_step hmid hnamed hstep⟩

/-- **Only copies are nameless.** In every session that can be reached:

* If no copy was made under the empty name since the session was new, by a request or on a context
  directly, then all stations of all contexts have names.
* If all stations have names, a request leaves one without exactly if it asks for a copy under the
  empty name, filtered or not, and is answered.
* A recording that is added under no name, raw, encoded or from a file, gets the first lettered name
  that is free; under a name it gets that name. A copy gets the name that it is asked for, whatever
  it is. The station goes behind the others. -/
theorem unnamed_only_by_copying (s : Session R) (hs : s.Reachable) :
    (∀ workers, ReflTransGen NamingStep (new workers) s → s.AllNamed) ∧
    (s.AllNamed → ∀ r : Request R,
      (s.handle r).1.AllNamed ↔ ¬(r.copiesTo = some "" ∧ (s.handle r).2.isOk = true)) ∧
    ∀ (r : Request R) (n : Network R), r.managesContexts = false → s.network? = some n →
      (s.handle r).2.isOk = true → ∃ n', (s.handle r).1.network? = some n' ∧
        (∀ name, r.adds = some name →
          ∃ given, n.Gives name given ∧ n'.stations.names = n.stations.names ++ [given]) ∧
        ∀ target, r.copiesTo = some target →
          n'.stations.names = n.stations.names ++ [target] := by
  have hstanding := hs.standing
  refine ⟨fun workers hrun => ?_, fun hnamed => allNamed_handle_iff hstanding hnamed, ?_⟩
  · have hnew : (new workers : Session R).AllNamed := fun c hc => absurd hc List.not_mem_nil
    exact (allNamed_of_run Registry.standing_empty hnew hrun).2
  · intro r n hr hn hanswered
    obtain ⟨n', hn', heffect⟩ := effect_serve hs.sound hr n hn
    exact ⟨n', hn', fun name hadds => heffect.names_of_adds (hs.sound.upToDate hn) hadds hanswered,
      fun target hcopies => heffect.names_of_copies hcopies hanswered⟩

/-- A session with one station, which was added under no name. -/
def single : Session Binary64 :=
  (((new 4 : Session Binary64).handle (.addContext "sky")).1.handle
    (.addEncoded "" "raw" tick)).1

theorem unnamed_only_by_copying_single :
    single.Reachable ∧ ReflTransGen NamingStep (new 4) single ∧ single.AllNamed ∧
    (single.handle (.copyStation "A0" "B")).1.AllNamed ∧
    ¬(single.handle (.copyStation "A0" "")).1.AllNamed ∧
    ∃ n n', single.network? = some n ∧ n.stations.names = ["A0"] ∧
      (single.handle (.addEncoded "" "raw" tick)).1.network? = some n' ∧
      n'.stations.names = ["A0", "B0"] := by
  have hrun : ReflTransGen NamingStep (new 4) single :=
    (ReflTransGen.single (.handle _ fun h => nomatch h.1)).tail (.handle _ fun h => nomatch h.1)
  have hreachable : single.Reachable := ⟨4, hrun.lift id fun _ _ h => h.step⟩
  obtain ⟨hnames, hrequest, hgiven⟩ := unnamed_only_by_copying single hreachable
  have hnamed := hnames 4 hrun
  have hcopied : (single.handle (.copyStation "A0" "")).2.isOk = true := by rfl
  have hadded : (single.handle (.addEncoded "" "raw" tick)).2.isOk = true := by rfl
  obtain ⟨n, hn, hroster, hcreated⟩ :
      ∃ n, single.network? = some n ∧ n.stations.names = ["A0"] ∧ n.created = 1 :=
    ⟨_, rfl, rfl, rfl⟩
  have hfirst : n.FirstFree "B0" :=
    ⟨0, by decide, by rw [hcreated]; decide +kernel, by rw [hroster]; decide, nofun⟩
  obtain ⟨n', hn', hadds, -⟩ := hgiven (.addEncoded "" "raw" tick) n rfl hn hadded
  obtain ⟨given, hgives, hgrown⟩ := hadds "" rfl
  have hup : n.UpToDate := Sound.upToDate hreachable.sound hn
  obtain rfl : given = "B0" := hup.firstFree_unique hgives hfirst
  refine ⟨hreachable, hrun, hnamed, (hrequest hnamed _).2 (by simp [Request.copiesTo]),
    fun h => (hrequest hnamed _).1 h ⟨rfl, hcopied⟩, n, n', hn, hroster, hn', ?_⟩
  rw [hgrown, hroster]
  rfl

/-- A copy under the empty name is answered, and leaves a station without a name. -/
theorem copied_under_empty_name :
    let nameless := (single.handle (.copyStation "A0" "")).1
    nameless.Reachable ∧ (single.handle (.copyStation "A0" "")).2 = .ok (.name "") ∧
    (∃ n, nameless.network? = some n ∧ n.stations.names = ["A0", ""]) ∧ ¬nameless.AllNamed := by
  intro nameless
  have hreachable : nameless.Reachable :=
    ⟨4, ((ReflTransGen.refl.tail (.handle _)).tail (.handle _)).tail (.handle _)⟩
  obtain ⟨n, hn, hnames⟩ : ∃ n, nameless.network? = some n ∧ n.stations.names = ["A0", ""] :=
    ⟨_, rfl, rfl⟩
  refine ⟨hreachable, by rfl, ⟨n, hn, hnames⟩, fun hall => ?_⟩
  have hnamed :=
    (allNamed_iff_of_beside hreachable.sound hreachable.sound (.refl _) hall).1 hall n hn
  rw [Network.AllNamed, hnames] at hnamed
  exact hnamed (by decide)

end Session

end Aperture
