import Aperture.Proofs.Network.Reachable
import Aperture.Proofs.Call
import Aperture.Session.Basic

/-!
# What can be seen of a session

A **sight** collects what a front end can find out: the contexts with their stations, settings and
models, the selection and the settings of the session. What is seen of the baselines is a
parameter: all of it (`everything`), or the groups and their locks only (`locks`).

The baselines in a sight are those that are used next, so it does not matter whether they are formed
already (`sight_settle`).

The invariant (`Registry.Sound`): the contexts are found by name and their networks are up to date.
Calls on a part of a session that are careful are careful on the session (`Careful.onContext`,
`Careful.onNetwork`).
-/

namespace Aperture

variable {R β : Type}

/-! ## Networks -/

/-- What can be seen of a network. -/
structure Network.Sight (R β : Type) where
  stations : List (Station R)
  reference : Location R
  frame : Frame
  order : Nat
  requestedOrder : Nat
  created : Nat
  baselines : β

/-- All that baselines are, with the stations they look at. -/
def BaselineSet.everything (view : View R) (set : BaselineSet R) : View R × BaselineSet R :=
  (view, set)

/-- Names, stations and locks of the baselines. -/
def BaselineSet.locks (view : View R) (set : BaselineSet R) :
    List (String × List (Station R) × Option (Cube R)) :=
  set.baselines.toList.map fun b => (b.name, b.stations view, b.locked)

namespace Network

variable [Scalar R]

/-- What can be seen of a network, with what is `shown` of its baselines. -/
def sight (shown : View R → BaselineSet R → β) (n : Network R) : Sight R β where
  stations := n.stations.toList
  reference := n.reference
  frame := n.frame
  order := n.order
  requestedOrder := n.requestedOrder
  created := n.created
  baselines := shown n.settle.1.view n.settle.2

theorem settle_of_some {n : Network R} {set : BaselineSet R} (h : n.baselines = some set) :
    n.settle = (n, set) := by
  simp only [settle, h]

theorem settle_settle (n : Network R) : n.settle.1.settle = n.settle :=
  settle_of_some n.settle_baselines

theorem toList_settle (n : Network R) : n.settle.1.stations.toList = n.stations.toList := by
  unfold settle
  split
  · rfl
  · exact Roster.toList_compact _

/-- Forming the baselines moves stations to other slots and changes nothing else. -/
theorem settle_fst (n : Network R) :
    n.settle.1 = { n with stations := n.settle.1.stations, baselines := some n.settle.2 } := by
  unfold settle
  split
  · next h => rw [← h]
  · rfl

/-- Of what becomes of the baselines once they are formed, only what is shown of them is seen. -/
theorem sight_keep {n : Network R} (hn : n.UpToDate) {shown : View R → BaselineSet R → β}
    {set : BaselineSet R} (h : shown n.settle.1.view set = shown n.settle.1.view n.settle.2) :
    ({ n.settle.1 with baselines := some set } : Network R).sight shown = n.sight shown := by
  have hsettle : ({ n.settle.1 with baselines := some set } : Network R).settle =
      ({ n.settle.1 with baselines := some set }, set) := settle_of_some rfl
  rw [sight, hsettle, sight, Sight.mk.injEq]
  refine ⟨n.toList_settle, ?_, ?_, hn.order_settle, ?_, ?_, h⟩ <;> rw [settle_fst]

/-- Forming the baselines cannot be seen. -/
theorem sight_settle {n : Network R} (hn : n.UpToDate) (shown : View R → BaselineSet R → β) :
    n.settle.1.sight shown = n.sight shown := by
  have hkeep : ({ n.settle.1 with baselines := some n.settle.2 } : Network R).sight shown =
      n.sight shown := sight_keep hn rfl
  rwa [← n.settle_baselines] at hkeep

end Network

/-! ## Contexts -/

/-- What can be seen of a context. -/
structure Context.Sight (R β : Type) where
  name : String
  network : Network.Sight R β
  models : List (Model R)

namespace Context

variable [Scalar R]

def sight (shown : View R → BaselineSet R → β) (c : Context R) : Sight R β :=
  ⟨c.name, c.network.sight shown, c.models.toList⟩

/-- The context has its name, its models are found by name and the baselines of its network are not
stale. -/
structure Sound (name : String) (c : Context R) : Prop where
  name : c.name = name
  network : c.network.UpToDate
  models : c.models.Indexed

theorem sound_empty (name : String) : (empty name : Context R).Sound name :=
  ⟨rfl, Network.upToDate_of_none Roster.indexed_empty rfl, Roster.indexed_empty⟩

theorem Sound.dropModel {name : String} {c : Context R} (hc : c.Sound name) (model : String) :
    (c.dropModel model).Sound name :=
  ⟨hc.name, hc.network, (hc.models.erase model).compact⟩

theorem Sound.storeModel {name : String} {c : Context R} (hc : c.Sound name) (model : String)
    (cube : Cube R) : (c.storeModel model cube).Sound name := by
  have hfreed := hc.dropModel model
  simp only [Context.storeModel]
  split
  · next h => exact ⟨hfreed.name, hfreed.network, hfreed.models.add h⟩
  · exact hfreed

end Context

/-! ## Registries -/

namespace Registry

variable [Scalar R]

/-- The contexts are found by name, and nothing is wrong with any of them. -/
structure Sound (r : Registry R) : Prop where
  indexed : r.contexts.Indexed
  contexts : ∀ c ∈ r.contexts.toList, c.Sound c.name

theorem sound_empty : ({} : Registry R).Sound := ⟨Roster.indexed_empty, by simp⟩

omit [Scalar R] in
theorem requireCurrent_eq_ok {r : Registry R} {c : Context R} (h : r.requireCurrent = .ok c) :
    ∃ name, r.selected = some name ∧ r.contexts.find? name = some c := by
  unfold requireCurrent current? at h
  split at h
  · next hfound =>
    obtain rfl := Except.ok.inj h
    exact Option.bind_eq_some_iff.1 hfound
  · cases h

theorem Sound.of_find? {r : Registry R} (hr : r.Sound) {name : String} {c : Context R}
    (hc : r.contexts.find? name = some c) : c.Sound name := by
  obtain ⟨hmem, rfl⟩ := hr.indexed.find?_eq_some_iff.1 hc
  exact hr.contexts c hmem

/-- A context that is changed in place. -/
theorem Sound.modify {r : Registry R} (hr : r.Sound) {name : String} {c : Context R}
    (hc : c.Sound name) : (r.modify name fun _ => c).Sound := by
  refine ⟨hr.indexed.modify fun _ _ _ => hc.name, fun d hd => ?_⟩
  rw [Registry.modify, hr.indexed.modify_eq_map, Roster.toList_map, List.mem_map] at hd
  obtain ⟨b, hb, rfl⟩ := hd
  split
  · exact hc.name ▸ hc
  · exact hr.contexts b hb

theorem createUsing_eq_ok {r r' : Registry R} {name : String}
    {setUp : Context R → Result (Context R)} (h : r.createUsing name setUp = .ok r') :
    ∃ c contexts, setUp (.empty name) = .ok c ∧ r.contexts.add c = .ok contexts ∧
      r' = { r with contexts } := by
  unfold createUsing at h
  split at h
  · cases h
  · obtain ⟨c, hc, h⟩ := bind_eq_ok_iff.1 h
    obtain ⟨contexts, hadd, h⟩ := bind_eq_ok_iff.1 h
    exact ⟨c, contexts, hc, hadd, (Except.ok.inj h).symm⟩

theorem Sound.create {r r' : Registry R} (hr : r.Sound) {name : String}
    {setUp : Context R → Result (Context R)}
    (hset : ∀ c, setUp (.empty name) = .ok c → c.Sound name)
    (h : r.createUsing name setUp = .ok r') : r'.Sound := by
  obtain ⟨c, contexts, hc, hadd, rfl⟩ := createUsing_eq_ok h
  refine ⟨hr.indexed.add hadd, fun d hd => ?_⟩
  rw [Roster.toList_add hadd, List.mem_append, List.mem_singleton] at hd
  rcases hd with hd | rfl
  · exact hr.contexts d hd
  · exact (hset d hc).name ▸ hset d hc

theorem Sound.select {r r' : Registry R} (hr : r.Sound) {name : String}
    (h : r.select name = .ok r') : r'.Sound := by
  unfold Registry.select at h
  split at h
  · obtain rfl := Except.ok.inj h
    exact ⟨hr.indexed, hr.contexts⟩
  · cases h

theorem Sound.destroy {r : Registry R} (hr : r.Sound) (name : String) : (r.destroy name).Sound := by
  unfold Registry.destroy
  split
  · refine ⟨(hr.indexed.erase name).compact, fun c hc => hr.contexts c ?_⟩
    rw [Roster.toList_compact, hr.indexed.toList_erase] at hc
    exact (List.mem_filter.1 hc).1
  · exact hr

end Registry

/-! ## Sessions -/

/-- What can be seen of a session. -/
structure Session.Sight (R β : Type) where
  contexts : List (Context.Sight R β)
  selected : Option String
  codecs : Codecs R
  workers : Nat
  target : Target R
  frequency : R
  rate : R
  width : Nat
  height : Nat
  bits : Int
  interrupt : Bool

namespace Session

variable [Scalar R]

/-- What can be seen of a session, with what is `shown` of all baselines. -/
def sight (shown : View R → BaselineSet R → β) (s : Session R) : Sight R β where
  contexts := s.registry.contexts.toList.map (Context.sight shown)
  selected := s.registry.selected
  codecs := s.codecs
  workers := s.workers
  target := s.target
  frequency := s.frequency
  rate := s.rate
  width := s.width
  height := s.height
  bits := s.bits
  interrupt := s.interrupt

/-- What holds of every session that can be reached. -/
def Sound (s : Session R) : Prop := s.registry.Sound

/-- A context that shows the same in the place of the current one. -/
theorem sight_modify {shown : View R → BaselineSet R → β} {s : Session R} (hs : s.Sound)
    {name : String} {c c' : Context R} (hc : s.registry.contexts.find? name = some c)
    (h : c'.sight shown = c.sight shown) :
    ({ s with registry := s.registry.modify name fun _ => c' } : Session R).sight shown =
      s.sight shown := by
  have hcontexts : (s.registry.modify name fun _ => c').contexts.toList.map (Context.sight shown) =
      s.registry.contexts.toList.map (Context.sight shown) := by
    rw [Registry.modify, hs.indexed.modify_eq_map, Roster.toList_map, List.map_map]
    refine List.map_congr_left fun d hd => ?_
    by_cases hname : Named.name d = name
    · have hsame := (hs.indexed.find?_eq_some_iff.2 ⟨hd, hname⟩).symm.trans hc
      rw [Function.comp_apply, if_pos hname, h, Option.some.inj hsame]
    · rw [Function.comp_apply, if_neg hname]
  simp only [sight, hcontexts]
  rfl

omit [Scalar R] in
/-- What a call on the current context comes to. -/
theorem on_onContext {α : Type} (call : Call (Context R) α) (s : Session R) :
    (onContext call).on s =
      match s.registry.requireCurrent with
      | .error e => (.error e, s)
      | .ok c =>
        ((call.on c).1, { s with registry := s.registry.putCurrent (call.on c).2 }) := by
  rw [onContext, Call.on_bind, Call.on_query]
  cases s.registry.requireCurrent <;> rfl

/-- A call on the current context leaves the others alone. -/
theorem find?_onContext {α : Type} {shown : View R → BaselineSet R → β}
    {call : Call (Context R) α}
    (h : ∀ name, call.Careful (Context.Sound name) (Context.sight shown)) {s : Session R}
    (hs : s.Sound) {name : String} (hother : s.registry.selected ≠ some name) :
    ((onContext call).on s).2.registry.contexts.find? name =
      s.registry.contexts.find? name := by
  rw [on_onContext]
  cases hcurrent : s.registry.requireCurrent with
  | error e => rfl
  | ok c =>
    obtain ⟨selected, hselected, hc⟩ := Registry.requireCurrent_eq_ok hcurrent
    have hleft := h selected c (hs.of_find? hc)
    have hne : name ≠ selected := by
      rintro rfl
      exact hother hselected
    simp only [Registry.putCurrent, hselected]
    exact hs.indexed.find?_modify_of_ne (fun _ _ => hleft.keeps.name) hne

/-- A careful call on the contexts is careful on the session. -/
theorem careful_onContext {α : Type} {shown : View R → BaselineSet R → β}
    {call : Call (Context R) α}
    (h : ∀ name, call.Careful (Context.Sound name) (Context.sight shown)) :
    (onContext call).Careful Sound (sight shown) := by
  intro s hs
  rw [on_onContext]
  cases hcurrent : s.registry.requireCurrent with
  | error e => exact .unchanged hs
  | ok c =>
    obtain ⟨name, hselected, hc⟩ := Registry.requireCurrent_eq_ok hcurrent
    have hleft := h name c (hs.of_find? hc)
    simp only [Registry.putCurrent, hselected]
    exact ⟨hs.modify hleft.keeps, fun e he => sight_modify hs hc (hleft.unseen e he)⟩

/-! ## Questions -/

section

variable {shown : View R → BaselineSet R → β} {s t : Session R}

/-- What a sight shows of the current context. -/
theorem current_of_sight (hs : s.Sound) (ht : t.Sound)
    (hcontexts : (t.sight shown).contexts = (s.sight shown).contexts)
    (hselected : t.registry.selected = s.registry.selected) :
    t.registry.current?.map (Context.sight shown) =
      s.registry.current?.map (Context.sight shown) := by
  have hfind {s : Session R} (hs : s.Sound) (name : String) :
      (s.registry.contexts.find? name).map (Context.sight shown) =
        (s.sight shown).contexts.find? fun c => c.name == name := by
    rw [hs.indexed.find?_eq, sight, List.find?_map]
    rfl
  rw [Registry.current?, Registry.current?, hselected]
  cases s.registry.selected with
  | none => rfl
  | some name =>
    show (t.registry.contexts.find? name).map _ = (s.registry.contexts.find? name).map _
    rw [hfind ht, hfind hs, hcontexts]

/-- A question about the current context that its sight decides. -/
theorem ask_of_sight {γ : Type} (hs : s.Sound) (ht : t.Sound)
    (hcontexts : (t.sight shown).contexts = (s.sight shown).contexts)
    (hselected : t.registry.selected = s.registry.selected) {f : Context R → Result γ}
    (hf : ∀ name name' c c', c.Sound name → c'.Sound name' →
      c'.sight shown = c.sight shown → f c' = f c) :
    t.registry.requireCurrent >>= f = s.registry.requireCurrent >>= f := by
  have hsight := current_of_sight hs ht hcontexts hselected
  have hsound {s : Session R} (hs : s.Sound) {c : Context R} (hc : s.registry.current? = some c) :
      ∃ name, c.Sound name := by
    obtain ⟨name, -, hfound⟩ := Option.bind_eq_some_iff.1 hc
    exact ⟨name, hs.of_find? hfound⟩
  rw [Registry.requireCurrent, Registry.requireCurrent]
  cases hc : s.registry.current? with
  | none =>
    rw [hc, Option.map_none, Option.map_eq_none_iff] at hsight
    rw [hsight]
  | some c =>
    rw [hc, Option.map_some] at hsight
    obtain ⟨c', hc', hsame⟩ := Option.map_eq_some_iff.1 hsight
    obtain ⟨name, hname⟩ := hsound hs hc
    obtain ⟨name', hname'⟩ := hsound ht hc'
    rw [hc']
    exact hf name name' c c' hname hname' hsame

end

end Session

/-- A careful call on the network is careful on the context. -/
theorem Context.careful_onNetwork [Scalar R] {α : Type} {shown : View R → BaselineSet R → β}
    {call : Call (Network R) α} (h : call.Careful Network.UpToDate (Network.sight shown))
    (name : String) : (onNetwork call).Careful (Sound name) (sight shown) :=
  Call.Careful.within h (fun _ hc => hc.network) (fun _ _ hc hn => ⟨hc.name, hn, hc.models⟩)
    fun c n _ hn => by simp only [sight, hn]

theorem Session.careful_onNetwork [Scalar R] {α : Type} {shown : View R → BaselineSet R → β}
    {call : Call (Network R) α} (h : call.Careful Network.UpToDate (Network.sight shown)) :
    (onNetwork call).Careful Sound (sight shown) :=
  careful_onContext (Context.careful_onNetwork h)

end Aperture
