import Aperture.Proofs.Session.Failures
import Aperture.Proofs.Session.Local

/-!
# Contexts are isolated

The selection of a session is a name that is kept beside the contexts, which move to other slots
when one of them is deleted.

**The invariant** (`Registry.Standing`). The selection is empty or the name of a context. Every step
keeps it (`Session.standing_step`).

**Theorem (`contexts_isolated`).** In every session that can be reached the current context is there
when one is selected. What a front end does other than to add, select and delete contexts works on
the current one and leaves the others alone, over runs of any length. Adding and deleting contexts
leaves the others in their order.
-/

namespace Aperture

open Relation (ReflTransGen)

variable {R : Type} [Scalar R]

/-! ## Registries -/

namespace Registry

theorem standing_empty : ({} : Registry R).Standing := ⟨sound_empty, nofun⟩

variable {r r' : Registry R}

theorem Standing.keep (hr : r.Standing) (hr' : r'.Sound)
    (hnames : r'.contexts.names = r.contexts.names) (hselected : r'.selected = r.selected) :
    r'.Standing :=
  ⟨hr', fun h => hnames ▸ hr.selection (hselected ▸ h)⟩

theorem Standing.select (hr : r.Standing) {name : String} (h : r.select name = .ok r') :
    r'.Standing := by
  refine ⟨hr.sound.select h, fun {selected} hselected => ?_⟩
  unfold Registry.select at h
  split at h
  · next hfound =>
    obtain rfl := Except.ok.inj h
    obtain rfl := Option.some.inj hselected
    exact hr.sound.indexed.contains_iff.1 hfound
  · cases h

theorem Standing.create (hr : r.Standing) {name : String}
    {setUp : Context R → Result (Context R)}
    (hset : ∀ c, setUp (.empty name) = .ok c → c.Sound name)
    (h : r.createUsing name setUp = .ok r') : r'.Standing := by
  refine ⟨hr.sound.create hset h, fun hselected => ?_⟩
  obtain ⟨c, contexts, -, hadd, rfl⟩ := createUsing_eq_ok h
  show _ ∈ contexts.names
  rw [Roster.names, Roster.toList_add hadd, List.map_append]
  exact List.mem_append_left _ (hr.selection hselected)

omit [Scalar R] in
/-- A context that is deleted is the only one that is gone. -/
theorem toList_destroy (hr : r.contexts.Indexed) (name : String) :
    (r.destroy name).contexts.toList = r.contexts.toList.filter fun c => c.name != name := by
  unfold destroy
  split
  · rw [Roster.toList_compact, hr.toList_erase]
    rfl
  · next h =>
    rw [hr.contains_iff] at h
    refine (List.filter_eq_self.2 fun c hc => ?_).symm
    have hne : c.name ≠ name := fun heq => h (heq ▸ List.mem_map_of_mem hc)
    simpa using hne

theorem Sound.find?_destroy (hr : r.Sound) (gone name : String) :
    (r.destroy gone).contexts.find? name =
      if name = gone then none else r.contexts.find? name := by
  have htoList : (r.destroy gone).contexts.toList =
      r.contexts.toList.filter fun c => Named.name c != gone := toList_destroy hr.indexed gone
  rw [(hr.destroy gone).indexed.find?_eq, htoList, List.find?_filter, hr.indexed.find?_eq]
  split
  · next h =>
    subst h
    exact List.find?_eq_none.2 fun c _ => by simp
  · next h =>
    congr 1
    funext c
    by_cases hname : Named.name c = name <;> simp [hname, h]

theorem Standing.selected_destroy (hr : r.Standing) (name : String) :
    (r.destroy name).selected = if r.selected = some name then none else r.selected := by
  unfold destroy
  split
  · rfl
  · next h =>
    rw [hr.sound.indexed.contains_iff] at h
    exact (if_neg fun hselected => h (hr.selection hselected)).symm

theorem Standing.destroy (hr : r.Standing) (name : String) : (r.destroy name).Standing := by
  refine ⟨hr.sound.destroy name, fun {selected} hselected => ?_⟩
  rw [hr.selected_destroy] at hselected
  split at hselected
  · cases hselected
  · next hother =>
    obtain ⟨c, hc, rfl⟩ := List.mem_map.1 (hr.selection hselected)
    refine List.mem_map.2 ⟨c, ?_, rfl⟩
    rw [toList_destroy hr.sound.indexed, List.mem_filter]
    refine ⟨hc, ?_⟩
    have hne : c.name ≠ name := fun heq => hother (heq ▸ hselected)
    simpa using hne

end Registry

namespace Session

section

variable {s : Session R}

/-! ## Contexts that are added, selected and deleted -/

omit [Scalar R] in
theorem on_onRegistry_update (f : Registry R → Result (Registry R)) (s : Session R) :
    (onRegistry (.update f)).on s =
      match f s.registry with
      | .ok r => (.ok (), { s with registry := r })
      | .error e => (.error e, s) := by
  rw [onRegistry, Call.on_within, Call.on_update]
  cases f s.registry <;> rfl

/-- A context whose set-up fails is not created. -/
theorem on_createUsing_of_error (hs : s.Sound) {name : String}
    {setUp : Context R → Result (Context R)} {e : Failure} (h : setUp (.empty name) = .error e) :
    (onRegistry (.update fun r => r.createUsing name setUp)).on s =
      (.error (if name ∈ s.registry.contexts.names then .error (.duplicateName name) else e),
        s) := by
  have hcreate : s.registry.createUsing name setUp =
      .error (if name ∈ s.registry.contexts.names then .error (.duplicateName name) else e) := by
    simp only [Registry.createUsing, hs.indexed.contains_iff, h]
    split <;> rfl
  rw [on_onRegistry_update, hcreate]

theorem on_addContext (s : Session R) (name : String) :
    (addContext name).on s =
      match s.registry.create name with
      | .ok r => (.ok (), { s with registry := { r with selected := some name } })
      | .error e => (.error e, s) := by
  rw [addContext, Call.on_bind, on_onRegistry_update]
  cases hcreate : s.registry.create name with
  | error e => rfl
  | ok r =>
    have hselect := Registry.select_of_create hcreate
    simp only [selectContext, on_onRegistry_update, hselect]

theorem on_addContext_of_mem (hs : s.Sound) {name : String}
    (h : name ∈ s.registry.contexts.names) :
    (addContext name).on s = (fail (.duplicateName name), s) := by
  have hcreate : s.registry.create name = fail (.duplicateName name) :=
    if_pos (hs.indexed.contains_iff.2 h)
  rw [on_addContext, hcreate]
  rfl

theorem on_addContext_of_notMem (hs : s.Sound) {name : String}
    (h : name ∉ s.registry.contexts.names) :
    (addContext name).on s = (.ok (), { s with
      registry := ⟨s.registry.contexts.push (.empty name), some name⟩ }) := by
  have hadd : s.registry.contexts.add (.empty name) =
      .ok (s.registry.contexts.push (.empty name)) := hs.indexed.add_of_notMem h
  have hcreate : s.registry.create name =
      .ok { s.registry with contexts := s.registry.contexts.push (.empty name) } := by
    rw [Registry.create, Registry.createUsing, if_neg (mt hs.indexed.contains_iff.1 h)]
    exact bind_eq_ok_iff.2 ⟨_, rfl, bind_eq_ok_iff.2 ⟨_, hadd, rfl⟩⟩
  rw [on_addContext, hcreate]

theorem on_selectContext (hs : s.Sound) (name : String) :
    (selectContext name).on s =
      if name ∈ s.registry.contexts.names then
        (.ok (), { s with registry := { s.registry with selected := some name } })
      else (fail (.contextNotFound name), s) := by
  rw [selectContext, on_onRegistry_update, Registry.select]
  by_cases h : name ∈ s.registry.contexts.names
  · rw [if_pos (hs.indexed.contains_iff.2 h), if_pos h]
  · rw [if_neg (mt hs.indexed.contains_iff.1 h), if_neg h]
    rfl

/-! ## Every step keeps the selection -/

theorem standing_addContext (hs : s.registry.Standing) (name : String) :
    ((addContext name).on s).2.registry.Standing := by
  rw [on_addContext]
  cases hcreate : s.registry.create name with
  | error e => exact hs
  | ok r =>
    have hcreated : r.Standing :=
      hs.create (fun c hc => Except.ok.inj hc ▸ Context.sound_empty name) hcreate
    exact hcreated.select (Registry.select_of_create hcreate)

theorem standing_selectContext (hs : s.registry.Standing) (name : String) :
    ((selectContext name).on s).2.registry.Standing := by
  rw [selectContext, on_onRegistry_update]
  cases hselect : s.registry.select name with
  | error e => exact hs
  | ok r => exact hs.select hselect

variable [Trig R] [Fourier.Spectral R] [Word R] [Legible R]

omit [Scalar R] [Trig R] [Fourier.Spectral R] [Word R] [Legible R] in
theorem on_done (call : Call (Session R) Unit) (s : Session R) :
    (done call).on s = ((call.on s).1.map fun _ => .done, (call.on s).2) := by
  rw [done, Call.on_bind]
  generalize call.on s = left
  rcases left with ⟨_ | _, t⟩ <;> rfl

theorem handle_of_done {r : Request R} {call : Call (Session R) Unit} (hr : serve r = done call)
    (s : Session R) : s.handle r = ((call.on s).2, (call.on s).1.map fun _ => .done) := by
  rw [handle, hr, on_done]

theorem standing_handle (hs : s.registry.Standing) (r : Request R) :
    (s.handle r).1.registry.Standing := by
  cases hr : r.managesContexts with
  | false =>
    have hbeside := (local_serve hr).beside hs
    exact hs.keep (Sound.handle hs.sound r) hbeside.names hbeside.selected
  | true =>
    cases r with
    | addContext name =>
      rw [handle_of_done rfl]
      exact standing_addContext hs name
    | selectContext name =>
      rw [handle_of_done rfl]
      exact standing_selectContext hs name
    | deleteContext name => exact hs.destroy name
    | _ => cases hr

theorem standing_step {s' : Session R} (hs : s.registry.Standing) (h : Step s s') :
    s'.registry.Standing := by
  cases h with
  | handle r => exact standing_handle hs r
  | registerCodec codec => exact hs
  | setInterrupt interrupt => exact hs
  | edit name hc h =>
    have hedited := (hs.sound.of_find? hc).step h
    exact hs.keep (hs.sound.modify hedited) (hs.sound.names_modify hedited.name) rfl
  | createUsing name setUp hsetUp h =>
    exact hs.create (fun c hc => (Context.sound_empty name).steps (hsetUp c hc)) h
  | select name h => exact hs.select h
  | destroy name => exact hs.destroy name

theorem Reachable.standing (hs : s.Reachable) : s.registry.Standing := by
  obtain ⟨workers, h⟩ := hs
  induction h with
  | refl => exact Registry.standing_empty
  | tail _ hstep ih => exact standing_step ih hstep

end

/-! ## Work on the current context -/

section

variable [Trig R] [Fourier.Spectral R] [Word R] [Legible R]

/-- What can be done to a session without adding, selecting and deleting contexts. -/
inductive LocalStep (s : Session R) : Session R → Prop
  | handle (r : Request R) (hr : r.managesContexts = false) : LocalStep s (s.handle r).1
  | registerCodec (codec : Codec R) : LocalStep s (s.registerCodec codec)
  | setInterrupt (interrupt : Bool) : LocalStep s { s with interrupt }
  /-- Work on the current context directly. -/
  | edit {name : String} {c c' : Context R} (hselected : s.registry.selected = some name)
      (hc : s.registry.contexts.find? name = some c) (h : c.Step c') :
      LocalStep s { s with registry := s.registry.modify name fun _ => c' }

variable {s t : Session R}

theorem LocalStep.step (h : LocalStep s t) : Step s t := by
  cases h with
  | handle r _ => exact .handle r
  | registerCodec codec => exact .registerCodec codec
  | setInterrupt interrupt => exact .setInterrupt interrupt
  | edit _ hc h => exact .edit _ hc h

theorem LocalStep.beside (hs : s.registry.Standing) (h : LocalStep s t) :
    t.registry.Beside s.registry := by
  cases h with
  | handle r hr => exact (local_serve hr).beside hs
  | registerCodec codec => exact .refl _
  | setInterrupt interrupt => exact .refl _
  | edit hselected hc h =>
    exact hs.sound.beside_modify hselected ((hs.sound.of_find? hc).step h).name

/-- **Work on the current context leaves the others alone,** over runs of any length. -/
theorem beside_of_run (hs : s.registry.Standing) (h : ReflTransGen LocalStep s t) :
    t.registry.Standing ∧ t.registry.Beside s.registry := by
  induction h with
  | refl => exact ⟨hs, .refl _⟩
  | tail _ hstep ih =>
    obtain ⟨hmid, hbeside⟩ := ih
    exact ⟨standing_step hmid hstep.step, (hstep.beside hmid).trans hbeside⟩

/-- **Contexts are isolated, and the selection is that of a context.** In every session that can be
reached:

* When a context is selected, it is there. A request other than to add, select and delete contexts
  reports a missing context only when none is selected, unless a codec or the contents of a file
  hand it this report.
* Such requests, and direct work on the current context, leave the selection, the contexts with
  their order, and all that the other contexts are, over runs of any length.
* A context is added empty, behind the others, and becomes the current one. A name that is taken
  changes nothing.
* Only a context that is there can be selected, and nothing else changes.
* The context that is deleted is the only one that is gone; when it was the current one, none is
  selected afterwards.
* A context whose set-up fails is not created, and nothing changes. -/
theorem contexts_isolated (s : Session R) (hs : s.Reachable) :
    (∀ name, s.registry.selected = some name → ∃ c, s.registry.contexts.find? name = some c ∧
      c.name = name ∧ s.registry.requireCurrent = .ok c) ∧
    (∀ (r : Request R) (name : String), r.managesContexts = false →
      (s.handle r).2 = fail (.contextNotFound name) →
      s.registry.selected = none ∨ s.codecs.Report (.error (.contextNotFound name)) ∨
        handedBy r (.error (.contextNotFound name))) ∧
    (∀ t, ReflTransGen LocalStep s t →
      t.registry.selected = s.registry.selected ∧
      t.registry.contexts.names = s.registry.contexts.names ∧
      ∀ name, s.registry.selected ≠ some name →
        t.registry.contexts.find? name = s.registry.contexts.find? name) ∧
    (∀ name, (name ∈ s.registry.contexts.names →
        s.handle (.addContext name) = (s, fail (.duplicateName name))) ∧
      (name ∉ s.registry.contexts.names → ∃ contexts : Roster (Context R),
        s.handle (.addContext name) =
          ({ s with registry := ⟨contexts, some name⟩ }, .ok .done) ∧
        contexts.toList = s.registry.contexts.toList ++ [.empty name] ∧
        ∀ other, contexts.find? other =
          if other = name then some (.empty name) else s.registry.contexts.find? other)) ∧
    (∀ name, s.handle (.selectContext name) =
      if name ∈ s.registry.contexts.names then
        ({ s with registry := { s.registry with selected := some name } }, .ok .done)
      else (s, fail (.contextNotFound name))) ∧
    (∀ name, ∃ contexts : Roster (Context R),
      s.handle (.deleteContext name) = ({ s with registry := ⟨contexts,
        if s.registry.selected = some name then none else s.registry.selected⟩ }, .ok .done) ∧
      (contexts.toList = s.registry.contexts.toList.filter fun c => c.name != name) ∧
      ∀ other, contexts.find? other =
        if other = name then none else s.registry.contexts.find? other) ∧
    ∀ name setUp e, setUp (.empty name) = .error e →
      (onRegistry (.update fun r => r.createUsing name setUp)).on s =
        (.error (if name ∈ s.registry.contexts.names then .error (.duplicateName name) else e),
          s) := by
  have hstanding := hs.standing
  have hsound := hstanding.sound
  refine ⟨fun name => hstanding.requireCurrent,
    fun r name hr => (local_serve hr).lacking hstanding name, fun t ht => ?_,
    fun name => ⟨fun h => ?_, fun h => ?_⟩, fun name => ?_, fun name => ?_,
    fun name setUp e => on_createUsing_of_error hsound⟩
  · obtain ⟨-, hbeside⟩ := beside_of_run hstanding ht
    exact ⟨hbeside.selected, hbeside.names, fun name => hbeside.others⟩
  · rw [handle_of_done rfl, on_addContext_of_mem hsound h]
    rfl
  · rw [handle_of_done rfl, on_addContext_of_notMem hsound h]
    exact ⟨_, rfl, Roster.toList_push _ _, hsound.indexed.find?_push h⟩
  · rw [handle_of_done rfl, on_selectContext hsound]
    split <;> rfl
  · refine ⟨(s.registry.destroy name).contexts, ?_, Registry.toList_destroy hsound.indexed name,
      hsound.find?_destroy name⟩
    rw [← hstanding.selected_destroy]
    rfl

end

/-- A session with two contexts, the second of which is selected. -/
def twofold : Session Binary64 := (coupled.handle (.addContext "sea")).1

/-- The session after work in its second context. -/
def furnished : Session Binary64 :=
  ((twofold.handle (.addEncoded "c" "raw" tick)).1.handle (.carryOut "uv" .default none)).1

theorem contexts_isolated_furnished :
    twofold.Reachable ∧ twofold.registry.contexts.names = ["sky", "sea"] ∧
    twofold.registry.selected = some "sea" ∧
    ReflTransGen LocalStep twofold furnished ∧ furnished.registry.selected = some "sea" ∧
    furnished.registry.contexts.find? "sky" = twofold.registry.contexts.find? "sky" ∧
    twofold.handle (.addContext "sky") = (twofold, fail (.duplicateName "sky")) ∧
    twofold.handle (.selectContext "sun") = (twofold, fail (.contextNotFound "sun")) ∧
    (∀ (r : Request Binary64) (name : String), r.managesContexts = false →
      (twofold.handle r).2 = fail (.contextNotFound name) →
      handedBy r (.error (.contextNotFound name))) ∧
    ∃ contexts : Roster (Context Binary64),
      twofold.handle (.deleteContext "sea") =
        ({ twofold with registry := ⟨contexts, none⟩ }, .ok .done) ∧
      contexts.names = ["sky"] := by
  have hreachable : twofold.Reachable := by
    obtain ⟨workers, hrun⟩ := reachable_coupled
    exact ⟨workers, hrun.tail (.handle _)⟩
  have hrun : ReflTransGen LocalStep twofold furnished :=
    (ReflTransGen.single (.handle _ rfl)).tail (.handle _ rfl)
  have hnames : twofold.registry.contexts.names = ["sky", "sea"] := by rfl
  have hselected : twofold.registry.selected = some "sea" := by rfl
  obtain ⟨-, hlacking, hlocal, hadd, hselect, hdelete, -⟩ := contexts_isolated twofold hreachable
  obtain ⟨hkept, -, hothers⟩ := hlocal furnished hrun
  obtain ⟨contexts, hhandle, htoList, -⟩ := hdelete "sea"
  refine ⟨hreachable, hnames, hselected, hrun, hkept.trans hselected,
    hothers "sky" (by decide), (hadd "sky").1 (by rw [hnames]; decide), ?_, ?_,
    contexts, hhandle, ?_⟩
  · rw [hselect, if_neg (by rw [hnames]; decide)]
  · intro r name hr hfail
    rcases hlacking r name hr hfail with hnone | hreport | hhanded
    · cases hselected.symm.trans hnone
    · exact absurd hreport (Codecs.not_report_raw name)
    · exact hhanded
  · rw [Roster.names, htoList]
    rfl

end Session

end Aperture
