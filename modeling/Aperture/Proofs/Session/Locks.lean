import Aperture.Proofs.Network.Locks
import Aperture.Proofs.Session.Effects

/-!
# Locks and requests

What a request does to the locks of the current context depends on the request and on whether it is
answered (`Session.relock`); a failed request leaves them. It is said for one effect of a request at
a time (`locks_of_effect`).

**Theorem (`locks_follow_operations`).** After any operations, and any requests on top of them, the
locks are what the operations that took effect made of them one after the other. A listing shows
these locks, and a plot takes the values of a locked baseline from its stream.
-/

namespace Aperture

variable {R : Type}

namespace Session

/-! ## What requests do to the locks -/

section

/-- What a request makes of the locks of the current context, depending on whether it is
answered. -/
def relock (s : Session R) (answered : Bool) (locks : Locks R) : Request R → Locks R
  | .addRaw .. | .addEncoded .. | .addFile .. | .copyStation .. | .filterStation .. | .setOrder _ =>
    if answered then fun _ => none else locks
  | .deleteStation name =>
    if s.network?.any fun n => n.stations.contains name then fun _ => none else locks
  | .lockBaseline name format bytes =>
    if answered then Function.update locks name ((decode format bytes).on s).1.toOption else locks
  | .unlockBaseline name => Function.update locks name none
  | _ => locks

variable {s : Session R}

theorem relock_of_spares {r : Request R} (hr : r.sparesNetwork = true) (answered : Bool)
    (locks : Locks R) : s.relock answered locks r = locks := by
  cases r <;> first | rfl | cases hr

theorem relock_of_refused {r : Request R} (hr : r.refusable = true) (locks : Locks R) :
    s.relock false locks r = locks := by
  cases r <;> first | rfl | cases hr

theorem relock_of_adds {r : Request R} {name : String} (hr : r.adds = some name)
    (locks : Locks R) : s.relock true locks r = fun _ => none := by
  cases r <;> first | rfl | cases hr

theorem relock_of_plots {r : Request R} (hr : r.plots = true) (answered : Bool)
    (locks : Locks R) : s.relock answered locks r = locks := by
  cases r <;> first | rfl | cases hr

variable [Scalar R] [Trig R] [Fourier.Spectral R]

/-- **What every effect of a request does to the locks.** -/
theorem locks_of_effect {n n' : Network R} (hnetwork : s.network? = some n) (hn : n.UpToDate)
    {r : Request R} {answered : Bool} (h : s.Effect r n answered n') :
    n'.locks = s.relock answered n.locks r := by
  cases h with
  | spared hr => exact (relock_of_spares hr answered n.locks).symm
  | refused hr => exact (relock_of_refused hr n.locks).symm
  | setOrder order => rfl
  | setReference h =>
    unfold Network.setReference at h
    split at h
    · cases h
    · obtain rfl := Except.ok.inj h
      rfl
  | setRelative relative => rfl
  | add hr h =>
    obtain ⟨added, -, hinsert⟩ := Network.exists_insert_of_add h
    rw [relock_of_adds hr]
    exact Network.locks_of_none (Network.insert_eq_ok hinsert).2.1
  | remove name =>
    rw [relock, hnetwork]
    exact Network.locks_perform hn (.remove name)
  | copy h =>
    obtain ⟨added, -, hinsert⟩ := Network.exists_insert_of_copy h
    exact Network.locks_of_none (Network.insert_eq_ok hinsert).2.1
  | filter h =>
    obtain ⟨added, -, hinsert⟩ := Network.exists_insert_of_filter h
    exact Network.locks_of_none (Network.insert_eq_ok hinsert).2.1
  | list => exact n.locks_settle
  | @lock name format bytes stream h =>
    rw [relock, h]
    exact Network.locks_lock hn name stream
  | unlock name => exact Network.locks_perform hn (.unlock name)
  | plot hr plan refusal =>
    rw [relock_of_plots hr]
    exact Network.locks_perform hn (.plot plan refusal)

variable [Word R] [Legible R]

/-- What requests make of the locks, one after the other. -/
def relockAll (s : Session R) : List (Request R) → Locks R → Locks R
  | [], locks => locks
  | r :: rs, locks => (s.handle r).1.relockAll rs (s.relock (s.handle r).2.isOk locks r)

/-- The session after some requests. -/
def after (s : Session R) (rs : List (Request R)) : Session R :=
  rs.foldl (fun s r => (s.handle r).1) s

/-- **What any requests do to the locks,** one after the other. -/
theorem locks_after (hs : s.Sound) {n : Network R} (hn : s.network? = some n)
    {rs : List (Request R)} (hrs : ∀ r ∈ rs, r.managesContexts = false) :
    ∃ m, (s.after rs).network? = some m ∧ m.locks = s.relockAll rs n.locks := by
  induction rs generalizing s n with
  | nil => exact ⟨n, hn, rfl⟩
  | cons r rs ih =>
    obtain ⟨hr, hrest⟩ := List.forall_mem_cons.1 hrs
    obtain ⟨k, hk, heffect⟩ := effect_serve hs hr n hn
    have hlocks := locks_of_effect hn (hs.upToDate hn) heffect
    obtain ⟨m, hm, hfollowed⟩ := ih (hs.handle r) hk hrest
    refine ⟨m, hm, ?_⟩
    rw [hfollowed, hlocks]
    rfl

/-- What is listed of the baselines. -/
theorem answer_listBaselines {n : Network R} (hn : s.network? = some n) :
    (s.handle .listBaselines).2 = .ok (.baselines
      (n.settle.2.baselines.toList.map fun b => b.summary n.settle.1.view)) := by
  obtain ⟨c, hc, rfl⟩ := Option.map_eq_some_iff.1 hn
  have hrequired : s.registry.requireCurrent = .ok c := by rw [Registry.requireCurrent, hc]
  show ((serve .listBaselines).on s).1 = _
  rw [serve, Call.on_bind, baselines, onNetwork, on_onContext, hrequired]
  rfl

end

/-! ## The theorem -/

section

variable [Scalar R] [Trig R] [Fourier.Spectral R] [Word R] [Legible R]

open Network (Operation)

/-- **The locks follow the operations.** Let any operations be carried out on a network that can be
reached, in whatever way plots are scheduled and end:

* The locks are what the operations that took effect made of them, one after the other. The others
  leave them. An operation takes effect exactly if nothing stands against it.
* When the network is that of the current context of a session, any requests go on from there: the
  locks are what the requests that were answered made of them. A listing shows that a baseline is
  locked exactly if its name is locked, and every name that is locked is in it.
* In a plot, a locked baseline has the span of its stream for a window, and its value at any time is
  the sample of its stream. So its worker writes samples of the stream, and so does its thread in
  any interleaving, however far they come. -/
theorem locks_follow_operations (n m : Network R) (hn : n.Reachable)
    (ops : List (Operation R × Bool)) (hm : Network.Runs n ops m) :
    (m.locks = ops.foldl Network.followed n.locks ∧
      ∀ op : Operation R, (m.perform op).2 = true ↔ op.Possible m) ∧
    (∀ s : Session R, s.Reachable → s.network? = some m →
      (∀ rs : List (Request R), (∀ r ∈ rs, r.managesContexts = false) →
        ∃ m', (s.after rs).network? = some m' ∧ m'.locks = s.relockAll rs m.locks) ∧
      ∃ listed : List (Baseline.Summary R),
        (s.handle .listBaselines).2 = .ok (.baselines listed) ∧
        (∀ b ∈ listed, b.locked = (m.locks b.name).isSome) ∧
        ∀ name, (m.locks name).isSome = true → ∃ b ∈ listed, b.name = name) ∧
    ∀ plan : Plan R, ∀ b ∈ (m.configured plan).baselines.toList, ∀ stream,
      m.locks b.name = some stream →
      (∀ view, b.window view = stream.span? ∧ ∀ t, Worker.valueAt plan view b t =
        .ok ((stream.sampleAt t).getD Scalar.zero)) ∧
      Worker.WritesFrom plan stream (Worker.run plan m.settle.1.view b).walk ∧
      ∀ ceiling c, m.Interleaves plan ceiling c →
        ∀ th ∈ c.threads, th.baseline = b → Worker.WritesFrom plan stream th.walk := by
  obtain ⟨hup, hlocks⟩ := hm.locks_eq hn.upToDate
  refine ⟨⟨hlocks, hup.done_iff⟩, fun s hs hs' => ⟨fun rs hrs => locks_after hs.sound hs' hrs,
    _, answer_listBaselines hs', ?_, ?_⟩, fun plan b hb stream hstream => ?_⟩
  · intro shown hshown
    obtain ⟨b, hb, rfl⟩ := List.mem_map.1 hshown
    exact congrArg Option.isSome (hup.locks_of_mem hb).symm
  · intro name hname
    obtain ⟨stream, hstream⟩ := Option.isSome_iff_exists.1 hname
    obtain ⟨b, hb, rfl⟩ := List.mem_map.1 (hup.mem_names_of_locks hstream)
    exact ⟨_, List.mem_map_of_mem hb, rfl⟩
  · have hlocked : b.locked = some stream := by
      rw [Network.configured, Plot.toList_configured] at hb
      obtain ⟨kept, hkept, rfl⟩ := List.mem_map.1 hb
      exact (hup.locks_of_mem hkept).symm.trans hstream
    refine ⟨fun view => ⟨Baseline.window_of_locked hlocked view, fun t =>
      Worker.valueAt_of_locked hlocked⟩,
      Worker.writesFrom_of_locked hlocked (Walk.reached_along _),
      fun ceiling c hc th hth hown => ?_⟩
    obtain rfl := hown
    exact Worker.writesFrom_of_locked hlocked (hc.reaches.sound th hth).reached

end

/-- A correlated stream. -/
def flat : Cube Binary64 := Cube.ofSamples #[Scalar.one, Scalar.one, Scalar.one]

/-- A network that was plotted with a baseline locked. -/
def tapped : Network Binary64 := ((Network.lettered.lock "a_b" flat).1.plot .following).1

/-- A session with one context, whose network is given. -/
def hosting (n : Network Binary64) : Session Binary64 :=
  { (new 4 : Session Binary64) with
    registry := { contexts := .push {} { Context.empty "sky" with network := n }
                  selected := some "sky" } }

theorem reachable_hosting {n : Network Binary64} (hn : n.Reachable) : (hosting n).Reachable := by
  have hsetUp : Relation.ReflTransGen Context.Step (.empty "sky")
      ({ Context.empty "sky" with network := n } : Context Binary64) :=
    hn.lift (fun n => { Context.empty "sky" with network := n }) fun _ _ h => .network h
  have hcreate : Step (new 4) { (new 4 : Session Binary64) with
      registry := { contexts := .push {} { Context.empty "sky" with network := n } } } :=
    .createUsing "sky" (fun _ => .ok { Context.empty "sky" with network := n })
      (fun c hc => Except.ok.inj hc ▸ hsetUp) rfl
  exact ⟨4, (Relation.ReflTransGen.single hcreate).tail (.select "sky" rfl)⟩

theorem locks_follow_operations_tapped :
    Network.lettered.Reachable ∧
    Network.Runs Network.lettered
      [(.lock "a_b" flat, true), (.copy "a" "b", false), (.plot .following none, true)] tapped ∧
    tapped.locks = Function.update Network.lettered.locks "a_b" (some flat) ∧
    (hosting tapped).Reachable ∧ (hosting tapped).network? = some tapped ∧
    (∃ listed : List (Baseline.Summary Binary64),
      ((hosting tapped).handle .listBaselines).2 = .ok (.baselines listed) ∧
      ∃ b ∈ listed, b.name = "a_b" ∧ b.locked = true) ∧
    (∃ m, ((hosting tapped).after [.setOrder 3]).network? = some m ∧
      m.locks = fun _ => none) ∧
    ∃ b ∈ (tapped.configured .averaging).baselines.toList, b.name = "a_b" ∧
      (∀ view, b.window view = flat.span?) ∧
      Worker.WritesFrom .averaging flat (Worker.run .averaging tapped.settle.1.view b).walk := by
  have hlettered := Network.reachable_lettered
  have hlock : Network.lettered.Performs (.lock "a_b" flat) true
      (Network.lettered.lock "a_b" flat).1 :=
    .of_eq (Prod.ext rfl (by decide +kernel))
  have hcopy : (Network.lettered.lock "a_b" flat).1.Performs (.copy "a" "b") false
      (Network.lettered.lock "a_b" flat).1 := .of_eq rfl
  have hruns : Network.Runs Network.lettered
      [(.lock "a_b" flat, true), (.copy "a" "b", false), (.plot .following none, true)] tapped :=
    .cons hlock (.cons hcopy (.cons (.perform (.plot .following none)) (.nil _)))
  have htapped : tapped.Reachable := (hlettered.tail (.lock "a_b" flat)).tail (.plot .following)
  have hhosting := reachable_hosting htapped
  have hcurrent : (hosting tapped).network? = some tapped := rfl
  obtain ⟨⟨hlocks, -⟩, hsession, hvalues⟩ :=
    locks_follow_operations Network.lettered tapped hlettered _ hruns
  obtain ⟨hrequests, listed, hlisted, hflags, hnames⟩ := hsession _ hhosting hcurrent
  have hlocked : tapped.locks "a_b" = some flat := by
    rw [hlocks]
    exact Function.update_self "a_b" (some flat) Network.lettered.locks
  refine ⟨hlettered, hruns, hlocks, hhosting, hcurrent, ⟨listed, hlisted, ?_⟩, ?_, ?_⟩
  · obtain ⟨b, hb, hname⟩ := hnames "a_b" (by rw [hlocked]; rfl)
    exact ⟨b, hb, hname, by rw [hflags b hb, hname, hlocked]; rfl⟩
  · obtain ⟨m, hm, hdropped⟩ := hrequests [.setOrder 3] (by simp [Request.managesContexts])
    have hanswered : ((hosting tapped).handle (.setOrder 3)).2.isOk = true := by rfl
    refine ⟨m, hm, hdropped.trans ?_⟩
    simp only [relockAll, relock, hanswered, if_true]
  · obtain ⟨b, hb, hname⟩ := List.mem_map.1 (htapped.upToDate.mem_names_of_locks hlocked)
    have hconfigured :
        b.configured .averaging ∈ (tapped.configured .averaging).baselines.toList := by
      rw [Network.configured, Plot.toList_configured]
      exact List.mem_map_of_mem hb
    have hsame : tapped.locks (b.configured .averaging).name = some flat := by
      rw [← hlocked, ← hname]
      rfl
    obtain ⟨hwindow, hwrites, -⟩ := hvalues .averaging _ hconfigured flat hsame
    exact ⟨_, hconfigured, hname, fun view => (hwindow view).1, hwrites⟩

end Session

end Aperture
