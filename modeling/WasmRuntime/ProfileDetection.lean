/-
`detect_profile` as a function of the exported worlds.

The function walks over a component's exports, notes a profile for each name that starts like one of
the four worlds, sorts what it noted by the profile's `cache_id`, drops equal neighbours and looks
at how many are left. The names are an arbitrary list: an engine can report any exports for a
component.
-/
import WasmRuntime.Prepare
import WasmRuntime.SortDedup

set_option autoImplicit false

namespace WasmRuntime.Cache

open SortDedup

/-! ## Worlds and their names

The starts of the four worlds exclude each other, so the order of the `else if` branches does not
matter (`export_profile_iff`). -/

/-- How the names of a world's exports start. -/
def WasiProfile.world : WasiProfile → String
  | .Cli0_3 => "wasi:cli/run@0.3."
  | .Cli0_2 => "wasi:cli/run@0.2."
  | .Http0_3 => "wasi:http/handler@0.3."
  | .Http0_2 => "wasi:http/incoming-handler@0.2."

/-- One of the names is an export of the profile's world. -/
def Exported (names : List String) (p : WasiProfile) : Prop :=
  ∃ name ∈ names, starts_with name p.world = true

instance (names : List String) (p : WasiProfile) : Decidable (Exported names p) :=
  inferInstanceAs (Decidable (∃ name ∈ names, starts_with name p.world = true))

/-- No world's name starts like another's. -/
theorem WasiProfile.world_apart :
    ∀ p q : WasiProfile, p.world.toList <+: q.world.toList → p = q := by
  intro p q
  cases p <;> cases q <;> decide

variable {name : String} {p : WasiProfile} {names : List String}

/-- A name belongs to one world at most. -/
theorem starts_with_world_unique {q : WasiProfile} (hp : starts_with name p.world = true)
    (hq : starts_with name q.world = true) : p = q := by
  have hpn : p.world.toList <+: name.toList := List.isPrefixOf_iff_prefix.mp hp
  have hqn : q.world.toList <+: name.toList := List.isPrefixOf_iff_prefix.mp hq
  -- Of two beginnings of one name the shorter is a beginning of the longer.
  rcases List.prefix_or_prefix_of_prefix hpn hqn with h | h
  · exact WasiProfile.world_apart p q h
  · exact (WasiProfile.world_apart q p h).symm

/-- The `else if` chain finds the world a name starts like, in whatever order it asks. -/
theorem export_profile_iff : export_profile name = some p ↔ starts_with name p.world = true := by
  constructor
  · intro h
    unfold export_profile at h
    split_ifs at h with h1 h2 h3 h4 <;> cases h <;> assumption
  · intro h
    have hother : ∀ q : WasiProfile, starts_with name q.world = true → q = p :=
      fun q hq => starts_with_world_unique hq h
    unfold export_profile
    split_ifs with h1 h2 h3 h4
    · rw [hother .Cli0_3 h1]
    · rw [hother .Cli0_2 h2]
    · rw [hother .Http0_3 h3]
    · rw [hother .Http0_2 h4]
    · -- A name that starts like none of the four does not start like `p`.
      cases p with
      | Cli0_3 => exact absurd h h1
      | Cli0_2 => exact absurd h h2
      | Http0_3 => exact absurd h h3
      | Http0_2 => exact absurd h h4

theorem mem_filterMap_export_profile : p ∈ names.filterMap export_profile ↔ Exported names p := by
  rw [List.mem_filterMap]
  constructor
  · rintro ⟨name, hmem, h⟩
    exact ⟨name, hmem, export_profile_iff.mp h⟩
  · rintro ⟨name, hmem, h⟩
    exact ⟨name, hmem, export_profile_iff.mpr h⟩

/-! ## The normal form

`cache_id` tells the profiles apart, so that equal profiles become neighbours and different ones
never merge; sorting and dropping neighbours is then the normal form of `SortDedup`, which depends
on the members alone. -/

/-- The profiles of a list of export names, as `detect_profile` counts them. -/
def worlds (names : List String) : List WasiProfile :=
  dedup (sort_by_key WasiProfile.cache_id (names.filterMap export_profile))

theorem mem_worlds : p ∈ worlds names ↔ Exported names p := by
  unfold worlds
  rw [mem_normal, mem_filterMap_export_profile]

/-- No profile is counted twice. -/
theorem worlds_nodup (names : List String) : (worlds names).Nodup := by
  have hkey : Function.Injective WasiProfile.cache_id := fun _ _ => WasiProfile.cache_id_injective
  refine (normal_pairwise hkey (names.filterMap export_profile)).imp ?_
  intro p q hlt heq
  exact absurd (congrArg WasiProfile.cache_id heq) (ne_of_lt hlt)

/-- Lists with the same worlds are counted alike. -/
theorem worlds_congr {names' : List String} (h : ∀ p, Exported names p ↔ Exported names' p) :
    worlds names = worlds names' := by
  have hkey : Function.Injective WasiProfile.cache_id := fun _ _ => WasiProfile.cache_id_injective
  refine (normal_eq_iff hkey).mpr fun p => ?_
  rw [mem_filterMap_export_profile, mem_filterMap_export_profile, h]

/-! ## Changes that leave the worlds alone

Other names of the same worlds, other names of none, and any order. -/

/-- The second list of names comes from the first by permuting it, by adding names for worlds
it already has, and by adding names that belong to no world. -/
inductive Rearranged : List String → List String → Prop where
  | permuted {names names' : List String} (h : names.Perm names') : Rearranged names names'
  | repeated {names : List String} {p : WasiProfile} {name : String} (hp : Exported names p)
      (hname : starts_with name p.world = true) : Rearranged names (name :: names)
  | unrelated {names : List String} {name : String}
      (hname : ∀ p : WasiProfile, starts_with name p.world = false) :
      Rearranged names (name :: names)
  | trans {names names' names'' : List String} (h : Rearranged names names')
      (h' : Rearranged names' names'') : Rearranged names names''

/-- What one more name adds is its own world. -/
theorem exported_cons :
    Exported (name :: names) p ↔ starts_with name p.world = true ∨ Exported names p := by
  unfold Exported
  rw [List.exists_mem_cons_iff]

theorem Rearranged.exported_iff {names' : List String} (h : Rearranged names names') :
    ∀ p, Exported names p ↔ Exported names' p := by
  induction h with
  | permuted h =>
    intro p
    unfold Exported
    simp only [h.mem_iff]
  | @repeated names q name hq hname =>
    intro p
    rw [exported_cons]
    constructor
    · exact Or.inr
    · rintro (hp | hp)
      · rw [starts_with_world_unique hp hname]
        exact hq
      · exact hp
  | unrelated hname =>
    intro p
    rw [exported_cons, hname p]
    simp
  | trans _ _ ih ih' => exact fun p => (ih p).trans (ih' p)

/-! ## Detection

By how many worlds there are. -/

section Detect

variable {κ : Type} (engine : Engine κ) (component : κ)

/-- What `detect_profile` makes of the count. -/
theorem detect_profile_eq :
    engine.detect_profile component =
      match worlds (engine.exports component) with
      | [profile] => .ok profile
      | [] => .error (.UnsupportedComponent "expected a standard WASI CLI or HTTP handler export")
      | _ => .error (.UnsupportedComponent
          "component exports more than one supported WASI world") := by
  unfold Engine.detect_profile worlds
  rw [← destutter_eq_dedup]
  rfl

theorem detect_profile_none
    (h : ∀ p, ¬ Exported (engine.exports component) p) :
    engine.detect_profile component =
      .error (.UnsupportedComponent "expected a standard WASI CLI or HTTP handler export") := by
  have hnil : worlds (engine.exports component) = [] := by
    apply List.eq_nil_iff_forall_not_mem.mpr
    intro p hp
    exact h p (mem_worlds.mp hp)
  rw [detect_profile_eq, hnil]

theorem detect_profile_only {p : WasiProfile} (hp : Exported (engine.exports component) p)
    (honly : ∀ q, Exported (engine.exports component) q → q = p) :
    engine.detect_profile component = .ok p := by
  -- Every member of the count is `p`, and no member is there twice.
  have hone : worlds (engine.exports component) = [p] := by
    have hperm := (List.perm_ext_iff_of_nodup (worlds_nodup (engine.exports component))
      (List.nodup_singleton p)).mpr ?_
    · exact List.perm_singleton.mp hperm
    · intro q
      rw [mem_worlds, List.mem_singleton]
      constructor
      · exact honly q
      · rintro rfl
        exact hp
  rw [detect_profile_eq, hone]

theorem detect_profile_several {p q : WasiProfile} (hne : p ≠ q)
    (hp : Exported (engine.exports component) p) (hq : Exported (engine.exports component) q) :
    engine.detect_profile component =
      .error (.UnsupportedComponent "component exports more than one supported WASI world") := by
  have hp := mem_worlds.mpr hp
  have hq := mem_worlds.mpr hq
  rw [detect_profile_eq]
  cases hcount : worlds (engine.exports component) with
  | nil =>
    rw [hcount] at hp
    exact absurd hp List.not_mem_nil
  | cons first rest =>
    cases rest with
    | nil =>
      rw [hcount, List.mem_singleton] at hp hq
      exact absurd (hp.trans hq.symm) hne
    | cons second rest => rfl

/-- Detection depends on the exported worlds alone. It answers with a profile when its world is
the only one of the four among the exports, and otherwise says which way that failed; and what
is done to the list of names without changing its worlds does not change the answer. -/
theorem detect_profile_by_worlds :
    (∀ p, engine.detect_profile component = .ok p ↔
      Exported (engine.exports component) p ∧
        ∀ q, Exported (engine.exports component) q → q = p) ∧
    ((∀ p, ¬ Exported (engine.exports component) p) →
      engine.detect_profile component =
        .error (.UnsupportedComponent
          "expected a standard WASI CLI or HTTP handler export")) ∧
    (∀ p q, p ≠ q → Exported (engine.exports component) p →
      Exported (engine.exports component) q →
      engine.detect_profile component =
        .error (.UnsupportedComponent
          "component exports more than one supported WASI world")) ∧
    (∀ (κ' : Type) (engine' : Engine κ') (component' : κ'),
      Rearranged (engine.exports component) (engine'.exports component') →
      engine'.detect_profile component' = engine.detect_profile component) := by
  refine ⟨fun p => ⟨fun h => ?_, fun h => ?_⟩, detect_profile_none engine component,
    fun p q => detect_profile_several engine component, fun κ' engine' component' h => ?_⟩
  · -- If it answered `p` there was a world, and no second one.
    by_cases hsome : ∃ q, Exported (engine.exports component) q
    · obtain ⟨q, hq⟩ := hsome
      have honly : ∀ r, Exported (engine.exports component) r → r = q := by
        intro r hr
        by_contra hne
        rw [detect_profile_several engine component hne hr hq] at h
        exact absurd h (by simp)
      have hpq : q = p := by
        rw [detect_profile_only engine component hq honly] at h
        exact Except.ok.inj h
      rw [← hpq]
      exact ⟨hq, honly⟩
    · rw [detect_profile_none engine component (not_exists.mp hsome)] at h
      exact absurd h (by simp)
  · exact detect_profile_only engine component h.1 h.2
  · rw [detect_profile_eq, detect_profile_eq, worlds_congr h.exported_iff]

end Detect

/-- An engine for which a component is the list of its exports. -/
def listingEngine : Engine (List String) where
  from_binary _ := .error "not a component"
  exports names := names
  serialize _ := .error "not serialized"
  deserialize _ := .error "not a component"

/-- A proxy keeps its profile when it exports its handler in a second version and a world of
its own, and stops having one when it exports a command as well. -/
theorem detect_profile_by_worlds_proxy :
    listingEngine.detect_profile ["wasi:http/incoming-handler@0.2.0"] = .ok .Http0_2 ∧
    listingEngine.detect_profile ["wasi:http/incoming-handler@0.2.6", "local:app/init",
      "wasi:http/incoming-handler@0.2.0"] = .ok .Http0_2 ∧
    listingEngine.detect_profile ["local:app/init"] =
      .error (.UnsupportedComponent "expected a standard WASI CLI or HTTP handler export") ∧
    listingEngine.detect_profile ["wasi:http/incoming-handler@0.2.0", "wasi:cli/run@0.2.0"] =
      .error (.UnsupportedComponent
        "component exports more than one supported WASI world") := by
  have hproxy := ((detect_profile_by_worlds listingEngine
    ["wasi:http/incoming-handler@0.2.0"]).1 .Http0_2).mpr
    ⟨by decide, fun q => by cases q <;> decide⟩
  refine ⟨hproxy, ?_, ?_, ?_⟩
  · have hsteps : Rearranged ["wasi:http/incoming-handler@0.2.0"]
        ["wasi:http/incoming-handler@0.2.6", "local:app/init",
          "wasi:http/incoming-handler@0.2.0"] :=
      .trans (.unrelated fun p => by cases p <;> decide)
        (.repeated (p := .Http0_2) (by decide) (by decide))
    exact ((detect_profile_by_worlds listingEngine
      ["wasi:http/incoming-handler@0.2.0"]).2.2.2 _ listingEngine _ hsteps).trans hproxy
  · exact (detect_profile_by_worlds listingEngine ["local:app/init"]).2.1
      fun p => by cases p <;> decide
  · exact (detect_profile_by_worlds listingEngine
      ["wasi:http/incoming-handler@0.2.0", "wasi:cli/run@0.2.0"]).2.2.1 .Http0_2 .Cli0_2
      (by decide) (by decide) (by decide)

end WasmRuntime.Cache
