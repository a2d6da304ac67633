import UserFederation.Proofs.Payload

/-! The algebra of laying patches over components (`merging_laws`). Configs are laid over key by
key, the texts each as a whole, and the fields that mean nothing here stay those of the base. Each
law of configs comes from what an overlay does to one key, and those of components from the laws of
configs and of optional texts. -/

namespace UserFederation

namespace SortedMap

universe u

variable {α : Type u}

theorem overlay_assoc (a b c : SortedMap α) :
    a.overlay (b.overlay c) = (a.overlay b).overlay c :=
  ext_get? fun k => by simp only [get?_overlay, Option.or_assoc]

theorem overlay_absorb (base patch : SortedMap α) :
    (base.overlay patch).overlay patch = base.overlay patch :=
  ext_get? fun k => by rw [get?_overlay, get?_overlay, ← Option.or_assoc, Option.or_self]

theorem overlay_empty (base : SortedMap α) : base.overlay empty = base := rfl

end SortedMap

namespace Component

theorem overlayConfig_assoc (base : Option WireConfig) (a b : WireConfig) :
    overlayConfig base (overlayConfig (some a) b) = overlayConfig (some (overlayConfig base a)) b :=
  SortedMap.overlay_assoc _ a b

theorem overlayConfig_absorb (base : Option WireConfig) (patch : WireConfig) :
    overlayConfig (some (overlayConfig base patch)) patch = overlayConfig base patch :=
  SortedMap.overlay_absorb _ patch

theorem get?_overlayConfig (base : Option WireConfig) (patch : WireConfig) (key : String) :
    (overlayConfig base patch).get? key = (patch.get? key).or (base.bind (·.get? key)) := by
  rw [overlayConfig, SortedMap.get?_overlay]
  cases base <;> rfl

theorem mergedWith_assoc (a b c : Component) :
    a.mergedWith (b.mergedWith c) = (a.mergedWith b).mergedWith c := by
  have config : (a.mergedWith (b.mergedWith c)).config =
      ((a.mergedWith b).mergedWith c).config :=
    config_ext (by simp only [isSome_config_mergedWith, Bool.or_assoc]) fun key => by
      simp only [configList?_mergedWith, Option.or_assoc]
  exact Component.ext Option.or_assoc Option.or_assoc Option.or_assoc Option.or_assoc
    Option.or_assoc config rfl

theorem mergedWith_absorb (base patch : Component) :
    (base.mergedWith patch).mergedWith patch = base.mergedWith patch := by
  have absorb {α : Type} (own given : Option α) : given.or (given.or own) = given.or own := by
    rw [← Option.or_assoc, Option.or_self]
  have config : ((base.mergedWith patch).mergedWith patch).config =
      (base.mergedWith patch).config := by
    refine config_ext ?_ fun key => ?_
    · simp only [isSome_config_mergedWith, ← Bool.or_assoc, Bool.or_self]
    · simp only [configList?_mergedWith, absorb]
  exact Component.ext (absorb ..) (absorb ..) (absorb ..) (absorb ..) (absorb ..) config rfl

theorem mergedWith_empty (base : Component) : base.mergedWith {} = base := rfl

/-- Laying over is associative, the same patch counts once, and the empty patch changes nothing.
Per config key and per text the patch wins where it has one, and the fields that mean nothing here
are those of the base. Configs obey the same laws by themselves. -/
theorem merging_laws :
    (∀ a b c : Component, a.mergedWith (b.mergedWith c) = (a.mergedWith b).mergedWith c) ∧
    (∀ base patch : Component,
      (base.mergedWith patch).mergedWith patch = base.mergedWith patch ∧
      base.mergedWith {} = base ∧
      (∀ key, (base.mergedWith patch).configList? key =
        (patch.configList? key).or (base.configList? key)) ∧
      (∀ field, (base.mergedWith patch).text? field = (patch.text? field).or (base.text? field)) ∧
      (base.mergedWith patch).extra = base.extra) ∧
    (∀ (base : Option WireConfig) (a b : WireConfig),
      overlayConfig base (overlayConfig (some a) b) =
        overlayConfig (some (overlayConfig base a)) b) ∧
    ∀ (base : Option WireConfig) (patch : WireConfig),
      overlayConfig (some (overlayConfig base patch)) patch = overlayConfig base patch ∧
      overlayConfig base .empty = base.getD .empty ∧
      ∀ key, (overlayConfig base patch).get? key =
        (patch.get? key).or (base.bind (·.get? key)) := by
  refine ⟨mergedWith_assoc, fun base patch => ?_, overlayConfig_assoc, fun base patch => ?_⟩
  · exact ⟨mergedWith_absorb base patch, mergedWith_empty base, fun key => configList?_mergedWith,
      text?_mergedWith base patch, rfl⟩
  · exact ⟨overlayConfig_absorb base patch, SortedMap.overlay_empty _,
      get?_overlayConfig base patch⟩

end Component

end UserFederation
