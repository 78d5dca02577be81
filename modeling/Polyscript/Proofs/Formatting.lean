import Polyscript.Proofs.Lowering.Formatting
import Polyscript.Proofs.Model.Formatting

/-!
# Formatting never affects the translation

Two programs that differ in their source texts and places only are lowered to models that
differ in fragments only, whether fragments are kept or not; and the text of a model in any
language is the text of the model without fragments with blank lines and comments added.
-/

namespace Polyscript

namespace Source.Program

variable {p p' : Program} {config : Config}

/-- Programs that differ in source text and places only are lowered with the same outcome:
either to models that are the same without fragments, or to the same cause. -/
theorem lower_bare_eq (same : p.unspanned = p'.unspanned) (config : Config)
    (keep keep' : Bool) :
    (p.lower { config with keepFragments := keep }).map Model.Unit.bare =
      (p'.lower { config with keepFragments := keep' }).map Model.Unit.bare := by
  rw [← lower_unspanned, ← lower_unspanned, same]

/-- Formatting never affects the translation. Take two programs that differ in source text
and places only, and let fragments be kept or not in lowering either. Both fail with the same
cause or both have models, which are then equal without their fragments. Any model, with
fragments or without, is written in every language or fails to be with the same cause, and
without its fragments its text only loses lines that are blank or comments. -/
theorem formatting_never_matters (same : p.unspanned = p'.unspanned) (config : Config)
    (unbroken : '\n' ∉ config.indent.toList) (keep keep' : Bool) :
    (∀ cause, p.lower { config with keepFragments := keep } = .error cause ↔
      p'.lower { config with keepFragments := keep' } = .error cause) ∧
    (∀ model model', p.lower { config with keepFragments := keep } = .ok model →
      p'.lower { config with keepFragments := keep' } = .ok model' → model.bare = model'.bare) ∧
    ∀ (t : Target) (model : Model.Unit),
      (∀ cause, model.render t config.indent = .error cause ↔
        model.bare.render t config.indent = .error cause) ∧
      ∀ text, model.render t config.indent = .ok text →
        ∃ text', model.bare.render t config.indent = .ok text' ∧
          Layout.Thins t.commentSign config.indent text text' := by
  -- the outcomes agree without fragments, and a cause has none
  have outcomes := lower_bare_eq same config keep keep'
  refine ⟨fun cause => ?_, fun model model' ok ok' => ?_, fun t model => ⟨fun cause => ?_,
    fun text ok => ?_⟩⟩
  · cases h : p.lower { config with keepFragments := keep } <;>
      cases h' : p'.lower { config with keepFragments := keep' } <;>
      simp_all [Except.map]
  · rw [ok, ok'] at outcomes
    exact Except.ok.inj outcomes
  · exact model.render_bare_eq_error t config.indent cause
  · exact model.render_bare_thins t unbroken ok

/-- A program whose entry method has a comment above its only statement. -/
def commented : Program where
  unit := {
    name := "demo.App"
    methods := [{
      name := "start"
      ret := .void
      body := { stmts := [.return none ⟨14, 21⟩], span := ⟨0, 23⟩ } }] }
  source := some "\x7b\n  // done\n  return;\n\x7d"

/-- The same program without its source text. -/
def uncommented : Program := { commented with source := none }

theorem formatting_never_matters_commented :
    (commented.unspanned = uncommented.unspanned ∧ '\n' ∉ "  ".toList) ∧
    ((commented.lower {}).toOption.map (·.entry.fragments) = some ["  // done\n", ""] ∧
      (uncommented.lower { keepFragments := false }).toOption.map (·.entry.fragments) =
        some []) ∧
    ((∀ model model', commented.lower {} = .ok model →
        uncommented.lower { keepFragments := false } = .ok model' → model.bare = model'.bare) ∧
      ∀ (t : Target) (model : Model.Unit) (text : String), commented.lower {} = .ok model →
        model.render t "  " = .ok text → ∃ text', model.bare.render t "  " = .ok text' ∧
          Layout.Thins t.commentSign "  " text text') := by
  have same : commented.unspanned = uncommented.unspanned := rfl
  have unbroken : '\n' ∉ "  ".toList := by decide
  obtain ⟨_, models, texts⟩ := formatting_never_matters same {} unbroken true false
  refine ⟨⟨same, unbroken⟩, ⟨by decide +kernel, by decide +kernel⟩, models, ?_⟩
  exact fun t model text _ ok => (texts t model).2 text ok

end Source.Program

end Polyscript
