import VideoEdit.Proofs.Config.Spelling
import VideoEdit.Proofs.Yaml.Blank
/-!
# Partial configurations

A configuration gives some of the settings, with its keys in any order and in any style that YAML
has. The settings that it does not give are the defaults, and it is usable if all of them together
are. A key that is no setting makes it an error, whatever else it gives.
-/
namespace VideoEdit

open Config

namespace Settings

private theorem ofText_of_mapping {text : String} {p : Yaml.Properties}
    {pairs : List (Yaml.Node × Yaml.Node)}
    (h : (Yaml.document text).root = some (.mapping p pairs)) :
    ofText text = ofDocument (Yaml.document text) := by
  have hblank : ¬ isAllBlank text := fun hblank =>
    Yaml.document_root_ne_mapping hblank p pairs h
  rw [ofText, if_neg hblank]

private theorem ofText_of_isWrittenIn {o : Overrides} {text : String} (h : o.IsWrittenIn text) :
    ofText text = ((o.over {}).check.mapError .unusable).map fun () => o.over {} := by
  obtain ⟨root, hroot, hwhole, hwritten⟩ := h
  have hread := readRoot_of_isWritten hwritten
  obtain ⟨hfault, hlast⟩ : (Yaml.document text).fault = none ∧ (Yaml.document text).isLast := by
    simpa [Yaml.Document.isWhole] using hwhole
  obtain ⟨p, pairs, rfl, -⟩ := hwritten
  rw [ofText_of_mapping hroot]
  simp only [ofDocument, hroot, hread, hfault, hlast, Bool.not_true, Bool.false_eq_true, if_false]
  change ((o.over {}).check.mapError ConfigError.unusable >>= fun _ => pure (o.over {})) = _
  cases (o.over {}).check <;> rfl

private theorem ofText_of_hasUnknownSetting {text : String} {root : Yaml.Node}
    (hroot : (Yaml.document text).root = some root) (h : HasUnknownSetting root) :
    ∃ e, ofText text = .error e := by
  obtain ⟨e, he⟩ := readRoot_of_hasUnknownSetting h
  obtain ⟨p, pairs, rfl⟩ : ∃ p pairs, root = .mapping p pairs := by
    obtain ⟨p, pairs, hmapping, -⟩ | ⟨p, pairs, hmapping, -⟩ := h <;> exact ⟨p, pairs, hmapping⟩
  rw [ofText_of_mapping hroot]
  refine ⟨.unreadable e, ?_⟩
  simp only [ofDocument, hroot, he]
  rfl

/-- A text that writes some of the settings, in any style and with its keys in any order, gives
these settings over the defaults if all are usable together, and the reason why they are not
otherwise. Whichever settings are given and whatever the order of their keys, some text writes them.
A key that is no setting, in the configuration or in one of its groups, makes any text an error. -/
theorem ofText_partial :
    (∀ (o : Overrides) (text : String), o.IsWrittenIn text →
      ((o.over {}).check = .ok () → ofText text = .ok (o.over {})) ∧
        ∀ e, (o.over {}).check = .error e → ofText text = .error (.unusable e)) ∧
    (∀ (o : Overrides) (tree : Yaml.Tree), o.Fits → o.IsSpelling tree →
      o.IsWrittenIn (String.ofList tree.text)) ∧
    ∀ (text : String) (root : Yaml.Node), (Yaml.document text).root = some root →
      HasUnknownSetting root → ∃ e, ofText text = .error e := by
  refine ⟨fun o text h => ⟨fun hcheck => ?_, fun e hcheck => ?_⟩,
    fun o tree hfits h => Overrides.isWrittenIn_of_isSpelling h hfits,
    fun text root => ofText_of_hasUnknownSetting⟩
  · rw [ofText_of_isWrittenIn h, hcheck]
    rfl
  · rw [ofText_of_isWrittenIn h, hcheck]
    rfl

theorem ofText_partial_reordered :
    ofText "\x7bgif: \x7bfps: 12\x7d, duplicates: last\x7d" =
        .ok { duplicates := .last, gif := { fps := 12 } } ∧
      ∃ e, ofText "\x7bgif: \x7bfps: 12, loop: 3\x7d\x7d" = .error e := by
  let fps : Yaml.Key × Yaml.Tree := (keyOf "fps" (by decide), .word (.ofNat 12))
  let loop : Yaml.Key × Yaml.Tree := (keyOf "loop" (by decide), .word (.ofNat 3))
  let gif (pairs : List (Yaml.Key × Yaml.Tree)) : Yaml.Key × Yaml.Tree :=
    (keyOf "gif" (by decide), .mapping pairs)
  let policy : Yaml.Key × Yaml.Tree :=
    (keyOf "duplicates" (by decide), .word (policyWord .last))
  obtain ⟨hmerge, hwrites, hunknown⟩ := ofText_partial
  constructor
  · let o : Overrides := { duplicates := some .last, gif := some { fps := some 12 } }
    have hfits : o.Fits := ⟨by simp [o], by simp [o, Width.size], by simp [o], by simp [o]⟩
    have hspells : o.IsSpelling (.mapping [gif [fps], policy]) :=
      ⟨none, some (.mapping [fps]), none, .none, .some ⟨_, rfl, .refl _⟩, .none, _, rfl,
        .swap _ _ _⟩
    have hcheck : (o.over {}).check = .ok () := by decide
    exact (hmerge o _ (hwrites o _ hfits hspells)).1 hcheck
  · obtain ⟨root, hroot, -, hnode⟩ := Yaml.document_mapping [gif [fps, loop]]
    exact hunknown _ root hroot
      (hasUnknownSetting_of_isNode hnode (.head _) (.tail _ (.head _)) (.tail _ (.head _))
        (by decide))

end Settings
end VideoEdit
