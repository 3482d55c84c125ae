import VideoEdit.Proofs.Pattern.Parts
import VideoEdit.Proofs.Pattern.Spelling
import VideoEdit.Proofs.Prompt.Account
/-!
# The format that a prompt asks for

A prompt asks for an animated image if one of its words is "gif" or "gifs", and for a video
otherwise. A word is a run of word characters that is as long as possible, and letter case does not
matter.
-/
namespace VideoEdit

/-- A word of a text: a run of word characters that stands next to no other one. -/
def IsWordOf (word text : List Char) : Prop :=
  word ≠ [] ∧ (∀ c ∈ word, isWord c) ∧ ∃ front back, text = front ++ word ++ back ∧
    front.getLast?.any isWord = false ∧ back.head?.any isWord = false

namespace Phrase
variable {before : Option Char} {u after : List Char}

private theorem reads_plural {first : String} :
    (plural first).Reads before u after ↔ Spells u first ∨ Spells u (first ++ "s") := by
  constructor
  · rintro ⟨v, w, rfl, hv, hw | hw⟩
    · exact Or.inr ((Pattern.reads_word.1 hv).append (Pattern.reads_word.1 hw))
    · obtain rfl : w = [] := hw
      rw [List.append_nil]
      exact Or.inl (Pattern.reads_word.1 hv)
  · rintro (hu | hu)
    · exact ⟨u, [], (List.append_nil u).symm, Pattern.reads_word.2 hu, Or.inr rfl⟩
    · unfold Spells at hu
      rw [String.toList_append] at hu
      obtain ⟨v, w, rfl, hv, hw⟩ := List.map_eq_append_iff.1 hu
      exact ⟨v, w, rfl, Pattern.reads_word.2 hv, Or.inl (Pattern.reads_word.2 hw)⟩

end Phrase

private theorem Phrase.isWord_of_spells_gif {u : List Char} (h : Spells u "gif" ∨ Spells u "gifs") :
    u ≠ [] ∧ ∀ c ∈ u, isWord c := by
  constructor
  · rintro rfl
    revert h
    decide
  · exact h.elim (fun h => h.isWord (by decide)) (fun h => h.isWord (by decide))

private theorem Phrase.reads_gif {before : Option Char} {u after : List Char} :
    gif.Reads before u after ↔
      (Spells u "gif" ∨ Spells u "gifs") ∧ before.any isWord = false ∧
        after.head?.any isWord = false := by
  have hboundaries (hspells : Spells u "gif" ∨ Spells u "gifs") :
      Scan.boundary before (u ++ after) = !before.any isWord ∧
        Scan.boundary (lastOr before u) after = !after.head?.any isWord := by
    obtain ⟨hne, hword⟩ := isWord_of_spells_gif hspells
    exact ⟨boundary_before_word hne hword, boundary_after_word hne hword⟩
  constructor
  · rintro ⟨v, w, rfl, ⟨_, v, rfl, ⟨rfl, hbefore⟩, hv⟩, rfl, hafter⟩
    rw [List.nil_append, List.append_nil] at *
    have hspells := reads_plural.1 hv
    obtain ⟨hleft, hright⟩ := hboundaries hspells
    rw [hleft] at hbefore
    rw [hright] at hafter
    exact ⟨hspells, by simpa using hbefore, by simpa using hafter⟩
  · rintro ⟨hspells, hbefore, hafter⟩
    obtain ⟨hleft, hright⟩ := hboundaries hspells
    refine ⟨u, [], (List.append_nil u).symm, ⟨[], u, rfl, ⟨rfl, ?_⟩, reads_plural.2 hspells⟩, rfl,
      ?_⟩
    · rw [List.nil_append, hleft, hbefore]
      rfl
    · rw [hright, hafter]
      rfl

private theorem Phrase.gif_not_reads_nil (before : Option Char) (after : List Char) :
    ¬gif.Reads before [] after := by
  rw [reads_gif]
  rintro ⟨hspells, -⟩
  revert hspells
  decide

namespace Prompt

private theorem output_eq_gif_iff (prompt : String) :
    (parse prompt).output = .gif ↔ ∃ m, m ∈ Phrase.gif.search prompt.toList := by
  rw [parse, output_assembleFindings]
  constructor
  · rintro ⟨f, hf, hgif⟩
    obtain ⟨m, hm, hfinding, -⟩ := mem_findingsOf_match (mem_findings.1 hf)
    rw [hgif] at hfinding
    rcases Rule.finding?_sort hfinding with ⟨-, _, hop, -⟩ | ⟨-, _, hs | he⟩ | ⟨hrule, -⟩
    · cases hop
    · cases hs
    · cases he
    · rw [hrule] at hm
      exact ⟨m, hm⟩
  · rintro ⟨m, hm⟩
    refine ⟨⟨m.start, m.stop, .gif, .output .gif⟩, ?_, rfl⟩
    exact mem_findings.2 (List.mem_filterMap.2 ⟨m, hm, rfl⟩)

/-- A prompt asks for an animated image exactly if one of its words is "gif" or "gifs". -/
theorem parse_output (prompt : String) :
    ((parse prompt).output = .gif ↔
      ∃ word, IsWordOf word prompt.toList ∧ (Spells word "gif" ∨ Spells word "gifs")) ∧
    ((parse prompt).output = .mp4 ↔
      ¬∃ word, IsWordOf word prompt.toList ∧ (Spells word "gif" ∨ Spells word "gifs")) := by
  have hgif : (parse prompt).output = .gif ↔
      ∃ word, IsWordOf word prompt.toList ∧ (Spells word "gif" ∨ Spells word "gifs") := by
    rw [output_eq_gif_iff, Pattern.exists_match_iff Phrase.gif_not_reads_nil]
    constructor
    · rintro ⟨front, word, back, htext, hreads⟩
      obtain ⟨hspells, hfront, hback⟩ := Phrase.reads_gif.1 hreads
      obtain ⟨hne, hword⟩ := Phrase.isWord_of_spells_gif hspells
      exact ⟨word, ⟨hne, hword, front, back, htext, hfront, hback⟩, hspells⟩
    · rintro ⟨word, ⟨-, -, front, back, htext, hfront, hback⟩, hspells⟩
      exact ⟨front, word, back, htext, Phrase.reads_gif.2 ⟨hspells, hfront, hback⟩⟩
  refine ⟨hgif, ?_⟩
  rw [← hgif]
  cases (parse prompt).output <;> simp

end Prompt
end VideoEdit
