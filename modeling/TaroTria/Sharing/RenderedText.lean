import TaroTria.Sharing.ShareImage
import TaroTria.Text.Unescape

/-!
# The texts of a share image

What `escapeXml` writes is free of markup and reads back as the text it was given.
-/

namespace TaroTria

open Text

namespace ShareImageRenderer

/-- The entities of XML text all begin with `&` and end with the only `;` they have. -/
theorem xmlEntities_readable : Readable '&' xmlEntities := by
  refine ⟨by unfold InOrder; decide, by decide, fun e he => ?_, by decide⟩
  have hmark : ∀ e ∈ xmlEntities, e.2.toList = '&' :: e.2.toList.tail ∧ '&' ∉ e.2.toList.tail := by
    decide
  exact ⟨_, hmark e he⟩

/-- An escaped text has no bracket and no quote, its ampersands start entities, and reading
the entities from left to right gives the text back. -/
theorem escapeXml_faithful : (∀ text : String,
    (∀ c ∈ ['<', '>', Char.ofNat 34, Char.ofNat 39], c ∉ (escapeXml text).toList) ∧
    (∀ before after, (escapeXml text).toList = before ++ '&' :: after →
      ∃ entity ∈ ["&amp;", "&lt;", "&gt;", "&quot;", "&apos;"], entity.toList <+: '&' :: after) ∧
    unescape xmlEntities (escapeXml text) = text) ∧ Function.Injective escapeXml := by
  refine ⟨fun text => ⟨fun c hc => ?_, fun before after htext => ?_, ?_⟩, ?_⟩
  · have hreplaced : ['<', '>', Char.ofNat 34, Char.ofNat 39].all (fun c =>
        c ∈ xmlEntities.map Prod.fst ∧ ∀ e ∈ xmlEntities, c ∉ e.2.toList) = true := by decide
    obtain ⟨hmem, hout⟩ := of_decide_eq_true (List.all_eq_true.mp hreplaced c hc)
    exact not_mem_escape text hmem hout
  · rw [escapeXml, toList_escape xmlEntities_readable.inOrder] at htext
    obtain ⟨e, he, hprefix⟩ := xmlEntities_readable.marker_starts htext
    exact ⟨e.2, List.mem_map_of_mem (f := Prod.snd) he, hprefix⟩
  · exact xmlEntities_readable.unescape_escape text
  · exact xmlEntities_readable.escape_injective

end ShareImageRenderer

end TaroTria
