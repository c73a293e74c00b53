import Mathlib.Data.List.Basic

/-!
# Escaping text for markup

The chains of `text.replace(/c/g, entity)` that put a text into HTML or XML.
-/

namespace TaroTria.Text

/-- `text.replace(/c/g, entity)`. -/
def replaceAll (c : Char) (entity text : String) : String :=
  String.ofList (text.toList.flatMap fun d => if d = c then entity.toList else [d])

/-- The replacements of a table, in its order. -/
def escape (entities : List (Char × String)) (text : String) : String :=
  entities.foldl (fun text e => replaceAll e.1 e.2 text) text

/-- The entities of HTML text; the last is the double quote. -/
def htmlEntities : List (Char × String) :=
  [('&', "&amp;"), ('<', "&lt;"), ('>', "&gt;"), (Char.ofNat 34, "&quot;")]

/-- The entities of XML text, which add the single quote. -/
def xmlEntities : List (Char × String) := htmlEntities ++ [(Char.ofNat 39, "&apos;")]

theorem mem_toList_replaceAll {c d : Char} {entity text : String} :
    d ∈ (replaceAll c entity text).toList ↔
      (d ∈ text.toList ∧ d ≠ c) ∨ (c ∈ text.toList ∧ d ∈ entity.toList) := by
  simp only [replaceAll, String.toList_ofList, List.mem_flatMap]
  constructor
  · rintro ⟨e, he, hd⟩
    by_cases hec : e = c
    · rw [if_pos hec] at hd
      exact .inr ⟨hec ▸ he, hd⟩
    · rw [if_neg hec, List.mem_singleton] at hd
      exact .inl ⟨hd ▸ he, hd ▸ hec⟩
  · rintro (⟨hd, hne⟩ | ⟨hc, hd⟩)
    · exact ⟨d, hd, by simp [hne]⟩
    · exact ⟨c, hc, by simpa using hd⟩

/-- A character that no entity contains and that the table replaces is gone. -/
theorem not_mem_escape {entities : List (Char × String)} {c : Char} (text : String)
    (hmem : c ∈ entities.map Prod.fst) (hout : ∀ e ∈ entities, c ∉ e.2.toList) :
    c ∉ (escape entities text).toList := by
  have hkept : ∀ (table : List (Char × String)) (s : String), (∀ e ∈ table, c ∉ e.2.toList) →
      c ∉ s.toList → c ∉ (escape table s).toList := by
    intro table
    induction table with
    | nil => exact fun s _ hs => hs
    | cons e table ih =>
        intro s htable hs
        refine ih _ (fun e' he' => htable e' (List.mem_cons_of_mem _ he')) ?_
        rw [mem_toList_replaceAll]
        rintro (⟨hc, -⟩ | ⟨-, hc⟩)
        · exact hs hc
        · exact htable e List.mem_cons_self hc
  induction entities generalizing text with
  | nil => simp at hmem
  | cons e entities ih =>
      have hrest : ∀ e' ∈ entities, c ∉ e'.2.toList := fun e' he' =>
        hout e' (List.mem_cons_of_mem _ he')
      rcases List.mem_cons.mp hmem with rfl | hmem
      · refine hkept entities _ hrest ?_
        rw [mem_toList_replaceAll]
        rintro (⟨-, hc⟩ | ⟨-, hc⟩)
        · exact hc rfl
        · exact hout e List.mem_cons_self hc
      · exact ih _ hmem hrest

end TaroTria.Text
