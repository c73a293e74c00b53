import TaroTria.Ai.AiOrchestrator

/-!
# Templates and their placeholders

A template is a list of literal texts and placeholders. The scan finds these segments
again, and it never looks at what it has inserted.
-/

namespace TaroTria

namespace AiOrchestratorService

/-- A segment of a template: a text without braces, or a placeholder. -/
inductive Segment
  | literal (text : String) (plain : ∀ c ∈ text.toList, c ≠ '\x7b' ∧ c ≠ '\x7d')
  | placeholder (key : String) (nonempty : key ≠ "") (word : ∀ c ∈ key.toList, isWordChar c)

namespace Segment

/-- The segment as it stands in the template. -/
def written : Segment → List Char
  | literal text _ => text.toList
  | placeholder key _ _ => '\x7b' :: '\x7b' :: (key.toList ++ ['\x7d', '\x7d'])

/-- The segment with its value; a missing key has the empty one. -/
def filled (promptVariables : List (String × String)) : Segment → List Char
  | literal text _ => text.toList
  | placeholder key _ _ => ((promptVariables.lookup key).getD "").toList

/-- The names of the placeholders of a segment. -/
def keys : Segment → List String
  | literal _ _ => []
  | placeholder key _ _ => [key]

end Segment

/-- The template of some segments. -/
def template (segments : List Segment) : String :=
  String.ofList (segments.flatMap Segment.written)

theorem placeholder?_of_ne {c : Char} (hc : c ≠ '\x7b') (rest : List Char) :
    placeholder? (c :: rest) = none := by
  unfold placeholder?
  split
  · rename_i heq
    exact absurd (List.cons.inj heq).1 hc
  · rfl

/-- A placeholder is recognised whatever follows it. -/
theorem placeholder?_written {name : List Char} (hname : name ≠ [])
    (hword : ∀ c ∈ name, isWordChar c = true) (rest : List Char) :
    placeholder? ('\x7b' :: '\x7b' :: (name ++ '\x7d' :: '\x7d' :: rest)) = some name := by
  have hstop : isWordChar '\x7d' = false := by decide
  have htake : (name ++ '\x7d' :: '\x7d' :: rest).takeWhile isWordChar = name := by
    rw [List.takeWhile_append_of_pos hword, List.takeWhile_cons, hstop]
    exact List.append_nil name
  have hdrop : (name ++ '\x7d' :: '\x7d' :: rest).dropWhile isWordChar =
      '\x7d' :: '\x7d' :: rest := by
    rw [List.dropWhile_append_of_pos hword, List.dropWhile_cons, hstop]
    rfl
  simp [placeholder?, htake, hdrop, hname, List.isPrefixOf]

section Scan

variable {value : String → String}

/-- A text without an opening brace is copied. -/
theorem replacePlaceholders_literal {text : List Char} (h : ∀ c ∈ text, c ≠ '\x7b')
    (rest : List Char) :
    replacePlaceholders value 0 (text ++ rest) = text ++ replacePlaceholders value 0 rest := by
  induction text with
  | nil => rfl
  | cons c text ih =>
      have hnone := placeholder?_of_ne (h c List.mem_cons_self) (text ++ rest)
      rw [List.cons_append, replacePlaceholders, hnone,
        ih fun d hd => h d (List.mem_cons_of_mem c hd), List.cons_append]

theorem replacePlaceholders_skip (skipped rest : List Char) :
    replacePlaceholders value skipped.length (skipped ++ rest) =
      replacePlaceholders value 0 rest := by
  induction skipped with
  | nil => rfl
  | cons c skipped ih => exact ih

/-- A placeholder is replaced, and the scan goes on after it. -/
theorem replacePlaceholders_placeholder {name : List Char} (hname : name ≠ [])
    (hword : ∀ c ∈ name, isWordChar c = true) (rest : List Char) :
    replacePlaceholders value 0 ('\x7b' :: '\x7b' :: (name ++ '\x7d' :: '\x7d' :: rest)) =
      (value (String.ofList name)).toList ++ replacePlaceholders value 0 rest := by
  rw [replacePlaceholders, placeholder?_written hname hword]
  have hskip : replacePlaceholders value (name.length + 3)
      ('\x7b' :: (name ++ '\x7d' :: '\x7d' :: rest)) = replacePlaceholders value 0 rest := by
    simpa using @replacePlaceholders_skip value ('\x7b' :: (name ++ ['\x7d', '\x7d'])) rest
  simp only [hskip]

/-- The scan replaces segment by segment. -/
theorem replacePlaceholders_segments {promptVariables : List (String × String)}
    {segments : List Segment} (h : ∀ s ∈ segments, ∀ key ∈ s.keys,
      value key = (promptVariables.lookup key).getD "") :
    replacePlaceholders value 0 (segments.flatMap Segment.written) =
      segments.flatMap (Segment.filled promptVariables) := by
  induction segments with
  | nil => rfl
  | cons s segments ih =>
      have htail := ih fun s' hs' => h s' (List.mem_cons_of_mem s hs')
      have hvalue := h s List.mem_cons_self
      rw [List.flatMap_cons, List.flatMap_cons]
      cases s with
      | literal text plain =>
          rw [Segment.written, replacePlaceholders_literal fun c hc => (plain c hc).1, htail]
          rfl
      | placeholder key nonempty word =>
          have hname : key.toList ≠ [] := fun hnil => nonempty (String.toList_eq_nil_iff.mp hnil)
          have hscan := @replacePlaceholders_placeholder value _ hname word
            (segments.flatMap Segment.written)
          rw [String.ofList_toList, hvalue key (by simp [Segment.keys]), htail] at hscan
          simpa [Segment.written, Segment.filled] using hscan

end Scan

/-- A template is filled in one pass: its literal texts stay, and each value is inserted as
it is. -/
theorem interpolate_template (R : AiRuntime) (promptVariables : List (String × String))
    (segments : List Segment)
    (hkeys : ∀ s ∈ segments, ∀ key ∈ s.keys, R.inherited key = none) :
    interpolate R (template segments) promptVariables =
      String.ofList (segments.flatMap (Segment.filled promptVariables)) := by
  unfold interpolate template
  rw [String.toList_ofList]
  refine congrArg String.ofList (replacePlaceholders_segments fun s hs key hkey => ?_)
  rw [hkeys s hs key hkey]
  cases promptVariables.lookup key <;> rfl

/-- A question that looks like a placeholder and like a replacement pattern. -/
theorem interpolate_template_of_question :
    interpolate ⟨"", fun _ => "", fun _ _ => "", fun _ => none⟩
      (template [.literal "Pregunta: " (by simp),
        .placeholder "question" (by simp) (by simp [isWordChar])])
      [("question", "\x7b\x7bcards\x7d\x7d $& $1"), ("cards", "El Sol")] =
        "Pregunta: \x7b\x7bcards\x7d\x7d $& $1" :=
  interpolate_template _ _ _ (by simp)

end AiOrchestratorService

end TaroTria
