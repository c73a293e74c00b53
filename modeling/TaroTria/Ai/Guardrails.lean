import TaroTria.Json.Value
import TaroTria.Text.Regex

/-!
# The guardrails of the AI tasks

The patterns of `output-guardrail.ts` and of `risk-guardrail.ts`, over code units.

## Implementation notes

The patterns carry the flag `i` and no other: two units are the same letter when
they have one upper case, which for the letters of the patterns is 32 below.
-/

namespace TaroTria

open JsString (unit)

/-- The letters from `a` to `z` and from `à` to `þ`. -/
def isLower (u : UInt16) : Bool :=
  (0x61 ≤ u && u ≤ 0x7A) || (0xE0 ≤ u && u ≤ 0xFE && u != 0xF7)

/-- A unit of a text matches a unit of a pattern without regard to case. -/
def sameLetter (p u : UInt16) : Bool := u == p || (isLower p && u + 0x20 == p)

/-- The class `\s`. -/
def isWhiteSpace (u : UInt16) : Bool :=
  (0x09 ≤ u && u ≤ 0x0D) || u == 0x20 || u == 0xA0 || u == 0x1680 ||
    (0x2000 ≤ u && u ≤ 0x200A) || u == 0x2028 || u == 0x2029 || u == 0x202F || u == 0x205F ||
    u == 0x3000 || u == 0xFEFF

namespace Guardrail

def letters (cs : List Char) : Regex UInt16 :=
  .char fun u => cs.any fun c => sameLetter (unit c) u

def word (s : String) : Regex UInt16 := .seqs (s.toList.map fun c => letters [c])

def spaces : Regex UInt16 := .plus isWhiteSpace

end Guardrail

open Guardrail (letters word spaces)

def PROHIBITED_OUTPUT_PATTERNS : List (Regex UInt16) :=
  [.seqs [word "tienes", spaces, .oneOf
      [.seqs [word "c", letters ['a', 'á'], word "ncer"],
        .seqs [word "depresi", letters ['o', 'ó'], word "n"],
        word "una enfermedad"]],
    .seqs [.oneOf [word "debes", .seqs [word "deber", letters ['i', 'í'], word "as"]], spaces,
      .oneOf [word "dejar", word "suspender"], spaces, word "tu", spaces, word "tratamiento"],
    .seqs [word "te", spaces, word "recomiendo", spaces,
      .oneOf [word "invertir", word "demandar", word "denunciar"]],
    .seqs [word "vas", spaces, word "a", spaces, word "morir"],
    .seqs [word "es", spaces, word "seguro", spaces, word "que", spaces,
      .oneOf [word "vas a", .seqs [word "ocurrir", letters ['a', 'á']]]],
    .seqs [.oneOf [word "garantizo", word "te garantizo", word "con toda certeza"], spaces,
      word "que"]]

def containsProhibitedContent (text : JsString) : Bool :=
  PROHIBITED_OUTPUT_PATTERNS.any fun pattern => pattern.test text

def HIGH_RISK_PATTERNS : List (Regex UInt16) :=
  [word "suicid", word "matarme", word "quitarme la vida",
    .seqs [word "autolesi", letters ['o', 'ó'], word "n"],
    .seqs [word "hacerme da", letters ['ñ', 'n'], word "o"],
    word "no quiero vivir", word "quiero morir"]

def detectHighRiskContent (text : String) : Bool :=
  HIGH_RISK_PATTERNS.any fun pattern => pattern.test (JsString.ofString text)

/-- A text is prohibited as soon as a part of it is. -/
theorem containsProhibitedContent_of_infix {part text : JsString} (hpart : part <:+: text)
    (h : containsProhibitedContent part = true) : containsProhibitedContent text = true := by
  obtain ⟨pattern, hmem, htest⟩ := List.any_eq_true.mp h
  exact List.any_eq_true.mpr ⟨pattern, hmem, Regex.test_of_infix hpart htest⟩

example : containsProhibitedContent
    (JsString.ofString "Las cartas revelan que Tienes  cáncer.") = true := by decide +kernel

example : containsProhibitedContent
    (JsString.ofString "Esta carta invita a reflexionar sobre nuevos comienzos.") = false := by
  decide +kernel

end TaroTria
