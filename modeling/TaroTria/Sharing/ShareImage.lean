import TaroTria.Readings.ReadingInputs
import TaroTria.Sharing.SharingService
import TaroTria.Text.Escape

/-!
# The image of a share link

The SVG of a shared reading and the job that renders it, as in
`share-image.renderer.ts` and `share-image.processor.ts`.

## Implementation notes

`new URL(appUrl).host` is a parameter, which has no value for an invalid URL.
The rasterisation of the SVG and the upload are calls. What the job logs is left
out.
-/

namespace TaroTria

open Transactions Text

/-- The configuration of the job; `urlHost` is the host of a URL. -/
structure ShareImageConfig extends SharingConfig where
  urlHost : String → Option String

structure ShareImageData extends SanitizedReadingData where
  disclaimer : String
  appHost : String

namespace ShareImageRenderer

def SHARE_IMAGE_WIDTH_PX : Nat := 1080

def SHARE_IMAGE_HEIGHT_PX : Nat := 1920

namespace BRAND

def midnight : String := "#11152b"
def twilight : String := "#2a2158"
def amethyst : String := "#6c4ab6"
def gold : String := "#d9b66f"
def pearl : String := "#f7f3ea"
def lavender : String := "#b9a7f8"
def muted : String := "#a9a4c0"

end BRAND

def ORIENTATION_LABELS : CardOrientation → String
  | .UPRIGHT => "Derecha"
  | .REVERSED => "Invertida"

def SUIT_LABELS : MinorSuit → String
  | .WANDS => "Bastos"
  | .CUPS => "Copas"
  | .SWORDS => "Espadas"
  | .PENTACLES => "Oros"

def HAND_ILLUSTRATION_PATHS : List String :=
  ["M50 110 C 40 110, 35 90, 35 80 L 35 50 C 35 45, 30 45, 25 50 L 20 55 C 18 57, 15 55, 16 52 " ++
    "L 25 38 C 28 33, 33 35, 35 40 L 38 25 C 39 20, 44 20, 45 25 L 47 15 C 48 10, 53 10, 54 15 " ++
    "L 56 20 C 57 15, 62 15, 63 20 L 65 35 C 67 30, 72 32, 71 37 L 68 55 C 68 70, 60 110, 50 110 Z",
  "M30 65 Q 45 75 60 60",
  "M32 50 Q 50 55 62 45",
  "M48 85 Q 45 55 52 35"]

def escapeXml (text : String) : String := escape xmlEntities text

/-- One word of `wrapText`: the finished lines and the line under construction. -/
def wrapWord (maxCharsPerLine : Nat) : List String × String → String → List String × String
  | (lines, current), word =>
      let candidate := if current = "" then word else current ++ " " ++ word
      if maxCharsPerLine < utf16Length candidate ∧ current ≠ "" then (lines ++ [current], word)
      else (lines, candidate)

def wrapText (text : String) (maxCharsPerLine : Nat) : List String :=
  let (lines, current) := (text.splitOn " ").foldl (wrapWord maxCharsPerLine) ([], "")
  if current = "" then lines else lines ++ [current]

inductive ChipVariant
  | solid | outline
  deriving DecidableEq, Repr

def renderChip (label : String) (centerX y : Nat) (variant : ChipVariant) : String :=
  let width := 150
  let height := 40
  let x := centerX - width / 2
  let fill := if variant = .solid then "rgba(185,167,248,0.18)" else "none"
  let stroke := if variant = .solid then "none" else BRAND.gold
  let textFill := if variant = .solid then BRAND.lavender else BRAND.pearl
  s!"\n    <rect x=\"{x}\" y=\"{y}\" width=\"{width}\" height=\"{height}\" rx=\"20\"" ++
  s!" fill=\"{fill}\" stroke=\"{stroke}\" stroke-width=\"1.5\" stroke-opacity=\"0.7\"/>" ++
  s!"\n    <text x=\"{centerX}\" y=\"{y + 26}\" text-anchor=\"middle\"" ++
  s!" font-family=\"Georgia, serif\" font-size=\"20\" fill=\"{textFill}\">{escapeXml label}</text>"

def renderCardBox (card : SharedCardSummary) (y : Nat) : String :=
  let orientationLabel := ORIENTATION_LABELS card.orientation
  let chipY := y + 130
  let chipsSvg := match card.suit with
    | some suit => renderChip (SUIT_LABELS suit) (540 - 78) chipY .solid ++
        renderChip orientationLabel (540 + 78) chipY .outline
    | none => renderChip orientationLabel 540 chipY .outline
  "\n    <g>" ++
  s!"\n      <rect x=\"90\" y=\"{y}\" width=\"900\" height=\"200\" rx=\"20\"" ++
  s!" fill=\"rgba(17,21,43,0.45)\" stroke=\"{BRAND.gold}\" stroke-width=\"2\"" ++
  " stroke-opacity=\"0.4\"/>" ++
  s!"\n      <text x=\"540\" y=\"{y + 42}\" text-anchor=\"middle\"" ++
  " font-family=\"Georgia, serif\" font-size=\"24\" letter-spacing=\"2\"" ++
  s!" fill=\"{BRAND.gold}\">{escapeXml card.positionLabel}</text>" ++
  s!"\n      <text x=\"540\" y=\"{y + 92}\" text-anchor=\"middle\"" ++
  " font-family=\"Georgia, serif\" font-size=\"36\" font-weight=\"bold\"" ++
  s!" fill=\"{BRAND.pearl}\">{escapeXml card.cardName}</text>" ++
  s!"\n      {chipsSvg}" ++
  "\n    </g>"

def handPath (d : String) (index : Nat) : String :=
  let width := if index = 0 then "1.5" else "1"
  let opacity := if index = 0 then "1" else "0.7"
  s!"<path d=\"{d}\" stroke=\"{BRAND.gold}\" stroke-width=\"{width}\" fill=\"none\"" ++
  s!" stroke-linecap=\"round\" stroke-linejoin=\"round\" opacity=\"{opacity}\"/>"

def renderHandIllustration : String :=
  let paths := String.join (HAND_ILLUSTRATION_PATHS.mapIdx fun index d => handPath d index)
  "\n    <g transform=\"translate(430, 600) scale(2.2)\" filter=\"url(#goldGlow)\">" ++
  s!"\n      {paths}" ++
  "\n    </g>" ++
  "\n    <text x=\"540\" y=\"920\" text-anchor=\"middle\" font-family=\"Georgia, serif\"" ++
  s!" font-size=\"30\" fill=\"{BRAND.lavender}\">Descubre tu reporte guiado</text>"

def disclaimerLine (line : String) (index : Nat) : String :=
  s!"<text x=\"{SHARE_IMAGE_WIDTH_PX / 2}\" y=\"{1620 + index * 34}\" text-anchor=\"middle\"" ++
  s!" font-family=\"sans-serif\" font-size=\"22\" fill=\"{BRAND.muted}\">{escapeXml line}</text>"

/-- The gradients and the glow. -/
def defs : String :=
  "\n  <defs>" ++
  "\n    <linearGradient id=\"bg\" x1=\"0\" y1=\"0\" x2=\"0\" y2=\"1\">" ++
  s!"\n      <stop offset=\"0%\" stop-color=\"{BRAND.midnight}\"/>" ++
  s!"\n      <stop offset=\"55%\" stop-color=\"{BRAND.twilight}\"/>" ++
  s!"\n      <stop offset=\"100%\" stop-color=\"{BRAND.amethyst}\"/>" ++
  "\n    </linearGradient>" ++
  "\n    <linearGradient id=\"ctaFill\" x1=\"0\" y1=\"0\" x2=\"0\" y2=\"1\">" ++
  "\n      <stop offset=\"0%\" stop-color=\"rgb(43,51,92)\"/>" ++
  "\n      <stop offset=\"100%\" stop-color=\"rgb(24,28,58)\"/>" ++
  "\n    </linearGradient>" ++
  "\n    <filter id=\"goldGlow\" x=\"-50%\" y=\"-50%\" width=\"200%\" height=\"200%\">" ++
  "\n      <feDropShadow dx=\"0\" dy=\"0\" stdDeviation=\"6\"" ++
  s!" flood-color=\"{BRAND.gold}\" flood-opacity=\"0.35\"/>" ++
  "\n    </filter>" ++
  "\n  </defs>"

/-- One of the two frames around the image. -/
def frame (inset rx : Nat) (strokeWidth strokeOpacity : String) : String :=
  s!"\n  <rect x=\"{inset}\" y=\"{inset}\" width=\"{SHARE_IMAGE_WIDTH_PX - 2 * inset}\"" ++
  s!" height=\"{SHARE_IMAGE_HEIGHT_PX - 2 * inset}\" rx=\"{rx}\" fill=\"none\"" ++
  s!" stroke=\"{BRAND.gold}\" stroke-width=\"{strokeWidth}\" stroke-opacity=\"{strokeOpacity}\"/>"

/-- A line of text in the middle; `style` is what follows the size of the font. -/
def centered (y fontSize : Nat) (style fill content : String) : String :=
  s!"\n  <text x=\"{SHARE_IMAGE_WIDTH_PX / 2}\" y=\"{y}\" text-anchor=\"middle\"" ++
  s!" font-family=\"Georgia, serif\" font-size=\"{fontSize}\"{style} fill=\"{fill}\">" ++
  s!"{content}</text>"

def buildShareImageSvg (data : ShareImageData) : String :=
  let width := SHARE_IMAGE_WIDTH_PX
  let height := SHARE_IMAGE_HEIGHT_PX
  let contentSvg := match data.cards with
    | some cards => String.join (cards.mapIdx fun index card =>
        renderCardBox card (620 + index * 220))
    | none => renderHandIllustration
  let disclaimerSvg := String.join ((wrapText data.disclaimer 60).mapIdx fun index line =>
    disclaimerLine line index)
  s!"<svg xmlns=\"http://www.w3.org/2000/svg\" width=\"{width}\" height=\"{height}\"" ++
  s!" viewBox=\"0 0 {width} {height}\">" ++ defs ++
  s!"\n\n  <rect width=\"{width}\" height=\"{height}\" fill=\"url(#bg)\"/>" ++
  frame 40 24 "3" "0.5" ++ frame 64 18 "1.5" "0.2" ++ "\n" ++
  centered 220 56 " letter-spacing=\"6\"" BRAND.gold "ORÁCULO TAROTRIA" ++ "\n" ++
  centered 420 44 " font-weight=\"bold\"" BRAND.pearl (escapeXml data.title) ++
  s!"\n\n  {contentSvg}\n" ++
  "\n  <rect x=\"230\" y=\"1400\" width=\"620\" height=\"100\" rx=\"50\" fill=\"url(#ctaFill)\"" ++
  s!" stroke=\"{BRAND.gold}\" stroke-width=\"2\"/>" ++
  centered 1462 32 "" BRAND.pearl "Descubre tu propia lectura" ++ "\n" ++
  centered 1560 26 "" BRAND.gold (escapeXml data.appHost) ++
  s!"\n\n  {disclaimerSvg}\n</svg>"

end ShareImageRenderer

namespace ShareImageProcessor

/-- The key of a new image; `uuid` is random. -/
def buildShareImageKey (readingId uuid : Id) : String :=
  "share-images/" ++ readingId ++ "/" ++ uuid ++ ".png"

def generateImage (C : ShareImageConfig) (shareLinkId : Id) : Request Unit := do
  let some link ← Proc.transaction (Db.shareLink.findUnique shareLinkId)
    | return ()
  if link.revokedAt.isSome then
    return ()
  let data ← SharingService.getSanitizedReadingData link.readingId
  let some appHost := C.urlHost C.appUrl
    | throw (Err.error "Invalid URL")
  let svg := ShareImageRenderer.buildShareImageSvg
    { data with disclaimer := DailyCardService.DAILY_CARD_DISCLAIMER, appHost }
  let buffer ← Proc.call (.toPng svg)
  let uuid ← Proc.call .randomUUID
  let key := buildShareImageKey link.readingId uuid
  Proc.call (Query.uploadObject key buffer "image/png")
  SharingService.markImageReady shareLinkId key

end ShareImageProcessor

end TaroTria
