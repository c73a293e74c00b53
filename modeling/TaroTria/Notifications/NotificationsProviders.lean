import TaroTria.Prisma.Client
import TaroTria.Text.Escape

/-!
# The notifications providers

The two providers of emails: the stub that only logs, and Resend.

## Implementation notes

The API of Resend is a parameter that answers an email with the message of an
error or with nothing. A context holds strings. What a provider logs is left out.
-/

namespace TaroTria

open Transactions Text

/-- What a provider makes of an email in a state of the outside world. -/
abbrev NotificationsProvider (W : Type) := SendEmailInput → W → Except Err Unit × W

namespace ConsoleNotificationsProvider

def sendEmail {W : Type} : NotificationsProvider W := fun _ w => (.ok (), w)

end ConsoleNotificationsProvider

def escapeHtml (value : String) : String := escape htmlEntities value

/-- An email as the API of Resend takes it. -/
structure ResendEmail where
  sender : String
  toAddress : String
  subject : String
  html : String
  deriving DecidableEq, Repr

namespace ResendNotificationsProvider

/-- `String(context.key)`. -/
def text (context : List (String × String)) (key : String) : String :=
  (context.lookup key).getD "undefined"

/-- One paragraph of a body, on a line of its own. -/
def paragraph (content : String) : String := "\n    <p>" ++ content ++ "</p>"

def greeting (context : List (String × String)) : String :=
  paragraph ("Hola " ++ escapeHtml ((context.lookup "name").getD "") ++ ",")

/-- The bodies of the two emails of the product. -/
def EMAIL_BODIES (templateId : String) : Option (List (String × String) → String) :=
  if templateId = "email-verification" then
    some fun context => greeting context ++
      paragraph "Confirma tu correo para activar tu cuenta en TAROTRIA:" ++
      paragraph ("<a href=\"" ++ text context "verificationUrl" ++ "\">Verificar mi correo</a>") ++
      paragraph "Si no creaste esta cuenta, ignora este mensaje." ++ "\n  "
  else if templateId = "password-reset" then
    some fun context => greeting context ++
      paragraph "Solicitaste restablecer tu contraseña en TAROTRIA:" ++
      paragraph ("<a href=\"" ++ text context "resetUrl" ++ "\">Restablecer mi contraseña</a>") ++
      paragraph
        "Si no fuiste tú, ignora este mensaje: tu contraseña actual sigue siendo válida." ++
      "\n  "
  else none

variable {W : Type}

def sendEmail (sender : String) (send : ResendEmail → W → Option String × W) :
    NotificationsProvider W := fun input w =>
  let html := match EMAIL_BODIES input.templateId with
    | some renderBody => renderBody input.context
    | none => "<p>" ++ escapeHtml input.subject ++ "</p>"
  match send ⟨sender, input.toAddress, input.subject, html⟩ w with
  | (some message, w') => (.error (.error ("No fue posible enviar el correo: " ++ message)), w')
  | (none, w') => (.ok (), w')

end ResendNotificationsProvider

end TaroTria
