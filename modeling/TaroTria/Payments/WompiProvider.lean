import Mathlib.Data.Int.Notation
import TaroTria.Json.Value
import TaroTria.Payments.PaymentsService
import TaroTria.Readings.ReadingsService

/-!
# The Wompi webhook

`verifyAndParseWebhook` of `wompi.provider.ts`, from a JSON body to the parsed
webhook. The digest `sha256Hex` and the events secret are parameters.

## Implementation notes

A JavaScript number is kept by the shortest decimal that denotes it, which is
what `String` prints. The schema accepts an amount only as a safe integer, and
such a number prints as its decimal.
-/

namespace TaroTria

namespace WompiProvider

/-! ## JavaScript values -/

/-- A finite number `± significand * 10 ^ exponent`, with no trailing zero in
the significand. Both zeros are `0`. -/
structure JsNumber where
  negative : Bool
  significand : Nat
  exponent : Int
  shortest : significand % 10 = 0 → significand = 0 ∧ negative = false ∧ exponent = 0
  deriving DecidableEq

namespace JsNumber

/-- The digits of `String(x)` without the sign, for a significand of digits `ds`
whose decimal point stands after `n` of them. -/
def layout (ds : List Char) (n : Int) : List Char :=
  if ds.length ≤ n ∧ n ≤ 21 then ds ++ List.replicate (n.toNat - ds.length) '0'
  else if 0 < n ∧ n ≤ 21 then ds.take n.toNat ++ '.' :: ds.drop n.toNat
  else if -6 < n ∧ n ≤ 0 then '0' :: '.' :: List.replicate (-n).toNat '0' ++ ds
  else
    let mantissa := if ds.length = 1 then ds else ds.take 1 ++ '.' :: ds.drop 1
    mantissa ++ 'e' :: (if 0 ≤ n - 1 then '+' else '-') :: (n - 1).natAbs.repr.toList

/-- `String(x)`. -/
def toString (x : JsNumber) : String :=
  let ds := x.significand.repr.toList
  if x.significand = 0 then "0"
  else String.ofList ((if x.negative then ['-'] else []) ++ layout ds (ds.length + x.exponent))

/-- The number as an integer, if it is one that `z.number().int()` accepts. -/
def toSafeInteger (x : JsNumber) : Option Int :=
  if 0 ≤ x.exponent ∧ x.significand * 10 ^ x.exponent.toNat < 2 ^ 53 then
    some ((if x.negative then -1 else 1) * (x.significand * 10 ^ x.exponent.toNat : Nat))
  else none

end JsNumber

/-- A parsed JSON body. -/
abbrev Json := TaroTria.Json String JsNumber

/-- A value met on the way of `readByPath`. `undefined` is also `null`, and
`primitive` is everything that is not an object, by what `String` makes of it. -/
inductive JsValue
  | undefined
  | primitive (text : String)
  | object (own : List (String × JsValue))

/-- The functions that every object inherits. -/
def prototypeFunctions : List (String × JsValue) :=
  ("constructor", .primitive "function Object() { [native code] }") ::
    (ReadingsService.OBJECT_PROTOTYPE_NAMES.filter fun name =>
      name ≠ "constructor" && name ≠ "__proto__").map fun name =>
        (name, .primitive ("function " ++ name ++ "() { [native code] }"))

/-- A property that is not an object's own. -/
def inherited (key : String) : JsValue :=
  if key = "__proto__" then .object (("__proto__", .undefined) :: prototypeFunctions)
  else (prototypeFunctions.lookup key).getD .undefined

/-! ## The schema -/

structure WompiTransaction where
  id : String
  status : TransactionStatus
  amount_in_cents : Int
  reference : String
  currency : String
  deriving DecidableEq

structure WompiWebhook where
  event : String
  transaction : WompiTransaction
  timestamp : JsNumber
  properties : List String
  checksum : String
  deriving DecidableEq

def TRANSACTION_STATUSES : List (String × TransactionStatus) :=
  [("PENDING", .PENDING), ("APPROVED", .APPROVED), ("DECLINED", .DECLINED), ("ERROR", .ERROR),
    ("VOIDED", .VOIDED)]

def statusText : TransactionStatus → String
  | .PENDING => "PENDING"
  | .APPROVED => "APPROVED"
  | .DECLINED => "DECLINED"
  | .ERROR => "ERROR"
  | .VOIDED => "VOIDED"

/-- `z.string()`. -/
def asString : Json → Option String
  | .str s => some s
  | _ => none

/-- `z.string().min(1)`. -/
def asNonEmptyString (j : Json) : Option String :=
  (asString j).filter fun s => s ≠ ""

/-- `z.number()`. -/
def asNumber : Json → Option JsNumber
  | .num x => some x
  | _ => none

/-- `z.array(z.string().min(1)).min(1)`. -/
def asNonEmptyStrings : Json → Option (List String)
  | .arr items => (items.mapM asNonEmptyString).filter fun strings => strings ≠ []
  | _ => none

def parseTransaction (j : Json) : Option WompiTransaction := do
  let id ← asNonEmptyString (← j.field? "id")
  let status ← TRANSACTION_STATUSES.lookup (← asString (← j.field? "status"))
  let amount_in_cents ← (← asNumber (← j.field? "amount_in_cents")).toSafeInteger
  let reference ← asNonEmptyString (← j.field? "reference")
  let currency ← asNonEmptyString (← j.field? "currency")
  return { id, status, amount_in_cents, reference, currency }

/-- `wompiWebhookSchema.safeParse`, which drops what the schema does not name. -/
def wompiWebhookSchema (rawBody : Json) : Option WompiWebhook := do
  let event ← asString (← rawBody.field? "event")
  let transaction ← parseTransaction (← (← rawBody.field? "data").field? "transaction")
  let timestamp ← asNumber (← rawBody.field? "timestamp")
  let signature ← rawBody.field? "signature"
  let properties ← asNonEmptyStrings (← signature.field? "properties")
  let checksum ← asNonEmptyString (← signature.field? "checksum")
  return { event, transaction, timestamp, properties, checksum }

/-! ## The signature -/

/-- The parsed `data` as an object. -/
def WompiTransaction.data (t : WompiTransaction) : JsValue :=
  .object [("transaction", .object
    [("id", .primitive t.id), ("status", .primitive (statusText t.status)),
      ("amount_in_cents", .primitive t.amount_in_cents.repr),
      ("reference", .primitive t.reference), ("currency", .primitive t.currency)])]

/-- `path.split('.')`. -/
def splitPath (path : String) : List String :=
  (path.toList.splitOn '.').map String.ofList

def readByPath (source : JsValue) (path : String) : String :=
  let value := (splitPath path).foldl (fun acc key => match acc with
    | .object own => (own.lookup key).getD (inherited key)
    | _ => .undefined) source
  match value with
  | .undefined => ""
  | .primitive text => text
  | .object _ => "[object Object]"

/-- Lower case. Only texts that equal a digest in lower case matter, and these
have ASCII letters. -/
def toLowerCase (s : String) : String :=
  String.ofList (s.toList.map Char.toLower)

/-- What is signed, but for the secret: the listed values and the timestamp. -/
def signedText (webhook : WompiWebhook) : String :=
  String.join (webhook.properties.map (readByPath webhook.transaction.data)) ++
    webhook.timestamp.toString

section Provider

variable (sha256Hex : String → String) (eventsSecret : String)

def verifyAndParseWebhook (rawBody : Json) : Option ParsedWebhook := do
  let webhook ← wompiWebhookSchema rawBody
  let expectedChecksum := sha256Hex (signedText webhook ++ eventsSecret)
  if toLowerCase expectedChecksum ≠ toLowerCase webhook.checksum then
    none
  let transaction := webhook.transaction
  return {
    eventId := transaction.id ++ "-" ++ statusText transaction.status ++ "-" ++
      webhook.timestamp.toString
    transaction := {
      reference := transaction.reference
      providerTransactionId := transaction.id
      status := transaction.status
      amountInCents := transaction.amount_in_cents
      currency := transaction.currency } }

end Provider

/-- The keys that the provider reads from the configuration. -/
structure Config where
  publicKey : String
  integritySecret : String
  eventsSecret : String

/-- The integrity signature joins the values without separators. -/
def buildCheckoutIntent (sha256Hex : String → String) (config : Config) (reference : String)
    (amountInCents : Int) (currency redirectUrl : String) : CheckoutIntent :=
  { reference, publicKey := config.publicKey, amountInCents, currency
    integritySignature :=
      sha256Hex (reference ++ amountInCents.repr ++ currency ++ config.integritySecret)
    redirectUrl }

/-- Wompi as the payments service sees it; `vouches` stands for its server. -/
def provider (sha256Hex : String → String) (config : Config)
    (vouches : String → TransactionResult → Prop) : PaymentProvider Json where
  name := "wompi"
  buildCheckoutIntent := buildCheckoutIntent sha256Hex config
  verifyAndParseWebhook := verifyAndParseWebhook sha256Hex config.eventsSecret
  vouches := vouches

end WompiProvider

end TaroTria
