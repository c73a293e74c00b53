import TaroTria.Payments.WompiProvider

/-!
# What the webhook signature binds

The checksum binds the listed values joined with the timestamp, and nothing
else: the list comes with the body.

## Implementation notes

`sha256Hex` is any injective function with lower-case values. The sample one is
SHA-256 on the sample text.
-/

namespace TaroTria

namespace WompiProvider

/-- Two transactions agree on the field that a path names. -/
def AgreeAt (t₁ t₂ : TransactionResult) (path : String) : Prop :=
  (path = "transaction.id" → t₁.providerTransactionId = t₂.providerTransactionId) ∧
    (path = "transaction.status" → t₁.status = t₂.status) ∧
    (path = "transaction.amount_in_cents" → t₁.amountInCents = t₂.amountInCents) ∧
    (path = "transaction.reference" → t₁.reference = t₂.reference) ∧
    (path = "transaction.currency" → t₁.currency = t₂.currency)

theorem readByPath_id (t : WompiTransaction) : readByPath t.data "transaction.id" = t.id := by
  have h : splitPath "transaction.id" = ["transaction", "id"] := by decide
  unfold readByPath
  rw [h]
  rfl

theorem readByPath_status (t : WompiTransaction) :
    readByPath t.data "transaction.status" = statusText t.status := by
  have h : splitPath "transaction.status" = ["transaction", "status"] := by decide
  unfold readByPath
  rw [h]
  rfl

theorem readByPath_amount (t : WompiTransaction) :
    readByPath t.data "transaction.amount_in_cents" = t.amount_in_cents.repr := by
  have h : splitPath "transaction.amount_in_cents" = ["transaction", "amount_in_cents"] := by decide
  unfold readByPath
  rw [h]
  rfl

theorem readByPath_reference (t : WompiTransaction) :
    readByPath t.data "transaction.reference" = t.reference := by
  have h : splitPath "transaction.reference" = ["transaction", "reference"] := by decide
  unfold readByPath
  rw [h]
  rfl

theorem readByPath_currency (t : WompiTransaction) :
    readByPath t.data "transaction.currency" = t.currency := by
  have h : splitPath "transaction.currency" = ["transaction", "currency"] := by decide
  unfold readByPath
  rw [h]
  rfl

theorem statusText_injective : Function.Injective statusText := by
  intro s₁ s₂ h
  cases s₁ <;> cases s₂ <;> first | rfl | (revert h; decide)

section Concatenation

variable {α β : Type} [DecidableEq α] {f g : α → List β} {q : α}

/-- Two concatenations that differ in one part differ in its length only. -/
theorem length_flatten_map {ps : List α} (h : ∀ p ∈ ps, p ≠ q → f p = g p) :
    (ps.map f).flatten.length + ps.count q * (g q).length =
      (ps.map g).flatten.length + ps.count q * (f q).length := by
  induction ps with
  | nil => simp
  | cons p ps ih =>
      have htail := ih fun p' hp' => h p' (List.mem_cons_of_mem p hp')
      simp only [List.map_cons, List.flatten_cons, List.length_append, List.count_cons]
      by_cases hp : p = q
      · subst hp
        simp only [beq_self_eq_true, if_true, Nat.add_mul, Nat.one_mul]
        omega
      · rw [h p List.mem_cons_self hp]
        simp only [beq_iff_eq, hp, if_false, Nat.add_zero]
        omega

/-- A part of a concatenation is determined by the other parts. -/
theorem eq_of_flatten_map_eq {ps : List α} (h : ∀ p ∈ ps, p ≠ q → f p = g p) (hq : q ∈ ps)
    (heq : (ps.map f).flatten = (ps.map g).flatten) : f q = g q := by
  have hlen : (f q).length = (g q).length := by
    have hsum := length_flatten_map h
    rw [heq] at hsum
    have hcount : 0 < ps.count q := List.count_pos_iff.mpr hq
    exact (Nat.eq_of_mul_eq_mul_left hcount (Nat.add_left_cancel hsum)).symm
  induction ps with
  | nil => cases hq
  | cons p ps ih =>
      simp only [List.map_cons, List.flatten_cons] at heq
      by_cases hp : p = q
      · subst hp
        exact (List.append_inj heq hlen).1
      · rw [h p List.mem_cons_self hp] at heq
        exact ih (fun p' hp' => h p' (List.mem_cons_of_mem p hp'))
          ((List.mem_cons.mp hq).resolve_left (Ne.symm hp)) (List.append_cancel_left heq)

/-- The end of a text is determined when it has only characters of a kind and
the rest ends with another. -/
theorem append_inj_of_last {p : β → Prop} {xs₁ xs₂ ys₁ ys₂ : List β} (heq : xs₁ ++ ys₁ = xs₂ ++ ys₂)
    (hy₁ : ∀ y ∈ ys₁, p y) (hy₂ : ∀ y ∈ ys₂, p y)
    (hx₁ : ∃ x ∈ xs₁.getLast?, ¬ p x) (hx₂ : ∃ x ∈ xs₂.getLast?, ¬ p x) : xs₁ = xs₂ ∧ ys₁ = ys₂ := by
  have key : ∀ {xs ys zs : List β}, (∃ x ∈ (xs ++ zs).getLast?, ¬ p x) → (∀ y ∈ zs ++ ys, p y) →
      zs = [] := by
    intro xs ys zs hx hy
    rcases List.eq_nil_or_concat zs with rfl | ⟨zs', z, rfl⟩
    · rfl
    · obtain ⟨x, hx, hpx⟩ := hx
      simp at hx
      subst hx
      exact absurd (hy z (by simp)) hpx
  rcases List.append_eq_append_iff.mp heq with ⟨zs, rfl, rfl⟩ | ⟨zs, rfl, rfl⟩
  · obtain rfl := key hx₂ hy₁
    simp
  · obtain rfl := key hx₁ hy₂
    simp

end Concatenation

/-- The characters of a printed integer. -/
def IsAmountChar (c : Char) : Prop := c.isDigit = true ∨ c = '-'

theorem toDigits_injective : Function.Injective (Nat.toDigits 10) := by
  intro m n h
  have := congrArg (fun ds => Nat.ofDigitChars 10 ds 0) h
  simpa only [Nat.ofDigitChars_ten_toDigits] using this

theorem toList_repr_ofNat (n : Nat) : (Int.ofNat n).repr.toList = Nat.toDigits 10 n := by
  simp [Int.repr]

theorem toList_repr_negSucc (n : Nat) :
    (Int.negSucc n).repr.toList = '-' :: Nat.toDigits 10 (n + 1) := by
  simp [Int.repr]

theorem repr_injective : Function.Injective Int.repr := by
  have hminus : ∀ {m n}, Nat.toDigits 10 m ≠ '-' :: Nat.toDigits 10 n := by
    intro m n h
    have hmem : '-' ∈ Nat.toDigits 10 m := h ▸ List.mem_cons_self
    have := Nat.isDigit_of_mem_toDigits (by decide) (by decide) hmem
    revert this
    decide
  intro m n h
  have hlist := congrArg String.toList h
  cases m with
  | ofNat m =>
      cases n with
      | ofNat n =>
          rw [toList_repr_ofNat, toList_repr_ofNat] at hlist
          rw [toDigits_injective hlist]
      | negSucc n =>
          rw [toList_repr_ofNat, toList_repr_negSucc] at hlist
          exact absurd hlist hminus
  | negSucc m =>
      cases n with
      | ofNat n =>
          rw [toList_repr_ofNat, toList_repr_negSucc] at hlist
          exact absurd hlist.symm hminus
      | negSucc n =>
          rw [toList_repr_negSucc, toList_repr_negSucc] at hlist
          have := toDigits_injective (List.cons.inj hlist).2
          rw [Nat.succ.inj this]

theorem isAmountChar_of_mem_repr {n : Int} {c : Char} (hc : c ∈ n.repr.toList) : IsAmountChar c := by
  cases n with
  | ofNat n =>
      rw [toList_repr_ofNat] at hc
      exact .inl (Nat.isDigit_of_mem_toDigits (by decide) (by decide) hc)
  | negSucc n =>
      rw [toList_repr_negSucc] at hc
      rcases List.mem_cons.mp hc with hc | hc
      · exact .inr hc
      · exact .inl (Nat.isDigit_of_mem_toDigits (by decide) (by decide) hc)

/-- A status word ends with a letter, and none is the end of another. -/
theorem statusText_last (s : TransactionStatus) (xs : List Char) :
    ∃ x ∈ (xs ++ (statusText s).toList).getLast?, ¬ IsAmountChar x := by
  have h : (statusText s).toList ≠ [] := by cases s <;> decide
  rw [List.getLast?_append_of_ne_nil _ h]
  cases s <;> simp [statusText, IsAmountChar]

theorem statusText_suffix {s₁ s₂ : TransactionStatus} {xs : List Char}
    (h : (statusText s₁).toList = xs ++ (statusText s₂).toList) : s₁ = s₂ := by
  have hsuffix : (statusText s₂).toList <:+ (statusText s₁).toList := ⟨xs, h.symm⟩
  revert hsuffix
  cases s₁ <;> cases s₂ <;> decide

/-- The properties that Wompi lists in its own events. -/
def STANDARD_PROPERTIES : List String :=
  ["transaction.id", "transaction.status", "transaction.amount_in_cents"]

/-- With the standard properties, the joined values determine each of them. -/
theorem standard_properties_bind {t₁ t₂ : WompiTransaction}
    (h : (STANDARD_PROPERTIES.map fun p => (readByPath t₁.data p).toList).flatten =
      (STANDARD_PROPERTIES.map fun p => (readByPath t₂.data p).toList).flatten) :
    t₁.id = t₂.id ∧ t₁.status = t₂.status ∧ t₁.amount_in_cents = t₂.amount_in_cents := by
  simp only [STANDARD_PROPERTIES, List.map_cons, List.map_nil, List.flatten_cons,
    List.flatten_nil, List.append_nil, readByPath_id, readByPath_status, readByPath_amount,
    ← List.append_assoc] at h
  obtain ⟨hhead, hamount⟩ := append_inj_of_last h (fun _ hy => isAmountChar_of_mem_repr hy)
    (fun _ hy => isAmountChar_of_mem_repr hy) (statusText_last _ _) (statusText_last _ _)
  have hstatus : t₁.status = t₂.status := by
    rcases List.append_eq_append_iff.mp hhead with ⟨zs, -, hs⟩ | ⟨zs, -, hs⟩
    · exact statusText_suffix hs
    · exact (statusText_suffix hs).symm
  rw [hstatus] at hhead
  exact ⟨String.toList_inj.mp (List.append_cancel_right hhead), hstatus,
    repr_injective (String.toList_inj.mp hamount)⟩

variable {sha256Hex : String → String} {eventsSecret : String}

/-- What an accepted body says and how it was checked. -/
theorem accepted_of_eq_some {rawBody : Json} {webhook : WompiWebhook} {r : ParsedWebhook}
    (hw : wompiWebhookSchema rawBody = some webhook)
    (h : verifyAndParseWebhook sha256Hex eventsSecret rawBody = some r) :
    toLowerCase (sha256Hex (signedText webhook ++ eventsSecret)) = toLowerCase webhook.checksum ∧
      r.transaction =
        { reference := webhook.transaction.reference
          providerTransactionId := webhook.transaction.id
          status := webhook.transaction.status
          amountInCents := webhook.transaction.amount_in_cents
          currency := webhook.transaction.currency } := by
  simp only [verifyAndParseWebhook, hw, Option.bind_eq_bind, Option.bind_some] at h
  split at h
  · cases h
  · rename_i hsum
    cases h
    exact ⟨not_not.mp hsum, rfl⟩

/-- Equal checksums are checksums of one text. -/
theorem signedText_eq (hinj : Function.Injective sha256Hex)
    (hlower : ∀ s, toLowerCase (sha256Hex s) = sha256Hex s) {rawBody₁ rawBody₂ : Json}
    {w₁ w₂ : WompiWebhook} {r₁ r₂ : ParsedWebhook} (hw₁ : wompiWebhookSchema rawBody₁ = some w₁)
    (hw₂ : wompiWebhookSchema rawBody₂ = some w₂)
    (h₁ : verifyAndParseWebhook sha256Hex eventsSecret rawBody₁ = some r₁)
    (h₂ : verifyAndParseWebhook sha256Hex eventsSecret rawBody₂ = some r₂)
    (hsum : w₁.checksum = w₂.checksum) : signedText w₁ = signedText w₂ := by
  have hdigest : sha256Hex (signedText w₁ ++ eventsSecret) =
      sha256Hex (signedText w₂ ++ eventsSecret) := by
    rw [← hlower (signedText w₁ ++ _), ← hlower (signedText w₂ ++ _),
      (accepted_of_eq_some hw₁ h₁).1, (accepted_of_eq_some hw₂ h₂).1, hsum]
  have htext := congrArg String.toList (hinj hdigest)
  simp only [String.toList_append] at htext
  exact String.toList_inj.mp (List.append_cancel_right htext)

/-- Equal signed texts with equal timestamps have equal joined values. -/
theorem flatten_eq_of_signedText_eq {w₁ w₂ : WompiWebhook} (h : signedText w₁ = signedText w₂)
    (hp : w₁.properties = w₂.properties) (ht : w₁.timestamp = w₂.timestamp) :
    (w₁.properties.map fun p => (readByPath w₁.transaction.data p).toList).flatten =
      (w₁.properties.map fun p => (readByPath w₂.transaction.data p).toList).flatten := by
  have hlist := congrArg String.toList h
  simp only [signedText, String.toList_append, ht, ← hp] at hlist
  have hjoin := List.append_cancel_right hlist
  simpa [String.toList_join, List.flatMap_def, Function.comp_def] using hjoin

theorem agreeAt_of_readByPath {t₁ t₂ : WompiTransaction} {q : String}
    (h : readByPath t₁.data q = readByPath t₂.data q) :
    AgreeAt ⟨t₁.reference, t₁.id, t₁.status, t₁.amount_in_cents, t₁.currency⟩
      ⟨t₂.reference, t₂.id, t₂.status, t₂.amount_in_cents, t₂.currency⟩ q := by
  refine ⟨?_, ?_, ?_, ?_, ?_⟩
  · rintro rfl
    simpa only [readByPath_id] using h
  · rintro rfl
    exact statusText_injective (by simpa only [readByPath_status] using h)
  · rintro rfl
    exact repr_injective (by simpa only [readByPath_amount] using h)
  · rintro rfl
    simpa only [readByPath_reference] using h
  · rintro rfl
    simpa only [readByPath_currency] using h

/-- Two accepted bodies with one checksum have one signed text. If they list the
same properties and carry the same timestamp, then a listed field is bound by
the other listed values, and the properties of Wompi's own events bind the id,
the status and the amount together. -/
theorem webhook_signature_binds (sha256Hex : String → String)
    (hinj : Function.Injective sha256Hex)
    (hlower : ∀ s, toLowerCase (sha256Hex s) = sha256Hex s) (eventsSecret : String)
    (rawBody₁ rawBody₂ : Json) (w₁ w₂ : WompiWebhook) (r₁ r₂ : ParsedWebhook)
    (hw₁ : wompiWebhookSchema rawBody₁ = some w₁) (hw₂ : wompiWebhookSchema rawBody₂ = some w₂)
    (h₁ : verifyAndParseWebhook sha256Hex eventsSecret rawBody₁ = some r₁)
    (h₂ : verifyAndParseWebhook sha256Hex eventsSecret rawBody₂ = some r₂)
    (hsum : w₁.checksum = w₂.checksum) :
    signedText w₁ = signedText w₂ ∧
      (w₁.properties = w₂.properties → w₁.timestamp = w₂.timestamp →
        (∀ q ∈ w₁.properties,
          (∀ p ∈ w₁.properties, p ≠ q →
            readByPath w₁.transaction.data p = readByPath w₂.transaction.data p) →
          AgreeAt r₁.transaction r₂.transaction q) ∧
        (w₁.properties = STANDARD_PROPERTIES →
          r₁.transaction.providerTransactionId = r₂.transaction.providerTransactionId ∧
            r₁.transaction.status = r₂.transaction.status ∧
            r₁.transaction.amountInCents = r₂.transaction.amountInCents)) := by
  have htext := signedText_eq hinj hlower hw₁ hw₂ h₁ h₂ hsum
  refine ⟨htext, fun hp ht => ?_⟩
  have hflat := flatten_eq_of_signedText_eq htext hp ht
  rw [(accepted_of_eq_some hw₁ h₁).2, (accepted_of_eq_some hw₂ h₂).2]
  refine ⟨fun q hq hother => agreeAt_of_readByPath (String.toList_inj.mp ?_), fun hstd => ?_⟩
  · refine eq_of_flatten_map_eq (f := fun p => (readByPath w₁.transaction.data p).toList)
      (g := fun p => (readByPath w₂.transaction.data p).toList) (fun p hp' hne => ?_) hq hflat
    simp only [hother p hp' hne]
  · rw [hstd] at hflat
    exact standard_properties_bind hflat

/-! ## A genuine delivery and an altered copy -/

/-- An injective code of texts in the digits 0 and 1. -/
def unary (s : String) : String :=
  String.ofList (s.toList.flatMap fun c => List.replicate c.toNat '0' ++ ['1'])

theorem unary_injective : Function.Injective unary := by
  have hruns : ∀ {m n : Nat} {xs ys : List Char},
      List.replicate m '0' ++ '1' :: xs = List.replicate n '0' ++ '1' :: ys → m = n ∧ xs = ys := by
    intro m
    induction m with
    | zero =>
        intro n xs ys h
        cases n with
        | zero => exact ⟨rfl, (List.cons.inj h).2⟩
        | succ n => simp [List.replicate_succ] at h
    | succ m ih =>
        intro n xs ys h
        cases n with
        | zero => simp [List.replicate_succ] at h
        | succ n =>
            simp only [List.replicate_succ, List.cons_append, List.cons.injEq, true_and] at h
            obtain ⟨rfl, hxs⟩ := ih h
            exact ⟨rfl, hxs⟩
  have hlist : ∀ {xs ys : List Char},
      (xs.flatMap fun c => List.replicate c.toNat '0' ++ ['1']) =
        (ys.flatMap fun c => List.replicate c.toNat '0' ++ ['1']) → xs = ys := by
    intro xs
    induction xs with
    | nil =>
        intro ys h
        cases ys with
        | nil => rfl
        | cons y ys => simp at h
    | cons x xs ih =>
        intro ys h
        cases ys with
        | nil => simp at h
        | cons y ys =>
            simp only [List.flatMap_cons, List.append_assoc, List.singleton_append] at h
            obtain ⟨hxy, hrest⟩ := hruns h
            rw [ih hrest, Char.toNat_inj.mp hxy]
  intro s₁ s₂ h
  exact String.toList_inj.mp (hlist (String.ofList_injective h))

theorem mem_unary {s : String} {c : Char} (h : c ∈ (unary s).toList) : c = '0' ∨ c = '1' := by
  simp only [unary, String.toList_ofList, List.mem_flatMap, List.mem_append, List.mem_replicate,
    List.mem_singleton] at h
  obtain ⟨_, -, ⟨-, rfl⟩ | rfl⟩ := h
  · exact .inl rfl
  · exact .inr rfl

/-- The text of the sample delivery and its SHA-256 digest. -/
def sampleText : String := "tx-1APPROVED500001700000000events-secret"

def sampleDigest : String := "a6d72404b149e769bce6cb2e355ca68cef7a1e5a9ae4b7113d86453644bad41e"

/-- An injective function that digests the sample text as SHA-256 does. -/
def sampleSha256Hex (s : String) : String :=
  if s = sampleText then sampleDigest else unary s

theorem unary_ne_sampleDigest (s : String) : unary s ≠ sampleDigest := by
  intro h
  have hmem : 'a' ∈ (unary s).toList := by
    rw [h]
    decide
  rcases mem_unary hmem with h | h <;> revert h <;> decide

theorem sampleSha256Hex_injective : Function.Injective sampleSha256Hex := by
  intro s₁ s₂ h
  unfold sampleSha256Hex at h
  split at h
  · rename_i h₁
    split at h
    · rename_i h₂
      rw [h₁, h₂]
    · exact absurd h.symm (unary_ne_sampleDigest s₂)
  · split at h
    · exact absurd h (unary_ne_sampleDigest s₁)
    · exact unary_injective h

theorem toLowerCase_sampleSha256Hex (s : String) :
    toLowerCase (sampleSha256Hex s) = sampleSha256Hex s := by
  unfold sampleSha256Hex
  split
  · decide
  · apply String.toList_inj.mp
    rw [toLowerCase, String.toList_ofList]
    refine (List.map_congr_left fun c hc => ?_).trans (List.map_id _)
    rcases mem_unary hc with rfl | rfl <;> rfl

/-- A delivery of the transaction `tx-1` with Wompi's own properties. -/
def sampleBody (reference currency : String) : Json :=
  .obj
    [("event", .str "transaction.updated"),
      ("data", .obj [("transaction", .obj
        [("id", .str "tx-1"), ("status", .str "APPROVED"),
          ("amount_in_cents", .num ⟨false, 5, 4, by decide⟩),
          ("reference", .str reference), ("currency", .str currency)])]),
      ("timestamp", .num ⟨false, 17, 8, by decide⟩),
      ("signature", .obj
        [("properties", .arr (STANDARD_PROPERTIES.map .str)),
          ("checksum", .str sampleDigest)])]

/-- The delivery of an order paid in pesos is accepted, and so is a copy of it
that names another order and dollars. -/
theorem sampleBody_accepted :
    verifyAndParseWebhook sampleSha256Hex "events-secret" (sampleBody "order-1-abc" "COP") =
        some ⟨"tx-1-APPROVED-1700000000", ⟨"order-1-abc", "tx-1", .APPROVED, 50000, "COP"⟩⟩ ∧
      verifyAndParseWebhook sampleSha256Hex "events-secret" (sampleBody "order-2-xyz" "USD") =
        some ⟨"tx-1-APPROVED-1700000000", ⟨"order-2-xyz", "tx-1", .APPROVED, 50000, "USD"⟩⟩ :=
  ⟨by decide +kernel, by decide +kernel⟩

/-- The parsed sample delivery. -/
def sampleParsed (reference currency : String) : WompiWebhook :=
  { event := "transaction.updated"
    transaction :=
      { id := "tx-1", status := .APPROVED, amount_in_cents := 50000, reference, currency }
    timestamp := ⟨false, 17, 8, by decide⟩
    properties := STANDARD_PROPERTIES
    checksum := sampleDigest }

theorem sampleBody_parsed :
    wompiWebhookSchema (sampleBody "order-1-abc" "COP") = some (sampleParsed "order-1-abc" "COP") ∧
      wompiWebhookSchema (sampleBody "order-2-xyz" "USD") =
        some (sampleParsed "order-2-xyz" "USD") :=
  ⟨by decide +kernel, by decide +kernel⟩

theorem webhook_signature_binds_sample :
    signedText (sampleParsed "order-1-abc" "COP") = signedText (sampleParsed "order-2-xyz" "USD") :=
  (webhook_signature_binds sampleSha256Hex sampleSha256Hex_injective toLowerCase_sampleSha256Hex
    "events-secret" _ _ _ _ _ _ sampleBody_parsed.1 sampleBody_parsed.2 sampleBody_accepted.1
    sampleBody_accepted.2 rfl).1

/-- The checksum does not bind every field: the two sample deliveries have the
same one and differ in the reference and the currency. -/
theorem checksum_leaves_reference_and_currency : ¬ ∀ (sha256Hex : String → String),
    Function.Injective sha256Hex → (∀ s, toLowerCase (sha256Hex s) = sha256Hex s) →
      ∀ (eventsSecret : String) (rawBody₁ rawBody₂ : Json) (w₁ w₂ : WompiWebhook)
        (r₁ r₂ : ParsedWebhook), wompiWebhookSchema rawBody₁ = some w₁ →
        wompiWebhookSchema rawBody₂ = some w₂ →
        verifyAndParseWebhook sha256Hex eventsSecret rawBody₁ = some r₁ →
        verifyAndParseWebhook sha256Hex eventsSecret rawBody₂ = some r₂ →
        w₁.checksum = w₂.checksum → r₁.transaction = r₂.transaction := by
  intro h
  have hsame := h sampleSha256Hex sampleSha256Hex_injective toLowerCase_sampleSha256Hex
    "events-secret" _ _ _ _ _ _ sampleBody_parsed.1 sampleBody_parsed.2 sampleBody_accepted.1
    sampleBody_accepted.2 rfl
  revert hsame
  decide

end WompiProvider

end TaroTria
