import TaroTria.Readings.ReadingInputs

/-!
# What the validator of the answers enforces

The form as a whole asks for the required answers and, where a field declares
bounds or options, for a string within them. The validator checks the bounds
and the options of strings only, and takes what every object inherits for an
answer; the main result says for which answers it enforces the form all the
same.
-/

namespace TaroTria

/-- The field restricts the strings that answer it. -/
def DynamicFormField.Constrained (field : DynamicFormField) : Prop :=
  field.minLength ≠ none ∨ field.maxLength ≠ none ∨ field.options ≠ none

/-- The string is within the declared bounds and one of the declared options. -/
structure DynamicFormField.Admits (field : DynamicFormField) (text : String) : Prop where
  min : ∀ minLength, field.minLength = some minLength → minLength ≤ utf16Length text
  max : ∀ maxLength, field.maxLength = some maxLength → utf16Length text ≤ maxLength
  option : ∀ options, field.options = some options → text ∈ options

namespace ReadingsService

variable {field : DynamicFormField} {fields : List DynamicFormField} {answers : ReadingAnswers}

/-- The answer under a key that is neither null nor the empty string. -/
def givenAnswer (answers : ReadingAnswers) (key : String) : Option (Json String) :=
  match answers.lookup key with
  | some .null => none
  | some (.str text) => if text = "" then none else some (.str text)
  | answer => answer

/-- What the form asks for a field. -/
structure Meets (field : DynamicFormField) (answers : ReadingAnswers) : Prop where
  present : field.required = true → givenAnswer answers field.key ≠ none
  admitted : field.Constrained → ∀ answer, givenAnswer answers field.key = some answer →
    ∃ text, answer = .str text ∧ field.Admits text

/-- The validator accepts the answers that meet every field, and the question of an accepted
form that requires one with bounds or options reaches the jobs. -/
def EnforcesForm (fields : List DynamicFormField) (answers : ReadingAnswers) : Prop :=
  (validateReadingAnswers (.dynamic fields) answers = .ok () ↔
    ∀ field ∈ fields, Meets field answers) ∧
  (validateReadingAnswers (.dynamic fields) answers = .ok () →
    ∀ field ∈ fields, field.key = "question" → field.required = true → field.Constrained →
      ∀ formVersion, ∃ question, ReadingInput.question ⟨formVersion, answers⟩ = some question ∧
        field.Admits question)

/-- The validator refuses the answer to the field: it is missing though required, or it is a
string out of bounds. -/
def Refused (field : DynamicFormField) (answers : ReadingAnswers) : Prop :=
  field.required = true ∧ isEmptyAnswer field.key (answers.lookup field.key) = true ∨
    ∃ text, givenAnswer answers field.key = some (.str text) ∧ ¬ field.Admits text

/-- The validator overlooks the answer to the field: a property that every object has stands
for a required one, or no string answers a field with bounds or options. -/
def Overlooked (field : DynamicFormField) (answers : ReadingAnswers) : Prop :=
  field.required = true ∧ answers.lookup field.key = none ∧ field.key ∈ OBJECT_PROTOTYPE_NAMES ∨
    field.Constrained ∧ ∃ answer, givenAnswer answers field.key = some answer ∧
      ∀ text, answer ≠ .str text

theorem givenAnswer_eq_none (h : isEmptyAnswer field.key (answers.lookup field.key) = true) :
    givenAnswer answers field.key = none := by
  revert h
  unfold givenAnswer
  cases answers.lookup field.key with
  | none => simp
  | some answer => cases answer <;> simp [isEmptyAnswer]

/-- An answer that is not given is empty for the validator, unless it is inherited. -/
theorem isEmptyAnswer_of_givenAnswer (h : givenAnswer answers field.key = none) :
    isEmptyAnswer field.key (answers.lookup field.key) = true ∨
      answers.lookup field.key = none ∧ field.key ∈ OBJECT_PROTOTYPE_NAMES := by
  revert h
  unfold givenAnswer
  cases answers.lookup field.key with
  | none => by_cases hkey : field.key ∈ OBJECT_PROTOTYPE_NAMES <;> simp [isEmptyAnswer, hkey]
  | some answer => cases answer <;> simp [isEmptyAnswer]

/-- A check of an optional bound. -/
def ensure {β : Type} (bound : Option β) (violated : β → Prop) [DecidablePred violated]
    (e : β → Err) : Except Err Unit :=
  match bound with
  | some b => if violated b then throw (e b) else pure ()
  | none => pure ()

theorem ensure_eq_ok {β : Type} (bound : Option β) (violated : β → Prop) [DecidablePred violated]
    (e : β → Err) : ensure bound violated e = .ok () ↔ ∀ b, bound = some b → ¬ violated b := by
  cases bound with
  | none => simp [ensure, pure, Except.pure]
  | some b =>
      by_cases hb : violated b <;>
        simp [ensure, hb, throw, throwThe, MonadExceptOf.throw, pure, Except.pure]

theorem bind_eq_ok {x : Except Err Unit} {f : Unit → Except Err Unit} :
    (x >>= f) = .ok () ↔ x = .ok () ∧ f () = .ok () := by
  cases x <;> simp [bind, Except.bind]

/-- The checks of a string are made one after the other. -/
theorem validateText_eq (field : DynamicFormField) (text : String) :
    validateText field text = (do
      ensure field.minLength (fun minLength => (utf16Length text : Int) < minLength)
        fun minLength => .badRequest ("El campo \"" ++ field.label ++ "\" debe tener al menos " ++
          toString minLength ++ " caracteres.")
      ensure field.maxLength (fun maxLength => (utf16Length text : Int) > maxLength)
        fun maxLength => .badRequest ("El campo \"" ++ field.label ++ "\" no puede superar " ++
          toString maxLength ++ " caracteres.")
      ensure field.options (fun options => (!options.contains text) = true)
        fun _ => .badRequest ("El campo \"" ++ field.label ++ "\" tiene un valor inválido.")) := by
  unfold validateText ensure
  cases field.minLength <;> cases field.maxLength <;> cases field.options <;>
    first | rfl | (dsimp only; split_ifs <;> rfl)

theorem validateText_eq_ok (field : DynamicFormField) (text : String) :
    validateText field text = .ok () ↔ field.Admits text := by
  rw [validateText_eq, bind_eq_ok, bind_eq_ok, ensure_eq_ok, ensure_eq_ok, ensure_eq_ok]
  simp only [not_lt, Bool.not_eq_true', Bool.not_eq_false, List.contains_iff_mem]
  exact ⟨fun h => ⟨h.1, h.2.1, h.2.2⟩, fun h => ⟨h.min, h.max, h.option⟩⟩

theorem validateField_eq_ok (field : DynamicFormField) (answers : ReadingAnswers) :
    validateField field answers = .ok () ↔ ¬ Refused field answers := by
  unfold validateField Refused
  dsimp only
  cases hempty : isEmptyAnswer field.key (answers.lookup field.key) with
  | true =>
      have hnone : ¬ ∃ text, givenAnswer answers field.key = some (.str text) ∧
          ¬ field.Admits text := by
        simp [givenAnswer_eq_none hempty]
      cases hrequired : field.required with
      | true => simp [throw, throwThe, MonadExceptOf.throw, bind, Except.bind]
      | false => simpa [pure, Except.pure] using hnone
  | false =>
      simp only [Bool.and_false, Bool.false_eq_true, if_false, and_false, false_or]
      cases hanswer : answers.lookup field.key with
      | none => simp [givenAnswer, hanswer, pure, Except.pure]
      | some answer =>
          rw [hanswer] at hempty
          cases answer with
          | str text =>
              simp only [isEmptyAnswer, beq_eq_false_iff_ne, ne_eq] at hempty
              simp [givenAnswer, hanswer, hempty, validateText_eq_ok]
          | _ => simp_all [givenAnswer, isEmptyAnswer, pure, Except.pure]

theorem forM_eq_ok {β : Type} {xs : List β} {f : β → Except Err Unit} :
    xs.forM f = .ok () ↔ ∀ x ∈ xs, f x = .ok () := by
  induction xs with
  | nil => simp [pure, Except.pure]
  | cons x xs ih =>
      change (f x >>= fun _ => xs.forM f) = .ok () ↔ _
      cases hx : f x with
      | error e => simp [hx, bind, Except.bind]
      | ok u =>
          simp only [List.forall_mem_cons, hx, true_and]
          exact ih

/-- The validator accepts the answers that it refuses for no field. -/
theorem validateReadingAnswers_eq_ok (fields : List DynamicFormField) (answers : ReadingAnswers) :
    validateReadingAnswers (.dynamic fields) answers = .ok () ↔
      ∀ field ∈ fields, ¬ Refused field answers := by
  refine forM_eq_ok.trans (forall₂_congr fun field _ => validateField_eq_ok field answers)

/-- A field is met when its answer is neither refused nor overlooked. -/
theorem meets_iff (field : DynamicFormField) (answers : ReadingAnswers) :
    Meets field answers ↔ ¬ Refused field answers ∧ ¬ Overlooked field answers := by
  constructor
  · intro h
    refine ⟨?_, ?_⟩
    · rintro (⟨hrequired, hempty⟩ | ⟨text, hgiven, hnot⟩)
      · exact h.present hrequired (givenAnswer_eq_none hempty)
      · by_cases hconstrained : field.Constrained
        · obtain ⟨text', htext, hadmits⟩ := h.admitted hconstrained _ hgiven
          cases htext
          exact hnot hadmits
        · simp only [DynamicFormField.Constrained, not_or, not_not] at hconstrained
          obtain ⟨hmin, hmax, hoptions⟩ := hconstrained
          exact hnot ⟨by simp [hmin], by simp [hmax], by simp [hoptions]⟩
    · rintro (⟨hrequired, hnone, -⟩ | ⟨hconstrained, answer, hgiven, hnot⟩)
      · exact h.present hrequired (by simp [givenAnswer, hnone])
      · obtain ⟨text, htext, -⟩ := h.admitted hconstrained _ hgiven
        exact hnot text htext
  · rintro ⟨hrefused, hoverlooked⟩
    simp only [Refused, Overlooked, not_or, not_and, not_exists, not_not] at hrefused hoverlooked
    refine ⟨fun hrequired hnone => ?_, fun hconstrained answer hgiven => ?_⟩
    · rcases isEmptyAnswer_of_givenAnswer hnone with hempty | ⟨hlookup, hkey⟩
      · exact hrefused.1 hrequired hempty
      · exact hoverlooked.1 hrequired hlookup hkey
    · have htext := hoverlooked.2 hconstrained answer hgiven
      simp only [not_forall, not_not] at htext
      obtain ⟨text, rfl⟩ := htext
      exact ⟨text, rfl, hrefused.2 text hgiven⟩

/-- A required question with bounds or options, when met, reaches the jobs as a string. -/
theorem question_of_meets (h : Meets field answers) (hkey : field.key = "question")
    (hrequired : field.required = true) (hconstrained : field.Constrained) (formVersion : Nat) :
    ∃ question, ReadingInput.question ⟨formVersion, answers⟩ = some question ∧
      field.Admits question := by
  obtain ⟨answer, hgiven⟩ := Option.ne_none_iff_exists'.mp (h.present hrequired)
  obtain ⟨text, rfl, hadmits⟩ := h.admitted hconstrained answer hgiven
  refine ⟨text, ?_, hadmits⟩
  rw [hkey] at hgiven
  revert hgiven
  unfold givenAnswer ReadingInput.question
  cases answers.lookup "question" with
  | none => simp
  | some answer => cases answer <;> simp

/-- The validator enforces the form on these answers if and only if it refuses the answer to
some field or overlooks none. -/
theorem enforcesForm_iff (fields : List DynamicFormField) (answers : ReadingAnswers) :
    EnforcesForm fields answers ↔
      (∃ field ∈ fields, Refused field answers) ∨ ∀ field ∈ fields, ¬ Overlooked field answers := by
  simp only [EnforcesForm, validateReadingAnswers_eq_ok, meets_iff]
  constructor
  · rintro ⟨hiff, -⟩
    by_cases hrefused : ∃ field ∈ fields, Refused field answers
    · exact .inl hrefused
    · refine .inr fun field hfield => (hiff.mp (fun field hfield h => ?_) field hfield).2
      exact hrefused ⟨field, hfield, h⟩
  · intro h
    have haccepted : (∀ field ∈ fields, ¬ Refused field answers) →
        ∀ field ∈ fields, ¬ Refused field answers ∧ ¬ Overlooked field answers := by
      intro hok field hfield
      rcases h with ⟨field', hfield', hrefused⟩ | hseen
      · exact absurd hrefused (hok field' hfield')
      · exact ⟨hok field hfield, hseen field hfield⟩
    refine ⟨⟨haccepted, fun hmeets field hfield => (hmeets field hfield).1⟩, ?_⟩
    intro hok field hfield hkey hrequired hconstrained formVersion
    exact question_of_meets ((meets_iff field answers).mpr (haccepted hok field hfield)) hkey
      hrequired hconstrained formVersion

/-- The question of a tarot reading. -/
def questionField : DynamicFormField :=
  { key := "question", label := "¿Qué quieres consultar?", required := true
    minLength := some 5, maxLength := some 500, options := none }

/-- `true` passes for a question of 5 to 500 characters, and the jobs see none. -/
theorem not_enforcesForm_true : ¬ EnforcesForm [questionField] [("question", .bool true)] := by
  rintro ⟨-, hreaches⟩
  obtain ⟨question, hquestion, -⟩ := hreaches rfl questionField List.mem_cons_self rfl rfl
    (.inl (by decide)) 1
  cases hquestion

end ReadingsService

end TaroTria
