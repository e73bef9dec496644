import Mathlib.Data.List.Basic

structure Schema.Field (τ V : Type) where
  name : String
  type : τ
  default : Option V := none

namespace Schema
variable {τ V : Type} {accepts : τ → V → Option V} {fields : List (Field τ V)} {record model : List (String × V)}

def read (accepts : τ → V → Option V) (record : List (String × V)) (field : Field τ V) : Option V :=
  match record.lookup field.name with
  | some value => accepts field.type value
  | none => field.default

/-- The record as its fields read it: entries without a field are dropped, and
one field that cannot be read fails the whole. -/
def validate (accepts : τ → V → Option V) : List (Field τ V) → List (String × V) → Option (List (String × V))
  | [], _ => some []
  | field :: fields, record =>
    match read accepts record field, validate accepts fields record with
    | some value, some rest => some ((field.name, value) :: rest)
    | _, _ => none

theorem validate_isSome_iff :
    (validate accepts fields record).isSome = true ↔ ∀ field ∈ fields, (read accepts record field).isSome = true := by
  induction fields with
  | nil => simp [validate]
  | cons field fields ih =>
    unfold validate
    cases value : read accepts record field with
    | none => simp [value]
    | some v =>
      cases rest : validate accepts fields record with
      | none =>
        rw [rest] at ih
        simp only [Option.isSome_none, Bool.false_eq_true, false_iff] at ih
        simp only [Option.isSome_none, Bool.false_eq_true, false_iff]
        exact fun all => ih fun f member => all f (List.mem_cons_of_mem _ member)
      | some model =>
        rw [rest] at ih
        simpa [value] using ih

theorem validate_eq_none {field : Field τ V} (listed : field ∈ fields) (unread : read accepts record field = none) :
    validate accepts fields record = none := by
  rw [← Option.not_isSome_iff_eq_none, validate_isSome_iff]
  intro all
  have found := all field listed
  rw [unread] at found
  cases found

theorem lookup_validate (names : (fields.map Field.name).Nodup) (valid : validate accepts fields record = some model)
    {field : Field τ V} (listed : field ∈ fields) : model.lookup field.name = read accepts record field := by
  induction fields generalizing model with
  | nil => cases listed
  | cons first fields ih =>
    obtain ⟨new, names⟩ := List.nodup_cons.mp names
    unfold validate at valid
    cases value : read accepts record first with
    | none =>
      rw [value] at valid
      cases valid
    | some v =>
      cases rest : validate accepts fields record with
      | none =>
        rw [value, rest] at valid
        cases valid
      | some others =>
        rw [value, rest] at valid
        cases valid
        rcases List.mem_cons.mp listed with rfl | later
        · rw [List.lookup_cons_self, value]
        · have different : field.name ≠ first.name := by
            intro same
            exact new (same ▸ List.mem_map_of_mem later)
          rw [List.lookup_cons, beq_false_of_ne different]
          exact ih names rest later

/-- A record is read, and to values like its own, exactly when each field finds
a value that its type reads to one like it. -/
theorem reads_alike_iff (alike : V → V → Prop) (names : (fields.map Field.name).Nodup) :
    (∃ model, validate accepts fields record = some model ∧ ∀ field ∈ fields, ∃ value value',
        record.lookup field.name = some value ∧ model.lookup field.name = some value' ∧ alike value' value) ↔
      ∀ field ∈ fields, ∃ value value',
        record.lookup field.name = some value ∧ accepts field.type value = some value' ∧ alike value' value := by
  constructor
  · rintro ⟨model, valid, all⟩ field listed
    obtain ⟨value, value', found, inModel, like⟩ := all field listed
    rw [lookup_validate names valid listed, read, found] at inModel
    exact ⟨value, value', found, inModel, like⟩
  · intro all
    have readable : ∀ field ∈ fields, ∃ value value', record.lookup field.name = some value ∧
        read accepts record field = some value' ∧ alike value' value := by
      intro field listed
      obtain ⟨value, value', found, accepted, like⟩ := all field listed
      refine ⟨value, value', found, ?_, like⟩
      rw [read, found]
      exact accepted
    have valid : (validate accepts fields record).isSome = true := by
      rw [validate_isSome_iff]
      intro field listed
      obtain ⟨_, value', _, accepted, _⟩ := readable field listed
      rw [accepted]
      rfl
    obtain ⟨model, valid⟩ := Option.isSome_iff_exists.mp valid
    refine ⟨model, valid, ?_⟩
    intro field listed
    obtain ⟨value, value', found, accepted, like⟩ := readable field listed
    exact ⟨value, value', found, (lookup_validate names valid listed).trans accepted, like⟩

end Schema
