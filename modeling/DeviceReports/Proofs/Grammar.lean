import DeviceReports.Document.Schema

/-!
# Schemas as grammars

Read as a grammar, a schema says which documents conform to it, and a check finds nothing in
exactly those. What a checked document looks like afterwards is told field by field: a declared
field is there as the schema normalizes it, or its default is, and no other field is.
-/

set_option autoImplicit false

namespace DeviceReports

theorem Value.isMissing_iff {v : Value} : v.isMissing = true ↔ v = .missing := by
  cases v <;> simp [isMissing]

/-- The presence and the schema that a declared name has. -/
def Fields.find? : Fields → String → Option (Presence × Schema)
  | .nil, _ => none
  | .cons name presence schema rest, key =>
    if name = key then some (presence, schema) else rest.find? key

namespace Schema

/-- The fields that a record declares. -/
def fields : Schema → Fields
  | .record fs _ => fs
  | _ => .nil

mutual

/-- A value that the schema, read as a grammar, describes. -/
def Conforms : Schema → Value → Prop
  | .number rules, v => ∃ x, v = .number x ∧ x ≠ .nan ∧ ∀ r ∈ rules, r.holds x = true
  | .text nonempty, v => ∃ s, v = .string s ∧ ¬ (nonempty = true ∧ s.isEmpty = true)
  | .boolean, v => ∃ b, v = .bool b
  | .list item, v => ∃ items, v = .list items ∧ ∀ i ∈ items, Conforms item i
  | .digitKeyed _ entry, v =>
    ∃ fields, v = .record fields ∧ ∀ f ∈ fields, isDigits f.1 = true ∧ Conforms entry f.2
  | .record fs closed, v =>
    ∃ fields, v = .record fields ∧ FieldsConform fs v ∧ (closed = true → extraKeys fs fields = [])

/-- A value whose declared fields conform; one that need not be there may be absent. -/
def FieldsConform : Fields → Value → Prop
  | .nil, _ => True
  | .cons name presence schema rest, v =>
    ((v.field name = .missing ∧ presence ≠ .required) ∨ Conforms schema (v.field name)) ∧
      FieldsConform rest v

end

theorem mismatch_ne_nil (s : Schema) (path : Path) (v : Value) : mismatch s path v ≠ [] := by
  cases v <;> simp [mismatch]

theorem itemIssues_eq_nil {check : Path → Value → List Issue} {path : Path} {items : List Value}
    {good : Value → Prop} (checked : ∀ p v, check p v = [] ↔ good v) (n : Nat) :
    itemIssues check path n items = [] ↔ ∀ i ∈ items, good i := by
  induction items generalizing n with
  | nil => simp [itemIssues]
  | cons v rest ih => simp [itemIssues, checked, ih]

theorem numberIssues_eq_nil (rules : List NumberRule) (path : Path) (x : Number) :
    numberIssues rules path x = [] ↔ ∀ r ∈ rules, r.holds x = true := by
  simp [numberIssues, List.filter_eq_nil_iff]

theorem keyIssues_eq_nil (message : String) (path : Path) (key : String) :
    keyIssues message path key = [] ↔ isDigits key = true := by
  rw [keyIssues]
  split <;> simp_all

theorem extraIssue_eq_nil (path : Path) (keys : List String) :
    extraIssue path keys = [] ↔ keys = [] := by
  cases keys <;> simp [extraIssue]

mutual

/-- A check finds nothing in exactly the values that conform, wherever they stand. -/
theorem issues_eq_nil : ∀ (s : Schema) (path : Path) (v : Value),
    issues s path v = [] ↔ Conforms s v
  | .number rules, path, v => by
    rcases v with _ | _ | _ | x | _ | _ | _
    case number =>
      cases x <;> simp [issues, Conforms, mismatch_ne_nil, numberIssues_eq_nil]
    all_goals simp [issues, Conforms, mismatch_ne_nil]
  | .text nonempty, path, v => by
    cases v <;> simp [issues, Conforms, mismatch_ne_nil]
  | .boolean, path, v => by
    cases v <;> simp [issues, Conforms, mismatch_ne_nil]
  | .list item, path, v => by
    cases v <;> simp [issues, Conforms, mismatch_ne_nil, itemIssues_eq_nil (issues_eq_nil item)]
  | .digitKeyed message entry, path, v => by
    cases v <;> simp [issues, Conforms, mismatch_ne_nil, keyIssues_eq_nil, issues_eq_nil entry]
  | .record fs closed, path, v => by
    cases v with
    | record fields =>
      cases closed <;> simp [issues, Conforms, extraIssue_eq_nil, fieldIssues_eq_nil fs]
    | _ => simp [issues, Conforms, mismatch_ne_nil]

theorem fieldIssues_eq_nil : ∀ (fs : Fields) (path : Path) (v : Value),
    fieldIssues fs path v = [] ↔ FieldsConform fs v
  | .nil, path, v => by simp [fieldIssues, FieldsConform]
  | .cons name presence schema rest, path, v => by
    have hhead := issues_eq_nil schema (path ++ [name]) (v.field name)
    have hrest := fieldIssues_eq_nil rest path v
    rw [fieldIssues, FieldsConform, ← Value.isMissing_iff]
    by_cases habsent : (v.field name).isMissing = true ∧ presence ≠ .required
    · simp [habsent, hrest]
    · simp [habsent, hhead, hrest]

end

/-- A document is accepted exactly when it conforms, and then it is normalized. -/
theorem validate_eq_ok {s : Schema} {v w : Value} :
    validate s v = .ok w ↔ Conforms s v ∧ w = normalized s v := by
  rw [← issues_eq_nil s [] v, validate]
  rcases issues s [] v with _ | ⟨i, rest⟩
  · simp [eq_comm]
  · simp

/-! ### The fields of a checked record -/

theorem normalized_number (rules : List NumberRule) (v : Value) :
    normalized (.number rules) v = v := by
  rw [normalized] <;> nofun

theorem normalized_text (nonempty : Bool) (v : Value) : normalized (.text nonempty) v = v := by
  rw [normalized] <;> nofun

theorem normalized_boolean (v : Value) : normalized .boolean v = v := by
  rw [normalized] <;> nofun

/-- A missing value conforms to no schema: each asks for a basic type. -/
theorem not_conforms_missing (s : Schema) : ¬ Conforms s .missing := by
  cases s <;> simp [Conforms]

theorem conforms_of_find? : ∀ {fs : Fields} {v : Value}, FieldsConform fs v →
    ∀ {key : String} {presence : Presence} {schema : Schema},
      fs.find? key = some (presence, schema) →
        (v.field key = .missing ∧ presence ≠ .required) ∨ Conforms schema (v.field key)
  | .nil, _, _, _, _, _, declared => by simp [Fields.find?] at declared
  | .cons name presence schema rest, v, h, key, p, s, declared => by
    obtain ⟨hhead, hrest⟩ : _ ∧ FieldsConform rest v := h
    rw [Fields.find?] at declared
    split at declared
    · next hkey =>
      cases declared
      rw [← hkey]
      exact hhead
    · exact conforms_of_find? hrest declared

theorem lookup_normalizedFields_of_notMem : ∀ {fs : Fields} {key : String}, key ∉ fs.names →
    ∀ v, Value.lookup (normalizedFields fs v) key = .missing
  | .nil, _, _, _ => rfl
  | .cons name presence schema rest, key, undeclared, v => by
    obtain ⟨hname, hrest⟩ : ¬ key = name ∧ key ∉ rest.names := by
      simpa [Fields.names] using undeclared
    have hothers := lookup_normalizedFields_of_notMem hrest v
    have hskip (filled : Value) :
        Value.lookup ((name, filled) :: normalizedFields rest v) key = .missing := by
      rw [← hothers]
      simp [Value.lookup, Ne.symm hname]
    rw [normalizedFields]
    split
    · split
      · exact hothers
      · exact hskip _
    · exact hskip _

/-- A declared field of a checked record: its default where it is absent, and what its schema
makes of it where it is there. -/
theorem lookup_normalizedFields : ∀ {fs : Fields}, fs.names.Nodup →
    ∀ {key : String} {presence : Presence} {schema : Schema},
      fs.find? key = some (presence, schema) →
        ∀ v, Value.lookup (normalizedFields fs v) key =
          if (v.field key).isMissing then substitute presence else normalized schema (v.field key)
  | .nil, _, _, _, _, declared, _ => by simp [Fields.find?] at declared
  | .cons name presence schema rest, nodup, key, p, s, declared, v => by
    obtain ⟨hname, hrest⟩ := List.nodup_cons.mp nodup
    rw [Fields.find?] at declared
    rw [normalizedFields]
    split at declared
    · next hkey =>
      subst hkey
      cases declared
      have hothers := lookup_normalizedFields_of_notMem hname v
      split
      · split
        · next hfilled => rw [hothers, hfilled]
        · simp [Value.lookup]
      · simp [Value.lookup]
    · next hkey =>
      have hothers := lookup_normalizedFields hrest declared v
      have hskip (filled : Value) :
          Value.lookup ((name, filled) :: normalizedFields rest v) key =
            Value.lookup (normalizedFields rest v) key := by
        simp [Value.lookup, hkey]
      rw [← hothers]
      split
      · split
        · rfl
        · exact hskip _
      · exact hskip _

/-- A declared field of a checked value is its default, or it conforms and is normalized. -/
theorem field_normalized {s : Schema} (nodup : s.fields.names.Nodup) {v : Value}
    (conforms : Conforms s v) (key : String) {presence : Presence} {schema : Schema}
    (declared : s.fields.find? key = some (presence, schema)) :
    (v.field key = .missing ∧ presence ≠ .required ∧
        (normalized s v).field key = substitute presence) ∨
      (Conforms schema (v.field key) ∧
        (normalized s v).field key = normalized schema (v.field key)) := by
  obtain ⟨fs, closed, rfl⟩ : ∃ fs closed, s = .record fs closed := by
    cases s with
    | record fs closed => exact ⟨fs, closed, rfl⟩
    | _ => cases declared
  rw [fields] at nodup declared
  obtain ⟨fields, rfl, hfields, -⟩ := conforms
  have hfield : (normalized (.record fs closed) (.record fields)).field key =
      Value.lookup (normalizedFields fs (.record fields)) key := by rw [normalized, Value.field]
  rw [hfield, lookup_normalizedFields nodup declared]
  rcases conforms_of_find? hfields declared with ⟨habsent, hoptional⟩ | hgood
  · exact Or.inl ⟨habsent, hoptional, by rw [habsent]; rfl⟩
  · refine Or.inr ⟨hgood, if_neg fun h => ?_⟩
    rw [Value.isMissing_iff.mp h] at hgood
    exact not_conforms_missing schema hgood

/-- A number field of a checked value is its default, or a number that keeps the rules. -/
theorem number_field {s : Schema} (nodup : s.fields.names.Nodup) {v : Value}
    (conforms : Conforms s v) (key : String) {presence : Presence} {rules : List NumberRule}
    (declared : s.fields.find? key = some (presence, .number rules)) :
    (normalized s v).field key = substitute presence ∨
      ∃ x, (normalized s v).field key = .number x ∧ ∀ r ∈ rules, r.holds x = true := by
  rcases field_normalized nodup conforms key declared with
    ⟨-, -, hfield⟩ | ⟨⟨x, hx, -, hrules⟩, hfield⟩
  · exact Or.inl hfield
  · refine Or.inr ⟨x, ?_, hrules⟩
    rw [hfield, hx]
    simp [normalized]

end Schema

end DeviceReports
