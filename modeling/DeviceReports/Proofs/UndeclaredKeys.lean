import DeviceReports.Document.Schema
import Mathlib.Data.List.Forall2

/-!
# Keys that a schema does not name

A checked record has no key that the schema does not name, so two documents that differ only in
such keys, at any depth, are the same once they are checked. Nothing is said of the order of
declared keys either, for they are looked up one by one.
-/

set_option autoImplicit false

namespace DeviceReports.Schema

theorem any_key_normalizedFields : ∀ {fs : Fields} {key : String}, key ∉ fs.names →
    ∀ v, (normalizedFields fs v).any (·.1 == key) = false
  | .nil, _, _, _ => rfl
  | .cons name presence schema rest, key, undeclared, v => by
    obtain ⟨hname, hrest⟩ : ¬ key = name ∧ key ∉ rest.names := by
      simpa [Fields.names] using undeclared
    have hothers := any_key_normalizedFields hrest v
    have hskip (filled : Value) :
        ((name, filled) :: normalizedFields rest v).any (·.1 == key) = false := by
      rw [List.any_cons, hothers, Bool.or_false, beq_eq_false_iff_ne]
      exact Ne.symm hname
    rw [normalizedFields]
    split
    · split
      · exact hothers
      · exact hskip _
    · exact hskip _

/-- Whatever keys a record had, a checked one has none but those that the schema names. -/
theorem hasKey_normalized {fs : Fields} {key : String} (undeclared : key ∉ fs.names)
    (closed : Bool) (fields : List (String × Value)) :
    (normalized (.record fs closed) (.record fields)).hasKey key = false := by
  rw [normalized]
  exact any_key_normalizedFields undeclared _

mutual

/-- Documents that differ at most in keys that the schema does not name. -/
def Same : Schema → Value → Value → Prop
  | .list item, .list xs, .list ys => List.Forall₂ (Same item) xs ys
  | .digitKeyed _ entry, .record xs, .record ys =>
    List.Forall₂ (fun x y => x.1 = y.1 ∧ Same entry x.2 y.2) xs ys
  | .record fs _, .record xs, .record ys => FieldsSame fs (.record xs) (.record ys)
  | _, v, w => v = w

def FieldsSame : Fields → Value → Value → Prop
  | .nil, _, _ => True
  | .cons name _ schema rest, v, w =>
    Same schema (v.field name) (w.field name) ∧ FieldsSame rest v w

end

mutual

theorem same_refl : ∀ (s : Schema) (v : Value), Same s v v
  | .number _, _ => rfl
  | .text _, _ => rfl
  | .boolean, _ => rfl
  | .list item, v => by
    cases v with
    | list xs => exact List.forall₂_same.mpr fun x _ => same_refl item x
    | _ => rfl
  | .digitKeyed _ entry, v => by
    cases v with
    | record xs => exact List.forall₂_same.mpr fun x _ => ⟨rfl, same_refl entry x.2⟩
    | _ => rfl
  | .record fs _, v => by
    cases v with
    | record xs => exact fieldsSame_refl fs (.record xs)
    | _ => rfl

theorem fieldsSame_refl : ∀ (fs : Fields) (v : Value), FieldsSame fs v v
  | .nil, _ => trivial
  | .cons name _ schema rest, v => ⟨same_refl schema (v.field name), fieldsSame_refl rest v⟩

end

/-- A value and a missing one are not the same. -/
theorem isMissing_eq_of_same {s : Schema} {v w : Value} (same : Same s v w) :
    v.isMissing = w.isMissing := by
  cases v <;> cases w <;> first | rfl | cases s <;> cases same

mutual

/-- Checking drops what the documents differ in. -/
theorem normalized_eq_of_same : ∀ {s : Schema} {v w : Value}, Same s v w →
    normalized s v = normalized s w
  | .number _, _, _, same => congrArg _ same
  | .text _, _, _, same => congrArg _ same
  | .boolean, _, _, same => congrArg _ same
  | .list item, v, w, same => by
    cases v with
    | list xs =>
      cases w with
      | list ys =>
        rw [Same] at same
        rw [normalized, normalized]
        congr 1
        induction same with
        | nil => rfl
        | cons hhead _ ih => rw [List.map_cons, List.map_cons, normalized_eq_of_same hhead, ih]
      | _ => cases same
    | _ =>
      cases w with
      | list ys => cases same
      | _ => exact congrArg _ same
  | .digitKeyed message entry, v, w, same => by
    cases v with
    | record xs =>
      cases w with
      | record ys =>
        rw [Same] at same
        rw [normalized, normalized]
        congr 1
        induction same with
        | nil => rfl
        | cons hhead _ ih =>
          rw [List.map_cons, List.map_cons, hhead.1, normalized_eq_of_same hhead.2, ih]
      | _ => cases same
    | _ =>
      cases w with
      | record ys => cases same
      | _ => exact congrArg _ same
  | .record fs closed, v, w, same => by
    cases v with
    | record xs =>
      cases w with
      | record ys =>
        rw [Same] at same
        rw [normalized, normalized, normalizedFields_eq_of_same same]
      | _ => cases same
    | _ =>
      cases w with
      | record ys => cases same
      | _ => exact congrArg _ same

theorem normalizedFields_eq_of_same : ∀ {fs : Fields} {v w : Value}, FieldsSame fs v w →
    normalizedFields fs v = normalizedFields fs w
  | .nil, _, _, _ => rfl
  | .cons name presence schema rest, v, w, same => by
    obtain ⟨hhead, hrest⟩ : Same schema (v.field name) (w.field name) ∧ FieldsSame rest v w := same
    rw [normalizedFields, normalizedFields, isMissing_eq_of_same hhead,
      normalized_eq_of_same hhead, normalizedFields_eq_of_same hrest]

end

end DeviceReports.Schema
