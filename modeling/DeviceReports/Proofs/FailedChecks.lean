import DeviceReports.Device.Sample
import DeviceReports.Proofs.WholeFigures

/-!
# Failed checks

A schema looks at positions of a document: the whole, and from a value of the right basic type
the parts that are there or have to be. At each position it makes the checks that the value there
calls for. What a check of the document reports is exactly the checks that fail, each once and in
the order of the schema. A part is not looked into where its whole has another basic type, and a
field that may be absent is not looked at where it is.
-/

set_option autoImplicit false

namespace DeviceReports

/-- The declared fields, in declaration order. -/
def Fields.toList : Fields → List (String × Presence × Schema)
  | .nil => []
  | .cons name presence schema rest => (name, presence, schema) :: rest.toList

namespace Schema

/-- A step into a part of a value: what the part is called in a path, and its place among the
checks of the whole. -/
structure Step where
  label : String
  place : Nat

/-- Whether a value has the basic type that a schema asks for. -/
def hasType : Schema → Value → Bool
  | .number _, .number x => decide (x ≠ .nan)
  | .text _, .string _ => true
  | .boolean, .bool _ => true
  | .list _, .list _ => true
  | .digitKeyed _ _, .record _ => true
  | .record _ _, .record _ => true
  | _, _ => false

/-- The parts of a value that a schema looks at. Of an entry the key is checked first, so the
values of the entries stand at the odd places. -/
inductive Part : Schema → Value → Step → Schema → Value → Prop where
  | item {item : Schema} {items : List Value} {n : Nat} {v : Value} (there : items[n]? = some v) :
    Part (.list item) (.list items) ⟨toString n, n⟩ item v
  | entry {message : String} {entry : Schema} {fields : List (String × Value)} {n : Nat}
      {f : String × Value} (there : fields[n]? = some f) :
    Part (.digitKeyed message entry) (.record fields) ⟨f.1, 2 * n + 1⟩ entry f.2
  | field {fs : Fields} {closed : Bool} {fields : List (String × Value)} {n : Nat} {name : String}
      {presence : Presence} {schema : Schema}
      (declared : fs.toList[n]? = some (name, presence, schema))
      (due : (Value.record fields).field name = .missing → presence = .required) :
    Part (.record fs closed) (.record fields) ⟨name, n⟩ schema ((Value.record fields).field name)

/-- The positions of a document that a schema looks at, with the schema and the value there. -/
inductive At : Schema → Value → List Step → Schema → Value → Prop where
  | whole {s : Schema} {v : Value} : At s v [] s v
  | inside {s s' t : Schema} {v v' w : Value} {step : Step} {p : List Step}
      (part : Part s v step s' v') (below : At s' v' p t w) : At s v (step :: p) t w

/-- What can be wrong with a value where it stands. Rules, entries and keys are numbered in the
order in which they are checked. -/
inductive Check where
  | type (wanted : Schema) (found : Value)
  | rule (n : Nat) (r : NumberRule)
  | nonempty
  | key (n : Nat) (name message : String)
  | extra (after : Nat) (keys : List String)

/-- The checks that a value fails under a schema where it stands. -/
inductive Breaks : Schema → Value → Check → Prop where
  | type {s : Schema} {v : Value} (other : s.hasType v = false) : Breaks s v (.type s v)
  | rule {rules : List NumberRule} {x : Number} {n : Nat} {r : NumberRule}
      (number : x ≠ .nan) (asked : rules[n]? = some r) (broken : r.holds x = false) :
    Breaks (.number rules) (.number x) (.rule n r)
  | nonempty : Breaks (.text true) (.string "") .nonempty
  | key {message : String} {entry : Schema} {fields : List (String × Value)} {n : Nat}
      {f : String × Value} (there : fields[n]? = some f) (bad : isDigits f.1 = false) :
    Breaks (.digitKeyed message entry) (.record fields) (.key n f.1 message)
  | extra {fs : Fields} {fields : List (String × Value)} (some_extra : extraKeys fs fields ≠ []) :
    Breaks (.record fs true) (.record fields) (.extra fs.toList.length (extraKeys fs fields))

namespace Check

/-- A key is shown as the path of its entry. -/
def labels : Check → Path
  | .type _ _ => []
  | .rule _ _ => []
  | .nonempty => []
  | .key _ name _ => [name]
  | .extra _ _ => []

/-- The place of a check among those of its value. -/
def places : Check → List Nat
  | .type _ _ => []
  | .rule n _ => [n]
  | .nonempty => []
  | .key n _ _ => [2 * n]
  | .extra after _ => [after]

def code : Check → String
  | .type _ _ => "invalid_type"
  | .rule _ r => r.code
  | .nonempty => "too_small"
  | .key _ _ _ => "invalid_string"
  | .extra _ _ => "unrecognized_keys"

def message : Check → String
  | .type _ .missing => "Required"
  | .type wanted found => "Expected " ++ wanted.typeName ++ ", received " ++ found.typeName
  | .rule _ r => r.message
  | .nonempty => "String must contain at least 1 character(s)"
  | .key _ _ message => message
  | .extra _ keys => "Unrecognized key(s) in object: " ++
      String.intercalate ", " (keys.map fun k => "'" ++ k ++ "'")

end Check

/-- A failed check of a document, with the position of the value that fails it. -/
structure Finding where
  position : List Step
  check : Check

namespace Finding

variable {f g : Finding} {step : Step}

def path (f : Finding) : Path := f.position.map (·.label) ++ f.check.labels

/-- The place of a finding in the order of the schema. -/
def places (f : Finding) : List Nat := f.position.map (·.place) ++ f.check.places

/-- Findings about a part of a value come where the part does; so the order is that of the places,
read from the whole inwards. -/
def Before (f g : Finding) : Prop := f.places < g.places

/-- The finding as it is reported about a value that stands at a path. -/
def issue (base : Path) (f : Finding) : Issue :=
  issueAt (base ++ f.path) f.check.code f.check.message

/-- A finding about a part, seen from the whole. -/
def inside (step : Step) (f : Finding) : Finding := ⟨step :: f.position, f.check⟩

/-- The finding about a value itself. -/
def ofCheck (c : Check) : Finding := ⟨[], c⟩

theorem issue_inside (base : Path) (step : Step) (f : Finding) :
    (f.inside step).issue base = f.issue (base ++ [step.label]) := by
  simp [issue, path, inside]

theorem before_inside_iff : (f.inside step).Before (g.inside step) ↔ f.Before g := by
  simp [Before, places, inside]

/-- Of two parts, that with the smaller place comes first with all that is found in it. -/
theorem before_of_place {step step' : Step} (lower : step.place < step'.place) :
    (f.inside step).Before (g.inside step') := by
  exact List.cons_lt_cons_iff.mpr (Or.inl lower)

end Finding

/-- The checks that a document fails under a schema, with their positions. -/
def Fails (s : Schema) (v : Value) (f : Finding) : Prop :=
  ∃ t w, At s v f.position t w ∧ Breaks t w f.check

/-- A check of a value fails at the value itself or in one of its parts. -/
theorem fails_iff {s : Schema} {v : Value} {f : Finding} :
    Fails s v f ↔ (∃ c, Breaks s v c ∧ f = .ofCheck c) ∨
      ∃ step s' v' g, Part s v step s' v' ∧ Fails s' v' g ∧ f = g.inside step := by
  obtain ⟨position, check⟩ := f
  constructor
  · rintro ⟨t, w, hat, hbreaks⟩
    cases hat with
    | whole => exact Or.inl ⟨check, hbreaks, rfl⟩
    | inside part below => exact Or.inr ⟨_, _, _, ⟨_, check⟩, part, ⟨t, w, below, hbreaks⟩, rfl⟩
  · rintro (⟨c, hbreaks, hf⟩ | ⟨step, s', v', g, part, ⟨t, w, below, hbreaks⟩, hf⟩)
    · cases hf
      exact ⟨s, v, .whole, hbreaks⟩
    · cases hf
      exact ⟨t, w, .inside part below, hbreaks⟩

/-! ### Reports -/

/-- Issues that report findings of a kind, about a value at a path: all of them, nothing else, and
in order. Since no finding comes before itself, none is reported twice. -/
def Reports (base : Path) (found : List Issue) (kind : Finding → Prop) : Prop :=
  ∃ fs : List Finding, found = fs.map (·.issue base) ∧ (∀ f, f ∈ fs ↔ kind f) ∧
    fs.Pairwise Finding.Before

namespace Reports

variable {base : Path} {found more : List Issue} {kind other : Finding → Prop}

theorem congr (h : Reports base found kind) (same : ∀ f, kind f ↔ other f) :
    Reports base found other := by
  obtain ⟨fs, hfound, hkind, hsorted⟩ := h
  exact ⟨fs, hfound, fun f => (hkind f).trans (same f), hsorted⟩

theorem nothing (none : ∀ f, ¬ kind f) : Reports base [] kind :=
  ⟨[], rfl, fun f => by simp [none f], .nil⟩

theorem one (f : Finding) : Reports base [f.issue base] (· = f) :=
  ⟨[f], rfl, fun g => by simp, List.pairwise_singleton _ _⟩

theorem append (first : Reports base found kind) (next : Reports base more other)
    (ordered : ∀ f g, kind f → other g → f.Before g) :
    Reports base (found ++ more) fun f => kind f ∨ other f := by
  obtain ⟨fs, rfl, hkind, hsorted⟩ := first
  obtain ⟨gs, rfl, hother, hlater⟩ := next
  refine ⟨fs ++ gs, List.map_append.symm, ?_, ?_⟩
  · intro f
    rw [List.mem_append, hkind, hother]
  · refine List.pairwise_append.mpr ⟨hsorted, hlater, ?_⟩
    intro f hf g hg
    exact ordered f g ((hkind f).mp hf) ((hother g).mp hg)

/-- What is reported about a part is reported about the whole. -/
theorem inside (step : Step) (part : Reports (base ++ [step.label]) found kind) :
    Reports base found fun f => ∃ g, kind g ∧ f = g.inside step := by
  obtain ⟨fs, rfl, hkind, hsorted⟩ := part
  refine ⟨fs.map (·.inside step), ?_, ?_, ?_⟩
  · rw [List.map_map]
    exact List.map_congr_left fun f _ => (f.issue_inside base step).symm
  · intro f
    simp only [List.mem_map, hkind, eq_comm]
  · exact List.pairwise_map.mpr (hsorted.imp fun h => Finding.before_inside_iff.mpr h)

/-- Reports about the members of a list make up one, where those of earlier members come first. -/
theorem numbered (base : Path) {α : Type} (xs : List α) (report : α × Nat → List Issue)
    (about : Nat → α → Finding → Prop)
    (each : ∀ x ∈ xs, ∀ n, Reports base (report (x, n)) (about n x))
    (ordered : ∀ m n x y f g, m < n → about m x f → about n y g → f.Before g) (start : Nat) :
    Reports base ((xs.zipIdx start).flatMap report)
      fun f => ∃ n x, xs[n]? = some x ∧ about (start + n) x f := by
  induction xs generalizing start with
  | nil => exact nothing (by simp)
  | cons x rest ih =>
    have hrest := ih (fun y hy => each y (List.mem_cons_of_mem x hy)) (start + 1)
    have hwhole := (each x List.mem_cons_self start).append hrest
      (fun f g hf ⟨n, y, _, hg⟩ => ordered _ _ _ _ f g (by omega) hf hg)
    refine hwhole.congr fun f => ?_
    constructor
    · rintro (hf | ⟨n, y, hy, hf⟩)
      · exact ⟨0, x, rfl, hf⟩
      · refine ⟨n + 1, y, hy, ?_⟩
        rwa [show start + (n + 1) = start + 1 + n by omega]
    · rintro ⟨_ | n, y, hy, hf⟩
      · obtain rfl : x = y := Option.some.inj hy
        exact Or.inl hf
      · refine Or.inr ⟨n, y, hy, ?_⟩
        rwa [show start + 1 + n = start + (n + 1) by omega]

end Reports

/-! ### What a check reports -/

/-- A check that is not about a key is reported where the value stands. -/
theorem issue_ofCheck {c : Check} (about_value : c.labels = []) (base : Path) :
    (Finding.ofCheck c).issue base = issueAt base c.code c.message := by
  have hpath : (Finding.ofCheck c).path = [] := about_value
  rw [Finding.issue, hpath, List.append_nil]
  rfl

theorem mismatch_eq (s : Schema) (base : Path) (v : Value) :
    mismatch s base v = [(Finding.ofCheck (.type s v)).issue base] := by
  rw [issue_ofCheck rfl]
  cases v <;> rfl

theorem issues_of_other {s : Schema} {v : Value} (other : s.hasType v = false) (base : Path) :
    issues s base v = mismatch s base v := by
  cases s with
  | number rules =>
    cases v with
    | number x =>
      obtain rfl : x = .nan := by simpa [hasType] using other
      rw [issues]
    | _ => simp only [issues]
  | _ => cases v <;> first | (simp only [issues]; done) | cases other

theorem Part.hasType {s s' : Schema} {v v' : Value} {step : Step} (part : Part s v step s' v') :
    s.hasType v = true := by
  cases part <;> rfl

theorem Breaks.eq_of_other {s : Schema} {v : Value} {c : Check} (other : s.hasType v = false)
    (breaks : Breaks s v c) : c = .type s v := by
  cases breaks with
  | type _ => rfl
  | rule number _ _ => simp [Schema.hasType, number] at other
  | nonempty => cases other
  | key _ _ => cases other
  | extra _ => cases other

/-- A value of another basic type is reported for that alone. -/
theorem reports_of_other {s : Schema} {v : Value} (other : s.hasType v = false) (base : Path) :
    Reports base (issues s base v) (Fails s v) := by
  rw [issues_of_other other, mismatch_eq]
  refine (Reports.one _).congr fun f => ?_
  rw [fails_iff]
  constructor
  · rintro rfl
    exact Or.inl ⟨_, .type other, rfl⟩
  · rintro (⟨c, hbreaks, rfl⟩ | ⟨step, s', v', g, part, -, -⟩)
    · rw [hbreaks.eq_of_other other]
    · rw [part.hasType] at other
      cases other

/-- Reports about the members of a list, as a check makes them when it goes through the list. -/
theorem reports_flatMap (base : Path) {α : Type} (xs : List α) (report : α → List Issue)
    (about : Nat → α → Finding → Prop)
    (each : ∀ x ∈ xs, ∀ n, Reports base (report x) (about n x))
    (ordered : ∀ m n x y f g, m < n → about m x f → about n y g → f.Before g) :
    Reports base (xs.flatMap report) fun f => ∃ n x, xs[n]? = some x ∧ about n x f := by
  have hnumbered := Reports.numbered base xs (fun e => report e.1) about each ordered 0
  have hlist : xs.flatMap report = (xs.zipIdx).flatMap fun e => report e.1 := by
    rw [← List.flatMap_map Prod.fst report, List.zipIdx_map_fst]
  rw [hlist]
  exact hnumbered.congr fun f => by simp only [Nat.zero_add]

theorem reports_number (rules : List NumberRule) {x : Number} (number : x ≠ .nan) (base : Path) :
    Reports base (numberIssues rules base x) (Fails (.number rules) (.number x)) := by
  have hissues : numberIssues rules base x = rules.flatMap fun r =>
      if r.holds x then [] else [issueAt base r.code r.message] := by
    rw [numberIssues]
    induction rules with
    | nil => rfl
    | cons r rest ih =>
      rw [List.filter_cons, List.flatMap_cons, ← ih]
      cases r.holds x <;> rfl
  have hrules := reports_flatMap base rules
    (fun r => if r.holds x then [] else [issueAt base r.code r.message])
    (fun n r f => r.holds x = false ∧ f = .ofCheck (.rule n r)) ?_ ?_
  · rw [hissues]
    refine hrules.congr fun f => ?_
    rw [fails_iff]
    constructor
    · rintro ⟨n, r, hr, hbroken, rfl⟩
      exact Or.inl ⟨_, .rule number hr hbroken, rfl⟩
    · rintro (⟨c, hbreaks, rfl⟩ | ⟨step, s', v', g, part, -, -⟩)
      · cases hbreaks with
        | type other => simp [hasType, number] at other
        | rule _ asked broken => exact ⟨_, _, asked, broken, rfl⟩
      · cases part
  · intro r _ n
    cases hholds : r.holds x with
    | true => exact Reports.nothing (by simp)
    | false =>
      have hone : (Finding.ofCheck (.rule n r)).issue base = issueAt base r.code r.message :=
        issue_ofCheck rfl base
      rw [if_neg Bool.false_ne_true, ← hone]
      exact (Reports.one _).congr fun f => by simp
  · rintro m n r r' f g hlt ⟨-, rfl⟩ ⟨-, rfl⟩
    exact List.cons_lt_cons_iff.mpr (Or.inl hlt)

theorem reports_text (nonempty : Bool) (t : String) (base : Path) :
    Reports base (issues (.text nonempty) base (.string t))
      (Fails (.text nonempty) (.string t)) := by
  have hkind (f : Finding) : Fails (.text nonempty) (.string t) f ↔
      nonempty = true ∧ t = "" ∧ f = .ofCheck .nonempty := by
    rw [fails_iff]
    constructor
    · rintro (⟨c, hbreaks, rfl⟩ | ⟨step, s', v', g, part, -, -⟩)
      · cases hbreaks with
        | type other => cases other
        | nonempty => exact ⟨rfl, rfl, rfl⟩
      · cases part
    · rintro ⟨rfl, rfl, rfl⟩
      exact Or.inl ⟨_, .nonempty, rfl⟩
  rw [issues]
  by_cases hempty : nonempty = true ∧ t = ""
  · obtain ⟨rfl, rfl⟩ := hempty
    have hone : (Finding.ofCheck .nonempty).issue base =
        issueAt base "too_small" "String must contain at least 1 character(s)" :=
      issue_ofCheck rfl base
    rw [if_pos ⟨rfl, rfl⟩, ← hone]
    exact (Reports.one _).congr fun f => by simp [hkind]
  · rw [if_neg (by simpa using hempty)]
    exact Reports.nothing fun f hf => hempty ⟨((hkind f).mp hf).1, ((hkind f).mp hf).2.1⟩

theorem reports_boolean (b : Bool) (base : Path) :
    Reports base (issues .boolean base (.bool b)) (Fails .boolean (.bool b)) := by
  rw [issues]
  refine Reports.nothing fun f hf => ?_
  rcases fails_iff.mp hf with ⟨c, hbreaks, -⟩ | ⟨step, s', v', g, part, -, -⟩
  · cases hbreaks with
    | type other => cases other
  · cases part

/-- A check of one schema that reports what fails, wherever the value stands. -/
def Exact (s : Schema) : Prop := ∀ base v, Reports base (issues s base v) (Fails s v)

theorem reports_list {item : Schema} (exact_item : Exact item) (items : List Value) (base : Path) :
    Reports base (issues (.list item) base (.list items)) (Fails (.list item) (.list items)) := by
  have hissues (n : Nat) : itemIssues (issues item) base n items =
      (items.zipIdx n).flatMap fun e => issues item (base ++ [toString e.2]) e.1 := by
    induction items generalizing n with
    | nil => rfl
    | cons v rest ih => rw [itemIssues, List.zipIdx_cons, List.flatMap_cons, ih]
  have hitems := Reports.numbered base items
    (fun e => issues item (base ++ [toString e.2]) e.1)
    (fun n v f => ∃ g, Fails item v g ∧ f = g.inside ⟨toString n, n⟩)
    (fun v _ n => (exact_item _ v).inside ⟨toString n, n⟩) ?_ 0
  · rw [issues, hissues]
    refine hitems.congr fun f => ?_
    rw [fails_iff]
    constructor
    · rintro ⟨n, v, hv, g, hg, rfl⟩
      rw [Nat.zero_add]
      exact Or.inr ⟨_, _, _, g, .item hv, hg, rfl⟩
    · rintro (⟨c, hbreaks, -⟩ | ⟨step, s', v', g, part, hg, rfl⟩)
      · cases hbreaks with
        | type other => cases other
      · cases part with
        | item there => exact ⟨_, _, there, g, hg, by rw [Nat.zero_add]⟩
  · rintro m n v w f g hlt ⟨f', -, rfl⟩ ⟨g', -, rfl⟩
    exact Finding.before_of_place hlt

theorem reports_key (message : String) (base : Path) (n : Nat) (key : String) :
    Reports base (keyIssues message (base ++ [key]) key)
      fun f => isDigits key = false ∧ f = .ofCheck (.key n key message) := by
  rw [keyIssues]
  cases hdigits : isDigits key with
  | true => exact Reports.nothing (by simp)
  | false =>
    have hone : (Finding.ofCheck (.key n key message)).issue base =
        issueAt (base ++ [key]) "invalid_string" message := rfl
    rw [if_neg Bool.false_ne_true, ← hone]
    exact (Reports.one _).congr fun f => by simp

/-- What fails about the entry at a position: its key, and what fails of its value. -/
def EntryFails (message : String) (entry : Schema) (n : Nat) (e : String × Value) (f : Finding) :
    Prop :=
  (isDigits e.1 = false ∧ f = .ofCheck (.key n e.1 message)) ∨
    ∃ g, Fails entry e.2 g ∧ f = g.inside ⟨e.1, 2 * n + 1⟩

/-- What fails about an entry is found at one of its two places. -/
theorem EntryFails.place {message : String} {entry : Schema} {n : Nat} {e : String × Value}
    {f : Finding} (fails : EntryFails message entry n e f) :
    ∃ p rest, f.places = p :: rest ∧ (p = 2 * n ∨ p = 2 * n + 1) := by
  rcases fails with ⟨-, rfl⟩ | ⟨g, -, rfl⟩
  · exact ⟨_, _, rfl, Or.inl rfl⟩
  · exact ⟨_, _, rfl, Or.inr rfl⟩

theorem reports_digitKeyed {message : String} {entry : Schema} (exact_entry : Exact entry)
    (fields : List (String × Value)) (base : Path) :
    Reports base (issues (.digitKeyed message entry) base (.record fields))
      (Fails (.digitKeyed message entry) (.record fields)) := by
  rw [issues]
  have hentries := reports_flatMap base fields
    (fun f => keyIssues message (base ++ [f.1]) f.1 ++ issues entry (base ++ [f.1]) f.2)
    (EntryFails message entry) ?_ ?_
  · refine hentries.congr fun f => ?_
    rw [fails_iff]
    constructor
    · rintro ⟨n, e, he, ⟨hbad, rfl⟩ | ⟨g, hg, rfl⟩⟩
      · exact Or.inl ⟨_, .key he hbad, rfl⟩
      · exact Or.inr ⟨_, _, _, g, .entry he, hg, rfl⟩
    · rintro (⟨c, hbreaks, rfl⟩ | ⟨step, s', v', g, part, hg, rfl⟩)
      · cases hbreaks with
        | type other => cases other
        | key there bad => exact ⟨_, _, there, Or.inl ⟨bad, rfl⟩⟩
      · cases part with
        | entry there => exact ⟨_, _, there, Or.inr ⟨g, hg, rfl⟩⟩
  · intro e _ n
    refine (reports_key message base n e.1).append
      ((exact_entry _ e.2).inside ⟨e.1, 2 * n + 1⟩) ?_
    rintro f g ⟨-, rfl⟩ ⟨g', -, rfl⟩
    exact List.cons_lt_cons_iff.mpr (Or.inl (Nat.lt_succ_self _))
  · intro m n d e f g hlt hf hg
    obtain ⟨p, rest, hp, hm⟩ := hf.place
    obtain ⟨q, rest', hq, hn⟩ := hg.place
    rw [Finding.Before, hp, hq]
    exact List.cons_lt_cons_iff.mpr (Or.inl (by omega))

theorem fieldIssues_eq (fs : Fields) (base : Path) (v : Value) :
    fieldIssues fs base v = fs.toList.flatMap fun e =>
      if (v.field e.1).isMissing ∧ e.2.1 ≠ .required then []
      else issues e.2.2 (base ++ [e.1]) (v.field e.1) := by
  cases fs with
  | nil => rw [fieldIssues, Fields.toList, List.flatMap_nil]
  | cons name presence schema rest =>
    rw [fieldIssues, Fields.toList, List.flatMap_cons, fieldIssues_eq rest]

theorem extraIssue_eq {keys : List String} (some_extra : keys ≠ []) (after : Nat) (base : Path) :
    extraIssue base keys = [(Finding.ofCheck (.extra after keys)).issue base] := by
  cases keys with
  | nil => exact absurd rfl some_extra
  | cons key rest =>
    rw [issue_ofCheck rfl]
    rfl

theorem reports_extra (fs : Fields) (closed : Bool) (fields : List (String × Value)) (base : Path) :
    Reports base (if closed then extraIssue base (extraKeys fs fields) else [])
      fun f => closed = true ∧ extraKeys fs fields ≠ [] ∧
        f = .ofCheck (.extra fs.toList.length (extraKeys fs fields)) := by
  cases closed with
  | false => exact Reports.nothing (by simp)
  | true =>
    rw [if_pos rfl]
    by_cases hkeys : extraKeys fs fields = []
    · rw [hkeys]
      exact Reports.nothing (by simp)
    · rw [extraIssue_eq hkeys fs.toList.length]
      exact (Reports.one _).congr fun f => by simp [hkeys]

theorem reports_record {fs : Fields} (exact_fields : ∀ e ∈ fs.toList, Exact e.2.2) (closed : Bool)
    (fields : List (String × Value)) (base : Path) :
    Reports base (issues (.record fs closed) base (.record fields))
      (Fails (.record fs closed) (.record fields)) := by
  have hfields := reports_flatMap base fs.toList
    (fun e => if ((Value.record fields).field e.1).isMissing ∧ e.2.1 ≠ .required then []
      else issues e.2.2 (base ++ [e.1]) ((Value.record fields).field e.1))
    (fun n e f => ((Value.record fields).field e.1 = .missing → e.2.1 = .required) ∧
      ∃ g, Fails e.2.2 ((Value.record fields).field e.1) g ∧ f = g.inside ⟨e.1, n⟩) ?_ ?_
  · have hextra := reports_extra fs closed fields base
    rw [issues, fieldIssues_eq]
    refine (hfields.append hextra ?_).congr fun f => ?_
    · rintro f g ⟨n, e, he, -, f', -, rfl⟩ ⟨-, -, rfl⟩
      exact List.cons_lt_cons_iff.mpr (Or.inl (List.getElem?_eq_some_iff.mp he).1)
    · rw [fails_iff]
      constructor
      · rintro (⟨n, e, he, hdue, g, hg, rfl⟩ | ⟨rfl, hkeys, rfl⟩)
        · exact Or.inr ⟨_, _, _, g, .field he hdue, hg, rfl⟩
        · exact Or.inl ⟨_, .extra hkeys, rfl⟩
      · rintro (⟨c, hbreaks, rfl⟩ | ⟨step, s', v', g, part, hg, rfl⟩)
        · cases hbreaks with
          | type other => cases other
          | extra some_extra => exact Or.inr ⟨rfl, some_extra, rfl⟩
        · cases part with
          | field declared due => exact Or.inl ⟨_, _, declared, due, g, hg, rfl⟩
  · intro e he n
    by_cases habsent : ((Value.record fields).field e.1).isMissing = true ∧ e.2.1 ≠ .required
    · rw [if_pos habsent]
      refine Reports.nothing fun f hf => habsent.2 (hf.1 ?_)
      exact Value.isMissing_iff.mp habsent.1
    · rw [if_neg habsent]
      refine ((exact_fields e he _ _).inside ⟨e.1, n⟩).congr fun f => ?_
      have hdue : (Value.record fields).field e.1 = .missing → e.2.1 = .required := by
        intro hmissing
        by_contra hoptional
        exact habsent ⟨Value.isMissing_iff.mpr hmissing, hoptional⟩
      exact ⟨fun h => ⟨hdue, h⟩, fun h => h.2⟩
  · rintro m n d e f g hlt ⟨-, f', -, rfl⟩ ⟨-, g', -, rfl⟩
    exact Finding.before_of_place hlt

/-- What is left to show of a schema is how it checks values of its basic type. -/
theorem exact_of_typed {s : Schema}
    (typed : ∀ base v, s.hasType v = true → Reports base (issues s base v) (Fails s v)) :
    Exact s := by
  intro base v
  cases htype : s.hasType v with
  | false => exact reports_of_other htype base
  | true => exact typed base v htype

mutual

/-- A check reports exactly the checks that fail, in order, wherever the value stands. -/
theorem exact_issues : ∀ s : Schema, Exact s
  | .number rules => exact_of_typed fun base v typed => by
    cases v with
    | number x =>
      have hnumber : x ≠ .nan := of_decide_eq_true typed
      cases x with
      | nan => exact absurd rfl hnumber
      | _ => exact reports_number rules hnumber base
    | _ => cases typed
  | .text nonempty => exact_of_typed fun base v typed => by
    cases v with
    | string t => exact reports_text nonempty t base
    | _ => cases typed
  | .boolean => exact_of_typed fun base v typed => by
    cases v with
    | bool b => exact reports_boolean b base
    | _ => cases typed
  | .list item => exact_of_typed fun base v typed => by
    cases v with
    | list items => exact reports_list (exact_issues item) items base
    | _ => cases typed
  | .digitKeyed message entry => exact_of_typed fun base v typed => by
    cases v with
    | record fields => exact reports_digitKeyed (exact_issues entry) fields base
    | _ => cases typed
  | .record fs closed => exact_of_typed fun base v typed => by
    cases v with
    | record fields => exact reports_record (exact_fieldIssues fs) closed fields base
    | _ => cases typed

theorem exact_fieldIssues : ∀ (fs : Fields), ∀ e ∈ fs.toList, Exact e.2.2
  | .nil, e, he => by cases he
  | .cons name presence schema rest, e, he => by
    rcases List.mem_cons.mp he with rfl | he
    · exact exact_issues schema
    · exact exact_fieldIssues rest e he

end

theorem pathText_ne_empty {label : String} (rest : Path) (named : label ≠ "") :
    pathText (label :: rest) ≠ "" := by
  intro hempty
  apply named
  cases rest with
  | nil => rwa [pathText, String.intercalate_singleton] at hempty
  | cons next rest =>
    rw [pathText, String.intercalate_cons_cons] at hempty
    have hlength := congrArg String.length hempty
    simp only [String.length_append, String.length_empty] at hlength
    exact String.length_eq_zero_iff.mp (by omega)

end Schema

namespace Snapshot

open Schema

/-- A finding as a failed load shows it: with the path of its position, or at the root where the
document as a whole is wrong. -/
def shown (f : Finding) : Issue where
  field := if f.path = [] then "(root)" else pathText f.path
  message := f.check.message
  code := f.check.code

/-- The root is shown for the whole document alone, since every declared field has a name. -/
theorem atRoot_issue {document : Value} {f : Finding} (fails : Fails schema document f) :
    atRoot (f.issue []) = shown f := by
  have hpath : f.path = [] ∨ pathText f.path ≠ "" := by
    rcases fails_iff.mp fails with ⟨c, hbreaks, rfl⟩ | ⟨step, s', v', g, part, -, rfl⟩
    · cases hbreaks with
      | type other => exact Or.inl rfl
    · have hnames : ∀ e ∈ schema.fields.toList, e.1 ≠ "" := by decide
      refine Or.inr (pathText_ne_empty _ ?_)
      cases part with
      | field declared due => exact hnames _ (List.mem_of_getElem? declared)
  have hissue : f.issue [] = issueAt f.path f.check.code f.check.message := rfl
  rw [hissue, atRoot, shown]
  rcases hpath with hpath | hpath
  · rw [hpath, if_pos rfl]
    rfl
  · have hsome : f.path ≠ [] := by
      intro hnone
      exact hpath (by rw [hnone]; rfl)
    rw [if_neg hsome]
    exact if_neg hpath

/-- A load fails with all that its check reports. -/
theorem load_eq_error {document : Value} (some_found : issues schema [] document ≠ [])
    (source : String) :
    load document source = .error (.snapshot source ((issues schema [] document).map atRoot)) := by
  rw [load, validate]
  generalize issues schema [] document = found at some_found
  cases found with
  | nil => exact absurd rfl some_found
  | cons i rest => rfl

/-- A document is loaded exactly when it conforms to the schema. Otherwise the load fails with the
checks that fail, at least one: each position of the document that fails a check is shown with that
check, nothing else is shown, and all stand in the order of the schema. -/
theorem load_reports_failures (document : Value) (source : String) :
    ((∃ d, load document source = .ok d) ↔ Conforms schema document) ∧
      (¬ Conforms schema document → ∃ fs : List Finding, fs ≠ [] ∧
        load document source = .error (.snapshot source (fs.map shown)) ∧
        (∀ f, f ∈ fs ↔ Fails schema document f) ∧ fs.Pairwise Finding.Before) := by
  constructor
  · constructor
    · rintro ⟨d, hload⟩
      exact (load_eq_ok.mp hload).1
    · intro hconforms
      exact ⟨_, load_eq_ok.mpr ⟨hconforms, rfl⟩⟩
  · intro hbad
    obtain ⟨fs, hissues, hfails, hsorted⟩ := exact_issues schema [] document
    have hsome : issues schema [] document ≠ [] := mt (issues_eq_nil _ [] _).mp hbad
    refine ⟨fs, ?_, ?_, hfails, hsorted⟩
    · rintro rfl
      exact hsome hissues
    · have hshown : (issues schema [] document).map atRoot = fs.map shown := by
        rw [hissues, List.map_map]
        exact List.map_congr_left fun f hf => atRoot_issue ((hfails f).mp hf)
      rw [load_eq_error hsome, hshown]

/-- Three things are wrong here: a negative index, an empty name, and a token that is none. -/
def spoiled : Value :=
  .record [("maps", .list [.record [("userToken", .null)]]), ("driverName", .string ""),
    ("index", .number (.ofInt (-1))), ("busId", .string "pci")]

theorem load_spoiled :
    ¬ Conforms schema spoiled ∧ ∃ fs : List Finding, load spoiled "bad.json" =
        .error (.snapshot "bad.json" (fs.map shown)) ∧
      (∀ f, f ∈ fs ↔ Fails schema spoiled f) ∧
      (fs.map shown).map (·.field) = ["index", "driverName", "maps.0.userToken"] := by
  have hbad : ¬ Conforms schema spoiled := by
    rw [← issues_eq_nil schema [] spoiled]
    decide +kernel
  obtain ⟨fs, -, hload, hfails, -⟩ := (load_reports_failures spoiled "bad.json").2 hbad
  refine ⟨hbad, fs, hload, hfails, ?_⟩
  have hfound := hload.symm.trans (load_eq_error (mt (issues_eq_nil _ [] _).mp hbad) "bad.json")
  have hsame : fs.map shown = (issues schema [] spoiled).map atRoot := by
    injection hfound with hfailure
    injection hfailure
  rw [hsame]
  decide +kernel

end Snapshot

end DeviceReports
