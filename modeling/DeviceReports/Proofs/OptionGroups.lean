import DeviceReports.Cat.Arguments
import DeviceReports.Proofs.Counts

/-!
# Options in groups

The arguments of the cat command are a sequence of groups, each of them an option with its value
where it takes one. A value is whatever stands behind its option, another option's name included,
so a list has at most one reading. Behind the last group an option that lacks its value may stand
alone, where it says nothing; any other list is refused at the first argument that begins no group.
-/

set_option autoImplicit false

namespace DeviceReports.Cat

/-! ### Groups -/

inductive OptionGroup where
  | device (source : String)
  | report (names : String)
  | chunk (size : String)
  | all
  | list
  | debug
  | help
deriving DecidableEq

/-- A text that denotes a positive safe integer. -/
def IsStep (size : String) : Prop :=
  ∃ n, 1 ≤ n ∧ n < Number.exactBound ∧ Number.ofText size = .ofCount n

namespace OptionGroup

/-- The arguments that a group is written with. -/
def words : OptionGroup → List String
  | .device source => ["--device", source]
  | .report names => ["--report", names]
  | .chunk size => ["--chunk", size]
  | .all => ["--all"]
  | .list => ["--list"]
  | .debug => ["--debug"]
  | .help => ["--help"]

/-- A group that an option begins: its value may be any text but an empty one, and is a step where
a step is asked for. -/
def Valid : OptionGroup → Prop
  | .device source => source ≠ ""
  | .report names => names ≠ ""
  | .chunk size => IsStep size
  | _ => True

def source? : OptionGroup → Option String
  | .device source => some source
  | _ => none

/-- The reports that a group asks for, which commas divide. -/
def reports : OptionGroup → List String
  | .report names => (names.toList.splitOn ',').map String.ofList
  | _ => []

def step? : OptionGroup → Option Number
  | .chunk size => some (Number.ofText size)
  | _ => none

theorem words_length_pos (g : OptionGroup) : 0 < g.words.length := by
  cases g <;> exact Nat.succ_pos _

end OptionGroup

def written (groups : List OptionGroup) : List String := groups.flatMap OptionGroup.words

/-- What groups say: the last source and the last step, all reports in order, and which switches
are among them. -/
def told (groups : List OptionGroup) : Arguments where
  device := (groups.filterMap OptionGroup.source?).getLast?
  reports := groups.flatMap OptionGroup.reports
  all := decide (OptionGroup.all ∈ groups)
  list := decide (OptionGroup.list ∈ groups)
  chunk := (groups.filterMap OptionGroup.step?).getLast?.getD (.ofCount 1024)
  debug := decide (OptionGroup.debug ∈ groups)
  help := decide (OptionGroup.help ∈ groups)

/-- Arguments that begin with groups and go on with a rest. -/
structure Begins (options : List String) (groups : List OptionGroup) (rest : List String) :
    Prop where
  valid : ∀ g ∈ groups, g.Valid
  eq : options = written groups ++ rest

/-- A rest that says nothing: at most one option, which lacks its value. -/
def Idle (rest : List String) : Prop := rest = [] ∨ rest = ["--device"] ∨ rest = ["--report"]

def optionNames : List String :=
  ["--device", "--report", "--chunk", "--all", "--list", "--debug", "--help"]

/-- A rest that begins with no group, and how it is refused. An empty value is not taken as one, so
it is itself an unknown option. -/
inductive Refused : List String → Failure → Prop where
  | noStep {size : String} {rest : List String} (h : ¬ IsStep size) :
    Refused ("--chunk" :: size :: rest) (Arguments.badChunk size)
  | stepMissing : Refused ["--chunk"] (Arguments.badChunk "undefined")
  | valueEmpty {option : String} {rest : List String}
    (takes : option = "--device" ∨ option = "--report") :
    Refused (option :: "" :: rest) (Arguments.unknown "")
  | unknown {option : String} {rest : List String} (h : option ∉ optionNames) :
    Refused (option :: rest) (Arguments.unknown option)

theorem Refused.invalid {rest : List String} {f : Failure} (refused : Refused rest f) :
    ∃ message, f = .invalid message := by
  cases refused <;> exact ⟨_, rfl⟩

/-! ### One group -/

namespace Arguments

/-- The parts between the commas, as the library divides a list. -/
theorem parts_eq_splitOn (mark : Char) (cs : List Char) : Text.parts mark cs = cs.splitOn mark := by
  induction cs with
  | nil => rfl
  | cons c rest ih =>
    rw [Text.parts, ih, List.splitOn, List.splitOn, List.splitOnP_cons_eq_if_modifyHead]
    cases hrest : rest.splitOnP (· == mark) with
    | nil => exact absurd hrest (List.splitOnP_ne_nil _ rest)
    | cons part others =>
      by_cases hc : c = mark
      · simp [hc]
      · simp [hc]

theorem chunk?_eq_some_iff {size : String} {n : Number} :
    chunk? size = some n ↔ IsStep size ∧ n = Number.ofText size := by
  rw [chunk?]
  constructor
  · intro h
    split at h
    · next m hcount =>
      obtain ⟨hvalue, hsmall⟩ := Number.eq_ofCount_of_count? hcount
      exact ⟨⟨m + 1, Nat.succ_pos m, hsmall, hvalue⟩, (Option.some.inj h).symm⟩
    · cases h
  · rintro ⟨⟨m, hpos, hsmall, hvalue⟩, rfl⟩
    obtain ⟨k, rfl⟩ : ∃ k, m = k + 1 := ⟨m - 1, by omega⟩
    rw [hvalue, Number.count?_ofCount hsmall]

/-- The arguments with what one more group says. -/
def add (a : Arguments) : OptionGroup → Arguments
  | .device source => { a with device := some source }
  | .report names => { a with reports := a.reports ++ parts names }
  | .chunk size => { a with chunk := Number.ofText size }
  | .all => { a with all := true }
  | .list => { a with list := true }
  | .debug => { a with debug := true }
  | .help => { a with help := true }

/-- A switch is read by itself, whatever stands behind it. -/
theorem parseFrom_switch {a b : Arguments} {option : String} (h : a.switch? option = some b)
    (plain : option ≠ "--device" ∧ option ≠ "--report" ∧ option ≠ "--chunk") (rest : List String) :
    parseFrom a (option :: rest) = parseFrom b rest := by
  obtain ⟨hdevice, hreport, hchunk⟩ := plain
  cases rest with
  | nil =>
    have hend : parseFrom b [] = .ok b := by rw [parseFrom]
    rw [hend, parseFrom, if_neg (not_or.mpr ⟨hdevice, hreport⟩), if_neg hchunk, h]
  | cons next others =>
    rw [parseFrom, if_neg hdevice, if_neg hreport, if_neg hchunk, h]

/-- Reading takes off a group with its value and goes on behind it. -/
theorem parseFrom_words {g : OptionGroup} (valid : g.Valid) (a : Arguments) (rest : List String) :
    parseFrom a (g.words ++ rest) = parseFrom (a.add g) rest := by
  cases g with
  | device source =>
    rw [OptionGroup.words, List.cons_append, List.singleton_append, parseFrom, if_pos rfl,
      if_neg valid, add]
  | report names =>
    rw [OptionGroup.words, List.cons_append, List.singleton_append, parseFrom, if_neg (by decide),
      if_pos rfl, if_neg valid, add]
  | chunk size =>
    rw [OptionGroup.words, List.cons_append, List.singleton_append, parseFrom, if_neg (by decide),
      if_neg (by decide), if_pos rfl, chunk?_eq_some_iff.mpr ⟨valid, rfl⟩, add]
  | all => exact parseFrom_switch rfl (by decide) rest
  | list => exact parseFrom_switch rfl (by decide) rest
  | debug => exact parseFrom_switch rfl (by decide) rest
  | help => exact parseFrom_switch rfl (by decide) rest

theorem parseFrom_idle {rest : List String} (idle : Idle rest) (a : Arguments) :
    parseFrom a rest = .ok a := by
  rcases idle with rfl | rfl | rfl
  · rw [parseFrom]
  · rw [parseFrom, if_pos (by decide)]
  · rw [parseFrom, if_pos (by decide)]

theorem switch?_unknown (a : Arguments) {option : String} (h : option ∉ optionNames) :
    a.switch? option = none := by
  simp only [optionNames, List.mem_cons, List.not_mem_nil, or_false, not_or] at h
  obtain ⟨-, -, -, hall, hlist, hdebug, hhelp⟩ := h
  rw [switch?, if_neg hall, if_neg hlist, if_neg hdebug, if_neg hhelp]

theorem parseFrom_unknown (a : Arguments) {option : String} (h : option ∉ optionNames)
    (rest : List String) : parseFrom a (option :: rest) = .error (unknown option) := by
  have hnone := switch?_unknown a h
  simp only [optionNames, List.mem_cons, List.not_mem_nil, or_false, not_or] at h
  obtain ⟨hdevice, hreport, hchunk, -⟩ := h
  cases rest with
  | nil => rw [parseFrom, if_neg (not_or.mpr ⟨hdevice, hreport⟩), if_neg hchunk, hnone]
  | cons next others => rw [parseFrom, if_neg hdevice, if_neg hreport, if_neg hchunk, hnone]

theorem parseFrom_refused {rest : List String} {f : Failure} (refused : Refused rest f)
    (a : Arguments) : parseFrom a rest = .error f := by
  cases refused with
  | noStep h =>
    rename_i size rest
    have hnone : chunk? size = none :=
      Option.eq_none_iff_forall_ne_some.mpr fun n hn => h (chunk?_eq_some_iff.mp hn).1
    rw [parseFrom, if_neg (by decide), if_neg (by decide), if_pos rfl, hnone]
  | stepMissing => rw [parseFrom, if_neg (by decide), if_pos rfl]
  | valueEmpty takes =>
    have hempty : "" ∉ optionNames := by decide
    rcases takes with rfl | rfl
    · rw [parseFrom, if_pos rfl, if_pos rfl, parseFrom_unknown a hempty]
    · rw [parseFrom, if_neg (by decide), if_pos rfl, if_pos rfl, parseFrom_unknown a hempty]
  | unknown h => exact parseFrom_unknown a h _

end Arguments

/-! ### Sequences of groups -/

open Arguments

theorem told_nil : told [] = {} := by
  have hdefault : (Reader.defaultChunk : Number) = .ofCount 1024 :=
    Number.ofNat_eq_ofCount (by decide)
  simp [told, hdefault]

theorem told_concat (groups : List OptionGroup) (g : OptionGroup) :
    told (groups ++ [g]) = (told groups).add g := by
  cases g <;>
    simp [told, add, OptionGroup.source?, OptionGroup.step?, OptionGroup.reports, parts,
      parts_eq_splitOn]

/-- Groups are read one after the other, each added to what the ones before it say. -/
theorem parse_written {groups : List OptionGroup} (valid : ∀ g ∈ groups, g.Valid)
    (rest : List String) : parse (written groups ++ rest) = parseFrom (told groups) rest := by
  induction groups using List.reverseRecOn generalizing rest with
  | nil => rw [told_nil]; rfl
  | append_singleton groups g ih =>
    have hbefore : ∀ g ∈ groups, g.Valid := fun x hx => valid x (by simp [hx])
    have hlast : g.Valid := valid g (by simp)
    have hwritten : written (groups ++ [g]) ++ rest = written groups ++ (g.words ++ rest) := by
      simp [written]
    rw [hwritten, ih hbefore, parseFrom_words hlast, told_concat]

/-- Arguments are idle, or are refused as they are, or begin with a group. -/
theorem idle_or_refused_or_group (options : List String) :
    Idle options ∨ (∃ f, Refused options f) ∨
      ∃ (g : OptionGroup) (rest : List String), g.Valid ∧ options = g.words ++ rest := by
  cases options with
  | nil => exact Or.inl (Or.inl rfl)
  | cons option rest =>
    by_cases hknown : option ∈ optionNames
    · simp only [optionNames, List.mem_cons, List.not_mem_nil, or_false] at hknown
      rcases hknown with rfl | rfl | rfl | rfl | rfl | rfl | rfl
      · rcases rest with _ | ⟨source, rest⟩
        · exact Or.inl (Or.inr (Or.inl rfl))
        · by_cases hempty : source = ""
          · subst hempty
            exact Or.inr (Or.inl ⟨_, .valueEmpty (Or.inl rfl)⟩)
          · exact Or.inr (Or.inr ⟨.device source, rest, hempty, rfl⟩)
      · rcases rest with _ | ⟨names, rest⟩
        · exact Or.inl (Or.inr (Or.inr rfl))
        · by_cases hempty : names = ""
          · subst hempty
            exact Or.inr (Or.inl ⟨_, .valueEmpty (Or.inr rfl)⟩)
          · exact Or.inr (Or.inr ⟨.report names, rest, hempty, rfl⟩)
      · rcases rest with _ | ⟨size, rest⟩
        · exact Or.inr (Or.inl ⟨_, .stepMissing⟩)
        · by_cases hstep : IsStep size
          · exact Or.inr (Or.inr ⟨.chunk size, rest, hstep, rfl⟩)
          · exact Or.inr (Or.inl ⟨_, .noStep hstep⟩)
      · exact Or.inr (Or.inr ⟨.all, rest, trivial, rfl⟩)
      · exact Or.inr (Or.inr ⟨.list, rest, trivial, rfl⟩)
      · exact Or.inr (Or.inr ⟨.debug, rest, trivial, rfl⟩)
      · exact Or.inr (Or.inr ⟨.help, rest, trivial, rfl⟩)
    · exact Or.inr (Or.inl ⟨_, .unknown hknown⟩)

theorem Begins.cons {options rest : List String} {groups : List OptionGroup} {g : OptionGroup}
    (valid : g.Valid) (begins : Begins options groups rest) :
    Begins (g.words ++ options) (g :: groups) rest where
  valid := List.forall_mem_cons.mpr ⟨valid, begins.valid⟩
  eq := by
    rw [begins.eq, written, written, List.flatMap_cons, List.append_assoc]

/-- Groups are taken off as long as there are any. -/
theorem exists_begins (options : List String) :
    ∃ groups rest, Begins options groups rest ∧ (Idle rest ∨ ∃ f, Refused rest f) := by
  induction hlength : options.length using Nat.strong_induction_on generalizing options with
  | _ n ih =>
    rcases idle_or_refused_or_group options with hidle | hrefused | ⟨g, rest, hvalid, rfl⟩
    · exact ⟨[], options, ⟨nofun, rfl⟩, Or.inl hidle⟩
    · exact ⟨[], options, ⟨nofun, rfl⟩, Or.inr hrefused⟩
    · have hfewer : rest.length < n := by
        have hpos := g.words_length_pos
        rw [List.length_append] at hlength
        omega
      obtain ⟨groups, last, hbegins, hends⟩ := ih rest.length hfewer rest rfl
      exact ⟨g :: groups, last, hbegins.cons hvalid, hends⟩

section

variable {options rest : List String} {groups : List OptionGroup} {f : Failure}

theorem Begins.parse_of_idle (begins : Begins options groups rest) (idle : Idle rest) :
    parse options = .ok (told groups) := by
  rw [begins.eq, parse_written begins.valid, parseFrom_idle idle]

theorem Begins.parse_of_refused (begins : Begins options groups rest) (refused : Refused rest f) :
    parse options = .error f := by
  rw [begins.eq, parse_written begins.valid, parseFrom_refused refused]

end

/-- Arguments are accepted exactly when they are groups with at most an idle rest behind them, and
then they mean what the groups say. They are refused exactly when behind some groups stands what
begins no group, and all that is not accepted is refused as invalid. -/
theorem parse_reads_groups (options : List String) :
    (∀ a, parse options = .ok a ↔
      ∃ groups rest, Begins options groups rest ∧ Idle rest ∧ a = told groups) ∧
    (∀ f, parse options = .error f ↔
      ∃ groups rest, Begins options groups rest ∧ Refused rest f) ∧
    ((∃ groups rest, Begins options groups rest ∧ Idle rest) ∨
      ∃ message, parse options = .error (.invalid message)) := by
  obtain ⟨groups, rest, hbegins, hends⟩ := exists_begins options
  refine ⟨fun a => ⟨fun accepted => ?_, ?_⟩, fun f => ⟨fun failed => ?_, ?_⟩, ?_⟩
  · rcases hends with hidle | ⟨f, hrefused⟩
    · have htold := (hbegins.parse_of_idle hidle).symm.trans accepted
      exact ⟨groups, rest, hbegins, hidle, (Except.ok.inj htold).symm⟩
    · cases (hbegins.parse_of_refused hrefused).symm.trans accepted
  · rintro ⟨others, last, hothers, hidle, rfl⟩
    exact hothers.parse_of_idle hidle
  · rcases hends with hidle | ⟨g, hrefused⟩
    · cases (hbegins.parse_of_idle hidle).symm.trans failed
    · obtain rfl := Except.error.inj ((hbegins.parse_of_refused hrefused).symm.trans failed)
      exact ⟨groups, rest, hbegins, hrefused⟩
  · rintro ⟨others, last, hothers, hrefused⟩
    exact hothers.parse_of_refused hrefused
  · rcases hends with hidle | ⟨f, hrefused⟩
    · exact Or.inl ⟨groups, rest, hbegins, hidle⟩
    · obtain ⟨message, rfl⟩ := hrefused.invalid
      exact Or.inr ⟨message, hbegins.parse_of_refused hrefused⟩

/-- The name of an option is a source like any other, and an option without its value says
nothing. -/
example : parse ["--device", "--all", "--report"] = .ok { device := some "--all" } := rfl

end DeviceReports.Cat
