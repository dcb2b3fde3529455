import DeviceReports.Host.Gate
import DeviceReports.Proofs.Mounting
import Mathlib.Data.List.Nodup

/-!
# Calls on an open tree

A gate that lets every call pass leaves a host that does exactly what its tree does. Paths are
joined from a directory and a name, and names are taken as they are: separators in them and
the empty name are allowed throughout.
-/

set_option autoImplicit false

namespace DeviceReports

variable {ρ σ : Type} {t : EntryTree ρ} {parent name path : String}

namespace EntryTree

theorem toList_join (parent name : String) :
    (join parent name).toList = (join parent "").toList ++ name.toList := by
  unfold join
  split_ifs <;> simp

theorem join_injective (parent : String) : Function.Injective (join parent) := by
  intro a b h
  have hlist : (join parent "").toList ++ a.toList = (join parent "").toList ++ b.toList := by
    rw [← toList_join, ← toList_join, h]
  exact String.toList_injective (List.append_cancel_left hlist)

theorem exists?_iff : t.exists? path = true ↔
    path ∈ t.directories ∨ path ∈ t.entries.map Prod.fst := by
  simp [exists?, isDirectory]

theorem admits_iff : t.admits name parent = true ↔
    parent ∈ t.directories ∧ ¬ t.exists? (join parent name) = true := by
  simp [admits, isDirectory]

/-- A path that is listed in a directory joins the directory and the listed name. -/
theorem eq_join_of_childName? (h : childName? parent path = some name) :
    path = join parent name := by
  simp only [childName?] at h
  split_ifs at h with hprefix
  obtain ⟨rest, hrest⟩ := List.isPrefixOf_iff_prefix.mp hprefix
  have hname : name.toList = rest := by
    rw [← hrest, List.drop_left] at h
    rw [← Option.some.inj h, String.toList_ofList]
  apply String.toList_injective
  rw [toList_join, hname, hrest]

/-- A directory below which nothing stands lists nothing. -/
theorem list_eq_nil (h : ∀ name, ¬ t.exists? (join path name) = true) : t.list path = [] := by
  have absent (candidate : String)
      (hcandidate : candidate ∈ t.directories ∨ candidate ∈ t.entries.map Prod.fst) :
      childName? path candidate = none := by
    rcases hname : childName? path candidate with _ | name
    · rfl
    · exact absurd (exists?_iff.mpr (eq_join_of_childName? hname ▸ hcandidate)) (h name)
  have hdirectories : t.directories.filterMap
      (fun p => (childName? path p).map fun n => (⟨n, .directory⟩ : Listed)) = [] := by
    refine List.filterMap_eq_nil_iff.mpr fun p hp => ?_
    rw [absent p (Or.inl hp), Option.map_none]
  have hentries : t.entries.filterMap
      (fun e => (childName? path e.1).map fun n => (⟨n, .file⟩ : Listed)) = [] := by
    refine List.filterMap_eq_nil_iff.mpr fun e he => ?_
    rw [absent e.1 (Or.inr (List.mem_map_of_mem he)), Option.map_none]
  rw [list, children, hdirectories, hentries, List.append_nil, List.mergeSort_nil]

/-- Where no two entries share a path, an entry is found by its path. -/
theorem content_of_mem (distinct : (t.entries.map Prod.fst).Nodup) {content : ρ}
    (h : (path, content) ∈ t.entries) : t.content path = .ok content := by
  have hfound : t.entries.find? (·.1 == path) = some (path, content) := by
    rcases hfind : t.entries.find? (·.1 == path) with _ | e
    · exact absurd (List.find?_eq_none.mp hfind _ h) (by simp)
    · have hpath : e.1 = path := by simpa using List.find?_some hfind
      have hmem : e ∈ t.entries := List.mem_of_find?_eq_some hfind
      exact hfind.trans (congrArg some (List.inj_on_of_nodup_map distinct hmem h hpath))
  rw [EntryTree.content, content?, hfound]
  rfl

theorem read_of_content {content : ρ} (h : t.content path = .ok content) (serve : ρ → Reader σ)
    (offset length : Number) :
    t.read serve path offset length = (serve content).read offset length := by
  rw [EntryTree.read, h]
  rfl

/-- The tree without the entries of the given paths. -/
def dropEntries (t : EntryTree ρ) (paths : List String) : EntryTree ρ :=
  { t with entries := t.entries.filter (·.1 ∉ paths) }

theorem dropEntries_nil (t : EntryTree ρ) : t.dropEntries [] = t := by
  simp [dropEntries]

theorem dropEntries_cons (t : EntryTree ρ) (path : String) (rest : List String) :
    t.dropEntries (path :: rest) = (t.dropEntry path).dropEntries rest := by
  simp only [dropEntries, dropEntry, List.filter_filter, List.mem_cons, not_or, Bool.decide_and,
    decide_not, bne, Bool.and_comm, beq_eq_decide]

end EntryTree

namespace Gate

open EntryTree

variable {lines : List String}

theorem outcome_through_pass {α : Type} (call : HostCall) (refused : α)
    (act : Action (List String × EntryTree ρ) α) (st : List String × EntryTree ρ) :
    (pass.through call refused act).outcome st = act.outcome st := rfl

theorem outcome_tree {γ : Type} (st : γ × EntryTree ρ) :
    (tree : Action (γ × EntryTree ρ) _).outcome st = (.ok st.2, st) := rfl

theorem createDirectory_pass (h : t.admits name parent = true) :
    (pass.createDirectory name parent).outcome (lines, t) =
      (.ok (some (join parent name)),
        (lines, { t with directories := t.directories ++ [join parent name] })) := by
  have hadd : t.addDirectory name parent =
      some (join parent name, { t with directories := t.directories ++ [join parent name] }) :=
    if_pos h
  rw [createDirectory, outcome_through_pass, Effect.outcome_bind_ok (outcome_tree _), hadd]
  rfl

theorem createDirectory_pass_none (h : ¬ t.admits name parent = true) :
    (pass.createDirectory name parent).outcome (lines, t) =
      (.ok none, (lines, t)) := by
  have hadd : t.addDirectory name parent = none := if_neg h
  rw [createDirectory, outcome_through_pass, Effect.outcome_bind_ok (outcome_tree _), hadd]
  rfl

theorem createEntry_pass (content : ρ) (h : t.admits name parent = true) :
    (pass.createEntry name parent content).outcome (lines, t) =
      (.ok true, (lines, { t with entries := t.entries ++ [(join parent name, content)] })) := by
  have hadd : t.addEntry name parent content =
      some { t with entries := t.entries ++ [(join parent name, content)] } := if_pos h
  rw [createEntry, outcome_through_pass, Effect.outcome_bind_ok (outcome_tree _), hadd]
  rfl

theorem createEntry_pass_refused (content : ρ) (h : ¬ t.admits name parent = true) :
    (pass.createEntry name parent content).outcome (lines, t) = (.ok false, (lines, t)) := by
  have hadd : t.addEntry name parent content = none := if_neg h
  rw [createEntry, outcome_through_pass, Effect.outcome_bind_ok (outcome_tree _), hadd]
  rfl

/-- Distinct names of which none is taken are all created in a directory that is there. -/
theorem creates_pass (entry : String → ρ) (names : List String) (distinct : names.Nodup)
    (t : EntryTree ρ) (there : parent ∈ t.directories)
    (free : ∀ name ∈ names, ¬ t.exists? (join parent name) = true) :
    Host.Creates pass.host entry parent (lines, t) names
      (lines, { t with entries := t.entries ++ names.map fun n => (join parent n, entry n) }) := by
  induction names generalizing t with
  | nil =>
    rw [List.map_nil, List.append_nil]
    exact .none _
  | cons name rest ih =>
    obtain ⟨hfirst, hrest⟩ := List.nodup_cons.mp distinct
    let made : EntryTree ρ :=
      { t with entries := t.entries ++ [(join parent name, entry name)] }
    have hfree : ∀ other ∈ rest, ¬ made.exists? (join parent other) = true := by
      intro other hother hexists
      have hfree := free other (List.mem_cons_of_mem _ hother)
      rw [exists?_iff, List.map_append, List.mem_append, ← or_assoc] at hexists
      rcases hexists with hold | hnew
      · exact hfree (exists?_iff.mpr hold)
      · have hsame : other = name := join_injective parent (by simpa using hnew)
        exact hfirst (hsame ▸ hother)
    have hothers := ih hrest made there hfree
    rw [List.append_assoc, List.singleton_append] at hothers
    exact .next (createEntry_pass _ (admits_iff.mpr ⟨there, free name List.mem_cons_self⟩)) hothers

theorem removeEntry_pass :
    (pass.removeEntry name parent).outcome (lines, t) =
      (.ok (), (lines, t.dropEntry (join parent name))) := rfl

/-- Removing names from a directory leaves the entries of all other paths in their order. -/
theorem dismount_pass (names : List String) (t : EntryTree ρ) :
    (Diagnostics.dismount (pass.host : Host _ _ ρ) parent names).outcome (lines, t) =
      (.ok (), (lines, t.dropEntries (names.map (join parent)))) := by
  induction names generalizing t with
  | nil => rw [List.map_nil, dropEntries_nil]; rfl
  | cons name rest ih =>
    have hfirst : ((pass.host : Host _ _ ρ).removeEntry name parent).outcome (lines, t) =
        (.ok (), (lines, t.dropEntry (join parent name))) := removeEntry_pass
    rw [Diagnostics.dismount, Effect.outcome_bind_ok hfirst, ih, List.map_cons, dropEntries_cons]

/-- A directory below which nothing stands is removed alone. -/
theorem removeDirectory_pass (inner : join parent name ≠ t.root)
    (empty : ∀ child, ¬ t.exists? (join (join parent name) child) = true) :
    (pass.removeDirectory name parent).outcome (lines, t) =
      (.ok (), (lines, t.dropDirectory (join parent name))) := by
  rw [removeDirectory, Effect.outcome_bind_ok (outcome_tree _), removeLevels,
    outcome_through_pass]
  dsimp only
  rw [Effect.outcome_bind_ok (outcome_tree _), if_neg inner, list_eq_nil empty]
  rfl

end Gate

namespace Diagnostics

open EntryTree Gate

variable {m : Diagnostics String}

/-- A mount is refused where its directory is not admitted, and the tree stays as it is. -/
theorem init_pass_refused (unmounted : m.directory = none) (entry : String → ρ)
    (refused : ¬ t.admits m.directoryName parent = true) (lines : List String) :
    ∃ line, (init pass.host entry parent).outcome (m, (lines, t)) =
      (.error (.namespaceCreation (parent ++ "/" ++ m.directoryName) none),
        (m, (lines ++ [line], t))) := by
  obtain ⟨line, hmount⟩ := mount_of_declines (h := pass.host) entry
    (Or.inl ⟨createDirectory_pass_none refused, rfl⟩)
  exact ⟨line, init_of_mount_fails unmounted hmount⟩

/-- A mount adds its directory and below it the entries of its reports. -/
theorem init_pass (unmounted : m.directory = none) (entry : String → ρ)
    (admitted : t.admits m.directoryName parent = true) (hpath : join parent m.directoryName = path)
    (below : ∀ name, join path name ≠ path)
    (free : ∀ name, ¬ t.exists? (join path name) = true) (lines : List String) :
    (init pass.host entry parent).outcome (m, (lines, t)) =
      (.ok path, ({ m with directory := some path },
        (lines, { t with
          directories := t.directories ++ [path]
          entries := t.entries ++ m.names.map fun n => (join path n, entry n) }))) := by
  subst hpath
  let opened : EntryTree ρ :=
    { t with directories := t.directories ++ [join parent m.directoryName] }
  have hfree : ∀ name ∈ m.names,
      ¬ opened.exists? (join (join parent m.directoryName) name) = true := by
    intro name _ hexists
    rcases exists?_iff.mp hexists with hdirectory | hentry
    · rcases List.mem_append.mp hdirectory with hold | hnew
      · exact free name (exists?_iff.mpr (Or.inl hold))
      · exact below name (List.mem_singleton.mp hnew)
    · exact free name (exists?_iff.mpr (Or.inr hentry))
  exact init_of_mount unmounted (mount_of_creates (h := pass.host) (createDirectory_pass admitted)
    (creates_pass entry m.names m.names_nodup opened (by simp [opened]) hfree))

/-- A teardown removes the entries of its reports, and its directory once that is empty. -/
theorem teardown_pass (hpath : join parent m.directoryName = path)
    (mounted : m.directory = some path) (inner : path ≠ t.root)
    (cleared : ∀ child,
      ¬ (t.dropEntries (m.names.map (join path))).exists? (join path child) = true)
    (lines : List String) :
    (teardown (pass.host : Host _ _ ρ) parent).outcome (m, (lines, t)) =
      (.ok (), ({ m with directory := none },
        (lines, (t.dropEntries (m.names.map (join path))).dropDirectory path))) := by
  subst hpath
  exact teardown_of_removals mounted (dismount_pass m.names t)
    (removeDirectory_pass (t := t.dropEntries (m.names.map (join (join parent m.directoryName))))
      inner cleared)

end Diagnostics

end DeviceReports
