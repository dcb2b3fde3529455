import DeviceReports.Proofs.TreeShapes

/-!
# Removed directories

The removal of a directory lists its children, removes them one after the other in the tree as it
is by then, and goes down into those that are directories. The recursion is written out here as a
relation that knows no bound of levels: a tree in it is one that a removal ends with. A directory
has more directories below it than each of its children, so the removal ends; and it leaves what
neither stands at its path nor below.
-/

set_option autoImplicit false

namespace DeviceReports

variable {ρ : Type}

namespace EntryTree

variable {t u : EntryTree ρ} {p name path : String} {children : List Listed}

/-! ### The recursion -/

mutual

/-- The tree that the removal of a directory ends with. The root stays; any other directory goes
after the children that it listed at first. -/
inductive Removed : EntryTree ρ → String → EntryTree ρ → Prop
  | root (t : EntryTree ρ) : Removed t t.root t
  | inner {t u : EntryTree ρ} {path : String} (inner : path ≠ t.root)
      (children : ChildrenRemoved path t (t.list path) u) : Removed t path (u.dropDirectory path)

/-- The tree that the removal of children of a directory ends with, one after the other. -/
inductive ChildrenRemoved : String → EntryTree ρ → List Listed → EntryTree ρ → Prop
  | none (path : String) (t : EntryTree ρ) : ChildrenRemoved path t [] t
  | directory {path name : String} {t u v : EntryTree ρ} {rest : List Listed}
      (removed : Removed t (join path name) u) (others : ChildrenRemoved path u rest v) :
      ChildrenRemoved path t (⟨name, .directory⟩ :: rest) v
  | file {path name : String} {t v : EntryTree ρ} {rest : List Listed}
      (others : ChildrenRemoved path (t.dropEntry (join path name)) rest v) :
      ChildrenRemoved path t (⟨name, .file⟩ :: rest) v

end

/-- The recursion ends with one tree at most. -/
theorem Removed.unique {v : EntryTree ρ} (first : Removed t p u) (second : Removed t p v) :
    u = v := by
  revert v
  -- along both relations at once, for each of them goes on through the other
  refine @Removed.rec ρ (fun t p u _ => ∀ {v}, Removed t p v → u = v)
    (fun path t children u _ => ∀ {v}, ChildrenRemoved path t children v → u = v)
    ?root ?inner ?none ?directory ?file t p u first
  case root =>
    rintro t v (_ | ⟨hinner, -⟩)
    · rfl
    · exact absurd rfl hinner
  case inner =>
    rintro t u path hinner - ih v (_ | ⟨-, hothers⟩)
    · exact absurd rfl hinner
    · rw [ih hothers]
  case none =>
    rintro path t v ⟨⟩
    rfl
  case directory =>
    rintro path name t u w rest - - hfirst hrest v (_ | ⟨hremoved, hothers⟩)
    cases hfirst hremoved
    exact hrest hothers
  case file =>
    rintro path name t w rest - hrest v (_ | _ | hothers)
    exact hrest hothers

/-! ### What is left -/

/-- The tree after a directory has been removed: the root stays, and so does all that stands below
a path above the root. -/
def cleared (t : EntryTree ρ) (p : String) : EntryTree ρ :=
  if p = t.root ∨ Under p t.root then t else t.without p

def clearedOf (p : String) (t : EntryTree ρ) (c : Listed) : EntryTree ρ :=
  match c.kind with
  | .directory => t.cleared (join p c.name)
  | .file => t.dropEntry (join p c.name)

theorem Shape.cleared (shape : t.Shape) (proper : Proper p) : (t.cleared p).Shape := by
  rw [EntryTree.cleared]
  split_ifs with h
  · exact shape
  · exact shape.without proper h

theorem Shape.clearedOf (shape : t.Shape) {c : Listed} (named : Named c.name) :
    (clearedOf p t c).Shape := by
  rw [EntryTree.clearedOf]
  split
  · exact shape.cleared (named.proper_join p)
  · exact shape.dropEntry _

theorem cleared_root (t : EntryTree ρ) (p : String) : (t.cleared p).root = t.root := by
  rw [cleared]
  split_ifs <;> rfl

theorem cleared_directories (t : EntryTree ρ) (p : String) :
    (t.cleared p).directories.Sublist t.directories := by
  rw [cleared]
  split_ifs
  · exact List.Sublist.refl _
  · exact List.filter_sublist

theorem clearedOf_directories (t : EntryTree ρ) (p : String) (c : Listed) :
    (clearedOf p t c).directories.Sublist t.directories := by
  rw [clearedOf]
  split
  · exact cleared_directories t _
  · exact List.Sublist.refl _

theorem clearedOf_eq_restrict (proper : Proper p) (inner : ¬ Under p t.root) {c : Listed}
    (named : Named c.name) :
    clearedOf p t c = t.restrict fun kind q => ¬ TakenWith p c kind q := by
  obtain ⟨name, kind⟩ := c
  cases kind with
  | directory =>
    have hinner : ¬ (join p name = t.root ∨ Under (join p name) t.root) := by
      rintro (hroot | habove)
      · exact inner (hroot ▸ under_join_self proper named)
      · exact inner ((under_join_self proper named).trans habove)
    rw [clearedOf, cleared, if_neg hinner, without_eq_restrict]
    exact restrict_congr fun _ _ _ => Iff.rfl
  | file =>
    rw [clearedOf, dropEntry_eq_restrict]
    exact restrict_congr fun _ _ _ => Iff.rfl

theorem foldl_clearedOf (proper : Proper p) (inner : ¬ Under p t.root)
    (named : ∀ c ∈ children, Named c.name) :
    children.foldl (clearedOf p) t =
      t.restrict fun kind q => ∀ c ∈ children, ¬ TakenWith p c kind q := by
  induction children generalizing t with
  | nil => exact (restrict_eq_self (by simp)).symm
  | cons c rest ih =>
    obtain ⟨hfirst, hrest⟩ := List.forall_mem_cons.mp named
    have hothers := ih (t := t.restrict fun kind q => ¬ TakenWith p c kind q) inner hrest
    rw [List.foldl_cons, clearedOf_eq_restrict proper inner hfirst, hothers, restrict_restrict]
    exact restrict_congr fun kind q _ => by rw [List.forall_mem_cons]

theorem foldl_clearedOf_root (h : ∀ c ∈ children, c.kind = .directory ∧ join p c.name = t.root) :
    children.foldl (clearedOf p) t = t := by
  induction children with
  | nil => rfl
  | cons c rest ih =>
    obtain ⟨⟨hkind, hroot⟩, hrest⟩ := List.forall_mem_cons.mp h
    have hfirst : clearedOf p t c = t := by
      rw [clearedOf, hkind]
      exact if_pos (Or.inl hroot)
    rw [List.foldl_cons, hfirst]
    exact ih hrest

/-- A directory whose children have been removed is itself removed last. -/
theorem Shape.cleared_of_children (shape : t.Shape) (proper : Proper p) (other : p ≠ t.root) :
    ((t.list p).foldl (EntryTree.clearedOf p) t).dropDirectory p = t.cleared p := by
  by_cases above : Under p t.root
  · have hchildren : (t.list p).foldl (EntryTree.clearedOf p) t = t := by
      apply foldl_clearedOf_root
      intro c hc
      obtain ⟨named, hpath⟩ := mem_list_iff.mp hc
      exact shape.eq_root_of_above proper above named hpath
    have habsent : ∀ q ∈ t.paths .directory, q ≠ p := by
      rintro q hq rfl
      exact absurd above.length_lt (Nat.not_lt.mpr (shape.length_root_le hq))
    rw [hchildren, EntryTree.cleared, if_pos (Or.inr above), dropDirectory_eq_restrict]
    apply restrict_eq_self
    rintro kind q hq ⟨rfl, rfl⟩
    exact habsent q hq rfl
  · have hinner : ¬ (p = t.root ∨ Under p t.root) := not_or.mpr ⟨other, above⟩
    rw [foldl_clearedOf proper above fun c hc => (mem_list_iff.mp hc).1, EntryTree.cleared,
      if_neg hinner]
    exact shape.restrict_children proper above

/-! ### How far down it goes -/

/-- The number of directories below a path. -/
def below (t : EntryTree ρ) (p : String) : Nat := t.directories.countP fun q => Under p q

theorem below_le_of_sublist (h : u.directories.Sublist t.directories) (p : String) :
    u.below p ≤ t.below p := h.countP_le

/-- A directory is below the one it stands in, and not below itself. -/
theorem below_join_lt (proper : Proper p) (named : Named name) (h : join p name ∈ t.directories) :
    t.below (join p name) < t.below p := by
  have hchild := under_join_self proper named
  have hsublist : (t.directories.filter fun q => Under (join p name) q).Sublist
      (t.directories.filter fun q => Under p q) := by
    apply List.monotone_filter_right
    intro q hq
    exact decide_eq_true (hchild.trans (of_decide_eq_true hq))
  rw [below, below, List.countP_eq_length_filter, List.countP_eq_length_filter]
  refine Nat.lt_of_le_of_ne hsublist.length_le fun hlength => ?_
  have hmem : join p name ∈ t.directories.filter fun q => Under p q :=
    List.mem_filter.mpr ⟨h, decide_eq_true hchild⟩
  rw [← hsublist.eq_of_length hlength] at hmem
  exact not_under_self _ (of_decide_eq_true (List.mem_filter.mp hmem).2)

end EntryTree

namespace Gate

open EntryTree

variable {t : EntryTree ρ} {name path : String} {children : List Listed}

/-- A removal of a directory that ends, with the tree that is to be left. -/
def Ends (removal : Action (List String × EntryTree ρ) Unit) (t : EntryTree ρ) (path : String) :
    Prop :=
  Removed t path (t.cleared path) ∧
    ∀ lines, removal.outcome (lines, t) = (.ok (), (lines, t.cleared path))

/-- Where the removals of child directories end, in every tree that is left of the first one, the
removal of all children ends. -/
theorem removeChildren_ends {remove : String → String → Action (List String × EntryTree ρ) Unit}
    (shape : t.Shape) (named : ∀ c ∈ children, Named c.name)
    (ends : ∀ c ∈ children, c.kind = .directory → ∀ u : EntryTree ρ, u.Shape →
      u.directories.Sublist t.directories → Ends (remove c.name path) u (join path c.name)) :
    ChildrenRemoved path t children (children.foldl (clearedOf path) t) ∧
      ∀ lines, (pass.removeChildren remove path children).outcome (lines, t) =
        (.ok (), (lines, children.foldl (clearedOf path) t)) := by
  induction children generalizing t with
  | nil => exact ⟨.none path t, fun lines => rfl⟩
  | cons c rest ih =>
    obtain ⟨hnamed, hrest⟩ := List.forall_mem_cons.mp named
    have hleft := clearedOf_directories t path c
    obtain ⟨hothers, hrun⟩ := ih (shape.clearedOf hnamed) hrest fun d hd hkind u hu hsublist =>
      ends d (List.mem_cons_of_mem _ hd) hkind u hu (hsublist.trans hleft)
    obtain ⟨name, kind⟩ := c
    cases kind with
    | directory =>
      obtain ⟨hremoved, hcall⟩ := ends _ List.mem_cons_self rfl t shape (List.Sublist.refl _)
      exact ⟨.directory hremoved hothers, fun lines =>
        (Effect.outcome_bind_ok (hcall lines) _).trans (hrun lines)⟩
    | file =>
      exact ⟨.file hothers, fun lines =>
        (Effect.outcome_bind_ok removeEntry_pass _).trans (hrun lines)⟩

/-- A removal ends within more levels than there are directories below. -/
theorem removeLevels_ends (shape : t.Shape) (named : Named name) (parent : String) (depth : Nat)
    (deep : t.below (join parent name) < depth) :
    Ends (removeLevels pass depth name parent) t (join parent name) := by
  induction depth generalizing t name parent with
  | zero => exact absurd deep (Nat.not_lt_zero _)
  | succ depth ih =>
    have hproper := named.proper_join parent
    by_cases hroot : join parent name = t.root
    · have hcleared : t.cleared (join parent name) = t := if_pos (Or.inl hroot)
      rw [Ends, hcleared]
      refine ⟨hroot ▸ Removed.root t, fun lines => ?_⟩
      rw [removeLevels, outcome_through_pass]
      dsimp only
      rw [Effect.outcome_bind_ok (outcome_tree _), if_pos hroot]
      rfl
    · have hnamed : ∀ c ∈ t.list (join parent name), Named c.name :=
        fun c hc => (mem_list_iff.mp hc).1
      have hends : ∀ c ∈ t.list (join parent name), c.kind = .directory → ∀ u : EntryTree ρ,
          u.Shape → u.directories.Sublist t.directories →
            Ends (removeLevels pass depth c.name (join parent name)) u
              (join (join parent name) c.name) := by
        intro c hc hkind u hu hsublist
        have hlisted : join (join parent name) c.name ∈ t.paths .directory :=
          hkind ▸ (mem_list_iff.mp hc).2
        have hfewer := below_join_lt hproper (hnamed c hc) hlisted
        have hleft := below_le_of_sublist hsublist (join (join parent name) c.name)
        exact ih hu (hnamed c hc) (join parent name) (by omega)
      obtain ⟨hchildren, hrun⟩ := removeChildren_ends shape hnamed hends
      rw [Ends, ← shape.cleared_of_children hproper hroot]
      refine ⟨.inner hroot hchildren, fun lines => ?_⟩
      rw [removeLevels, outcome_through_pass]
      dsimp only
      rw [Effect.outcome_bind_ok (outcome_tree _), if_neg hroot,
        Effect.outcome_bind_ok (hrun lines)]
      rfl

theorem removeDirectory_ends (shape : t.Shape) (named : Named name) (parent : String) :
    Ends (pass.removeDirectory name parent) t (join parent name) := by
  have hdeep : t.below (join parent name) < t.directories.length + 1 :=
    Nat.lt_succ_of_le List.countP_le_length
  obtain ⟨hremoved, hlevels⟩ := removeLevels_ends shape named parent _ hdeep
  refine ⟨hremoved, fun lines => ?_⟩
  rw [removeDirectory, Effect.outcome_bind_ok (outcome_tree _)]
  exact hlevels lines

end Gate

/-! ### Runs -/

open EntryTree Gate

/-- A call that changes a tree under a name. -/
inductive TreeCall (ρ : Type) where
  | createDirectory (name parent : String)
  | createEntry (name directory : String) (content : ρ)
  | removeEntry (name directory : String)
  | removeDirectory (name parent : String)

namespace TreeCall

def name : TreeCall ρ → String
  | .createDirectory name _ => name
  | .createEntry name _ _ => name
  | .removeEntry name _ => name
  | .removeDirectory name _ => name

/-- One call to an open tree; what it answers is dropped. -/
def perform (st : List String × EntryTree ρ) : TreeCall ρ → List String × EntryTree ρ
  | .createDirectory name parent => ((pass.host.createDirectory name parent).outcome st).2
  | .createEntry name directory content =>
    ((pass.host.createEntry name directory content).outcome st).2
  | .removeEntry name directory => ((pass.host.removeEntry name directory).outcome st).2
  | .removeDirectory name parent => ((pass.host.removeDirectory name parent).outcome st).2

/-- Calls one after the other, from a fresh tree on. -/
def run (root : String) (calls : List (TreeCall ρ)) : List String × EntryTree ρ :=
  calls.foldl perform ([], .new root)

variable {st : List String × EntryTree ρ} {c : TreeCall ρ}

theorem perform_createDirectory (shape : st.2.Shape) {name : String} (named : Named name)
    (parent : String) : let later := perform st (.createDirectory name parent)
    later.2.Shape ∧ later.2.root = st.2.root := by
  obtain ⟨lines, t⟩ := st
  intro later
  by_cases admitted : t.admits name parent = true
  · have hlater : later =
        (lines, { t with directories := t.directories ++ [join parent name] }) :=
      congrArg Prod.snd (createDirectory_pass admitted)
    rw [hlater]
    refine ⟨shape.add named admitted rfl .directory ?_, rfl⟩
    intro kind path
    cases kind <;> simp [paths]
  · have hlater : later = (lines, t) := congrArg Prod.snd (createDirectory_pass_none admitted)
    rw [hlater]
    exact ⟨shape, rfl⟩

theorem perform_createEntry (shape : st.2.Shape) {name : String} (named : Named name)
    (directory : String) (content : ρ) :
    let later := perform st (.createEntry name directory content)
    later.2.Shape ∧ later.2.root = st.2.root := by
  obtain ⟨lines, t⟩ := st
  intro later
  by_cases admitted : t.admits name directory = true
  · have hlater : later =
        (lines, { t with entries := t.entries ++ [(join directory name, content)] }) :=
      congrArg Prod.snd (createEntry_pass content admitted)
    rw [hlater]
    refine ⟨shape.add named admitted rfl .file ?_, rfl⟩
    intro kind path
    cases kind <;> simp [paths]
  · have hlater : later = (lines, t) :=
      congrArg Prod.snd (createEntry_pass_refused content admitted)
    rw [hlater]
    exact ⟨shape, rfl⟩

/-- One call keeps a tree in shape, and its root. -/
theorem perform_shape (shape : st.2.Shape) (named : Named c.name) :
    (perform st c).2.Shape ∧ (perform st c).2.root = st.2.root := by
  cases c with
  | createDirectory name parent => exact perform_createDirectory shape named parent
  | createEntry name directory content => exact perform_createEntry shape named directory content
  | removeEntry name directory => exact ⟨shape.dropEntry (join directory name), rfl⟩
  | removeDirectory name parent =>
    obtain ⟨lines, t⟩ := st
    have hlater : perform (lines, t) (.removeDirectory name parent) =
        (lines, t.cleared (join parent name)) :=
      congrArg Prod.snd ((removeDirectory_ends shape named parent).2 lines)
    rw [hlater]
    exact ⟨shape.cleared (named.proper_join parent), cleared_root t _⟩

theorem foldl_shape (shape : st.2.Shape) {calls : List (TreeCall ρ)}
    (named : ∀ c ∈ calls, Named c.name) :
    (calls.foldl perform st).2.Shape ∧ (calls.foldl perform st).2.root = st.2.root := by
  induction calls generalizing st with
  | nil => exact ⟨shape, rfl⟩
  | cons c rest ih =>
    obtain ⟨hfirst, hrest⟩ := List.forall_mem_cons.mp named
    obtain ⟨hshape, hroot⟩ := perform_shape shape hfirst
    obtain ⟨hlater, hsame⟩ := ih hshape hrest
    exact ⟨hlater, hsame.trans hroot⟩

/-- After any calls under names that are single components, to any directories, the tree hangs
together, and the removal of any directory ends, with one tree: the same as before where the path is
the root or stands above it, and otherwise without the directory and all that lies below it. -/
theorem removeDirectory_removes_below (root : String) (calls : List (TreeCall ρ))
    (named : ∀ c ∈ calls, Named c.name) :
    let st := run root calls
    (∀ name parent, Named name → ∃ u, (∀ v, Removed st.2 (join parent name) v ↔ v = u) ∧
      (pass.host.removeDirectory name parent).outcome st = (.ok (), (st.1, u)) ∧
      (join parent name = root ∨ Under (join parent name) root → u = st.2) ∧
      (¬ (join parent name = root ∨ Under (join parent name) root) →
        u = st.2.without (join parent name))) ∧
    root ∈ st.2.directories ∧
    (∀ path ∈ st.2.paths .directory, path ∉ st.2.paths .file) ∧
    ∀ kind, ∀ path ∈ st.2.paths kind, path = root ∨ st.2.Placed path := by
  intro st
  have hstart : (([], .new root) : List String × EntryTree ρ).2.Shape := Shape.new root
  obtain ⟨hshape, hroot⟩ := foldl_shape hstart named
  change st.2.Shape at hshape
  change st.2.root = root at hroot
  refine ⟨?_, hroot ▸ hshape.root_mem, hshape.apart, ?_⟩
  · intro name parent hname
    obtain ⟨hremoved, hrun⟩ := removeDirectory_ends hshape hname parent
    have hends : ∀ v, Removed st.2 (join parent name) v ↔ v = st.2.cleared (join parent name) :=
      fun v => ⟨fun h => h.unique hremoved, fun h => h ▸ hremoved⟩
    refine ⟨st.2.cleared (join parent name), hends, hrun st.1, ?_, ?_⟩
    · intro above
      rw [cleared, hroot, if_pos above]
    · intro inner
      rw [cleared, hroot, if_neg inner]
  · intro kind path hpath
    rw [← hroot]
    exact hshape.placed kind path hpath

/-- Directories and an entry whose names begin alike. -/
def alike : List (TreeCall Unit) :=
  [.createDirectory "0" "/dri", .createDirectory "00" "/dri", .createDirectory "1" "/dri/0",
    .createEntry "vm" "/dri/0/1" (), .createEntry "vm" "/dri/00" ()]

/-- The removal of "/dri/0" takes away what lies below it, and leaves "/dri/00". -/
theorem removeDirectory_alike : (∀ c ∈ alike, Named c.name) ∧ Named "0" ∧
    ∃ u, Removed (run "/dri" alike).2 "/dri/0" u ∧
      (pass.host.removeDirectory "0" "/dri").outcome (run "/dri" alike) = (.ok (), ([], u)) ∧
      u.directories = ["/dri", "/dri/00"] ∧ u.entries = [("/dri/00/vm", ())] := by
  have hnamed : ∀ c ∈ alike, Named c.name := by decide
  have hname : Named "0" := by decide
  obtain ⟨u, hends, hrun, -, hinner⟩ :=
    (removeDirectory_removes_below "/dri" alike hnamed).1 "0" "/dri" hname
  have hleft := hinner (by decide)
  refine ⟨hnamed, hname, u, (hends u).mpr rfl, hrun, ?_, ?_⟩ <;> rw [hleft] <;> rfl

end TreeCall

end DeviceReports
