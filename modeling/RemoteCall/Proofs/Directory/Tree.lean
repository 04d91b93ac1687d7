import RemoteCall.Directory.Tree
import RemoteCall.Proofs.Dictionary
import RemoteCall.Proofs.Directory.Paths
import Mathlib.Data.List.Nodup
import Mathlib.Data.List.Sort

/-! # Trees stay trees, and changes tell what changed

    Every node of a tree stands at a path, and the nodes above it are there
    (`Closed`).  So the missing nodes above a path are all that have to be
    created with it (`mem_missing`), and a node without children can go.

    The children of a path are found among the paths that begin with its stem.
    These stand side by side in the order of texts (`pathsFrom_eq`), so that
    exactly the nodes directly under the path are listed, in the order of their
    names (`mem_children`, `increasing_children`).

    A creation or deletion tells the children of exactly those paths whose
    children it changed (`Tells`).  The route for a creation is the chain of
    what it creates: the path, and the chain of its parent if that is missing
    (`created_below`). -/

namespace RemoteCall.Directory.Tree

open RemoteCall.Directory.Path

/-! ## Listing -/

/-- What stands between a text and another one that begins with it begins with it too. -/
theorem prefix_of_between {start middle last : List Char} (begins : start <+: last)
    (low : ¬ middle < start) (high : middle < last) : start <+: middle := by
  induction start generalizing middle last with
  | nil => exact List.nil_prefix
  | cons c start ih =>
      obtain ⟨rest, rfl⟩ := begins
      cases middle with
      | nil => exact absurd (List.nil_lt_cons c start) low
      | cons d middle =>
          rw [List.cons_append, List.cons_lt_cons_iff] at high
          rw [List.cons_lt_cons_iff, not_or, not_and] at low
          rcases high with less | ⟨rfl, less⟩
          · exact absurd less low.1
          · exact List.cons_prefix_cons.mpr
              ⟨rfl, ih (List.prefix_append start rest) (low.2 rfl) less⟩

theorem not_lt_of_prefix {start path : List Char} (begins : start <+: path) : ¬ path < start := by
  obtain ⟨rest, rfl⟩ := begins
  intro less
  cases rest with
  | nil =>
      rw [List.append_nil] at less
      exact List.lt_irrefl _ less
  | cons c rest =>
      have more : start ++ [] < start ++ c :: rest := List.append_left_lt (List.nil_lt_cons c rest)
      rw [List.append_nil] at more
      exact List.lt_irrefl _ (List.lt_trans less more)

section Listing

variable {start : String} {paths : List String}

/-- Behind a text, the texts that begin with it come first. -/
theorem takeWhile_prefix (increasing : paths.Pairwise (· < ·))
    (behind : ∀ path ∈ paths, ¬ path < start) :
    (paths.takeWhile fun path => start.toList.isPrefixOf path.toList)
      = paths.filter fun path => start.toList.isPrefixOf path.toList := by
  induction paths with
  | nil => rfl
  | cons path paths ih =>
      obtain ⟨first, increasing⟩ := List.pairwise_cons.mp increasing
      have later : ∀ other ∈ paths, ¬ other < start :=
        fun other mem => behind other (List.mem_cons_of_mem _ mem)
      rw [List.takeWhile_cons, List.filter_cons]
      by_cases begins : start.toList.isPrefixOf path.toList = true
      · rw [if_pos begins, if_pos begins, ih increasing later]
      · rw [if_neg begins, if_neg begins]
        refine (List.filter_eq_nil_iff.mpr fun other mem again => begins ?_).symm
        rw [List.isPrefixOf_iff_prefix] at again ⊢
        exact prefix_of_between again (behind path (.head _)) (first other mem)

/-- The search from a text on finds all texts that begin with it. -/
theorem search_prefix (increasing : paths.Pairwise (· < ·)) :
    ((paths.dropWhile (· < start)).takeWhile fun path => start.toList.isPrefixOf path.toList)
      = paths.filter fun path => start.toList.isPrefixOf path.toList := by
  induction paths with
  | nil => rfl
  | cons path paths ih =>
      obtain ⟨first, later⟩ := List.pairwise_cons.mp increasing
      rw [List.dropWhile_cons]
      by_cases less : path < start
      · have other : ¬ start.toList.isPrefixOf path.toList = true := by
          rw [List.isPrefixOf_iff_prefix]
          exact fun begins => not_lt_of_prefix begins less
        rw [if_pos (decide_eq_true less), List.filter_cons, if_neg other, ih later]
      · rw [if_neg (by simpa using less)]
        refine takeWhile_prefix increasing fun other mem => ?_
        rcases List.mem_cons.mp mem with rfl | mem
        · exact less
        · exact fun less' => less (String.lt_trans (first other mem) less')

end Listing

variable (tree : Tree)

theorem increasing_keys : tree.nodes.keys.Pairwise (· < ·) :=
  List.pairwise_map.mpr tree.nodes.increasing

theorem pathsFrom_eq (start : String) :
    tree.pathsFrom start
      = tree.nodes.keys.filter fun path => start.toList.isPrefixOf path.toList :=
  search_prefix tree.increasing_keys

variable {tree} {path : String}

theorem contains_iff : tree.contains path = true ↔ path ∈ tree.nodes.keys :=
  Dictionary.mem_keys_iff.symm

/-- The children of a path are the names of the nodes that stand directly under it. -/
theorem mem_children {name : String} :
    name ∈ tree.children path ↔ IsName name ∧ tree.contains (below path name) = true := by
  rw [children, pathsFrom_eq, List.mem_filterMap]
  constructor
  · rintro ⟨other, mem, found⟩
    obtain ⟨isName, rfl⟩ := childName?_eq_some_iff.mp found
    exact ⟨isName, contains_iff.mpr (List.mem_filter.mp mem).1⟩
  · rintro ⟨isName, there⟩
    refine ⟨below path name, List.mem_filter.mpr ⟨contains_iff.mp there, ?_⟩,
      childName?_eq_some_iff.mpr ⟨isName, rfl⟩⟩
    rw [List.isPrefixOf_iff_prefix, below_eq, String.toList_append]
    exact List.prefix_append ..

theorem lt_of_below_lt {name other : String} (less : below path name < below path other) :
    name < other := by
  rcases Std.lt_trichotomy name other with less' | rfl | greater
  · exact less'
  · exact absurd less (String.lt_irrefl _)
  · have : below path other < below path name := by
      show (below path other).toList < (below path name).toList
      rw [toList_below, toList_below]
      exact List.append_left_lt greater
    exact absurd less (String.lt_asymm this)

/-- Children are listed in increasing order. -/
theorem increasing_children (tree : Tree) (path : String) :
    (tree.children path).Pairwise (· < ·) := by
  rw [children, pathsFrom_eq, List.pairwise_filterMap]
  refine (tree.increasing_keys.filter _).imp fun {a b} less name found other found' => ?_
  obtain ⟨-, rfl⟩ := childName?_eq_some_iff.mp found
  obtain ⟨-, rfl⟩ := childName?_eq_some_iff.mp found'
  exact lt_of_below_lt less

/-- Listings with the same names are the same. -/
theorem children_eq_iff {before after : Tree} :
    before.children path = after.children path
      ↔ ∀ name, name ∈ before.children path ↔ name ∈ after.children path := by
  refine ⟨fun same name => by rw [same], fun same => ?_⟩
  exact (before.increasing_children path).eq_of_mem_iff (after.increasing_children path) same

/-! ## Trees whose nodes stand under nodes -/

/-- What holds of every tree that grows from the empty one. -/
structure Closed (tree : Tree) : Prop where
  /-- Nodes stand at paths. -/
  valid : ∀ path, tree.contains path = true → isValid path = true
  /-- The parent of a node is a node, or the lone slash. -/
  rooted : ∀ path parent, tree.contains path = true → parent? path = some parent →
    parent = "/" ∨ tree.contains parent = true

theorem closed_empty : empty.Closed :=
  ⟨nofun, nofun⟩

/-- All parents above a node are nodes. -/
theorem Closed.contains_ancestor (closed : tree.Closed) (valid : isValid path = true)
    (there : tree.contains path = true) :
    ∀ ancestor ∈ ancestors path, tree.contains ancestor = true := by
  induction path, valid using induction_on with
  | root => rw [ancestors_root]; exact nofun
  | step parent name valid isName ih =>
      rw [ancestors_below valid isName]
      by_cases root : parent = "/"
      · rw [if_pos root]
        exact nofun
      · have parentThere : tree.contains parent = true :=
          (closed.rooted _ parent there (parent?_below valid isName)).resolve_left root
        rw [if_neg root]
        intro ancestor mem
        rcases List.mem_cons.mp mem with rfl | mem
        · exact parentThere
        · exact ih parentThere ancestor mem

/-- The nodes above a path that are missing are all the ancestors that are no nodes. -/
theorem Closed.mem_missing (closed : tree.Closed) (valid : isValid path = true) {ancestor : String} :
    ancestor ∈ tree.missing path
      ↔ ancestor ∈ ancestors path ∧ tree.contains ancestor = false := by
  rw [missing]
  induction path, valid using induction_on with
  | root => rw [ancestors_root]; simp
  | step parent name valid isName ih =>
      rw [ancestors_below valid isName]
      by_cases root : parent = "/"
      · rw [if_pos root]
        simp
      · rw [if_neg root]
        cases there : tree.contains parent with
        | true =>
            have all := closed.contains_ancestor valid there
            rw [List.takeWhile_cons, there, List.mem_cons]
            constructor
            · exact nofun
            · rintro ⟨rfl | mem, absent⟩
              · exact absurd (there.symm.trans absent) (by decide)
              · exact absurd ((all ancestor mem).symm.trans absent) (by decide)
        | false =>
            rw [List.takeWhile_cons, there, Bool.not_false, if_pos rfl, List.mem_cons,
              List.mem_cons, ih]
            constructor
            · rintro (rfl | ⟨mem, absent⟩)
              · exact ⟨.inl rfl, there⟩
              · exact ⟨.inr mem, absent⟩
            · rintro ⟨rfl | mem, absent⟩
              · exact .inl rfl
              · exact .inr ⟨mem, absent⟩

/-! ## What a creation creates -/

/-- The nodes that creating a node creates, the node itself first. -/
def created (tree : Tree) (path : String) : List String :=
  path :: tree.missing path

theorem created_root (tree : Tree) : tree.created "/" = ["/"] := by
  rw [created, missing, ancestors_root]
  rfl

/-- A node is created with its parent, if that is missing, and what is created with that. -/
theorem created_below {parent name : String} (valid : isValid parent = true)
    (isName : IsName name) :
    tree.created (below parent name) = below parent name ::
      if parent = "/" ∨ tree.contains parent = true then [] else tree.created parent := by
  rw [created, created, missing, missing, ancestors_below valid isName]
  by_cases root : parent = "/"
  · rw [if_pos root, if_pos (.inl root)]
    rfl
  · rw [if_neg root, List.takeWhile_cons]
    cases there : tree.contains parent with
    | true => rw [Bool.not_true, if_neg nofun, if_pos (Or.inr rfl)]
    | false => rw [Bool.not_false, if_pos rfl, if_neg (not_or.mpr ⟨root, nofun⟩)]

/-- Everything that is created stands at a path. -/
theorem isValid_created (valid : isValid path = true) :
    ∀ node ∈ tree.created path, isValid node = true := by
  induction path, valid using induction_on with
  | root => rw [created_root]; simpa using isValid_root
  | step parent name valid isName ih =>
      rw [created_below valid isName]
      intro node mem
      rcases List.mem_cons.mp mem with rfl | mem
      · exact isValid_below valid isName
      · split at mem
        · exact nomatch mem
        · exact ih node mem

/-- Nothing is created that is there. -/
theorem not_contains_created (absent : tree.contains path = false) :
    ∀ node ∈ tree.created path, tree.contains node = false := by
  intro node mem
  rcases List.mem_cons.mp mem with rfl | mem
  · exact absent
  · have missing := List.all_takeWhile (l := ancestors path) (p := fun node => !tree.contains node)
    exact (Bool.not_eq_true' _).mp (List.all_eq_true.mp missing node mem)

/-- The parent of what is created is the lone slash, a node, or created too. -/
theorem parent_created (valid : isValid path = true) {node parent : String}
    (mem : node ∈ tree.created path) (above : parent? node = some parent) :
    parent = "/" ∨ tree.contains parent = true ∨ parent ∈ tree.created path := by
  induction path, valid using induction_on with
  | root =>
      rw [created_root, List.mem_singleton] at mem
      rw [mem] at above
      exact nomatch above
  | step grandparent name valid isName ih =>
      rw [created_below valid isName] at mem ⊢
      split at mem
      · next top =>
          rw [List.mem_singleton] at mem
          rw [mem, parent?_below valid isName] at above
          obtain rfl := Option.some.inj above
          exact top.imp_right .inl
      · next inner =>
          rw [if_neg inner]
          rcases List.mem_cons.mp mem with rfl | mem
          · rw [parent?_below valid isName] at above
            obtain rfl := Option.some.inj above
            exact .inr (.inr (.tail _ (.head _)))
          · exact (ih mem).imp_right (.imp_right (.tail _))

/-- What a creation leaves at each path. -/
theorem get?_insert (path : String) (data : Bytes) (other : String) :
    (tree.insert path data).nodes.get? other
      = if other = path then some data
        else if other ∈ tree.missing path then some []
        else tree.nodes.get? other := by
  have above (paths : List String) (nodes : Dictionary Bytes) :
      (paths.foldl (fun nodes p => nodes.insert p []) nodes).get? other
        = if other ∈ paths then some [] else nodes.get? other := by
    induction paths generalizing nodes with
    | nil => rfl
    | cons p paths ih =>
        rw [List.foldl_cons, ih, Dictionary.get?_insert]
        by_cases later : other ∈ paths
        · rw [if_pos later, if_pos (List.mem_cons_of_mem _ later)]
        · by_cases same : other = p
          · rw [if_neg later, if_pos same, if_pos (same ▸ List.mem_cons_self ..)]
          · rw [if_neg later, if_neg same, if_neg (List.not_mem_cons_of_ne_of_not_mem same later)]
  rw [insert, Dictionary.get?_insert, above]
  simp only [List.mem_reverse]

theorem contains_insert (path : String) (data : Bytes) (other : String) :
    (tree.insert path data).contains other = true
      ↔ other ∈ tree.created path ∨ tree.contains other = true := by
  rw [contains, Dictionary.contains, get?_insert, created, List.mem_cons]
  by_cases same : other = path
  · simp [same]
  · by_cases mem : other ∈ tree.missing path
    · simp [same, mem]
    · simp [same, mem, contains, Dictionary.contains]

theorem Closed.insert (closed : tree.Closed) (valid : isValid path = true) (data : Bytes) :
    (tree.insert path data).Closed where
  valid other there := by
    rcases (contains_insert path data other).mp there with new | old
    · exact isValid_created valid other new
    · exact closed.valid other old
  rooted other parent there above := by
    rw [contains_insert]
    rcases (contains_insert path data other).mp there with new | old
    · exact (parent_created valid new above).imp_right Or.symm
    · exact (closed.rooted other parent old above).imp_right .inr

theorem mem_children_insert (data : Bytes) {parent name : String} :
    name ∈ (tree.insert path data).children parent
      ↔ name ∈ tree.children parent ∨ IsName name ∧ below parent name ∈ tree.created path := by
  rw [mem_children, mem_children, contains_insert]
  tauto

/-! ## Changes -/

/-- Whether changes tell the children, after an operation on a tree, of exactly those paths whose
children the operation changed. -/
def Tells (before after : Tree) (changes : List Change) : Prop :=
  ∀ path, isValid path = true → changes.filter (fun change => change.path = path)
    = if before.children path = after.children path then [] else [after.changeAt path]

/-- Changes of distinct paths tell what changed if these are the paths whose children changed. -/
theorem tells_map {before after : Tree} {paths : List String} (distinct : paths.Nodup)
    (changed : ∀ path, isValid path = true →
      (path ∈ paths ↔ before.children path ≠ after.children path)) :
    Tells before after (paths.map after.changeAt) := by
  intro path valid
  have same : (fun change => decide (change.path = path)) ∘ after.changeAt
      = fun other => decide (other = path) := rfl
  rw [List.filter_map, same, List.filter_eq, distinct.count]
  by_cases mem : path ∈ paths
  · rw [if_pos mem, if_neg ((changed path valid).mp mem)]
    rfl
  · rw [if_neg mem, if_pos (not_not.mp (mt (changed path valid).mpr mem))]
    rfl

/-- The paths that get a new child are the parents of what is created. -/
theorem mem_parents_created (valid : isValid path = true) {parent : String}
    (validParent : isValid parent = true) :
    parent ∈ (tree.created path).filterMap parent?
      ↔ ∃ name, IsName name ∧ below parent name ∈ tree.created path := by
  rw [List.mem_filterMap]
  constructor
  · rintro ⟨node, mem, above⟩
    obtain ⟨-, name, isName, rfl⟩ :=
      (parent?_eq_some_iff (isValid_created valid node mem)).mp above
    exact ⟨name, isName, mem⟩
  · rintro ⟨name, isName, mem⟩
    exact ⟨below parent name, mem, parent?_below validParent isName⟩

theorem length_le_of_mem_created (valid : isValid path = true) :
    ∀ node ∈ tree.created path, node.toList.length ≤ path.toList.length := by
  induction path, valid using induction_on with
  | root => rw [created_root]; simp
  | step parent name valid isName ih =>
      rw [created_below valid isName]
      intro node mem
      rcases List.mem_cons.mp mem with rfl | mem
      · exact Nat.le_refl _
      · split at mem
        · exact nomatch mem
        · exact Nat.le_of_lt (Nat.lt_of_le_of_lt (ih node mem) (length_lt_below parent isName))

/-- No two nodes that are created together have one parent. -/
theorem nodup_parents_created (valid : isValid path = true) :
    ((tree.created path).filterMap parent?).Nodup := by
  induction path, valid using induction_on with
  | root => rw [created_root]; exact List.nodup_nil
  | step parent name valid isName ih =>
      rw [created_below valid isName, List.filterMap_cons_some (parent?_below valid isName)]
      split
      · exact List.nodup_singleton parent
      · refine List.nodup_cons.mpr ⟨fun again => ?_, ih⟩
        obtain ⟨name, isName, mem⟩ := (mem_parents_created valid valid).mp again
        -- a child of the parent is longer than all that is created with the parent
        have short := length_le_of_mem_created valid _ mem
        have long := length_lt_below parent isName
        omega

theorem tells_insert (valid : isValid path = true) (absent : tree.contains path = false)
    (data : Bytes) :
    Tells tree (tree.insert path data)
      (((tree.created path).filterMap parent?).map (tree.insert path data).changeAt) := by
  refine tells_map (nodup_parents_created valid) fun parent validParent => ?_
  rw [mem_parents_created valid validParent, Ne, children_eq_iff]
  constructor
  · rintro ⟨name, isName, mem⟩ same
    have old := (same name).mpr ((mem_children_insert data).mpr (.inr ⟨isName, mem⟩))
    have new := not_contains_created absent _ mem
    exact absurd ((mem_children.mp old).2.symm.trans new) (by decide)
  · intro differ
    by_contra none
    refine differ fun name => ⟨fun old => (mem_children_insert data).mpr (.inl old), fun mem => ?_⟩
    exact ((mem_children_insert data).mp mem).resolve_right fun new => none ⟨name, new⟩

/-! ## Deletion -/

/-- The tree without a node. -/
def erase (tree : Tree) (path : String) : Tree :=
  ⟨tree.nodes.erase path⟩

theorem contains_erase (path other : String) :
    (tree.erase path).contains other = true ↔ other ≠ path ∧ tree.contains other = true := by
  rw [contains, Dictionary.contains, erase, Dictionary.get?_erase]
  by_cases same : other = path
  · simp [same]
  · simp [same, contains, Dictionary.contains]

theorem mem_children_erase {parent name : String} :
    name ∈ (tree.erase path).children parent
      ↔ name ∈ tree.children parent ∧ below parent name ≠ path := by
  rw [mem_children, mem_children, contains_erase]
  tauto

theorem Closed.erase (closed : tree.Closed) (leaf : tree.children path = []) :
    (tree.erase path).Closed where
  valid other there := closed.valid other ((contains_erase path other).mp there).2
  rooted other parent stays above := by
    have there := ((contains_erase path other).mp stays).2
    rw [contains_erase]
    refine (closed.rooted other parent there above).imp_right fun there' => ⟨?_, there'⟩
    -- what is deleted is no parent of a node
    rintro rfl
    obtain ⟨-, name, isName, rfl⟩ :=
      (parent?_eq_some_iff (closed.valid other there)).mp above
    have child : name ∈ tree.children parent := mem_children.mpr ⟨isName, there⟩
    rw [leaf] at child
    exact nomatch child

theorem tells_erase (valid : isValid path = true) (there : tree.contains path = true) :
    Tells tree (tree.erase path) ((parent? path).toList.map (tree.erase path).changeAt) := by
  refine tells_map (Option.toList_nodup _) fun parent validParent => ?_
  rw [Option.mem_toList, parent?_eq_some_iff valid, Ne, children_eq_iff]
  constructor
  · rintro ⟨-, name, isName, rfl⟩ same
    have stays := (same name).mp (mem_children.mpr ⟨isName, there⟩)
    exact (mem_children_erase.mp stays).2 rfl
  · intro differ
    by_contra none
    refine differ fun name => ⟨fun old => mem_children_erase.mpr ⟨old, ?_⟩,
      fun mem => (mem_children_erase.mp mem).1⟩
    rintro rfl
    exact none ⟨validParent, name, (mem_children.mp old).1, rfl⟩

/-! ## Data -/

/-- Whether all nodes that stay keep their data. -/
def Keeps (before after : Tree) : Prop :=
  ∀ path data, before.nodes.get? path = some data → after.contains path = true →
    after.nodes.get? path = some data

/-- Where nothing changes, all data stay. -/
theorem keeps_of_eq {after : Tree} (same : after = tree) : tree.Keeps after := by
  rw [same]
  exact fun _ _ found _ => found

theorem keeps_insert (absent : tree.contains path = false) (data : Bytes) :
    tree.Keeps (tree.insert path data) := by
  intro other kept found _
  have there : tree.contains other = true := Option.isSome_of_eq_some found
  have old : other ∉ tree.created path := fun new =>
    absurd (there.symm.trans (not_contains_created absent other new)) (by decide)
  obtain ⟨apart, stays⟩ := not_or.mp (mt List.mem_cons.mpr old)
  rw [get?_insert, if_neg apart, if_neg stays, found]

theorem keeps_erase (path : String) : tree.Keeps (tree.erase path) := by
  intro other kept found there
  rw [erase, Dictionary.get?_erase, if_neg ((contains_erase path other).mp there).1, found]

/-! ## What operations come to -/

theorem create_eq_ok_iff {data : Bytes} {outcome : Tree × List Change} :
    tree.create path data = .ok outcome ↔ tree.contains path = false
      ∧ outcome = (tree.insert path data,
          ((tree.created path).filterMap parent?).map (tree.insert path data).changeAt) := by
  rw [create]
  cases tree.contains path with
  | true => simp
  | false =>
      rw [if_neg nofun, Except.ok.injEq, eq_comm]
      exact ⟨fun same => ⟨rfl, same⟩, And.right⟩

theorem delete_eq_ok_iff {outcome : Tree × List Change} :
    tree.delete path = .ok outcome
      ↔ tree.contains path = true ∧ tree.children path = []
        ∧ outcome = (tree.erase path, (parent? path).toList.map (tree.erase path).changeAt) := by
  rw [delete]
  cases tree.contains path with
  | false => simp
  | true =>
      rw [Bool.not_true, if_neg nofun]
      cases tree.children path with
      | nil => simp [erase, eq_comm]
      | cons name names => simp

end RemoteCall.Directory.Tree
