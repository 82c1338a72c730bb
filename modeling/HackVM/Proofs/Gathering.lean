import Mathlib
import HackVM.CommandLine.Sources
import HackVM.Proofs.Files
import HackVM.Proofs.Paths

/-!
# Gathering the sources

A folder stands for the files below it, at any depth, whose extension is `vm`. They are found whatever order
the entries of a folder are listed in, each once, and come in the order of their paths, compared name by name
and names byte by byte. Sorting each folder by itself yields that order, since the names of the entries decide
between files below different entries; it is not the order of whole paths byte by byte, in which a slash may
come behind other bytes. Arguments are taken in order, and gathering fails only where it cannot look.
-/

namespace HackVM

namespace FileTree

/-- Every folder of a tree has its entries under different names, which entries may have. -/
inductive Proper {α : Type} : FileTree α → Prop where
  | file (content : α) : Proper (.file content)
  | closed (error : FileError) : Proper (.closed error)
  | folder {entries : List (RawText × FileTree α)} (distinct : (entries.map Prod.fst).Nodup)
    (named : ∀ entry ∈ entries, Path.EntryName entry.1)
    (below : ∀ entry ∈ entries, Proper entry.2) : Proper (.folder entries)

/-- The same tree with the entries of its folders listed in other orders. -/
inductive Relisted {α : Type} : FileTree α → FileTree α → Prop where
  | refl (tree : FileTree α) : Relisted tree tree
  | perm {entries entries' : List (RawText × FileTree α)} (perm : entries.Perm entries') :
    Relisted (.folder entries) (.folder entries')
  | inside {tree tree' : FileTree α} (front : List (RawText × FileTree α)) (name : RawText)
    (rest : List (RawText × FileTree α)) (below : Relisted tree tree') :
    Relisted (.folder (front ++ (name, tree) :: rest)) (.folder (front ++ (name, tree') :: rest))
  | trans {tree tree' tree'' : FileTree α} (first : Relisted tree tree')
    (second : Relisted tree' tree'') : Relisted tree tree''

variable {α : Type} {tree tree' : FileTree α} {entries : List (RawText × FileTree α)}
  {entry : RawText × FileTree α} {name : RawText} {names : List RawText}

/-- No folder at or below the top of a tree refuses to be listed. -/
def Listable (tree : FileTree α) : Prop :=
  ∀ names error, tree.get? names ≠ some (.closed error)

/-- Names lead from an entry with a given name to a file, which has the extension `vm`. -/
def SourceAt (name : RawText) (tree : FileTree α) (names : List RawText) : Prop :=
  (∃ content, tree.get? names = some (.file content)) ∧
    ∃ stem ≠ [], (name :: names).getLast? = some (stem ++ Text.encode ".vm")

/-- The name of an entry leads to the entry. -/
lemma get?_of_mem (distinct : (entries.map Prod.fst).Nodup) (h : entry ∈ entries)
    (names : List RawText) : (folder entries).get? (entry.1 :: names) = entry.2.get? names := by
  rw [get?_folder, lookup_of_mem distinct h, Option.bind_some]

/-- What stands below a folder stands at or below one of its entries. -/
lemma exists_mem_of_get? {found : FileTree α} (h : (folder entries).get? (name :: names) = some found) :
    ∃ below, (name, below) ∈ entries ∧ below.get? names = some found := by
  rw [get?_folder] at h
  obtain ⟨below, entry, h⟩ := Option.bind_eq_some_iff.mp h
  exact ⟨below, mem_of_lookup entry, h⟩

/-- The sources below a folder are those of its entries. -/
lemma sourceAt_folder_iff (distinct : (entries.map Prod.fst).Nodup) :
    (folder entries).SourceAt name names ↔
      ∃ entry ∈ entries, ∃ rest, names = entry.1 :: rest ∧ entry.2.SourceAt entry.1 rest := by
  constructor
  · rintro ⟨⟨content, file⟩, ending⟩
    cases names with
    | nil =>
      rw [get?_nil] at file
      cases file
    | cons key rest =>
      obtain ⟨below, entry, file⟩ := exists_mem_of_get? file
      rw [List.getLast?_cons_cons] at ending
      exact ⟨_, entry, rest, rfl, ⟨content, file⟩, ending⟩
  · rintro ⟨entry, he, rest, rfl, ⟨content, file⟩, ending⟩
    refine ⟨⟨content, (get?_of_mem distinct he rest).trans file⟩, ?_⟩
    rwa [List.getLast?_cons_cons]

/-- What can be listed whole can be listed below each entry. -/
lemma Listable.of_mem (h : (folder entries).Listable) (distinct : (entries.map Prod.fst).Nodup)
    (he : entry ∈ entries) : entry.2.Listable := by
  intro names error closed
  exact h (entry.1 :: names) error ((get?_of_mem distinct he names).trans closed)

/-- The names that lead through a tree are names of entries. -/
lemma Proper.entryName {found : FileTree α} (proper : tree.Proper) (h : tree.get? names = some found) :
    ∀ name ∈ names, Path.EntryName name := by
  induction names generalizing tree with
  | nil => simp
  | cons key rest ih =>
    cases proper with
    | file content => cases h
    | closed error => cases h
    | folder distinct named below =>
      obtain ⟨tree, entry, h⟩ := exists_mem_of_get? h
      intro name hn
      rcases List.mem_cons.mp hn with rfl | hn
      · exact named _ entry
      · exact ih (below _ entry) h name hn

/-- A tree that is listed in another order is proper as well. -/
lemma Relisted.proper (h : Relisted tree tree') (proper : tree.Proper) : tree'.Proper := by
  induction h with
  | refl tree => exact proper
  | perm perm =>
    cases proper with
    | folder distinct named below =>
      apply Proper.folder
      · exact (perm.map Prod.fst).nodup_iff.mp distinct
      · exact fun entry he => named entry (perm.mem_iff.mpr he)
      · exact fun entry he => below entry (perm.mem_iff.mpr he)
  | inside front name rest _ ih =>
    cases proper with
    | folder distinct named below =>
      simp only [List.forall_mem_append, List.forall_mem_cons] at named below
      apply Proper.folder
      · simpa using distinct
      · simpa only [List.forall_mem_append, List.forall_mem_cons] using named
      · simp only [List.forall_mem_append, List.forall_mem_cons]
        exact ⟨below.1, ih below.2.1, below.2.2⟩
  | trans _ _ ih ih' => exact ih' (ih proper)

end FileTree

section Results

variable {ε β γ : Type} {f : β → Except ε γ} {items : List β}

/-- A task for each of several items succeeds if each of them does. -/
lemma mapM_eq_ok {value : β → γ} (h : ∀ item ∈ items, f item = .ok (value item)) :
    items.mapM f = .ok (items.map value) := by
  induction items with
  | nil => rfl
  | cons item rest ih =>
    rw [List.mapM_cons, h item List.mem_cons_self, ih fun other ho => h other (.tail _ ho)]
    rfl

/-- If a task for each of several items succeeds, so does each of them. -/
lemma exists_ok_of_mapM {values : List γ} (h : items.mapM f = .ok values) {item : β}
    (hi : item ∈ items) : ∃ value, f item = .ok value := by
  induction items generalizing values with
  | nil => cases hi
  | cons first rest ih =>
    rw [List.mapM_cons] at h
    obtain ⟨value, found, h⟩ := bind_eq_ok_iff.mp h
    obtain ⟨more, others, -⟩ := bind_eq_ok_iff.mp h
    rcases List.mem_cons.mp hi with rfl | hi
    · exact ⟨value, found⟩
    · exact ih others hi

end Results

namespace Sources

variable {α : Type} {tree tree' : FileTree α} {entries entries' : List (RawText × FileTree α)}
  {path name : RawText} {files files' : List RawText}

/-- The entries of a folder in the order of their names. -/
def byName (entries : List (RawText × FileTree α)) : List (RawText × FileTree α) :=
  entries.mergeSort fun one two => decide (one.1 ≤ two.1)

/-- Sorting keeps the entries. -/
lemma byName_perm (entries : List (RawText × FileTree α)) : (byName entries).Perm entries :=
  List.mergeSort_perm _ _

/-- The sorted entries are the entries. -/
lemma mem_byName {entry : RawText × FileTree α} : entry ∈ byName entries ↔ entry ∈ entries :=
  (byName_perm entries).mem_iff

/-- The entries are sorted by their names. -/
lemma pairwise_byName (entries : List (RawText × FileTree α)) :
    (byName entries).Pairwise fun one two => one.1 ≤ two.1 := by
  refine (List.pairwise_mergeSort ?_ ?_ entries).imp fun h => of_decide_eq_true h
  · intro one two three h h'
    exact decide_eq_true (List.le_trans (of_decide_eq_true h) (of_decide_eq_true h'))
  · intro one two
    simpa using List.le_total one.1 two.1

/-- Entries with different names are strictly increasing in the order of their names. -/
lemma pairwise_lt_byName (distinct : (entries.map Prod.fst).Nodup) :
    (byName entries).Pairwise fun one two => one.1 < two.1 := by
  have different : (byName entries).Pairwise fun one two => one.1 ≠ two.1 := by
    refine List.pairwise_map.mp ?_
    exact ((byName_perm entries).map Prod.fst).nodup_iff.mpr distinct
  refine (pairwise_byName entries).imp₂ (fun one two le ne => ?_) different
  exact List.not_le.mp fun ge => ne (List.le_antisymm le ge)

/-- Entries with different names have one order. -/
lemma byName_eq (distinct : (entries.map Prod.fst).Nodup) (perm : entries.Perm entries')
    (sorted : entries'.Pairwise fun one two => one.1 ≤ two.1) : byName entries = entries' := by
  refine List.Perm.eq_of_pairwise ?_ (pairwise_byName entries) sorted ((byName_perm entries).trans perm)
  intro one two h h' le ge
  exact List.inj_on_of_nodup_map distinct (mem_byName.mp h) (perm.mem_iff.mpr h')
    (List.le_antisymm le ge)

/-- The sources of a folder are those of each entry. -/
lemma belowAll_eq_map (folder : RawText) (entries : List (RawText × FileTree α)) :
    belowAll folder entries =
      entries.map fun entry => (entry.1, below (Path.join folder entry.1) entry.1 entry.2) := by
  induction entries with
  | nil => rfl
  | cons entry rest ih =>
    obtain ⟨name, tree⟩ := entry
    rw [belowAll, belowEntry, ih, List.map_cons]

/-- The sources of a folder are those of its entries in the order of their names. -/
lemma inOrder_belowAll (folder : RawText) (entries : List (RawText × FileTree α)) :
    inOrder (belowAll folder entries) = List.flatten <$> (byName entries).mapM fun entry =>
      below (Path.join folder entry.1) entry.1 entry.2 := by
  have sorted : (belowAll folder entries).mergeSort (fun one two => decide (one.1 ≤ two.1)) =
      (byName entries).map fun entry =>
        (entry.1, below (Path.join folder entry.1) entry.1 entry.2) := by
    rw [belowAll_eq_map]
    symm
    apply List.map_mergeSort
    exact fun _ _ _ _ => rfl
  rw [inOrder, sorted, List.mapM_map]
  rfl

/-- Files are what is gathered at or below a path: the sources there, in the order of their paths. -/
structure Lists (path name : RawText) (tree : FileTree α) (files : List RawText) : Prop where
  complete : ∀ file, file ∈ files ↔ ∃ names, tree.SourceAt name names ∧ file = names.foldl Path.join path
  sorted : files.Pairwise Path.Before

/-- Files in increasing order are different. -/
lemma Lists.nodup (h : Lists path name tree files) : files.Nodup := by
  refine h.sorted.imp fun before same => ?_
  subst same
  exact before.asymm before

/-- What is complete and sorted is so in one way only. -/
lemma Lists.unique (h : Lists path name tree files) (h' : Lists path name tree files') : files = files' := by
  refine List.Perm.eq_of_pairwise ?_ h.sorted h'.sorted ?_
  · intro one two _ _ before after
    exact absurd after before.asymm
  · refine (List.perm_ext_iff_of_nodup h.nodup h'.nodup).mpr fun file => ?_
    rw [h.complete, h'.complete]

/-- A file below an entry of a folder has the names of the folder, the entry's and more. -/
lemma Lists.exists_components {folder : RawText} (h : Lists (Path.join folder name) name tree files)
    (named : Path.EntryName name) (proper : tree.Proper) {file : RawText} (hf : file ∈ files) :
    ∃ names, Path.components file = Path.components folder ++ name :: names := by
  obtain ⟨names, ⟨⟨content, found⟩, -⟩, rfl⟩ := (h.complete file).mp hf
  refine ⟨names, ?_⟩
  rw [Path.components_foldl_join (proper.entryName found), named.components_join, List.append_assoc,
    List.singleton_append]

/-- The sources of a folder, listed entry by entry in the order of their names. -/
lemma lists_folder (proper : (FileTree.folder entries).Proper) {filesOf : RawText × FileTree α → List RawText}
    (each : ∀ entry ∈ entries, Lists (Path.join path entry.1) entry.1 entry.2 (filesOf entry)) :
    Lists path name (.folder entries) ((byName entries).flatMap filesOf) := by
  cases proper with
  | folder distinct named below =>
  refine ⟨fun file => ?_, List.pairwise_flatMap.mpr ⟨?_, ?_⟩⟩
  · simp only [List.mem_flatMap, mem_byName, FileTree.sourceAt_folder_iff distinct]
    constructor
    · rintro ⟨entry, he, hf⟩
      obtain ⟨names, source, rfl⟩ := ((each entry he).complete file).mp hf
      exact ⟨entry.1 :: names, ⟨entry, he, names, rfl, source⟩, rfl⟩
    · rintro ⟨_, ⟨entry, he, names, rfl, source⟩, rfl⟩
      exact ⟨entry, he, ((each entry he).complete _).mpr ⟨names, source, rfl⟩⟩
  · intro entry he
    exact (each entry (mem_byName.mp he)).sorted
  · -- The names of two entries decide between all files below the one and all below the other.
    refine (pairwise_lt_byName distinct).imp_of_mem fun {one two} h h' less file hf file' hf' => ?_
    rw [mem_byName] at h h'
    obtain ⟨names, e⟩ := (each one h).exists_components (named one h) (below one h) hf
    obtain ⟨names', e'⟩ := (each two h').exists_components (named two h') (below two h') hf'
    exact Path.before_of_lt less e e'

/-- A tree without a folder that refuses to be listed is gathered. -/
lemma exists_lists (proper : tree.Proper) (listable : tree.Listable) (path name : RawText) :
    ∃ files, below path name tree = .ok files ∧ Lists path name tree files := by
  induction proper generalizing path name with
  | closed error => exact absurd rfl (listable [] error)
  | file content =>
    refine ⟨_, rfl, fun file => ?_, ?_⟩
    · have alone : ∀ names, (FileTree.file content).SourceAt name names ↔
          names = [] ∧ Path.extension? name = some (Text.encode "vm") := by
        intro names
        rw [Path.extension?_eq_vm_iff]
        cases names with
        | nil => simp [FileTree.SourceAt, FileTree.get?_nil]
        | cons key rest => simp [FileTree.SourceAt, FileTree.get?]
      simp [alone]
    · split_ifs <;> simp
  | folder distinct named below ih =>
    have each : ∀ entry ∈ _, ∃ files, _ :=
      fun entry he => ih entry he (listable.of_mem distinct he) (Path.join path entry.1) entry.1
    choose! filesOf gathered using each
    refine ⟨_, ?_, lists_folder (.folder distinct named below) fun entry he => (gathered entry he).2⟩
    rw [Sources.below, inOrder_belowAll,
      mapM_eq_ok fun entry he => (gathered entry (mem_byName.mp he)).1]
    rfl

/-- A tree with a folder that refuses to be listed is not gathered. -/
lemma listable_of_below (h : below path name tree = .ok files) : tree.Listable := by
  intro names error closed
  induction names generalizing tree path name files with
  | nil =>
    rw [FileTree.get?_nil] at closed
    obtain rfl := Option.some.inj closed
    cases h
  | cons key rest ih =>
    cases tree with
    | file content => cases closed
    | closed error => cases closed
    | folder entries =>
      obtain ⟨tree, entry, closed⟩ := FileTree.exists_mem_of_get? closed
      rw [below, inOrder_belowAll] at h
      obtain ⟨lists, h, -⟩ := map_eq_ok_iff.mp h
      obtain ⟨_, h⟩ := exists_ok_of_mapM h (mem_byName.mpr entry)
      exact ih h closed

/-- What is gathered from a tree: the sources in it, if all its folders can be listed. -/
lemma below_eq_ok_iff (proper : tree.Proper) :
    below path name tree = .ok files ↔ tree.Listable ∧ Lists path name tree files := by
  constructor
  · intro h
    have listable := listable_of_below h
    obtain ⟨files', h', lists⟩ := exists_lists proper listable path name
    cases h.symm.trans h'
    exact ⟨listable, lists⟩
  · rintro ⟨listable, lists⟩
    obtain ⟨files', h, lists'⟩ := exists_lists proper listable path name
    rw [h, lists.unique lists']

/-- The order in which entries are listed has no effect, at any depth. -/
lemma below_relisted (h : FileTree.Relisted tree tree') (proper : tree.Proper) (path name : RawText) :
    below path name tree' = below path name tree := by
  induction h generalizing path name with
  | refl tree => rfl
  | perm perm =>
    cases proper with
    | folder distinct named _ =>
      have same := byName_eq distinct (perm.trans (byName_perm _).symm) (pairwise_byName _)
      rw [below, below, inOrder_belowAll, inOrder_belowAll, same]
  | inside front key rest _ ih =>
    cases proper with
    | folder distinct named proper =>
      have same := ih (proper _ (List.mem_append_right _ List.mem_cons_self)) (Path.join path key) key
      rw [below, below, belowAll_eq_map, belowAll_eq_map]
      simp only [List.map_append, List.map_cons, same]
  | trans first _ ih ih' => exact (ih' (first.proper proper) path name).trans (ih proper path name)

/-- A list of the sources below a folder: all of them, each once, in the order of their paths. -/
structure Inventory (path : RawText) (folder : FileTree α) (files : List RawText) : Prop where
  complete : ∀ file, file ∈ files ↔ ∃ names content stem,
    folder.get? names = some (.file content) ∧ stem ≠ [] ∧ names.getLast? = some (stem ++ Text.encode ".vm") ∧
      file = names.foldl Path.join path
  once : files.Nodup
  sorted : files.Pairwise Path.Before

/-- An inventory of a folder is a list of the sources in it. -/
lemma inventory_iff_lists :
    Inventory path (.folder entries) files ↔ Lists path name (.folder entries) files := by
  have sources : ∀ file,
      (∃ names, (FileTree.folder entries).SourceAt name names ∧ file = names.foldl Path.join path) ↔
        ∃ names content stem, (FileTree.folder entries).get? names = some (.file content) ∧ stem ≠ [] ∧
          names.getLast? = some (stem ++ Text.encode ".vm") ∧ file = names.foldl Path.join path := by
    intro file
    refine exists_congr fun names => ?_
    cases names with
    | nil => simp [FileTree.SourceAt, FileTree.get?_nil]
    | cons key rest =>
      rw [FileTree.SourceAt, List.getLast?_cons_cons]
      constructor
      · rintro ⟨⟨⟨content, found⟩, stem, nonempty, last⟩, e⟩
        exact ⟨content, stem, found, nonempty, last, e⟩
      · rintro ⟨content, stem, found, nonempty, last, e⟩
        exact ⟨⟨⟨content, found⟩, stem, nonempty, last⟩, e⟩
  constructor
  · exact fun h => ⟨fun file => (h.complete file).trans (sources file).symm, h.sorted⟩
  · exact fun h => ⟨fun file => (h.complete file).trans (sources file), h.nodup, h.sorted⟩

/-- The files that an argument stands for: a file for itself, a folder for the sources below it. -/
inductive StandsFor : RawText × Option (FileTree α) → List RawText → Prop where
  | file (path : RawText) (content : α) : StandsFor (path, some (.file content)) [path]
  | folder {path : RawText} {entries : List (RawText × FileTree α)} {files : List RawText}
    (listable : (FileTree.folder entries).Listable) (inventory : Inventory path (.folder entries) files) :
    StandsFor (path, some (.folder entries)) files

/-- An argument that leads to the same tree with its entries listed in other orders. -/
inductive Relists : RawText × Option (FileTree α) → RawText × Option (FileTree α) → Prop where
  | none (path : RawText) : Relists (path, none) (path, none)
  | some (path : RawText) {tree tree' : FileTree α} (relisted : tree.Relisted tree') :
    Relists (path, some tree) (path, some tree')

/-- An argument that stands for nothing: it leads nowhere, or to a folder that cannot be listed whole. -/
def Barren (argument : RawText × Option (FileTree α)) : Prop :=
  argument.2 = none ∨ ∃ tree ∈ argument.2, ¬ tree.Listable

variable {found : Option (FileTree α)} {arguments arguments' : List (RawText × Option (FileTree α))}

/-- A folder that is an argument is gathered as one without a name of its own. -/
lemma ofArgument_folder (path : RawText) (entries : List (RawText × FileTree α)) :
    ofArgument path (some (.folder entries)) = (below path [] (.folder entries)).mapError .files := by
  rw [ofArgument, below]

/-- An argument stands for the files that are gathered for it. -/
lemma ofArgument_eq_ok_iff (proper : ∀ tree ∈ found, tree.Proper) :
    ofArgument path found = .ok files ↔ StandsFor (path, found) files := by
  constructor
  · intro h
    rcases found with _ | content | entries | error
    · cases h
    · cases h
      exact .file path content
    · rw [ofArgument_folder, mapError_eq_ok_iff, below_eq_ok_iff (proper _ rfl), ← inventory_iff_lists] at h
      exact .folder h.1 h.2
    · cases h
  · intro h
    cases h with
    | file => rfl
    | folder listable inventory =>
      rw [ofArgument_folder, mapError_eq_ok_iff, below_eq_ok_iff (proper _ rfl), ← inventory_iff_lists]
      exact ⟨listable, inventory⟩

/-- Every argument stands for files, except for those that lead nowhere or cannot be listed. -/
lemma exists_ofArgument_iff (proper : ∀ tree ∈ found, tree.Proper) :
    (∃ files, ofArgument path found = .ok files) ↔ ¬ Barren (path, found) := by
  constructor
  · rintro ⟨files, h⟩ (nowhere | ⟨tree, rfl, closed⟩)
    · obtain rfl : found = none := nowhere
      cases h
    · apply closed
      cases (ofArgument_eq_ok_iff proper).mp h with
      | file path content =>
        intro names error
        cases names <;> simp [FileTree.get?]
      | folder listable _ => exact listable
  · intro fertile
    rcases found with _ | content | entries | error
    · exact absurd (.inl rfl) fertile
    · exact ⟨_, rfl⟩
    · have listable : (FileTree.folder entries).Listable :=
        by_contra fun closed => fertile (.inr ⟨_, rfl, closed⟩)
      obtain ⟨files, h, -⟩ := exists_lists (proper _ rfl) listable path []
      exact ⟨files, by rw [ofArgument_folder, h]; rfl⟩
    · refine absurd (.inr ⟨_, rfl, fun listable => ?_⟩) fertile
      exact listable [] error rfl

/-- The order in which entries are listed has no effect on an argument. -/
lemma ofArgument_relists {argument argument' : RawText × Option (FileTree α)}
    (h : Relists argument argument') (proper : ∀ tree ∈ argument.2, tree.Proper) :
    ofArgument argument'.1 argument'.2 = ofArgument argument.1 argument.2 := by
  cases h with
  | none path => rfl
  | some path relisted =>
    replace proper := proper _ rfl
    show ofArgument path _ = ofArgument path _
    induction relisted with
    | refl tree => rfl
    | perm perm => rw [ofArgument_folder, ofArgument_folder, below_relisted (.perm perm) proper]
    | inside front name rest below =>
      rw [ofArgument_folder, ofArgument_folder, below_relisted (.inside front name rest below) proper]
    | trans first _ ih ih' => exact (ih' (first.proper proper)).trans (ih proper)

/-- What is gathered is what the arguments stand for, in order. -/
lemma gather_eq_ok_iff (proper : ∀ argument ∈ arguments, ∀ tree ∈ argument.2, tree.Proper) :
    gather arguments = .ok files ↔
      ∃ lists, List.Forall₂ StandsFor arguments lists ∧ files = lists.flatten := by
  induction arguments generalizing files with
  | nil => simp [gather, eq_comm]
  | cons argument rest ih =>
    obtain ⟨path, found⟩ := argument
    obtain ⟨first, others⟩ := List.forall_mem_cons.mp proper
    rw [gather]
    constructor
    · intro h
      obtain ⟨list, h₁, h⟩ := bind_eq_ok_iff.mp h
      obtain ⟨more, h₂, h⟩ := bind_eq_ok_iff.mp h
      obtain ⟨lists, each, rfl⟩ := (ih others).mp h₂
      cases h
      exact ⟨list :: lists, .cons ((ofArgument_eq_ok_iff first).mp h₁) each, rfl⟩
    · rintro ⟨_, each, rfl⟩
      cases each with
      | cons stands each =>
        refine bind_eq_ok_iff.mpr ⟨_, (ofArgument_eq_ok_iff first).mpr stands, ?_⟩
        exact bind_eq_ok_iff.mpr ⟨_, (ih others).mpr ⟨_, each, rfl⟩, rfl⟩

/-- Gathering fails exactly for arguments of which one leads nowhere or cannot be listed. -/
lemma gather_error_iff (proper : ∀ argument ∈ arguments, ∀ tree ∈ argument.2, tree.Proper) :
    (∃ failure, gather arguments = .error failure) ↔ ∃ argument ∈ arguments, Barren argument := by
  induction arguments with
  | nil => simp [gather]
  | cons argument rest ih =>
    obtain ⟨path, found⟩ := argument
    obtain ⟨first, others⟩ := List.forall_mem_cons.mp proper
    have stands : (∃ files, ofArgument path found = .ok files) ↔ _ := exists_ofArgument_iff first
    simp only [gather, List.mem_cons, exists_eq_or_imp, ← ih others]
    cases e : ofArgument path found with
    | error failure =>
      have barren : Barren (path, found) := by
        by_contra fertile
        obtain ⟨files, h⟩ := stands.mpr fertile
        cases e.symm.trans h
      exact iff_of_true ⟨failure, rfl⟩ (.inl barren)
    | ok files =>
      have fertile := stands.mp ⟨files, e⟩
      rw [or_iff_right fertile]
      cases gather rest with
      | error failure => exact iff_of_true ⟨failure, rfl⟩ ⟨failure, rfl⟩
      | ok more =>
        apply iff_of_false
        · rintro ⟨_, h⟩
          cases h
        · rintro ⟨_, h⟩
          cases h

/-- The order in which entries are listed has no effect on what is gathered. -/
lemma gather_relists (proper : ∀ argument ∈ arguments, ∀ tree ∈ argument.2, tree.Proper)
    (h : List.Forall₂ Relists arguments arguments') : gather arguments' = gather arguments := by
  induction h with
  | nil => rfl
  | cons first _ ih =>
    obtain ⟨here, others⟩ := List.forall_mem_cons.mp proper
    rw [gather, gather, ofArgument_relists first here, ih others]

/-- Gathering finds every source below the folders it is given, each once and in the order of the paths,
whatever order the entries of a folder are listed in, and fails exactly if it cannot look everywhere. -/
theorem gather_exact (arguments : List (RawText × Option (FileTree α)))
    (proper : ∀ argument ∈ arguments, ∀ tree ∈ argument.2, tree.Proper) :
    (∀ files, gather arguments = .ok files ↔
      ∃ lists, List.Forall₂ StandsFor arguments lists ∧ files = lists.flatten) ∧
    ((∃ failure, gather arguments = .error failure) ↔ ∃ argument ∈ arguments, Barren argument) ∧
    ∀ arguments', List.Forall₂ Relists arguments arguments' → gather arguments' = gather arguments :=
  ⟨fun _ => gather_eq_ok_iff proper, gather_error_iff proper, fun _ => gather_relists proper⟩

/-- A folder whose sources come in another order as whole paths: `a-b.vm` and `a.vm` would stand before
`a/x.vm`. One of its names is no text. -/
def orchard : FileTree Unit :=
  .folder [([0xFF], .folder [(Text.encode "z.vm", .file ())]), (Text.encode "a.vm", .file ()),
    (Text.encode "a-b.vm", .file ()),
    (Text.encode "a", .folder [(Text.encode "x.vm", .file ()), (Text.encode "notes.txt", .file ())])]

/-- The names in the orchard are those of entries. -/
lemma proper_orchard : orchard.Proper := by
  have named : ∀ name ∈ [0xFF] :: ["z.vm", "a.vm", "a-b.vm", "a", "x.vm", "notes.txt"].map Text.encode,
      Path.EntryName name := by
    intro name h
    have plain : name ≠ [] ∧ (name ≠ Path.current ∧ name ≠ Path.parent) ∧ Path.slash ∉ name := by
      revert name
      decide
    exact ⟨plain.1, plain.2.1, plain.2.2⟩
  have first : (FileTree.folder [(Text.encode "x.vm", .file ()), (Text.encode "notes.txt", .file ())] :
      FileTree Unit).Proper := by
    apply FileTree.Proper.folder (by decide)
    · simp [named]
    · simp [FileTree.Proper.file]
  have last : (FileTree.folder [(Text.encode "z.vm", .file ())] : FileTree Unit).Proper := by
    apply FileTree.Proper.folder (by decide)
    · simp [named]
    · simp [FileTree.Proper.file]
  apply FileTree.Proper.folder (by decide)
  · simp [named]
  · simp [FileTree.Proper.file, first, last]

/-- What is gathered from the orchard. -/
lemma ofArgument_orchard :
    ofArgument (Text.encode "src") (some orchard) =
      .ok [Text.encode "src/a/x.vm", Text.encode "src/a-b.vm", Text.encode "src/a.vm",
        Text.encode "src/" ++ 0xFF :: Text.encode "/z.vm"] := by
  have first : below (Path.join (Text.encode "src") (Text.encode "a")) (Text.encode "a")
      (.folder [(Text.encode "x.vm", .file ()), (Text.encode "notes.txt", .file ())]) =
      .ok [Text.encode "src/a/x.vm"] := by
    rw [below, inOrder_belowAll, byName_eq (by decide) (.swap _ _ _) (by decide)]
    decide +kernel
  have last : below (Path.join (Text.encode "src") [0xFF]) [0xFF]
      (.folder [(Text.encode "z.vm", .file ())]) =
      .ok [Text.encode "src/" ++ 0xFF :: Text.encode "/z.vm"] := by
    rw [below, inOrder_belowAll, byName_eq (by decide) (.refl _) (by decide)]
    decide +kernel
  rw [orchard, ofArgument_folder, below, inOrder_belowAll,
    byName_eq (by decide) (List.reverse_perm _).symm (by decide)]
  simp only [List.reverse_cons, List.reverse_nil, List.nil_append, List.cons_append, List.mapM_cons,
    List.mapM_nil, first, last]
  decide +kernel

/-- The sources of a folder behind a file that is given as well. -/
theorem gather_orchard :
    let arguments := [(Text.encode "Main.vm", some (.file ())), (Text.encode "src", some orchard)]
    let files := [Text.encode "Main.vm", Text.encode "src/a/x.vm", Text.encode "src/a-b.vm",
      Text.encode "src/a.vm", Text.encode "src/" ++ 0xFF :: Text.encode "/z.vm"]
    (∀ argument ∈ arguments, ∀ tree ∈ argument.2, tree.Proper) ∧ gather arguments = .ok files ∧
      ∃ lists, List.Forall₂ StandsFor arguments lists ∧ files = lists.flatten := by
  intro arguments files
  have proper : ∀ argument ∈ arguments, ∀ tree ∈ argument.2, tree.Proper := by
    simp [arguments, FileTree.Proper.file, proper_orchard]
  have gathered : gather arguments = .ok files := by
    rw [gather, gather, ofArgument_orchard]
    rfl
  exact ⟨proper, gathered, ((gather_exact arguments proper).1 files).mp gathered⟩

end Sources

end HackVM
