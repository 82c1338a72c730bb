import Mathlib
import HackVM.CommandLine.Disk
import HackVM.Proofs.Lowering

/-!
# Files on a disk

Writing a file changes one node of the tree and leaves every other node alone, and what was written is read
again under the same path. `FileTree.node?` shows a single place of a tree without what is below it, so the
frame of a write can be stated for files and folders together.
-/

namespace HackVM

namespace FileTree

variable {α : Type}

/-- What stands at a single place of a tree. -/
inductive Node (α : Type) where
  | file (content : α)
  | folder
  | closed (error : FileError)
deriving DecidableEq

/-- The topmost place of a tree. -/
def node : FileTree α → Node α
  | .file content => .file content
  | .folder _ => .folder
  | .closed error => .closed error

/-- What stands where a list of names leads. -/
def node? (tree : FileTree α) (names : List RawText) : Option (Node α) :=
  (tree.get? names).map node

variable {tree new : FileTree α} {entries : List (RawText × FileTree α)} {name key : RawText}
  {names here other : List RawText} {content : α}

/-- Setting an entry of a folder changes what is found under its name alone. -/
lemma lookup_setEntry (name key : RawText) (tree : FileTree α) (entries : List (RawText × FileTree α)) :
    (setEntry name tree entries).lookup key =
      if key = name then some tree else entries.lookup key := by
  induction entries with
  | nil => exact lookup_cons_ite key name tree []
  | cons entry rest ih =>
    obtain ⟨first, old⟩ := entry
    rw [setEntry]
    by_cases same : first = name
    · rw [if_pos same, lookup_cons_ite, lookup_cons_ite, same]
      split_ifs <;> rfl
    · rw [if_neg same, lookup_cons_ite, lookup_cons_ite, ih]
      by_cases h : key = first
      · rw [if_pos h, if_pos h, if_neg (h ▸ same)]
      · rw [if_neg h, if_neg h]

/-- Names lead into a folder through the entry of the first of them. -/
lemma get?_folder (entries : List (RawText × FileTree α)) (name : RawText) (rest : List RawText) :
    (folder entries).get? (name :: rest) = (entries.lookup name).bind fun tree => tree.get? rest := by
  rw [get?]
  cases entries.lookup name <;> rfl

/-- Names lead on from where the first of them lead. -/
lemma get?_append (tree : FileTree α) (names more : List RawText) :
    tree.get? (names ++ more) = (tree.get? names).bind fun found => found.get? more := by
  induction names generalizing tree with
  | nil => cases tree <;> rfl
  | cons name rest ih =>
    cases tree with
    | folder entries =>
      rw [List.cons_append, get?_folder, get?_folder]
      cases entries.lookup name with
      | none => rfl
      | some below => exact ih below
    | _ => rfl

/-- What was put somewhere is found there. -/
lemma get?_put_self (tree new : FileTree α) (names : List RawText) :
    (tree.put names new).get? names = some new := by
  induction names generalizing tree with
  | nil => cases tree <;> cases new <;> rfl
  | cons name rest ih =>
    cases tree with
    | folder entries =>
      rw [put, get?_folder, lookup_setEntry, if_pos rfl]
      exact ih _
    | file content =>
      rw [put, get?_folder, lookup_cons_ite, if_pos rfl]
      · exact ih _
      · simp
    | closed error =>
      rw [put, get?_folder, lookup_cons_ite, if_pos rfl]
      · exact ih _
      · simp

/-- No names lead to the tree itself. -/
lemma get?_nil (tree : FileTree α) : tree.get? [] = some tree := by
  cases tree <;> rfl

/-- A file that is put into a folder, in place of a file at most, is the only change. -/
lemma node?_put_file (parent : tree.get? here = some (.folder entries))
    (leaf : ∀ old ∈ entries.lookup name, ∃ content, old = .file content)
    (different : other ≠ here ++ [name]) :
    (tree.put (here ++ [name]) (.file content)).node? other = tree.node? other := by
  -- The induction follows the names down to the folder; beside them nothing changes.
  induction here generalizing tree other with
  | nil =>
    rw [get?_nil] at parent
    cases parent
    cases other with
    | nil => rfl
    | cons key rest =>
      rw [List.nil_append, put, put, node?, node?, get?_folder, get?_folder, lookup_setEntry]
      by_cases h : key = name
      · rw [if_pos h, h]
        cases rest with
        | nil => exact absurd (by rw [h]; rfl) different
        | cons next rest =>
          cases found : entries.lookup name with
          | none => rfl
          | some old =>
            obtain ⟨content, rfl⟩ := leaf old found
            rfl
      · rw [if_neg h]
  | cons first here ih =>
    cases tree with
    | folder siblings =>
      rw [get?_folder] at parent
      obtain ⟨below, found, parent⟩ := Option.bind_eq_some_iff.mp parent
      rw [List.cons_append, put, found]
      cases other with
      | nil => rfl
      | cons key rest =>
        rw [node?, node?, get?_folder, get?_folder, lookup_setEntry]
        by_cases h : key = first
        · rw [if_pos h, h, found]
          exact ih parent fun e => different (by rw [h, e]; rfl)
        · rw [if_neg h]
    | file content => cases parent
    | closed error => cases parent

/-- An entry of a folder stands below it. -/
lemma isSome_lookup_iff (parent : tree.get? here = some (.folder entries)) :
    (entries.lookup name).isSome = true ↔ (tree.node? (here ++ [name])).isSome = true := by
  rw [node?, Option.isSome_map, get?_append, parent, Option.bind_some, get?_folder]
  cases entries.lookup name with
  | none => rfl
  | some below => simp [get?_nil]

/-- A folder stands at a place exactly if one is found there. -/
lemma node?_eq_folder_iff :
    tree.node? here = some .folder ↔ ∃ entries, tree.get? here = some (.folder entries) := by
  rw [node?, Option.map_eq_some_iff]
  constructor
  · rintro ⟨found, h, e⟩
    cases found with
    | folder entries => exact ⟨entries, h⟩
    | _ => cases e
  · rintro ⟨entries, h⟩
    exact ⟨_, h, rfl⟩

/-- No folder stands where a file may be put. -/
lemma node?_ne_folder (parent : tree.get? here = some (.folder entries))
    (leaf : ∀ old ∈ entries.lookup name, ∃ content, old = .file content) :
    tree.node? (here ++ [name]) ≠ some .folder := by
  intro folder
  obtain ⟨below, found⟩ := node?_eq_folder_iff.mp folder
  rw [get?_append, parent, Option.bind_some, get?_folder] at found
  obtain ⟨old, entry, found⟩ := Option.bind_eq_some_iff.mp found
  obtain ⟨content, rfl⟩ := leaf old entry
  cases found

end FileTree

namespace Disk

/-- A path leads from one place of a disk to another, through folders all the way. -/
inductive Leads {α : Type} (disk : Disk α) : (here pieces there : List RawText) → Prop where
  | done {here} : Leads disk here [] here
  | stay {here piece pieces there} (folder : disk.tree.node? here = some .folder)
    (dot : piece = [] ∨ piece = Path.current) (rest : Leads disk here pieces there) :
    Leads disk here (piece :: pieces) there
  | up {here pieces there} (folder : disk.tree.node? here = some .folder)
    (rest : Leads disk here.dropLast pieces there) : Leads disk here (Path.parent :: pieces) there
  | down {here piece pieces there} (folder : disk.tree.node? here = some .folder)
    (named : ¬ (piece = [] ∨ piece = Path.current) ∧ piece ≠ Path.parent ∧ Path.isNameTooLong piece = false)
    (entry : (disk.tree.node? (here ++ [piece])).isSome = true)
    (rest : Leads disk (here ++ [piece]) pieces there) : Leads disk here (piece :: pieces) there

variable {α : Type} {disk disk' : Disk α} {here there pieces more : List RawText} {path : RawText}
  {content : α}

/-- A path that is resolved leads to where it is resolved to. -/
lemma Leads.of_resolve (h : disk.resolve here pieces = .ok there) : disk.Leads here pieces there := by
  induction pieces generalizing here with
  | nil =>
    cases h
    exact .done
  | cons piece rest ih =>
    rw [resolve] at h
    cases found : disk.tree.get? here with
    | none =>
      rw [found] at h
      cases h
    | some tree =>
      rw [found] at h
      cases tree with
      | folder entries =>
        have folder := FileTree.node?_eq_folder_iff.mpr ⟨entries, found⟩
        simp only at h
        split_ifs at h with dot above long inside
        · exact .stay folder dot (ih h)
        · exact above ▸ .up folder (ih h)
        · refine .down folder ⟨dot, above, Bool.eq_false_iff.mpr long⟩ ?_ (ih h)
          exact (FileTree.isSome_lookup_iff found).mp inside
      | _ => cases h

/-- A path that leads somewhere is resolved to there. -/
lemma Leads.resolve (h : disk.Leads here pieces there) : disk.resolve here pieces = .ok there := by
  induction h with
  | done => rfl
  | stay folder dot rest ih =>
    obtain ⟨entries, found⟩ := FileTree.node?_eq_folder_iff.mp folder
    rw [Disk.resolve, found]
    simp only [if_pos dot, ih]
  | up folder rest ih =>
    obtain ⟨entries, found⟩ := FileTree.node?_eq_folder_iff.mp folder
    have above : ¬ (Path.parent = [] ∨ Path.parent = Path.current) := by decide
    rw [Disk.resolve, found]
    simp only [if_neg above, if_true, ih]
  | down folder named entry rest ih =>
    obtain ⟨entries, found⟩ := FileTree.node?_eq_folder_iff.mp folder
    rw [Disk.resolve, found]
    rw [← FileTree.isSome_lookup_iff found] at entry
    simp only [if_neg named.1, if_neg named.2.1, named.2.2, entry, ih]
    rfl

/-- Paths lead on from where others end. -/
lemma Leads.append {place : List RawText} (first : disk.Leads here pieces there)
    (second : disk.Leads there more place) : disk.Leads here (pieces ++ more) place := by
  induction first with
  | done => exact second
  | stay folder dot rest ih => exact .stay folder dot (ih second)
  | up folder rest ih => exact .up folder (ih second)
  | down folder named entry rest ih => exact .down folder named entry (ih second)

/-- A path leads to the same place on a disk with the same folders and at least the same entries. -/
lemma Leads.mono (h : disk.Leads here pieces there)
    (folders : ∀ names, disk.tree.node? names = some .folder → disk'.tree.node? names = some .folder)
    (entries : ∀ names, (disk.tree.node? names).isSome = true →
      (disk'.tree.node? names).isSome = true) :
    disk'.Leads here pieces there := by
  induction h with
  | done => exact .done
  | stay folder dot rest ih => exact .stay (folders _ folder) dot ih
  | up folder rest ih => exact .up (folders _ folder) ih
  | down folder named entry rest ih => exact .down (folders _ folder) named (entries _ entry) ih

/-- Where a file is written: the path leads to a folder and ends in a name, which names no folder. -/
structure Targets (disk : Disk α) (path : RawText) (here : List RawText) (name : RawText) : Prop where
  short : Path.isTooLong path = false
  leads : ∃ above, Path.pieces path = above ++ [name] ∧ disk.Leads (disk.origin path) above here
  named : ¬ (name = [] ∨ name = Path.current) ∧ name ≠ Path.parent ∧ Path.isNameTooLong name = false
  parent : ∃ entries, disk.tree.get? here = some (.folder entries) ∧
    ∀ old ∈ entries.lookup name, ∃ content, old = .file content

/-- A path that does not end in a slash is cut in front of its last name. -/
lemma pieces_of_cut {name : RawText} {above : List RawText}
    (cut : (Path.pieces path).reverse.dropWhile (· == []) = name :: above)
    (ended : (Path.pieces path).reverse.head? ≠ some []) :
    Path.pieces path = above.reverse ++ [name] ∧ name ≠ [] := by
  cases e : (Path.pieces path).reverse with
  | nil =>
    rw [e] at cut
    cases cut
  | cons first rest =>
    rw [e] at cut ended
    have first_ne : first ≠ [] := fun h => ended (by rw [h]; rfl)
    rw [List.dropWhile_cons_of_neg (by simpa using first_ne)] at cut
    cases cut
    exact ⟨List.reverse_eq_cons_iff.mp e, first_ne⟩

/-- A target is an entry of a folder that the path leads to. -/
lemma Targets.of_target {names : List RawText} (h : disk.target path = .ok names) :
    ∃ here name, disk.Targets path here name ∧ names = here ++ [name] := by
  rw [target] at h
  split_ifs at h with long
  · cases h
  · dsimp only at h
    split at h
    · cases h
    · next name above cut =>
      obtain ⟨here, resolved, h⟩ := bind_eq_ok_iff.mp h
      cases found : disk.tree.get? here with
      | none =>
        rw [found] at h
        cases h
      | some tree =>
        rw [found] at h
        cases tree with
        | folder entries =>
          simp only at h
          split_ifs at h with special _ long'
          · cases h
          · cases h
          · cases h
          · obtain ⟨ended, dot, dots⟩ := not_or.mp special |>.imp_right not_or.mp
            obtain ⟨pieces, named⟩ := pieces_of_cut cut ended
            have leaf : names = here ++ [name] ∧
                ∀ old ∈ entries.lookup name, ∃ content, old = .file content := by
              cases entry : entries.lookup name with
              | none =>
                rw [entry] at h
                cases h
                exact ⟨rfl, by simp⟩
              | some old =>
                rw [entry] at h
                cases old with
                | file content =>
                  cases h
                  exact ⟨rfl, by simp⟩
                | folder _ => cases h
                | closed _ => cases h
            have targets : disk.Targets path here name :=
              { short := Bool.eq_false_iff.mpr long
                leads := ⟨above.reverse, pieces, .of_resolve resolved⟩
                named := ⟨not_or.mpr ⟨named, dot⟩, dots, Bool.eq_false_iff.mpr long'⟩
                parent := ⟨entries, found, leaf.2⟩ }
            exact ⟨here, name, targets, leaf.1⟩
        | _ => cases h

/-- A file that stands at the end of a path is read under that path. -/
lemma read_of_leads {names : List RawText} (short : Path.isTooLong path = false)
    (leads : disk.Leads (disk.origin path) (Path.pieces path) names)
    (file : disk.tree.get? names = some (.file content)) : disk.read path = .ok content := by
  have found : disk.find path = .ok (.file content) := by
    rw [find, short, leads.resolve]
    simp only [Bool.false_eq_true, if_false, ok_bind, file]
    rfl
  rw [read, found]
  rfl

/-- A disk after a file was written: it is read again under its path, and nothing else changed. -/
structure Wrote (disk : Disk α) (path : RawText) (content : α) (disk' : Disk α) : Prop where
  home : disk'.home = disk.home
  read : disk'.read path = .ok content
  others : ∃ names, disk.target path = .ok names ∧ disk'.tree.node? names = some (.file content) ∧
    ∀ other, other ≠ names → disk'.tree.node? other = disk.tree.node? other

/-- A write that succeeds writes the file and nothing else. -/
lemma Wrote.of_write (h : disk.write path content = .ok disk') : disk.Wrote path content disk' := by
  obtain ⟨names, target, h⟩ := bind_eq_ok_iff.mp h
  cases h
  obtain ⟨here, name, targets, rfl⟩ := Targets.of_target target
  obtain ⟨entries, parent, leaf⟩ := targets.parent
  have written := FileTree.get?_put_self disk.tree (.file content) (here ++ [name])
  have same : ∀ other, other ≠ here ++ [name] →
      (disk.tree.put (here ++ [name]) (.file content)).node? other = disk.tree.node? other :=
    fun other different => FileTree.node?_put_file parent leaf different
  have node : (disk.tree.put (here ++ [name]) (.file content)).node? (here ++ [name]) =
      some (.file content) := by
    rw [FileTree.node?, written]
    rfl
  have folders : ∀ names, disk.tree.node? names = some .folder →
      (disk.tree.put (here ++ [name]) (.file content)).node? names = some .folder := by
    intro names folder
    rw [same names ?_, folder]
    rintro rfl
    exact FileTree.node?_ne_folder parent leaf folder
  have there : ∀ names, (disk.tree.node? names).isSome = true →
      ((disk.tree.put (here ++ [name]) (.file content)).node? names).isSome = true := by
    intro names stands
    by_cases h : names = here ++ [name]
    · rw [h, node]
      rfl
    · rw [same names h, stands]
  refine ⟨rfl, ?_, here ++ [name], target, node, same⟩
  obtain ⟨above, pieces, leads⟩ := targets.leads
  have folder := folders here (FileTree.node?_eq_folder_iff.mpr ⟨entries, parent⟩)
  have entry := Option.isSome_of_eq_some node
  refine read_of_leads targets.short ?_ written
  rw [pieces]
  exact (leads.mono folders there).append (.down folder targets.named entry .done)

end Disk

end HackVM
