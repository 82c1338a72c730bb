import Mathlib
import HackVM.CommandLine.Path
import HackVM.Proofs.Reading

/-!
# Names in paths

What a path says without a look at any disk: the names along it (`Path.components`), which decide the order of
paths, and of the last of them the stem, which names a unit (`Path.NamesUnit`), and the extension. They are
stated by what stands in front of and behind the slashes and dots, and compared with how paths are cut.
-/

namespace HackVM.Path

/-- The names in a path: what stands between its slashes, without empty names and dots for the same
folder. -/
def components (path : RawText) : List RawText :=
  (path.splitOn slash).filter fun name => name ≠ [] ∧ name ≠ current

/-- One path comes before another: they are compared name by name, and names byte by byte. -/
def Before (one two : RawText) : Prop :=
  components one < components two

/-- A name that an entry of a folder may have. -/
structure EntryName (name : RawText) : Prop where
  nonempty : name ≠ []
  undotted : name ≠ current ∧ name ≠ parent
  unbroken : slash ∉ name

/-- The stem of a name: what stands in front of its last dot, or the whole name if it has no dot behind its
first byte. -/
inductive Stem : RawText → RawText → Prop where
  | whole {name : RawText} (undotted : dot ∉ name.tail) : Stem name name
  | cut {stem extension : RawText} (nonempty : stem ≠ []) (undotted : dot ∉ extension) :
    Stem (stem ++ dot :: extension) stem

/-- A path ends in a name, and the stem of the name is the text that names a unit. -/
def NamesUnit (path : RawText) (unit : String) : Prop :=
  ∃ name, (components path).getLast? = some name ∧ name ≠ parent ∧ Stem name (Text.encode unit)

variable {path folder name stem : RawText} {names : List RawText}

/-- The pieces of a path stand between its slashes. -/
lemma pieces_eq_splitOn (path : RawText) : pieces path = path.splitOn slash :=
  Text.pieces_eq_splitOn _ _

/-- The names of a path that is cut at a slash. -/
lemma components_append_slash (front rest : RawText) :
    components (front ++ slash :: rest) = components front ++ components rest := by
  rw [components, List.splitOn_append_cons_self, List.filter_append]
  rfl

/-- The name of an entry is a path of one name. -/
lemma EntryName.components_eq (h : EntryName name) : components name = [name] := by
  rw [components, List.splitOn_eq_singleton h.unbroken]
  simp [h.nonempty, h.undotted.1]

/-- The path of an entry has one name more than that of its folder. -/
lemma EntryName.components_join (h : EntryName name) (folder : RawText) :
    components (join folder name) = components folder ++ [name] := by
  rw [join]
  split_ifs with ended
  · obtain ⟨front, rfl⟩ := List.getLast?_eq_some_iff.mp ended
    have none : components [] = [] := rfl
    rw [List.append_assoc, List.singleton_append, components_append_slash, components_append_slash, none,
      h.components_eq, List.append_nil]
  · rw [components_append_slash, h.components_eq]

/-- The path of a file at some depth below a folder. -/
lemma components_foldl_join (h : ∀ name ∈ names, EntryName name) (path : RawText) :
    components (names.foldl join path) = components path ++ names := by
  induction names generalizing path with
  | nil => simp
  | cons name rest ih =>
    have named := h name List.mem_cons_self
    rw [List.foldl_cons, ih fun other ho => h other (.tail _ ho), named.components_join,
      List.append_assoc, List.singleton_append]

/-- Files below different entries of a folder are told apart by the names of the entries. -/
lemma before_of_lt {one two : RawText} {names names' : List RawText} (less : one < two)
    {path path' : RawText} (h : components path = components folder ++ one :: names)
    (h' : components path' = components folder ++ two :: names') : Before path path' := by
  rw [Before, h, h']
  exact List.Lex.append_left _ (.rel less) _

/-- No path comes before itself, nor before one that it is behind of. -/
lemma Before.asymm {one two : RawText} (h : Before one two) : ¬ Before two one :=
  List.lt_asymm h

/-- A name with a dot has a last one. -/
lemma exists_last_dot (h : dot ∈ name) : ∃ front last, name = front ++ dot :: last ∧ dot ∉ last := by
  obtain ⟨last, front, e, undotted⟩ := List.eq_append_cons_of_mem (List.mem_reverse.mpr h)
  refine ⟨front.reverse, last.reverse, ?_, by simpa using undotted⟩
  rw [← List.reverse_reverse name, e]
  simp

/-- A name is cut at its last dot, unless the name starts with it. -/
lemma cut_append_dot (front : RawText) {last : RawText} (undotted : dot ∉ last) :
    cut (front ++ dot :: last) = if front = [] then (dot :: last, none) else (front, some last) := by
  have pieces : (Text.pieces (· == dot) (front ++ dot :: last)).reverse =
      last :: (front.splitOn dot).reverse := by
    rw [Text.pieces_eq_splitOn, List.splitOn_append_cons_self, List.splitOn_eq_singleton undotted,
      List.reverse_append]
    rfl
  cases e : (front.splitOn dot).reverse with
  | nil => exact absurd (List.reverse_eq_nil_iff.mp e) (List.splitOnP_ne_nil _ _)
  | cons first more =>
    have stem : List.intercalate [dot] (first :: more).reverse = front := by
      rw [← e, List.reverse_reverse, List.intercalate_splitOn]
    rw [cut, pieces, e]
    dsimp only
    rw [stem]
    cases front <;> rfl

/-- A name without a dot is not cut. -/
lemma cut_of_undotted (undotted : dot ∉ name) : cut name = (name, none) := by
  rw [cut, Text.pieces_eq_splitOn, List.splitOn_eq_singleton undotted]
  rfl

/-- The first part of a name that is cut is its stem. -/
lemma stem_iff : Stem name stem ↔ (cut name).1 = stem := by
  constructor
  · intro h
    cases h with
    | whole undotted =>
      cases name with
      | nil => rfl
      | cons byte rest =>
        rw [List.tail_cons] at undotted
        by_cases first : byte = dot
        · rw [first, ← List.nil_append (dot :: rest), cut_append_dot [] undotted]
          rfl
        · rw [cut_of_undotted (List.not_mem_cons_of_ne_of_not_mem (Ne.symm first) undotted)]
    | cut nonempty undotted => rw [cut_append_dot _ undotted, if_neg nonempty]
  · rintro rfl
    by_cases dotted : dot ∈ name
    · obtain ⟨front, last, rfl, undotted⟩ := exists_last_dot dotted
      rw [cut_append_dot _ undotted]
      split_ifs with empty
      · rw [empty]
        exact .whole undotted
      · exact .cut empty undotted
    · rw [cut_of_undotted dotted]
      exact .whole fun h => dotted (List.mem_of_mem_tail h)

/-- The file name of a path is the last name in it, unless that leads to the folder above. -/
lemma fileName?_eq_some_iff :
    fileName? path = some name ↔ (components path).getLast? = some name ∧ name ≠ parent := by
  have last : (components path).getLast? =
      ((pieces path).reverse.dropWhile fun name => name == [] || name == current).head? := by
    rw [pieces_eq_splitOn, components, ← List.head?_reverse, ← List.filter_reverse, List.head?_filter,
      List.find?_eq_head?_dropWhile_not]
    congr 2
    funext name
    rw [Bool.eq_iff_iff]
    simp [or_iff_not_imp_left]
  rw [last, fileName?]
  cases (pieces path).reverse.dropWhile fun name => name == [] || name == current with
  | nil => simp
  | cons first rest =>
    by_cases above : first = parent
    · simp only [if_pos above, List.head?_cons, Option.some.injEq]
      exact iff_of_false (by simp) fun ⟨same, below⟩ => below (same ▸ above)
    · simp only [if_neg above, List.head?_cons, Option.some.injEq]
      exact ⟨fun same => ⟨same, same ▸ above⟩, And.left⟩

/-- A path gives a unit its name exactly if the stem of its last name is text. -/
lemma unitName?_eq_some_iff {unit : String} : unitName? path = some unit ↔ NamesUnit path unit := by
  rw [unitName?, Option.bind_eq_some_iff]
  simp only [fileName?_eq_some_iff, Text.decode?_eq_some_iff, ← stem_iff, NamesUnit, and_assoc]

/-- The extension of a name is `vm` exactly if something stands in front of a last `.vm`. -/
lemma extension?_eq_vm_iff :
    extension? name = some (Text.encode "vm") ↔ ∃ stem ≠ [], name = stem ++ Text.encode ".vm" := by
  have ending : Text.encode ".vm" = dot :: Text.encode "vm" := rfl
  rw [ending]
  constructor
  · intro h
    by_cases dotted : dot ∈ name
    · obtain ⟨front, last, rfl, undotted⟩ := exists_last_dot dotted
      rw [extension?, cut_append_dot _ undotted] at h
      split_ifs at h with empty
      exact ⟨front, empty, by rw [Option.some.inj h]⟩
    · rw [extension?, cut_of_undotted dotted] at h
      cases h
  · rintro ⟨stem, nonempty, rfl⟩
    rw [extension?, cut_append_dot _ (by decide), if_neg nonempty]

end HackVM.Path
