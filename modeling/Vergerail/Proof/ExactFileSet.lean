import Vergerail.Lib.SortedMap
import Vergerail.Lib.Worklist
import Vergerail.Runtime.Layout

/-!
# The locked file set

The check walks the package directory by directory and compares what it has seen with what
the lock lists. Two things make it exact. The walk is a traversal of a tree, so a check that
passes has seen every entry, at any depth and in any listing order. And the directories the
lock expects are the parents of its files, so a directory outside them is refused when it is
met, and one that is missing at the end.
-/

namespace Vergerail

open Lib

/-! ## What is locked -/

namespace FsNode

/-- There is a regular file at the path. -/
def IsFile (root : FsNode) (path : List String) : Prop := ∃ mode, root.find path = some (.file mode)

/-- There is a directory at the path. -/
def IsDirectory (root : FsNode) (path : List String) : Prop :=
  ∃ mode entries, root.find path = some (.directory mode entries)

end FsNode

/-- A directory on the way to a path, below the root. -/
def ProperAncestor (directory path : List String) : Prop :=
  directory ≠ [] ∧ directory <+: path ∧ directory ≠ path

/-- **The package holds what the lock says and nothing else.** -/
structure ExactlyLocked (layout : PackageLayout) : Prop where
  files : ∀ path, layout.tree.root.IsFile path ↔ path ∈ layout.expectedFiles
  directories : ∀ path, path ≠ [] → (layout.tree.root.IsDirectory path ↔
    path ∈ [["bin"], ["codex-path"], ["codex-resources"]] ∨
      ∃ artifact ∈ layout.expectedFiles, ProperAncestor path artifact)
  noSymlink : ∀ path mode, layout.tree.root.find path ≠ some (.symlink mode)
  noOther : ∀ path mode, layout.tree.root.find path ≠ some (.other mode)
  secure : ∀ path mode entries, path ≠ [] →
    layout.tree.root.find path = some (.directory mode entries) → mode &&& 0o022 = 0

/-! ## Expected directories -/

theorem prefix_iff_dropLast {directory path : List String} (h : path ≠ []) :
    directory <+: path ↔ directory = path ∨ directory <+: path.dropLast := by
  have hpath := List.dropLast_append_getLast h
  constructor
  · intro hpre
    rw [← hpath, List.prefix_concat_iff, hpath] at hpre
    exact hpre
  · rintro (rfl | hpre)
    · exact List.prefix_rfl
    · exact hpre.trans (List.dropLast_prefix path)

theorem mem_insertParents {directories : List (List String)} {current directory : List String} :
    directory ∈ PackageLayout.insertParents directories current ↔
      directory ∈ directories ∨ (directory ≠ [] ∧ directory <+: current) := by
  fun_induction PackageLayout.insertParents directories current with
  | case1 directories =>
      simp only [List.prefix_nil, ne_eq, not_and_self, or_false]
  | case2 directories current hne ih =>
      rw [ih, List.mem_cons, prefix_iff_dropLast hne]
      constructor
      · rintro ((rfl | hmem) | ⟨hne', hpre⟩)
        · exact .inr ⟨hne, .inl rfl⟩
        · exact .inl hmem
        · exact .inr ⟨hne', .inr hpre⟩
      · rintro (hmem | ⟨hne', rfl | hpre⟩)
        · exact .inl (.inr hmem)
        · exact .inl (.inl rfl)
        · exact .inr ⟨hne', hpre⟩

theorem properAncestor_iff {directory path : List String} (h : path ≠ []) :
    ProperAncestor directory path ↔ directory ≠ [] ∧ directory <+: path.dropLast := by
  rw [ProperAncestor, prefix_iff_dropLast h]
  constructor
  · rintro ⟨hne, rfl | hpre, hproper⟩
    · exact absurd rfl hproper
    · exact ⟨hne, hpre⟩
  · rintro ⟨hne, hpre⟩
    refine ⟨hne, .inr hpre, ?_⟩
    rintro rfl
    have hlength := hpre.length_le
    have hpos := List.length_pos_iff.mpr h
    rw [List.length_dropLast] at hlength
    omega

/-- The expected directories are the three fixed ones and the parents of the files. -/
theorem mem_expectedDirectories {layout : PackageLayout} {directory : List String} :
    directory ∈ layout.expectedDirectories ↔
      directory ∈ [["bin"], ["codex-path"], ["codex-resources"]] ∨
        ∃ artifact ∈ layout.expectedFiles, ProperAncestor directory artifact := by
  have hloop : ∀ (paths : List RelativePath) (directories : List (List String)),
      directory ∈ paths.foldl (fun directories path =>
          PackageLayout.insertParents directories path.components.dropLast) directories ↔
        directory ∈ directories ∨ ∃ path ∈ paths, ProperAncestor directory path.components := by
    intro paths
    induction paths with
    | nil => simp
    | cons path paths ih =>
        intro directories
        rw [List.foldl_cons, ih, mem_insertParents, ← properAncestor_iff path.nonempty,
          List.exists_mem_cons_iff, or_assoc]
  rw [PackageLayout.expectedDirectories, hloop, PackageLayout.expectedFiles]
  simp only [List.mem_map, exists_exists_and_eq_and]

/-! ## Paths in a tree -/

namespace FsNode

variable {root node : FsNode} {path directory : List String} {name : String}

theorem find_nil (root : FsNode) : root.find [] = some root := by
  cases root <;> rfl

theorem find_append (root : FsNode) (path path' : List String) :
    root.find (path ++ path') = (root.find path).bind (·.find path') := by
  induction path generalizing root with
  | nil => rw [List.nil_append, find_nil, Option.bind_some]
  | cons name path ih =>
      cases root with
      | directory mode entries =>
          rw [List.cons_append, find, find]
          cases entries.lookup name with
          | none => rfl
          | some node => exact ih node
      | _ => rfl

/-- What is in a directory is what it lists. -/
theorem find_concat : root.find (directory ++ [name]) = some node ↔
    ∃ entries, root.readDir directory = some entries ∧ entries.lookup name = some node := by
  rw [find_append, readDir, Option.bind_eq_some_iff]
  constructor
  · rintro ⟨found, hfound, hnode⟩
    rw [hfound]
    cases found with
    | directory mode entries =>
        rw [find] at hnode
        cases hlookup : entries.lookup name with
        | none => rw [hlookup] at hnode; cases hnode
        | some child =>
            rw [hlookup] at hnode
            dsimp only at hnode
            rw [find_nil] at hnode
            exact ⟨entries, rfl, hlookup.trans hnode⟩
    | _ => cases hnode
  · rintro ⟨entries, hentries, hlookup⟩
    cases hfound : root.find directory with
    | none => rw [hfound] at hentries; cases hentries
    | some found =>
        rw [hfound] at hentries
        cases found with
        | directory mode entries' =>
            cases hentries
            exact ⟨_, rfl, by rw [find, hlookup]; exact find_nil node⟩
        | _ => cases hentries

theorem readDir_iff {entries : List (String × FsNode)} : root.readDir path = some entries ↔
    ∃ mode, root.find path = some (.directory mode entries) := by
  rw [readDir]
  constructor
  · intro h
    split at h
    · rename_i mode _ hfound
      cases h
      exact ⟨mode, hfound⟩
    · cases h
  · rintro ⟨mode, hfound⟩
    rw [hfound]

/-- What is found in a directory is one of its entries. -/
theorem listed_of_find {entries : List (String × FsNode)} (hne : path ≠ [])
    (hfound : root.find path = some node) (hparent : path.dropLast = directory)
    (hentries : root.readDir directory = some entries) :
    ∃ name, (name, node) ∈ entries ∧ path = directory ++ [name] := by
  have hpath := List.dropLast_append_getLast hne
  rw [hparent] at hpath
  rw [← hpath] at hfound
  obtain ⟨entries', hentries', hlookup⟩ := find_concat.mp hfound
  rw [hentries] at hentries'
  cases hentries'
  exact ⟨path.getLast hne, SortedMap.mem_of_lookup hlookup, hpath.symm⟩

theorem isDirectory_iff : root.IsDirectory path ↔ ∃ entries, root.readDir path = some entries := by
  simp only [readDir_iff]
  exact exists_comm

theorem WellNamed.find (h : root.WellNamed) (hfound : root.find path = some node) :
    node.WellNamed := by
  induction path generalizing root with
  | nil =>
      rw [find_nil] at hfound
      cases hfound
      exact h
  | cons name path ih =>
      cases h with
      | @directory mode entries distinct named =>
          rw [FsNode.find] at hfound
          cases hlookup : entries.lookup name with
          | none => rw [hlookup] at hfound; cases hfound
          | some child =>
              rw [hlookup] at hfound
              exact ih (named _ (SortedMap.mem_of_lookup hlookup)) hfound
      | _ => cases hfound

theorem WellNamed.distinct (h : root.WellNamed) {entries : List (String × FsNode)}
    (hentries : root.readDir directory = some entries) : (SortedMap.keys entries).Nodup := by
  obtain ⟨mode, hfound⟩ := readDir_iff.mp hentries
  cases h.find hfound with
  | directory distinct _ => exact distinct

/-- An entry that is listed is found under its name. -/
theorem WellNamed.find_entry (h : root.WellNamed) {entries : List (String × FsNode)}
    {entry : String × FsNode} (hentries : root.readDir directory = some entries)
    (hentry : entry ∈ entries) : root.find (directory ++ [entry.1]) = some entry.2 :=
  find_concat.mpr ⟨entries, hentries, SortedMap.lookup_of_nodup (h.distinct hentries) hentry⟩

/-- A tree has finitely many directories. -/
theorem WellNamed.finite (h : root.WellNamed) :
    ∃ paths : List (List String), ∀ path, root.IsDirectory path → path ∈ paths := by
  induction h with
  | file mode | symlink mode | other mode =>
      refine ⟨[], ?_⟩
      rintro path ⟨mode', entries, hfound⟩
      cases path <;> cases hfound
  | @directory mode entries distinct named ih =>
      have hbelow : ∀ l : List (String × FsNode), (∀ entry ∈ l, entry ∈ entries) →
          ∃ paths : List (List String), ∀ entry ∈ l, ∀ path, entry.2.IsDirectory path →
            entry.1 :: path ∈ paths := by
        intro l
        induction l with
        | nil => exact fun _ => ⟨[], by simp⟩
        | cons entry l ihl =>
            intro hl
            obtain ⟨paths, hpaths⟩ := ihl (fun e he => hl e (List.mem_cons_of_mem _ he))
            obtain ⟨own, hown⟩ := ih entry (hl entry List.mem_cons_self)
            refine ⟨own.map (entry.1 :: ·) ++ paths, ?_⟩
            intro e he path hpath
            rcases List.mem_cons.mp he with rfl | he
            · exact List.mem_append_left _ (List.mem_map_of_mem (hown path hpath))
            · exact List.mem_append_right _ (hpaths e he path hpath)
      obtain ⟨paths, hpaths⟩ := hbelow entries (fun _ he => he)
      refine ⟨[] :: paths, ?_⟩
      rintro (_ | ⟨name, path⟩) ⟨mode', entries', hfound⟩
      · exact List.mem_cons_self
      · rw [FsNode.find] at hfound
        cases hlookup : entries.lookup name with
        | none => rw [hlookup] at hfound; cases hfound
        | some child =>
            rw [hlookup] at hfound
            exact List.mem_cons_of_mem _
              (hpaths _ (SortedMap.mem_of_lookup hlookup) path ⟨mode', entries', hfound⟩)

end FsNode

/-! ## One directory -/

namespace PackageLayout

/-- The directories a directory lists. -/
def subdirectories (root : FsNode) (directory : List String) : List (List String) :=
  match root.readDir directory with
  | some entries =>
      (entries.filter (fun entry => entry.2 matches .directory _ _)).map
        (fun entry => directory ++ [entry.1])
  | none => []

/-- The check lets the entry pass. -/
def EntryFine (layout : PackageLayout) (directory : List String) (entry : String × FsNode) :
    Prop :=
  match entry.2 with
  | .symlink _ => False
  | .other _ => False
  | .directory mode _ =>
      directory ++ [entry.1] ∈ layout.expectedDirectories ∧ mode &&& 0o022 = 0
  | .file _ => directory ++ [entry.1] ∈ layout.expectedFiles

/-- What an entry that passes leaves behind. -/
def Walk.add (directory : List String) (walk : Walk) (entry : String × FsNode) : Walk :=
  let walk := { walk with checkpoints := walk.checkpoints + 1 }
  let relative := directory ++ [entry.1]
  match entry.2 with
  | .directory _ _ => { walk with
      observedDirectories := relative :: walk.observedDirectories
      pending := relative :: walk.pending }
  | .file _ => { walk with observedFiles := relative :: walk.observedFiles }
  | _ => walk

section Pass

variable {layout : PackageLayout} {directory : List String} {walk walk' : Walk}

theorem checkpoint_ok (hcontrol : ∀ n, layout.cancelled n = false) (walk : Walk) :
    checkpoint layout walk = .ok { walk with checkpoints := walk.checkpoints + 1 } := by
  rw [checkpoint, hcontrol]
  rfl

theorem verifySecurePermissions_ok_iff {path : List String} {node : FsNode}
    (h : layout.tree.root.find path = some node) {u : Unit} :
    verifySecurePermissions layout path false = .ok u ↔ node.mode &&& 0o022 = 0 := by
  rw [verifySecurePermissions, bind_ok]
  constructor
  · rintro ⟨found, hfound, hcheck⟩
    obtain ⟨_, hmode, _⟩ := bind_ok.mp hcheck
    rw [orFault_ok, h] at hfound
    cases hfound
    rw [refuse_ok, decide_eq_false_iff_not, not_not] at hmode
    exact hmode
  · intro hmode
    refine ⟨node, orFault_ok.mpr h, bind_ok.mpr ⟨(), ?_, rfl⟩⟩
    rw [refuse_ok, decide_eq_false_iff_not, not_not]
    exact hmode

/-- Behind the checkpoint, an entry is looked at by its kind. -/
theorem visitEntry_ok_iff (hcontrol : ∀ n, layout.cancelled n = false)
    {entry : String × FsNode}
    (hentry : layout.tree.root.find (directory ++ [entry.1]) = some entry.2) :
    visitEntry layout directory walk entry = .ok walk' ↔
      EntryFine layout directory entry ∧ walk' = walk.add directory entry := by
  have hexpected : ∀ (expected : List (List String)) (error : Error) (u : Unit),
      refuse (directory ++ [entry.1] ∉ expected) error = .ok u ↔
        directory ++ [entry.1] ∈ expected := by
    intro expected error u
    rw [refuse_ok, decide_eq_false_iff_not, not_not]
  have hpass : ∀ f : Walk → Result Walk,
      (checkpoint layout walk >>= f) = .ok walk' ↔
        f { walk with checkpoints := walk.checkpoints + 1 } = .ok walk' := by
    intro f
    rw [checkpoint_ok hcontrol]
    rfl
  rw [visitEntry, hpass, EntryFine, Walk.add]
  obtain ⟨name, node⟩ := entry
  cases node with
  | symlink mode | other mode =>
      constructor
      · intro h
        cases h
      · intro h
        exact h.1.elim
  | file mode =>
      dsimp only
      rw [bind_ok]
      constructor
      · rintro ⟨u, hlocked, h⟩
        cases h
        exact ⟨(hexpected _ _ u).mp hlocked, rfl⟩
      · rintro ⟨hlocked, rfl⟩
        exact ⟨(), (hexpected _ _ _).mpr hlocked, rfl⟩
  | directory mode entries =>
      dsimp only
      rw [bind_ok]
      constructor
      · rintro ⟨u, hlocked, h⟩
        obtain ⟨_, hsecure, h⟩ := bind_ok.mp h
        cases h
        exact ⟨⟨(hexpected _ _ u).mp hlocked, (verifySecurePermissions_ok_iff hentry).mp hsecure⟩,
          rfl⟩
      · rintro ⟨⟨hlocked, hsecure⟩, rfl⟩
        exact ⟨(), (hexpected _ _ _).mpr hlocked, bind_ok.mpr
          ⟨(), (verifySecurePermissions_ok_iff hentry).mpr hsecure, rfl⟩⟩

/-- The loop over the entries of a directory passes if every entry does. -/
theorem visitEntries_ok_iff (hcontrol : ∀ n, layout.cancelled n = false)
    {entries : List (String × FsNode)}
    (hentries : ∀ entry ∈ entries,
      layout.tree.root.find (directory ++ [entry.1]) = some entry.2) :
    entries.foldlM (visitEntry layout directory) walk = .ok walk' ↔
      (∀ entry ∈ entries, EntryFine layout directory entry) ∧
      walk' = entries.foldl (Walk.add directory) walk := by
  induction entries generalizing walk with
  | nil =>
      rw [List.foldlM_nil, List.foldl_nil]
      constructor
      · intro h
        cases h
        exact ⟨by simp, rfl⟩
      · rintro ⟨_, rfl⟩
        rfl
  | cons entry entries ih =>
      obtain ⟨hentry, hrest⟩ := List.forall_mem_cons.mp hentries
      rw [List.foldlM_cons, bind_ok, List.foldl_cons, List.forall_mem_cons]
      constructor
      · rintro ⟨next, hnext, h⟩
        obtain ⟨hfine, rfl⟩ := (visitEntry_ok_iff hcontrol hentry).mp hnext
        obtain ⟨hothers, hwalk⟩ := (ih hrest).mp h
        exact ⟨⟨hfine, hothers⟩, hwalk⟩
      · rintro ⟨⟨hfine, hothers⟩, hwalk⟩
        exact ⟨_, (visitEntry_ok_iff hcontrol hentry).mpr ⟨hfine, rfl⟩,
          (ih hrest).mpr ⟨hothers, hwalk⟩⟩

/-! What the loop over the entries has added. -/

theorem foldl_add_visited (entries : List (String × FsNode)) (walk : Walk) :
    (entries.foldl (Walk.add directory) walk).visited = walk.visited := by
  induction entries generalizing walk with
  | nil => rfl
  | cons entry entries ih =>
      rw [List.foldl_cons, ih, Walk.add]
      split <;> rfl

theorem foldl_add_pending (entries : List (String × FsNode)) (walk : Walk) :
    (entries.foldl (Walk.add directory) walk).pending =
      ((entries.filter (fun entry => entry.2 matches .directory _ _)).map
        (fun entry => directory ++ [entry.1])).reverse ++ walk.pending := by
  induction entries generalizing walk with
  | nil => rfl
  | cons entry entries ih =>
      obtain ⟨name, node⟩ := entry
      rw [List.foldl_cons, ih, List.filter_cons]
      cases node with
      | directory mode entries' => simp [Walk.add]
      | _ => rfl

theorem foldl_add_files (entries : List (String × FsNode)) (walk : Walk) {path : List String} :
    path ∈ (entries.foldl (Walk.add directory) walk).observedFiles ↔
      path ∈ walk.observedFiles ∨
        ∃ name mode, (name, FsNode.file mode) ∈ entries ∧ path = directory ++ [name] := by
  induction entries generalizing walk with
  | nil => simp
  | cons entry entries ih =>
      obtain ⟨name, node⟩ := entry
      rw [List.foldl_cons, ih]
      cases node with
      | file mode =>
          simp only [Walk.add, List.mem_cons, Prod.mk.injEq, FsNode.file.injEq]
          constructor
          · rintro ((rfl | hmem) | ⟨name', mode', hmem, rfl⟩)
            · exact .inr ⟨name, mode, .inl ⟨rfl, rfl⟩, rfl⟩
            · exact .inl hmem
            · exact .inr ⟨name', mode', .inr hmem, rfl⟩
          · rintro (hmem | ⟨name', mode', ⟨rfl, rfl⟩ | hmem, rfl⟩)
            · exact .inl (.inr hmem)
            · exact .inl (.inl rfl)
            · exact .inr ⟨name', mode', hmem, rfl⟩
      | _ => simp [Walk.add]

theorem foldl_add_directories (entries : List (String × FsNode)) (walk : Walk)
    {path : List String} :
    path ∈ (entries.foldl (Walk.add directory) walk).observedDirectories ↔
      path ∈ walk.observedDirectories ∨ ∃ name mode below,
        (name, FsNode.directory mode below) ∈ entries ∧ path = directory ++ [name] := by
  induction entries generalizing walk with
  | nil => simp
  | cons entry entries ih =>
      obtain ⟨name, node⟩ := entry
      rw [List.foldl_cons, ih]
      cases node with
      | directory mode below =>
          simp only [Walk.add, List.mem_cons, Prod.mk.injEq, FsNode.directory.injEq]
          constructor
          · rintro ((rfl | hmem) | ⟨name', mode', below', hmem, rfl⟩)
            · exact .inr ⟨name, mode, below, .inl ⟨rfl, rfl, rfl⟩, rfl⟩
            · exact .inl hmem
            · exact .inr ⟨name', mode', below', .inr hmem, rfl⟩
          · rintro (hmem | ⟨name', mode', below', ⟨rfl, rfl, rfl⟩ | hmem, rfl⟩)
            · exact .inl (.inr hmem)
            · exact .inl (.inl rfl)
            · exact .inr ⟨name', mode', below', hmem, rfl⟩
      | _ => simp [Walk.add]

end Pass

/-! ## The tree of directories -/

section Tree

variable {root : FsNode} {directory path : List String}

theorem mem_subdirectories (hnamed : root.WellNamed) :
    path ∈ subdirectories root directory ↔
      ∃ name, path = directory ++ [name] ∧ root.IsDirectory path := by
  rw [subdirectories]
  constructor
  · intro h
    split at h
    · rename_i entries hentries
      obtain ⟨⟨name, node⟩, hentry, rfl⟩ := List.mem_map.mp h
      obtain ⟨hlisted, hkind⟩ := List.mem_filter.mp hentry
      have hfound := hnamed.find_entry hentries hlisted
      cases node with
      | directory mode below => exact ⟨name, rfl, mode, below, hfound⟩
      | _ => simp at hkind
    · cases h
  · rintro ⟨name, rfl, mode, below, hfound⟩
    obtain ⟨entries, hentries, hlookup⟩ := FsNode.find_concat.mp hfound
    rw [hentries]
    exact List.mem_map.mpr ⟨(name, .directory mode below),
      List.mem_filter.mpr ⟨SortedMap.mem_of_lookup hlookup, rfl⟩, rfl⟩

theorem dropLast_of_subdirectory (hnamed : root.WellNamed)
    (h : path ∈ subdirectories root directory) : path.dropLast = directory := by
  obtain ⟨name, rfl, _⟩ := (mem_subdirectories hnamed).mp h
  exact List.dropLast_concat

theorem subdirectories_nodup (hnamed : root.WellNamed) :
    (subdirectories root directory).Nodup := by
  rw [subdirectories]
  split
  · rename_i entries hentries
    have hnames : (entries.map (fun entry => directory ++ [entry.1])).Nodup := by
      have hmap : entries.map (fun entry => directory ++ [entry.1]) =
          (SortedMap.keys entries).map (fun name => directory ++ [name]) := by
        rw [SortedMap.keys, List.map_map]
        rfl
      rw [hmap]
      refine (hnamed.distinct hentries).map ?_
      intro name name' heq
      exact List.singleton_inj.mp (List.append_cancel_left heq)
    exact hnames.sublist (List.filter_sublist.map _)
  · exact List.nodup_nil

/-- The directories of a package are a tree: a path has one parent. -/
theorem isTree_subdirectories (hnamed : root.WellNamed) : IsTree (subdirectories root) [] where
  parent := by
    intro directory directory' path h h'
    rw [← dropLast_of_subdirectory hnamed h, ← dropLast_of_subdirectory hnamed h']
  noParent := by
    intro directory h
    obtain ⟨name, heq, _⟩ := (mem_subdirectories hnamed).mp h
    simp at heq
  distinct := fun _ => subdirectories_nodup hnamed

/-- What holds an entry is a directory. -/
theorem isDirectory_dropLast {node : FsNode} (hne : path ≠ [])
    (h : root.find path = some node) : root.IsDirectory path.dropLast := by
  rw [← List.dropLast_append_getLast hne] at h
  obtain ⟨entries, hentries, _⟩ := FsNode.find_concat.mp h
  exact FsNode.isDirectory_iff.mpr ⟨entries, hentries⟩

/-- Every directory is below the root. -/
theorem reachable_directory (hnamed : root.WellNamed) (h : root.IsDirectory path) :
    Relation.ReflTransGen (fun directory path => path ∈ subdirectories root directory) [] path := by
  induction path using List.reverseRecOn with
  | nil => exact .refl
  | append_singleton directory name ih =>
      obtain ⟨mode, entries, hfound⟩ := h
      have hparent := isDirectory_dropLast (by simp) hfound
      rw [List.dropLast_concat] at hparent
      exact (ih hparent).tail ((mem_subdirectories hnamed).mpr ⟨name, rfl, mode, entries, hfound⟩)

end Tree

/-! ## The walk -/

section Walk

variable {layout : PackageLayout} {walk walk' : Walk} {directory : List String}
  {pending : List (List String)}

/-- A pass of the loop over `pending` that the code survives. -/
def Pass (layout : PackageLayout) (walk walk' : Walk) : Prop :=
  ∃ directory pending, walk.pending = directory :: pending ∧
    visitDirectory layout walk directory pending = .ok walk'

/-- **What holds before every pass.** -/
structure Walked (layout : PackageLayout) (walk : Walk) : Prop where
  traversal : Traversal (subdirectories layout.tree.root) [] walk.visited walk.pending
  directories : ∀ directory ∈ walk.pending ++ walk.visited,
    layout.tree.root.IsDirectory directory
  /-- The files and the directories observed are those in the directories visited. -/
  files : ∀ path, path ∈ walk.observedFiles ↔
    path ≠ [] ∧ layout.tree.root.IsFile path ∧ path.dropLast ∈ walk.visited
  observed : ∀ path, path ∈ walk.observedDirectories ↔
    path ≠ [] ∧ layout.tree.root.IsDirectory path ∧ path.dropLast ∈ walk.visited
  fine : ∀ directory ∈ walk.visited, ∀ entries,
    layout.tree.root.readDir directory = some entries →
      ∀ entry ∈ entries, EntryFine layout directory entry

theorem walked_start (layout : PackageLayout) : Walked layout start where
  traversal := traversal_start
  directories := by
    intro directory h
    rw [List.mem_singleton.mp h]
    exact ⟨_, _, rfl⟩
  files := by simp [start]
  observed := by simp [start]
  fine := by simp [start]

theorem visitDirectory_ok_iff (hcontrol : ∀ n, layout.cancelled n = false)
    {entries : List (String × FsNode)}
    (hentries : layout.tree.root.readDir directory = some entries) :
    visitDirectory layout walk directory pending = .ok walk' ↔
      (∀ entry ∈ entries, EntryFine layout directory entry) ∧
      walk' = entries.foldl (Walk.add directory) { walk with
        pending := pending
        visited := directory :: walk.visited
        checkpoints := walk.checkpoints + 1 } := by
  rw [visitDirectory, checkpoint_ok hcontrol, hentries]
  exact visitEntries_ok_iff hcontrol (fun _ => layout.tree.named.find_entry hentries)

/-- **A pass keeps the invariant.** -/
theorem Walked.pass (hcontrol : ∀ n, layout.cancelled n = false) (h : Walked layout walk)
    (hpending : walk.pending = directory :: pending)
    (hpass : visitDirectory layout walk directory pending = .ok walk') :
    Walked layout walk' ∧ walk'.visited = directory :: walk.visited := by
  have hnamed := layout.tree.named
  have hdirectory : layout.tree.root.IsDirectory directory :=
    h.directories directory (List.mem_append_left _ (hpending ▸ List.mem_cons_self))
  obtain ⟨entries, hentries⟩ := FsNode.isDirectory_iff.mp hdirectory
  obtain ⟨hfine, rfl⟩ := (visitDirectory_ok_iff hcontrol hentries).mp hpass
  have hchildren : (subdirectories layout.tree.root directory).reverse =
      ((entries.filter (fun entry => entry.2 matches .directory _ _)).map
        (fun entry => directory ++ [entry.1])).reverse := by
    rw [subdirectories, hentries]
  refine ⟨?_, foldl_add_visited entries _⟩
  constructor
  · rw [foldl_add_visited, foldl_add_pending, ← hchildren]
    exact (hpending ▸ h.traversal).visit (isTree_subdirectories hnamed) (List.reverse_perm _)
  · rw [foldl_add_visited, foldl_add_pending, ← hchildren]
    intro path hpath
    simp only [List.mem_append, List.mem_reverse, List.mem_cons] at hpath
    rcases hpath with (hchild | hold) | rfl | hold
    · exact ((mem_subdirectories hnamed).mp hchild).choose_spec.2
    · exact h.directories path (List.mem_append_left _ (hpending ▸ List.mem_cons_of_mem _ hold))
    · exact hdirectory
    · exact h.directories path (List.mem_append_right _ hold)
  · intro path
    rw [foldl_add_files, foldl_add_visited, h.files, List.mem_cons]
    constructor
    · rintro (⟨hne, hfile, hvisited⟩ | ⟨name, mode, hlisted, rfl⟩)
      · exact ⟨hne, hfile, .inr hvisited⟩
      · exact ⟨by simp, ⟨mode, hnamed.find_entry hentries hlisted⟩, .inl List.dropLast_concat⟩
    · rintro ⟨hne, ⟨mode, hfound⟩, hparent | hvisited⟩
      · obtain ⟨name, hlisted, hpath⟩ := FsNode.listed_of_find hne hfound hparent hentries
        exact .inr ⟨name, mode, hlisted, hpath⟩
      · exact .inl ⟨hne, ⟨mode, hfound⟩, hvisited⟩
  · intro path
    rw [foldl_add_directories, foldl_add_visited, h.observed, List.mem_cons]
    constructor
    · rintro (⟨hne, hbelow, hvisited⟩ | ⟨name, mode, below, hlisted, rfl⟩)
      · exact ⟨hne, hbelow, .inr hvisited⟩
      · exact ⟨by simp, ⟨mode, below, hnamed.find_entry hentries hlisted⟩,
          .inl List.dropLast_concat⟩
    · rintro ⟨hne, ⟨mode, below, hfound⟩, hparent | hvisited⟩
      · obtain ⟨name, hlisted, hpath⟩ := FsNode.listed_of_find hne hfound hparent hentries
        exact .inr ⟨name, mode, below, hlisted, hpath⟩
      · exact .inl ⟨hne, ⟨mode, below, hfound⟩, hvisited⟩
  · rw [foldl_add_visited]
    intro path hpath entries' hentries'
    rcases List.mem_cons.mp hpath with rfl | hpath
    · rw [hentries] at hentries'
      cases hentries'
      exact hfine
    · exact h.fine path hpath entries' hentries'

/-- Every walk the loop comes to keeps the invariant. -/
theorem walked_of_passes (hcontrol : ∀ n, layout.cancelled n = false)
    (h : Relation.ReflTransGen (Pass layout) start walk) : Walked layout walk := by
  induction h with
  | refl => exact walked_start layout
  | tail _ hpass ih =>
      obtain ⟨directory, pending, hpending, hpass⟩ := hpass
      exact (ih.pass hcontrol hpending hpass).1

/-- Every entry of every directory passes. -/
def AllFine (layout : PackageLayout) : Prop :=
  ∀ directory entries, layout.tree.root.readDir directory = some entries →
    ∀ entry ∈ entries, EntryFine layout directory entry

/-- **The loop ends**, and without a failure if no entry gives cause for one. -/
theorem walkFrom_ends (hcontrol : ∀ n, layout.cancelled n = false) {all : List (List String)}
    (hall : ∀ path, layout.tree.root.IsDirectory path → path ∈ all) {fuel : Nat}
    (h : Walked layout walk) (hfuel : all.length < fuel + walk.visited.length) :
    ∃ result, walkFrom layout fuel walk = some result ∧
      (AllFine layout → ∃ walked, result = .ok walked) ∧
      ∀ walked, result = .ok walked → Walked layout walked ∧ walked.pending = [] := by
  induction fuel generalizing walk with
  | zero =>
      have hlength := h.traversal.length_le
        (fun path hpath => hall path (h.directories path (List.mem_append_right _ hpath)))
      omega
  | succ fuel ih =>
      rw [walkFrom]
      cases hpending : walk.pending with
      | nil =>
          refine ⟨.ok walk, rfl, fun _ => ⟨walk, rfl⟩, ?_⟩
          intro walked heq
          cases heq
          exact ⟨h, hpending⟩
      | cons directory pending =>
          dsimp only
          cases hpass : visitDirectory layout walk directory pending with
          | error error =>
              refine ⟨.error error, rfl, ?_, by simp⟩
              intro hfine
              obtain ⟨entries, hentries⟩ := FsNode.isDirectory_iff.mp (h.directories directory
                (List.mem_append_left _ (hpending ▸ List.mem_cons_self)))
              rw [(visitDirectory_ok_iff hcontrol hentries).mpr
                ⟨hfine directory entries hentries, rfl⟩] at hpass
              cases hpass
          | ok next =>
              obtain ⟨hnext, hvisited⟩ := h.pass hcontrol hpending hpass
              refine ih hnext ?_
              rw [hvisited, List.length_cons]
              omega

/-- At its end the loop has visited every directory. -/
theorem Walked.visited_iff (h : Walked layout walk) (hpending : walk.pending = [])
    {path : List String} : path ∈ walk.visited ↔ layout.tree.root.IsDirectory path := by
  constructor
  · intro hpath
    exact h.directories path (List.mem_append_right _ hpath)
  · intro hpath
    exact (hpending ▸ h.traversal).complete (reachable_directory layout.tree.named hpath)

end Walk

/-! ## The comparison -/

theorem sameSet_iff {observed expected : List (List String)} :
    sameSet observed expected = true ↔ ∀ path, path ∈ observed ↔ path ∈ expected := by
  simp only [sameSet, Bool.and_eq_true, List.all_eq_true, decide_eq_true_eq]
  constructor
  · rintro ⟨hobserved, hexpected⟩ path
    exact ⟨hobserved path, hexpected path⟩
  · intro h
    exact ⟨fun path => (h path).mp, fun path => (h path).mpr⟩

theorem compare_ok_iff {layout : PackageLayout} {walk : Walk} {u : Unit} :
    layout.compare walk = .ok u ↔
      (∀ path, path ∈ walk.observedFiles ↔ path ∈ layout.expectedFiles) ∧
      ∀ path, path ∈ walk.observedDirectories ↔ path ∈ layout.expectedDirectories := by
  rw [compare, bind_ok, ← sameSet_iff, ← sameSet_iff]
  constructor
  · rintro ⟨_, hfiles, hdirectories⟩
    rw [refuse_ok, Bool.not_eq_false'] at hfiles hdirectories
    exact ⟨hfiles, hdirectories⟩
  · rintro ⟨hfiles, hdirectories⟩
    refine ⟨(), ?_, ?_⟩
    · rw [refuse_ok, Bool.not_eq_false']
      exact hfiles
    · rw [refuse_ok, Bool.not_eq_false']
      exact hdirectories

theorem ne_nil_of_expected {layout : PackageLayout} {path : List String}
    (h : path ∈ layout.expectedDirectories) : path ≠ [] := by
  rcases mem_expectedDirectories.mp h with hfixed | ⟨_, _, hancestor⟩
  · rintro rfl
    simp at hfixed
  · exact hancestor.1

theorem root_not_file (tree : FileTree) : ¬tree.root.IsFile [] := by
  rintro ⟨mode, h⟩
  cases h

/-- A walk that is over compares as equal exactly if the package is as the lock says. -/
theorem Walked.compare_ok_iff {layout : PackageLayout} {walk : Walk} (h : Walked layout walk)
    (hpending : walk.pending = []) : layout.compare walk = .ok () ↔ ExactlyLocked layout := by
  have hfiles : ∀ path, path ∈ walk.observedFiles ↔ layout.tree.root.IsFile path := by
    intro path
    rw [h.files, h.visited_iff hpending]
    constructor
    · exact fun hpath => hpath.2.1
    · rintro ⟨mode, hfound⟩
      have hne : path ≠ [] := by
        rintro rfl
        exact root_not_file layout.tree ⟨mode, hfound⟩
      exact ⟨hne, ⟨mode, hfound⟩, isDirectory_dropLast hne hfound⟩
  have hdirectories : ∀ path, path ∈ walk.observedDirectories ↔
      path ≠ [] ∧ layout.tree.root.IsDirectory path := by
    intro path
    rw [h.observed, h.visited_iff hpending]
    constructor
    · exact fun hpath => ⟨hpath.1, hpath.2.1⟩
    · rintro ⟨hne, mode, entries, hfound⟩
      exact ⟨hne, ⟨mode, entries, hfound⟩, isDirectory_dropLast hne hfound⟩
  -- whatever is not the root has passed as an entry
  have hfine : ∀ path node, path ≠ [] → layout.tree.root.find path = some node →
      EntryFine layout path.dropLast (path.getLast?.getD "", node) := by
    intro path node hne hfound
    obtain ⟨entries, hentries⟩ := FsNode.isDirectory_iff.mp (isDirectory_dropLast hne hfound)
    obtain ⟨name, hlisted, hpath⟩ := FsNode.listed_of_find hne hfound rfl hentries
    have hname : path.getLast?.getD "" = name := by
      rw [hpath, List.getLast?_concat, Option.getD_some]
    rw [hname]
    exact h.fine _ ((h.visited_iff hpending).mpr (isDirectory_dropLast hne hfound)) entries
      hentries _ hlisted
  simp only [PackageLayout.compare_ok_iff, hfiles, hdirectories]
  constructor
  · rintro ⟨hsame, hbelow⟩
    constructor
    · exact hsame
    · intro path hne
      rw [← mem_expectedDirectories, ← hbelow, and_iff_right hne]
    · intro path mode hfound
      refine hfine path _ ?_ hfound
      rintro rfl
      cases hfound
    · intro path mode hfound
      refine hfine path _ ?_ hfound
      rintro rfl
      cases hfound
    · intro path mode entries hne hfound
      exact (hfine path _ hne hfound).2
  · intro hlocked
    refine ⟨hlocked.files, ?_⟩
    intro path
    rw [mem_expectedDirectories]
    constructor
    · rintro ⟨hne, hpath⟩
      exact (hlocked.directories path hne).mp hpath
    · intro hpath
      have hne := ne_nil_of_expected (mem_expectedDirectories.mpr hpath)
      exact ⟨hne, (hlocked.directories path hne).mpr hpath⟩

/-- In a package that is as the lock says, every entry passes. -/
theorem allFine_of_locked {layout : PackageLayout} (h : ExactlyLocked layout) :
    AllFine layout := by
  intro directory entries hentries entry hentry
  have hfound := layout.tree.named.find_entry hentries hentry
  have hne : directory ++ [entry.1] ≠ [] := by simp
  obtain ⟨name, node⟩ := entry
  cases node with
  | file mode => exact (h.files _).mp ⟨mode, hfound⟩
  | symlink mode => exact h.noSymlink _ mode hfound
  | other mode => exact h.noOther _ mode hfound
  | directory mode below =>
      exact ⟨mem_expectedDirectories.mpr ((h.directories _ hne).mp ⟨mode, below, hfound⟩),
        h.secure _ mode below hne hfound⟩

/-- **A package is accepted if and only if it holds exactly what the lock says.** The loop
ends for every tree, it never takes a directory twice, and unless the check fails on the way
it takes every directory there is. -/
theorem exact_file_set (layout : PackageLayout) (hcontrol : ∀ n, layout.cancelled n = false) :
    (∃ enough, ∀ fuel, enough ≤ fuel → ∃ walked result,
      walkFrom layout fuel start = some walked ∧
      (∀ walk, walked = .ok walk → walk.visited.Nodup ∧
        ∀ path, path ∈ walk.visited ↔ layout.tree.root.IsDirectory path) ∧
      verifyExactFileSet layout fuel = some result ∧
      (result = .ok () ↔ ExactlyLocked layout)) ∧
    ∀ walk, Relation.ReflTransGen (Pass layout) start walk →
      (walk.pending ++ walk.visited).Nodup ∧
      ∀ path ∈ walk.visited, layout.tree.root.IsDirectory path := by
  constructor
  · obtain ⟨all, hall⟩ := layout.tree.named.finite
    refine ⟨all.length + 1, ?_⟩
    intro fuel hfuel
    obtain ⟨walked, hwalk, hends, hover⟩ :=
      @walkFrom_ends layout start hcontrol all hall fuel (walked_start layout)
        (by simp only [start, List.length_nil]; omega)
    refine ⟨walked, walked >>= layout.compare, hwalk, ?_, ?_, ?_⟩
    · intro walk hok
      obtain ⟨hwalked, hpending⟩ := hover walk hok
      exact ⟨(List.nodup_append.mp hwalked.traversal.once).2.1,
        fun path => hwalked.visited_iff hpending⟩
    · rw [verifyExactFileSet, hwalk]
      rfl
    · rw [bind_ok]
      constructor
      · rintro ⟨walk, rfl, hcompare⟩
        obtain ⟨hwalked, hpending⟩ := hover walk rfl
        exact (hwalked.compare_ok_iff hpending).mp hcompare
      · intro hlocked
        obtain ⟨walk, rfl⟩ := hends (allFine_of_locked hlocked)
        obtain ⟨hwalked, hpending⟩ := hover walk rfl
        exact ⟨walk, rfl, (hwalked.compare_ok_iff hpending).mpr hlocked⟩
  · intro walk hpasses
    have hwalked := walked_of_passes hcontrol hpasses
    exact ⟨hwalked.traversal.once,
      fun path hpath => hwalked.directories path (List.mem_append_right _ hpath)⟩

/-- Passes that are not needed change nothing. -/
theorem walkFrom_more {layout : PackageLayout} {fuel fuel' : Nat} {walk : Walk}
    {walked : Result Walk} (h : walkFrom layout fuel walk = some walked) (hfuel : fuel ≤ fuel') :
    walkFrom layout fuel' walk = some walked := by
  induction fuel generalizing fuel' walk with
  | zero => cases h
  | succ fuel ih =>
      obtain ⟨more, rfl⟩ := Nat.exists_eq_add_of_le hfuel
      rw [Nat.add_right_comm, walkFrom]
      rw [walkFrom] at h
      cases hpending : walk.pending with
      | nil =>
          rw [hpending] at h
          exact h
      | cons directory pending =>
          rw [hpending] at h
          dsimp only at h ⊢
          cases hvisit : visitDirectory layout walk directory pending with
          | error error =>
              rw [hvisit] at h
              exact h
          | ok next =>
              rw [hvisit] at h
              exact ih h (Nat.le_add_right fuel more)

/-- A directory with files only. -/
theorem wellNamed_files (mode : BitVec 32) (files : List (String × BitVec 32))
    (h : (files.map Prod.fst).Nodup) : (FsNode.directory mode
      (files.map (fun file => (file.1, FsNode.file file.2)))).WellNamed := by
  refine .directory (by rwa [List.map_map]) ?_
  intro entry hentry
  obtain ⟨file, _, rfl⟩ := List.mem_map.mp hentry
  exact .file file.2

/-- Three directories inside one another. -/
def nestedResources : FsNode :=
  .directory 0o755 [
    ("skills", .directory 0o755 [
      ("review", .directory 0o755 [("SKILL.md", .file 0o644), ("run", .file 0o755)])]),
    ("index.json", .file 0o644)]

theorem wellNamed_nestedResources : nestedResources.WellNamed := by
  have hreview := wellNamed_files 0o755 [("SKILL.md", 0o644), ("run", 0o755)]
    (by decide +kernel)
  refine .directory (by decide +kernel) (List.forall_mem_cons.mpr ⟨?_, ?_⟩)
  · refine .directory (List.nodup_singleton _) (fun entry hentry => ?_)
    rw [List.mem_singleton.mp hentry]
    exact hreview
  · intro entry hentry
    rw [List.mem_singleton.mp hentry]
    exact .file _

/-- A package with files in its root and in directories inside one another. -/
def nestedPackage : PackageLayout where
  place := "runtime"
  tree := {
    mode := 0o755
    entries := [("LICENSE", .file 0o644), ("codex-resources", nestedResources),
      ("bin", .directory 0o755 [("codex", .file 0o755)]),
      ("codex-path", .directory 0o755 [("rg", .file 0o755)])]
    named := by
      have hbin := wellNamed_files 0o755 [("codex", 0o755)] (List.nodup_singleton _)
      have hpath := wellNamed_files 0o755 [("rg", 0o755)] (List.nodup_singleton _)
      refine .directory (by decide +kernel) ?_
      intro entry hentry
      simp only [List.mem_cons, List.not_mem_nil, or_false] at hentry
      rcases hentry with rfl | rfl | rfl | rfl
      · exact .file _
      · exact wellNamed_nestedResources
      · exact hbin
      · exact hpath }
  artifacts := {
    paths := [["bin", "codex"], ["codex-path", "rg"], ["codex-resources", "index.json"],
        ["codex-resources", "skills", "review", "SKILL.md"],
        ["codex-resources", "skills", "review", "run"], ["LICENSE"]].pmap
      (fun components (h : components ≠ [] ∧
          ∀ name ∈ components, name ∉ ["", ".", ".."] ∧ '/' ∉ name.toList) =>
        { components := components, nonempty := h.1, normal := h.2 })
      (by decide +kernel)
    distinct := by decide +kernel }
  cancelled := fun _ => false

/-- The package is accepted after seven passes, and so it holds what the lock says. -/
theorem exact_file_set_nested : ExactlyLocked nestedPackage := by
  obtain ⟨⟨enough, h⟩, _⟩ := exact_file_set nestedPackage (fun n => rfl)
  have haccepted : (walkFrom nestedPackage 7 start).any
      (fun walked => (walked >>= nestedPackage.compare).toBool) = true := by decide +kernel
  obtain ⟨walked, hwalk, hcompare⟩ := (Option.any_eq_true _ _).mp haccepted
  have hmore := walkFrom_more hwalk (Nat.le_max_right enough 7)
  obtain ⟨_, result, _, _, hresult, hiff⟩ := h _ (Nat.le_max_left enough 7)
  rw [verifyExactFileSet, hmore, Option.map_some, Option.some.injEq] at hresult
  refine hiff.mp ?_
  rw [← hresult]
  cases hok : walked >>= nestedPackage.compare with
  | ok u => rfl
  | error error =>
      rw [hok] at hcompare
      cases hcompare

end PackageLayout

end Vergerail
