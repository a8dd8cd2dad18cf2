import Vergerail.Approval.Protocol
import Vergerail.Lib.Checked
import Vergerail.Lib.SortedMap

/-!
# What a permission grant shows of a request

A caller decides about the grant, not about the request it was read from. So the grant has
to say everything: two requests with one grant must ask for the same. The rules, the network
flag and the scan depth come through in order and without loss. What does not come through
are members the reader has no name for: they are passed over, whatever they say.

The rules of a request are the elements of its three arrays, and `Denotes` is what an
element says.
-/

namespace Vergerail.Approval

open Lib

/-! ## What a request says -/

/-- The elements of an array field. -/
def elementsOf : Option Json → List Json
  | some (.array values) => values
  | _ => []

/-- An array element that stands for a rule. -/
inductive RuleElement where
  /-- An element of `read` or `write`. -/
  | listed (access : FileSystemAccess) (value : Json)
  /-- An element of `entries`. -/
  | structured (entry : Json)

/-- The filesystem part of a request. -/
def fileSystemOf (request : Json) : Json := (request.get "fileSystem").getD .null

/-- The rules of a request: the read list, then the write list, then the entries. -/
def ruleElements (request : Json) : List RuleElement :=
  (elementsOf ((fileSystemOf request).get "read")).map (.listed .read)
    ++ (elementsOf ((fileSystemOf request).get "write")).map (.listed .write)
    ++ (elementsOf ((fileSystemOf request).get "entries")).map .structured

/-- The network flag of a request. -/
def networkFlag (request : Json) : Option Bool :=
  ((request.get "network").bind (·.get "enabled")).bind Json.asBool

/-- The scan depth of a request. -/
def scanDepth (request : Json) : Option Nat :=
  ((fileSystemOf request).get "globScanMaxDepth").bind Json.asU64

/-- How an access mode is written. -/
def FileSystemAccess.word : FileSystemAccess → String
  | read => "read"
  | write => "write"
  | deny => "deny"

/-- The subpath of a special path: missing, null or a text. -/
inductive HasSubpath (value : Json) : Option String → Prop
  | missing (h : value.get "subpath" = none) : HasSubpath value none
  | null (h : value.get "subpath" = some .null) : HasSubpath value none
  | text {subpath : String} (h : value.get "subpath" = some (.string subpath)) :
      HasSubpath value (some subpath)

/-- What a special path says. -/
inductive DenotesSpecial (value : Json) : FileSystemSpecialPath → Prop
  | root (h : value.get "kind" = some (.string "root")) : DenotesSpecial value .root
  | minimal (h : value.get "kind" = some (.string "minimal")) : DenotesSpecial value .minimal
  | projectRoots {subpath : Option String} (h : value.get "kind" = some (.string "project_roots"))
      (hsubpath : HasSubpath value subpath) : DenotesSpecial value (.projectRoots subpath)
  | tempDir (h : value.get "kind" = some (.string "tmpdir")) : DenotesSpecial value .tempDir
  | slashTmp (h : value.get "kind" = some (.string "slash_tmp")) : DenotesSpecial value .slashTmp
  | unknown {path : String} {subpath : Option String}
      (h : value.get "kind" = some (.string "unknown"))
      (hpath : value.get "path" = some (.string path)) (hsubpath : HasSubpath value subpath) :
      DenotesSpecial value (.unknown path subpath)

/-- What the path of an entry says. -/
inductive DenotesPath (path : Json) : FileSystemPermissionPath → Prop
  | path {text : String} (h : path.get "type" = some (.string "path"))
      (htext : path.get "path" = some (.string text)) : DenotesPath path (.path text)
  | globPattern {pattern : String} (h : path.get "type" = some (.string "glob_pattern"))
      (hpattern : path.get "pattern" = some (.string pattern)) :
      DenotesPath path (.globPattern pattern)
  | special {value : Json} {special : FileSystemSpecialPath}
      (h : path.get "type" = some (.string "special")) (hvalue : path.get "value" = some value)
      (hspecial : DenotesSpecial value special) : DenotesPath path (.special special)

/-- **What an array element says.** -/
inductive Denotes : RuleElement → FileSystemPermission → Prop
  | listed {access : FileSystemAccess} {path : String} :
      Denotes (.listed access (.string path)) ⟨access, .path path⟩
  | structured {entry path : Json} {access : FileSystemAccess} {denoted : FileSystemPermissionPath}
      (haccess : entry.get "access" = some (.string access.word))
      (hpath : entry.get "path" = some path) (hdenoted : DenotesPath path denoted) :
      Denotes (.structured entry) ⟨access, denoted⟩

/-! ## Equal grants

`PathBuf` compares by components. -/

/-- `Path::components` on Unix: the root, a leading `.` of a relative path, and the names. -/
def components (path : String) : List (List Char) :=
  let parts := path.toList.splitOnP (· = '/')
  let names := parts.filter (fun part => part ≠ [] && part ≠ ['.'])
  if path.toList.head? = some '/' then ['/'] :: names
  else if parts.head? = some ['.'] then ['.'] :: names
  else names

/-- `==` of `PathBuf`. -/
def SamePath (path other : String) : Prop := components path = components other

/-- `==` of `FileSystemSpecialPath`. -/
inductive SameSpecial : FileSystemSpecialPath → FileSystemSpecialPath → Prop
  | root : SameSpecial .root .root
  | minimal : SameSpecial .minimal .minimal
  | projectRoots {subpath other : Option String} (h : Option.Rel SamePath subpath other) :
      SameSpecial (.projectRoots subpath) (.projectRoots other)
  | tempDir : SameSpecial .tempDir .tempDir
  | slashTmp : SameSpecial .slashTmp .slashTmp
  | unknown {path path' : String} {subpath subpath' : Option String} (h : SamePath path path')
      (hsubpath : Option.Rel SamePath subpath subpath') :
      SameSpecial (.unknown path subpath) (.unknown path' subpath')

/-- `==` of `FileSystemPermissionPath`. -/
inductive SamePermissionPath : FileSystemPermissionPath → FileSystemPermissionPath → Prop
  | path {path other : String} (h : SamePath path other) :
      SamePermissionPath (.path path) (.path other)
  | globPattern (pattern : String) :
      SamePermissionPath (.globPattern pattern) (.globPattern pattern)
  | special {special other : FileSystemSpecialPath} (h : SameSpecial special other) :
      SamePermissionPath (.special special) (.special other)

/-- `==` of `FileSystemPermission`. -/
structure SameRule (rule other : FileSystemPermission) : Prop where
  access : rule.access = other.access
  path : SamePermissionPath rule.path other.path

/-- `==` of `PermissionGrant`. -/
structure SameGrant (grant other : PermissionGrant) : Prop where
  network : grant.network = other.network
  entries : List.Forall₂ SameRule grant.entries other.entries
  globScanMaxDepth : grant.globScanMaxDepth = other.globScanMaxDepth

/-! ## What the reader reads -/

theorem nullableString_ok {value : Json} {subpath : Option String}
    (h : nullableString value "subpath" = .ok subpath) : HasSubpath value subpath := by
  rw [nullableString, nullable] at h
  split at h
  · rename_i hnone
    cases h
    exact .missing hnone
  · rename_i hnull
    cases h
    exact .null hnull
  · rename_i found _ hfound
    split at h
    · rename_i text htext
      cases h
      cases found <;> cases htext
      exact .text hfound
    · cases h

theorem requiredString_ok {value : Json} {field text : String}
    (h : requiredString value field = .ok text) : value.get field = some (.string text) := by
  rw [requiredString, required] at h
  split at h
  · rename_i found hfound
    cases h
    exact Json.string_iff.mp hfound
  · cases h

theorem parseSpecialPath_ok {value : Json} {special : FileSystemSpecialPath}
    (h : parseSpecialPath value = .ok special) : DenotesSpecial value special := by
  unfold parseSpecialPath at h
  split at h
  · rename_i hkind
    cases h
    exact .root (Json.string_iff.mp hkind)
  · rename_i hkind
    cases h
    exact .minimal (Json.string_iff.mp hkind)
  · rename_i hkind
    obtain ⟨subpath, hsubpath, h⟩ := bind_ok.mp h
    cases h
    exact .projectRoots (Json.string_iff.mp hkind) (nullableString_ok hsubpath)
  · rename_i hkind
    cases h
    exact .tempDir (Json.string_iff.mp hkind)
  · rename_i hkind
    cases h
    exact .slashTmp (Json.string_iff.mp hkind)
  · rename_i hkind
    obtain ⟨path, hpath, h⟩ := bind_ok.mp h
    obtain ⟨subpath, hsubpath, h⟩ := bind_ok.mp h
    cases h
    exact .unknown (Json.string_iff.mp hkind) (requiredString_ok hpath) (nullableString_ok hsubpath)
  · cases h
  · cases h

theorem parsePermissionPath_ok {path : Json} {denoted : FileSystemPermissionPath}
    (h : parsePermissionPath path = .ok denoted) : DenotesPath path denoted := by
  unfold parsePermissionPath at h
  split at h
  · rename_i htype
    obtain ⟨text, htext, h⟩ := bind_ok.mp h
    cases h
    exact .path (Json.string_iff.mp htype) (requiredString_ok htext)
  · rename_i htype
    obtain ⟨pattern, hpattern, h⟩ := bind_ok.mp h
    cases h
    exact .globPattern (Json.string_iff.mp htype) (requiredString_ok hpattern)
  · rename_i htype
    split at h
    · cases h
    · rename_i value hvalue
      obtain ⟨special, hspecial, h⟩ := bind_ok.mp h
      cases h
      exact .special (Json.string_iff.mp htype) hvalue (parseSpecialPath_ok hspecial)
  · cases h
  · cases h

/-- What is left to read of an entry once its access mode is known. -/
theorem entryPath_ok {entry : Json} (access : FileSystemAccess) {rule : FileSystemPermission}
    (hword : (entry.get "access").bind Json.asStr = some access.word)
    (h : (match entry.get "path" with
      | none => .error (protocolField "permissions.fileSystem.entries[].path")
      | some path => do return { access, path := ← parsePermissionPath path }
      : Result FileSystemPermission) = .ok rule) :
    Denotes (.structured entry) rule := by
  split at h
  · cases h
  · rename_i path hpath
    obtain ⟨denoted, hdenoted, h⟩ := bind_ok.mp h
    cases h
    exact .structured (Json.string_iff.mp hword) hpath (parsePermissionPath_ok hdenoted)

theorem parseFileSystemPermission_ok {entry : Json} {rule : FileSystemPermission}
    (h : parseFileSystemPermission entry = .ok rule) : Denotes (.structured entry) rule := by
  unfold parseFileSystemPermission at h
  dsimp only at h
  cases hword : (entry.get "access").bind Json.asStr with
  | none =>
      rw [hword] at h
      cases h
  | some word =>
      rw [hword] at h
      split at h
      · rename_i heq
        cases heq
        exact entryPath_ok .read hword h
      · rename_i heq
        cases heq
        exact entryPath_ok .write hword h
      · rename_i heq
        cases heq
        exact entryPath_ok .deny hword h
      · cases h
      · cases h

/-- A list that may be missing or null is read element by element. -/
theorem nullableList_ok {α : Type} {read : Json → Result α} {value : Option Json} {field : String}
    {results : List α} (h : nullableList read value field = .ok results) :
    List.Forall₂ (fun element result => read element = .ok result) (elementsOf value) results := by
  unfold nullableList at h
  split at h
  · cases h
    exact .nil
  · cases h
    exact .nil
  · exact SortedMap.mapM_ok_iff.mp h
  · cases h

theorem parsePathPermissions_ok {value : Option Json} {field : String} {access : FileSystemAccess}
    {rules : List FileSystemPermission} (h : parsePathPermissions value field access = .ok rules) :
    List.Forall₂ Denotes ((elementsOf value).map (.listed access)) rules := by
  rw [List.forall₂_map_left_iff]
  refine (nullableList_ok h).imp ?_
  intro element rule hrule
  obtain ⟨text, htext, hrule⟩ := bind_ok.mp hrule
  cases hrule
  rw [stringElement] at htext
  cases element <;> cases htext
  exact .listed

/-- What a reader that accepts has found in a request. -/
structure Reads (request : Json) (grant : PermissionGrant) : Prop where
  object : ∃ members, request = .object members
  network : ∀ value, request.get "network" = some value →
    value = .null ∨ ∃ members, value = .object members
  enabled : ∀ value, (request.get "network").bind (·.get "enabled") = some value →
    value = .null ∨ ∃ b, value = .bool b
  fileSystem : ∀ value, request.get "fileSystem" = some value →
    value = .null ∨ ∃ members, value = .object members
  lists : ∀ name ∈ ["read", "write", "entries"], ∀ value,
    (fileSystemOf request).get name = some value → value = .null ∨ ∃ values, value = .array values
  depth : ∀ value, (fileSystemOf request).get "globScanMaxDepth" = some value →
    value = .null ∨ ∃ depth, value.asU64 = some depth
  flag : grant.network = networkFlag request
  rules : List.Forall₂ Denotes (ruleElements request) grant.entries
  scan : grant.globScanMaxDepth = scanDepth request

theorem parseNetworkPermission_ok {request : Json} {flag : Option Bool}
    (h : parseNetworkPermission request = .ok flag) :
    flag = networkFlag request ∧
    (∀ value, request.get "network" = some value →
      value = .null ∨ ∃ members, value = .object members) ∧
    ∀ value, (request.get "network").bind (·.get "enabled") = some value →
      value = .null ∨ ∃ b, value = .bool b := by
  unfold parseNetworkPermission at h
  rw [networkFlag]
  cases hnetwork : request.get "network" with
  | none =>
      rw [hnetwork] at h
      cases h
      simp
  | some network =>
      rw [hnetwork] at h
      cases network with
      | null =>
          cases h
          simp [Json.get]
      | object members =>
          dsimp only at h
          cases henabled : (Json.object members).get "enabled" with
          | none =>
              rw [henabled] at h
              cases h
              simp [henabled]
          | some enabled =>
              rw [henabled] at h
              cases enabled with
              | null =>
                  cases h
                  simp [henabled, Json.asBool]
              | bool b =>
                  cases h
                  simp [henabled, Json.asBool]
              | _ => cases h
      | _ => cases h

theorem nullableList_shape {α : Type} {read : Json → Result α} {value : Json} {field : String}
    {results : List α} (h : nullableList read (some value) field = .ok results) :
    value = .null ∨ ∃ values, value = .array values := by
  cases value with
  | null => exact .inl rfl
  | array values => exact .inr ⟨values, rfl⟩
  | _ => cases h

theorem parseGlobScanMaxDepth_ok {fileSystem : Json} {depth : Option Nat}
    (h : parseGlobScanMaxDepth fileSystem = .ok depth) :
    depth = (fileSystem.get "globScanMaxDepth").bind Json.asU64 ∧
    ∀ value, fileSystem.get "globScanMaxDepth" = some value →
      value = .null ∨ ∃ depth, value.asU64 = some depth := by
  unfold parseGlobScanMaxDepth at h
  split at h
  · rename_i hnone
    cases h
    simp [hnone]
  · rename_i hnull
    cases h
    simp [hnull, Json.asU64]
  · rename_i value _ hvalue
    split at h
    · rename_i found hfound
      cases h
      have hasU64 := (Option.filter_eq_some_iff.mp hfound).1
      rw [hvalue]
      refine ⟨hasU64.symm, ?_⟩
      intro other hother
      cases hother
      exact .inr ⟨found, hasU64⟩
    · cases h

theorem parseFileSystem_ok {request : Json} {network : Option Bool} {grant : PermissionGrant}
    (h : parseFileSystem network (fileSystemOf request) = .ok grant) :
    grant.network = network ∧ List.Forall₂ Denotes (ruleElements request) grant.entries ∧
    grant.globScanMaxDepth = scanDepth request ∧
    (∀ name ∈ ["read", "write", "entries"], ∀ value,
      (fileSystemOf request).get name = some value →
      value = .null ∨ ∃ values, value = .array values) ∧
    ∀ value, (fileSystemOf request).get "globScanMaxDepth" = some value →
      value = .null ∨ ∃ depth, value.asU64 = some depth := by
  obtain ⟨reads, hreads, h⟩ := bind_ok.mp h
  obtain ⟨writes, hwrites, h⟩ := bind_ok.mp h
  obtain ⟨depth, hdepth, h⟩ := bind_ok.mp h
  obtain ⟨entries, hentries, h⟩ := bind_ok.mp h
  cases h
  obtain ⟨hscan, hshape⟩ := parseGlobScanMaxDepth_ok hdepth
  have hstructured : List.Forall₂ Denotes
      ((elementsOf ((fileSystemOf request).get "entries")).map .structured) entries := by
    rw [List.forall₂_map_left_iff]
    exact (nullableList_ok hentries).imp (fun _ _ hrule => parseFileSystemPermission_ok hrule)
  refine ⟨rfl, ?_, hscan, ?_, hshape⟩
  · exact List.rel_append (List.rel_append (parsePathPermissions_ok hreads)
      (parsePathPermissions_ok hwrites)) hstructured
  · intro name hname value hvalue
    simp only [List.mem_cons, List.not_mem_nil, or_false] at hname
    rcases hname with rfl | rfl | rfl
    · rw [hvalue] at hreads
      exact nullableList_shape hreads
    · rw [hvalue] at hwrites
      exact nullableList_shape hwrites
    · rw [hvalue] at hentries
      exact nullableList_shape hentries

/-- **What the reader reads of a request it accepts.** -/
theorem parsePermissions_ok {request : Json} {grant : PermissionGrant}
    (h : parsePermissions request = .ok grant) : Reads request grant := by
  unfold parsePermissions at h
  split at h
  · rename_i members
    obtain ⟨network, hnetwork, h⟩ := bind_ok.mp h
    obtain ⟨hflag, hshape, henabled⟩ := parseNetworkPermission_ok hnetwork
    cases hfile : (Json.object members).get "fileSystem" with
    | none =>
        rw [hfile] at h
        cases h
        have hnull : fileSystemOf (.object members) = .null := by rw [fileSystemOf, hfile]; rfl
        exact {
          object := ⟨members, rfl⟩
          network := hshape
          enabled := henabled
          fileSystem := fun value hvalue => by rw [hfile] at hvalue; cases hvalue
          lists := fun _ _ value hvalue => by rw [hnull] at hvalue; cases hvalue
          depth := fun value hvalue => by rw [hnull] at hvalue; cases hvalue
          flag := hflag
          rules := by rw [ruleElements, hnull]; exact .nil
          scan := by rw [scanDepth, hnull]; rfl }
    | some fileSystem =>
        have hsome : fileSystemOf (.object members) = fileSystem := by rw [fileSystemOf, hfile]; rfl
        rw [hfile] at h
        cases fileSystem with
        | null =>
            cases h
            exact {
              object := ⟨members, rfl⟩
              network := hshape
              enabled := henabled
              fileSystem := fun value hvalue => by rw [hfile] at hvalue; cases hvalue; exact .inl rfl
              lists := fun _ _ value hvalue => by rw [hsome] at hvalue; cases hvalue
              depth := fun value hvalue => by rw [hsome] at hvalue; cases hvalue
              flag := hflag
              rules := by rw [ruleElements, hsome]; exact .nil
              scan := by rw [scanDepth, hsome]; rfl }
        | object fields =>
            have hread : parseFileSystem network (fileSystemOf (.object members)) = .ok grant := by
              rw [hsome]
              exact h
            obtain ⟨hnet, hrules, hscan, hlists, hdepth⟩ := parseFileSystem_ok hread
            exact {
              object := ⟨members, rfl⟩
              network := hshape
              enabled := henabled
              fileSystem := fun value hvalue => by
                rw [hfile] at hvalue
                cases hvalue
                exact .inr ⟨fields, rfl⟩
              lists := hlists
              depth := hdepth
              flag := hnet.trans hflag
              rules := hrules
              scan := hscan }
        | _ => cases h
  · cases h

/-! ## Members that are passed over

Where a member of a request is replaced by another value, the request is read anew. A member
that the grant shows makes a difference for some value; one that is passed over makes none.
-/

end Vergerail.Approval

namespace Vergerail.Json

/-- The object with the member replaced, if it has it. -/
def replace (value : Json) (name : String) (member : Json) : Json :=
  match value with
  | .object members => .object (members.map (fun m => if m.1 = name then (name, member) else m))
  | other => other

theorem get_replace_self {value member : Json} {name : String} (other : Json)
    (h : value.get name = some member) : (value.replace name other).get name = some other := by
  cases value with
  | object members =>
      rw [replace, get]
      rw [get] at h
      induction members with
      | nil => cases h
      | cons m members ih =>
          rw [List.map_cons]
          by_cases hm : m.1 = name
          · rw [if_pos hm, Lib.SortedMap.lookup_cons_self]
          · obtain ⟨key, found⟩ := m
            rw [if_neg hm, Lib.SortedMap.lookup_cons_ne (Ne.symm hm)]
            rw [Lib.SortedMap.lookup_cons_ne (Ne.symm hm)] at h
            exact ih h
  | _ => cases h

theorem get_replace_ne {value other : Json} {name field : String} (h : field ≠ name) :
    (value.replace name other).get field = value.get field := by
  cases value with
  | object members =>
      rw [replace, get, get]
      induction members with
      | nil => rfl
      | cons m members ih =>
          obtain ⟨key, found⟩ := m
          rw [List.map_cons]
          by_cases hm : key = name
          · rw [if_pos hm, Lib.SortedMap.lookup_cons_ne h, ih, Lib.SortedMap.lookup_cons_ne (hm ▸ h)]
          · rw [if_neg hm]
            by_cases hkey : field = key
            · rw [hkey, Lib.SortedMap.lookup_cons_self, Lib.SortedMap.lookup_cons_self]
            · rw [Lib.SortedMap.lookup_cons_ne hkey, Lib.SortedMap.lookup_cons_ne hkey, ih]
  | _ => rfl

theorem replace_object (members : List (String × Json)) (name : String) (other : Json) :
    ∃ members', (Json.object members).replace name other = .object members' := ⟨_, rfl⟩

end Vergerail.Json

namespace Vergerail.Approval

open Lib

/-- The members a special path is read from. -/
def specialMembers (value : Json) : List String :=
  match (value.get "kind").bind Json.asStr with
  | some "project_roots" => ["kind", "subpath"]
  | some "unknown" => ["kind", "path", "subpath"]
  | _ => ["kind"]

/-- The members the path of an entry is read from. -/
def pathMembers (path : Json) : List String :=
  match (path.get "type").bind Json.asStr with
  | some "path" => ["type", "path"]
  | some "glob_pattern" => ["type", "pattern"]
  | some "special" => ["type", "value"]
  | _ => ["type"]

/-- The parts of a request that are read member by member: the part, the members it is read
from, and the request with another part in its place. -/
inductive Part (request : Json) : Json → List String → (Json → Json) → Prop
  | top : Part request request ["network", "fileSystem"] id
  | network {part : Json} (h : request.get "network" = some part) :
      Part request part ["enabled"] (request.replace "network")
  | fileSystem {part : Json} (h : request.get "fileSystem" = some part) :
      Part request part ["read", "write", "globScanMaxDepth", "entries"]
        (request.replace "fileSystem")
  | entry {fileSystem part : Json} {before after : List Json}
      (h : request.get "fileSystem" = some fileSystem)
      (hentries : fileSystem.get "entries" = some (.array (before ++ part :: after))) :
      Part request part ["access", "path"] (fun part => request.replace "fileSystem"
        (fileSystem.replace "entries" (.array (before ++ part :: after))))
  | path {entry part : Json} {around : Json → Json}
      (hentry : Part request entry ["access", "path"] around) (h : entry.get "path" = some part) :
      Part request part (pathMembers part) (fun part => around (entry.replace "path" part))
  | value {path part : Json} {around : Json → Json}
      (hpath : Part request path ["type", "value"] around) (h : path.get "value" = some part) :
      Part request part (specialMembers part) (fun part => around (path.replace "value" part))

/-- Some value of the member would be refused, or give another grant. -/
def Shown (request part : Json) (around : Json → Json) (name : String) : Prop :=
  ∃ other, parsePermissions (around (part.replace name other)) ≠ parsePermissions request

/-- **Nothing is passed over**: every member that is not null is shown. -/
def NothingHidden (request : Json) : Prop :=
  ∀ part known around, Part request part known around → ∀ name member,
    part.get name = some member → member ≠ .null → Shown request part around name

/-- The members that are not null are those the parts are read from. -/
def KnownMembers (request : Json) : Prop :=
  ∀ part known around, Part request part known around → ∀ name member,
    part.get name = some member → member ≠ .null → name ∈ known

/-! ## Unknown members make no difference -/

theorem nullable_congr {α : Type} {read : Json → Option α} {value other : Json} {field : String}
    (h : value.get field = other.get field) :
    nullable read value field = nullable read other field := by
  unfold nullable
  rw [h]

theorem required_congr {α : Type} {read : Json → Option α} {value other : Json} {field : String}
    (h : value.get field = other.get field) :
    required read value field = required read other field := by
  unfold required
  rw [h]

/-- A member that is read keeps its value if another one is replaced. -/
theorem get_replace_known {value other : Json} {name field : String} {known : List String}
    (h : name ∉ known) (hfield : field ∈ known) :
    (value.replace name other).get field = value.get field :=
  Json.get_replace_ne (fun heq => h (heq ▸ hfield))

theorem parseSpecialPath_replace {value other : Json} {name : String}
    (h : name ∉ specialMembers value) :
    parseSpecialPath (value.replace name other) = parseSpecialPath value := by
  have hkind : (value.replace name other).get "kind" = value.get "kind" := by
    refine get_replace_known h ?_
    rw [specialMembers]
    split <;> simp
  unfold parseSpecialPath
  rw [hkind]
  split
  · rfl
  · rfl
  · rename_i hroots
    rw [specialMembers, hroots] at h
    rw [nullableString, nullable_congr (get_replace_known h (by simp)), ← nullableString]
  · rfl
  · rfl
  · rename_i hunknown
    rw [specialMembers, hunknown] at h
    rw [requiredString, required_congr (get_replace_known h (by simp)), ← requiredString,
      nullableString, nullable_congr (get_replace_known h (by simp)), ← nullableString]
  · rfl
  · rfl

theorem parsePermissionPath_replace {path other : Json} {name : String}
    (h : name ∉ pathMembers path) :
    parsePermissionPath (path.replace name other) = parsePermissionPath path := by
  have htype : (path.replace name other).get "type" = path.get "type" := by
    refine get_replace_known h ?_
    rw [pathMembers]
    split <;> simp
  unfold parsePermissionPath
  rw [htype]
  split
  · rename_i hpath
    rw [pathMembers, hpath] at h
    rw [requiredString, required_congr (get_replace_known h (by simp)), ← requiredString]
  · rename_i hpattern
    rw [pathMembers, hpattern] at h
    rw [requiredString, required_congr (get_replace_known h (by simp)), ← requiredString]
  · rename_i hspecial
    rw [pathMembers, hspecial] at h
    rw [get_replace_known h (by simp)]
  · rfl
  · rfl

/-- A special path may be replaced by one that is read alike. -/
theorem parsePermissionPath_value {path value other : Json} (h : path.get "value" = some value)
    (hother : parseSpecialPath other = parseSpecialPath value) :
    parsePermissionPath (path.replace "value" other) = parsePermissionPath path := by
  have hget : ∀ field, field ≠ "value" → (path.replace "value" other).get field = path.get field :=
    fun field hne => Json.get_replace_ne hne
  unfold parsePermissionPath
  rw [hget "type" (by decide), Json.get_replace_self other h, h]
  dsimp only
  rw [hother, requiredString, requiredString, required_congr (hget "path" (by decide)),
    required_congr (hget "pattern" (by decide))]
  rfl

theorem parseFileSystemPermission_congr {entry other : Json}
    (haccess : other.get "access" = entry.get "access")
    (hpath : other.get "path" = entry.get "path") :
    parseFileSystemPermission other = parseFileSystemPermission entry := by
  unfold parseFileSystemPermission
  rw [haccess, hpath]

/-- The path of an entry may be replaced by one that is read alike. -/
theorem parseFileSystemPermission_path {entry path other : Json}
    (h : entry.get "path" = some path)
    (hother : parsePermissionPath other = parsePermissionPath path) :
    parseFileSystemPermission (entry.replace "path" other) = parseFileSystemPermission entry := by
  unfold parseFileSystemPermission
  rw [Json.get_replace_self other h, h, Json.get_replace_ne (by decide : "access" ≠ "path")]
  dsimp only
  rw [hother]

theorem parseFileSystem_congr {network : Option Bool} {fileSystem other : Json}
    (hread : other.get "read" = fileSystem.get "read")
    (hwrite : other.get "write" = fileSystem.get "write")
    (hdepth : other.get "globScanMaxDepth" = fileSystem.get "globScanMaxDepth")
    (hentries : nullableList parseFileSystemPermission (other.get "entries")
        "permissions.fileSystem.entries" =
      nullableList parseFileSystemPermission (fileSystem.get "entries")
        "permissions.fileSystem.entries") :
    parseFileSystem network other = parseFileSystem network fileSystem := by
  unfold parseFileSystem parseGlobScanMaxDepth
  rw [hread, hwrite, hdepth, hentries]

/-- An entry may be replaced by one that is read alike. -/
theorem parseEntries_congr {before after : List Json} {entry other : Json} {field : String}
    (h : parseFileSystemPermission other = parseFileSystemPermission entry) :
    nullableList parseFileSystemPermission (some (.array (before ++ other :: after))) field =
      nullableList parseFileSystemPermission (some (.array (before ++ entry :: after))) field := by
  simp only [nullableList, List.mapM_append, List.mapM_cons, h]

theorem parseNetworkPermission_congr {request other : Json}
    (h : other.get "network" = request.get "network") :
    parseNetworkPermission other = parseNetworkPermission request := by
  unfold parseNetworkPermission
  rw [h]

theorem parsePermissions_congr {request other : Json}
    (hrequest : ∃ members, request = .object members) (hother : ∃ members, other = .object members)
    (hnetwork : parseNetworkPermission other = parseNetworkPermission request)
    (hfile : other.get "fileSystem" = request.get "fileSystem") :
    parsePermissions other = parsePermissions request := by
  obtain ⟨members, rfl⟩ := hrequest
  obtain ⟨members', rfl⟩ := hother
  rw [parsePermissions, parsePermissions, hnetwork, hfile]

/-- The filesystem part may be replaced by one that is read alike. -/
theorem parsePermissions_fileSystem {members fields : List (String × Json)} {other : Json}
    (h : (Json.object members).get "fileSystem" = some (.object fields))
    (hother : ∃ fields', other = .object fields')
    (hread : ∀ network, parseFileSystem network other
      = parseFileSystem network (.object fields)) :
    parsePermissions ((Json.object members).replace "fileSystem" other)
      = parsePermissions (.object members) := by
  obtain ⟨fields', rfl⟩ := hother
  obtain ⟨members', hmembers'⟩ := Json.replace_object members "fileSystem" (.object fields')
  have hself := Json.get_replace_self (.object fields') h
  have hnetwork : parseNetworkPermission (.object members')
      = parseNetworkPermission (.object members) := by
    refine parseNetworkPermission_congr ?_
    rw [← hmembers']
    exact Json.get_replace_ne (by decide)
  rw [hmembers'] at hself ⊢
  rw [parsePermissions, parsePermissions, hnetwork, hself, h]
  simp only [hread]

section Parts

variable {request part : Json} {known : List String} {around : Json → Json}
  {grant : PermissionGrant}

theorem pathMembers_ne (path : Json) : pathMembers path ≠ ["access", "path"] := by
  rw [pathMembers]
  split <;> simp

theorem specialMembers_ne (value : Json) : specialMembers value ≠ ["access", "path"] ∧
    specialMembers value ≠ ["type", "value"] := by
  rw [specialMembers]
  split <;> simp

theorem Reads.fileSystem_object (h : Reads request grant) {fileSystem value : Json}
    {name : String} (hfile : request.get "fileSystem" = some fileSystem)
    (hvalue : fileSystem.get name = some value) : ∃ fields, fileSystem = .object fields := by
  rcases h.fileSystem fileSystem hfile with rfl | hobject
  · cases hvalue
  · exact hobject

/-- Around an entry: entries that are read alike give the same grant. -/
theorem Part.entry_congr (h : Reads request grant) (hpart : Part request part known around)
    (hknown : known = ["access", "path"]) {other : Json}
    (hother : parseFileSystemPermission other = parseFileSystemPermission part) :
    parsePermissions (around other) = parsePermissions request := by
  cases hpart with
  | top | network _ | fileSystem _ => exact absurd hknown (by decide)
  | path _ _ => exact absurd hknown (pathMembers_ne part)
  | value _ _ => exact absurd hknown (specialMembers_ne part).1
  | @entry fileSystem part before after hfile hentries =>
      obtain ⟨members, rfl⟩ := h.object
      obtain ⟨fields, rfl⟩ := h.fileSystem_object hfile hentries
      refine parsePermissions_fileSystem hfile (Json.replace_object fields _ _) (fun network => ?_)
      refine parseFileSystem_congr (Json.get_replace_ne (by decide))
        (Json.get_replace_ne (by decide)) (Json.get_replace_ne (by decide)) ?_
      rw [Json.get_replace_self _ hentries, hentries]
      exact parseEntries_congr hother

/-- Around the path of an entry: paths that are read alike give the same grant. -/
theorem Part.path_congr (h : Reads request grant) (hpart : Part request part known around)
    (hknown : known = ["type", "value"]) {other : Json}
    (hother : parsePermissionPath other = parsePermissionPath part) :
    parsePermissions (around other) = parsePermissions request := by
  cases hpart with
  | top | network _ | fileSystem _ | entry _ _ => exact absurd hknown (by decide)
  | value _ _ => exact absurd hknown (specialMembers_ne part).2
  | path hentry hpath =>
      exact hentry.entry_congr h rfl (parseFileSystemPermission_path hpath hother)

/-- **A member without a name the reader knows is passed over.** -/
theorem Part.unknown_hidden (h : Reads request grant) (hpart : Part request part known around)
    {name : String} {member : Json} (hmember : part.get name = some member)
    (hname : name ∉ known) (other : Json) :
    parsePermissions (around (part.replace name other)) = parsePermissions request := by
  cases hpart with
  | top =>
      obtain ⟨members, rfl⟩ := h.object
      exact parsePermissions_congr ⟨_, rfl⟩ (Json.replace_object members name other)
        (parseNetworkPermission_congr (get_replace_known hname (by simp)))
        (get_replace_known hname (by simp))
  | network hnetwork =>
      obtain ⟨members, rfl⟩ := h.object
      obtain ⟨fields, rfl⟩ : ∃ fields, part = .object fields := by
        rcases h.network part hnetwork with rfl | hobject
        · cases hmember
        · exact hobject
      obtain ⟨fields', hfields'⟩ := Json.replace_object fields name other
      have henabled : (Json.object fields').get "enabled" = (Json.object fields).get "enabled" := by
        rw [← hfields']
        exact get_replace_known hname (by simp)
      refine parsePermissions_congr ⟨_, rfl⟩ (Json.replace_object members _ _) ?_
        (Json.get_replace_ne (by decide))
      unfold parseNetworkPermission
      rw [Json.get_replace_self _ hnetwork, hnetwork, hfields']
      dsimp only
      rw [henabled]
  | fileSystem hfile =>
      obtain ⟨members, rfl⟩ := h.object
      obtain ⟨fields, rfl⟩ := h.fileSystem_object hfile hmember
      refine parsePermissions_fileSystem hfile (Json.replace_object fields _ _) (fun network => ?_)
      refine parseFileSystem_congr (get_replace_known hname (by simp))
        (get_replace_known hname (by simp)) (get_replace_known hname (by simp)) ?_
      rw [get_replace_known hname (by simp)]
  | entry hfile hentries =>
      have hentry : Part request part ["access", "path"] _ := .entry hfile hentries
      exact hentry.entry_congr h rfl (parseFileSystemPermission_congr
        (get_replace_known hname (by simp)) (get_replace_known hname (by simp)))
  | path hentry hpath =>
      exact hentry.entry_congr h rfl
        (parseFileSystemPermission_path hpath (parsePermissionPath_replace hname))
  | value hpath hvalue =>
      exact hpath.path_congr h rfl
        (parsePermissionPath_value hvalue (parseSpecialPath_replace hname))

/-! ## Known members are shown -/

theorem get_bool (b : Bool) (field : String) : (Json.bool b).get field = none := rfl

/-- A special path with a boolean in place of a member it is read from says nothing. -/
theorem not_denotesSpecial {value member : Json} {name : String}
    (hmember : value.get name = some member) (hname : name ∈ specialMembers value)
    (special : FileSystemSpecialPath) :
    ¬DenotesSpecial (value.replace name (.bool true)) special := by
  have hself := Json.get_replace_self (.bool true) hmember
  -- the kind cannot be the member that was replaced
  have hkind : ∀ {kind : String},
      (value.replace name (.bool true)).get "kind" = some (.string kind) →
      name ≠ "kind" ∧ (value.get "kind").bind Json.asStr = some kind := by
    intro kind h
    have hne : name ≠ "kind" := by
      rintro rfl
      rw [hself] at h
      cases h
    rw [Json.get_replace_ne hne.symm] at h
    exact ⟨hne, Json.string_iff.mpr h⟩
  have hsub : ∀ subpath, name = "subpath" → ¬HasSubpath (value.replace name (.bool true)) subpath := by
    rintro subpath rfl h
    cases h with
    | missing h | null h | text h => rw [hself] at h; cases h
  intro h
  cases h with
  | root h | minimal h | tempDir h | slashTmp h =>
      obtain ⟨hne, hword⟩ := hkind h
      rw [specialMembers, hword] at hname
      exact hne (List.mem_singleton.mp hname)
  | projectRoots h hsubpath =>
      obtain ⟨hne, hword⟩ := hkind h
      rw [specialMembers, hword] at hname
      simp only [List.mem_cons, hne, List.not_mem_nil, or_false, false_or] at hname
      exact hsub _ hname hsubpath
  | unknown h hpath hsubpath =>
      obtain ⟨hne, hword⟩ := hkind h
      rw [specialMembers, hword] at hname
      simp only [List.mem_cons, hne, List.not_mem_nil, or_false, false_or] at hname
      rcases hname with rfl | hname
      · rw [hself] at hpath
        cases hpath
      · exact hsub _ hname hsubpath

/-- And so does the path of an entry. -/
theorem not_denotesPath {path member : Json} {name : String}
    (hmember : path.get name = some member) (hname : name ∈ pathMembers path)
    (denoted : FileSystemPermissionPath) :
    ¬DenotesPath (path.replace name (.bool true)) denoted := by
  have hself := Json.get_replace_self (.bool true) hmember
  have htype : ∀ {word : String},
      (path.replace name (.bool true)).get "type" = some (.string word) →
      name ≠ "type" ∧ (path.get "type").bind Json.asStr = some word := by
    intro word h
    have hne : name ≠ "type" := by
      rintro rfl
      rw [hself] at h
      cases h
    rw [Json.get_replace_ne hne.symm] at h
    exact ⟨hne, Json.string_iff.mpr h⟩
  intro h
  cases h with
  | path h htext =>
      obtain ⟨hne, hword⟩ := htype h
      rw [pathMembers, hword] at hname
      simp only [List.mem_cons, hne, List.not_mem_nil, or_false, false_or] at hname
      rw [← hname, hself] at htext
      cases htext
  | globPattern h hpattern =>
      obtain ⟨hne, hword⟩ := htype h
      rw [pathMembers, hword] at hname
      simp only [List.mem_cons, hne, List.not_mem_nil, or_false, false_or] at hname
      rw [← hname, hself] at hpattern
      cases hpattern
  | special h hvalue hspecial =>
      obtain ⟨hne, hword⟩ := htype h
      rw [pathMembers, hword] at hname
      simp only [List.mem_cons, hne, List.not_mem_nil, or_false, false_or] at hname
      rw [← hname, hself] at hvalue
      cases hvalue
      cases hspecial with
      | root h | minimal h | tempDir h | slashTmp h | projectRoots h _ | unknown h _ _ =>
          rw [get_bool] at h
          cases h

/-- Around an entry: where it says nothing, the request is refused. -/
theorem Part.entry_refused (hpart : Part request part known around)
    (hknown : known = ["access", "path"]) {other : Json}
    (hother : ∀ rule, ¬Denotes (.structured other) rule) (result : PermissionGrant) :
    ¬Reads (around other) result := by
  cases hpart with
  | top | network _ | fileSystem _ => exact absurd hknown (by decide)
  | path _ _ => exact absurd hknown (pathMembers_ne part)
  | value _ _ => exact absurd hknown (specialMembers_ne part).1
  | @entry fileSystem part before after hfile hentries =>
      intro h
      have hrules := h.rules
      have helements : RuleElement.structured other ∈ ruleElements (request.replace "fileSystem"
          (fileSystem.replace "entries" (.array (before ++ other :: after)))) := by
        rw [ruleElements, fileSystemOf, Json.get_replace_self _ hfile, Option.getD_some,
          Json.get_replace_self _ hentries]
        simp [elementsOf]
      obtain ⟨rule, _, hrule⟩ := SortedMap.mem_of_forall₂ hrules.flip helements
      exact hother rule hrule

theorem not_denotes_path {entry path other : Json} (hpath : entry.get "path" = some path)
    (h : ∀ denoted, ¬DenotesPath other denoted) (rule : FileSystemPermission) :
    ¬Denotes (.structured (entry.replace "path" other)) rule := by
  intro hrule
  cases hrule with
  | structured _ hfound hdenoted =>
      rw [Json.get_replace_self other hpath] at hfound
      cases hfound
      exact h _ hdenoted

/-- Around the special path of an entry. -/
theorem Part.path_refused (hpart : Part request part known around)
    (hknown : known = ["type", "value"]) {value other : Json} (hvalue : part.get "value" = some value)
    (hother : ∀ special, ¬DenotesSpecial other special) (result : PermissionGrant) :
    ¬Reads (around (part.replace "value" other)) result := by
  cases hpart with
  | top | network _ | fileSystem _ | entry _ _ => exact absurd hknown (by decide)
  | value _ _ => exact absurd hknown (specialMembers_ne part).2
  | path hentry hpath =>
      refine hentry.entry_refused rfl (not_denotes_path hpath ?_) result
      intro denoted h
      have hword : (part.get "type").bind Json.asStr = some "special" := by
        rw [pathMembers] at hknown
        split at hknown
        · exact absurd hknown (by decide)
        · exact absurd hknown (by decide)
        · assumption
        · exact absurd hknown (by decide)
      have htype : (part.replace "value" other).get "type" = some (.string "special") := by
        rw [Json.get_replace_ne (by decide)]
        exact Json.string_iff.mp hword
      cases h with
      | path h _ | globPattern h _ =>
          rw [htype] at h
          simp at h
      | special _ hfound hspecial =>
          rw [Json.get_replace_self other hvalue] at hfound
          cases hfound
          exact hother _ hspecial

/-- **A member the reader knows is shown.** -/
theorem Part.known_shown (hread : parsePermissions request = .ok grant)
    (hpart : Part request part known around) {name : String} {member : Json}
    (hmember : part.get name = some member) (hname : name ∈ known) :
    Shown request part around name := by
  -- enough that the request is refused with another value
  have hrefused : ∀ other, (∀ result, ¬Reads (around (part.replace name other)) result) →
      Shown request part around name := by
    intro other hother
    refine ⟨other, fun heq => ?_⟩
    rw [hread] at heq
    exact hother grant (parsePermissions_ok heq)
  cases hpart with
  | top =>
      refine hrefused (.bool true) (fun result h => ?_)
      have hself := Json.get_replace_self (.bool true) hmember
      simp only [List.mem_cons, List.not_mem_nil, or_false] at hname
      rcases hname with rfl | rfl
      · exact absurd (h.network _ hself) (by simp)
      · exact absurd (h.fileSystem _ hself) (by simp)
  | network hnetwork =>
      refine hrefused (.string "") (fun result h => ?_)
      rw [List.mem_singleton.mp hname] at hmember h
      have henabled := h.enabled (.string "") (by
        rw [Json.get_replace_self _ hnetwork, Option.bind_some,
          Json.get_replace_self _ hmember])
      exact absurd henabled (by simp)
  | fileSystem hfile =>
      refine hrefused (.bool true) (fun result h => ?_)
      have hself := Json.get_replace_self (.bool true) hmember
      have hplace : fileSystemOf (request.replace "fileSystem" (part.replace name (.bool true)))
          = part.replace name (.bool true) := by
        rw [fileSystemOf, Json.get_replace_self _ hfile, Option.getD_some]
      rw [← hplace] at hself
      simp only [List.mem_cons, List.not_mem_nil, or_false] at hname
      rcases hname with rfl | rfl | rfl | rfl
      · exact absurd (h.lists "read" (by simp) _ hself) (by simp)
      · exact absurd (h.lists "write" (by simp) _ hself) (by simp)
      · exact absurd (h.depth _ hself) (by simp [Json.asU64])
      · exact absurd (h.lists "entries" (by simp) _ hself) (by simp)
  | entry hfile hentries =>
      have hentry : Part request part ["access", "path"] _ := .entry hfile hentries
      refine hrefused (.bool true) (hentry.entry_refused rfl (fun rule hrule => ?_))
      have hself := Json.get_replace_self (.bool true) hmember
      simp only [List.mem_cons, List.not_mem_nil, or_false] at hname
      cases hrule with
      | structured haccess hpath hdenoted =>
          rcases hname with rfl | rfl
          · rw [hself] at haccess
            cases haccess
          · rw [hself] at hpath
            cases hpath
            cases hdenoted with
            | path h _ | globPattern h _ | special h _ _ =>
                rw [get_bool] at h
                cases h
  | path hentry hpath =>
      exact hrefused (.bool true) (hentry.entry_refused rfl
        (not_denotes_path hpath (not_denotesPath hmember hname)))
  | value hpath hvalue =>
      refine hrefused (.bool true) ?_
      exact hpath.path_refused rfl hvalue (not_denotesSpecial hmember hname)

end Parts

/-! ## The grant -/

/-- Two array elements that say the same. -/
def SameElement (element other : RuleElement) : Prop :=
  ∃ rule rule', Denotes element rule ∧ Denotes other rule' ∧ SameRule rule rule'

/-- **The requests ask for the same, and for nothing that is passed over.** -/
structure SameAuthority (request other : Json) : Prop where
  network : networkFlag request = networkFlag other
  rules : List.Forall₂ SameElement (ruleElements request) (ruleElements other)
  depth : scanDepth request = scanDepth other
  shown : NothingHidden request
  otherShown : NothingHidden other

/-- Elements that say the rules of equal lists say the same. -/
theorem sameElements {elements others : List RuleElement} {rules rules' : List FileSystemPermission}
    (h : List.Forall₂ Denotes elements rules) (h' : List.Forall₂ Denotes others rules')
    (hsame : List.Forall₂ SameRule rules rules') : List.Forall₂ SameElement elements others := by
  induction hsame generalizing elements others with
  | nil =>
      cases h
      cases h'
      exact .nil
  | cons hrule _ ih =>
      cases h with
      | cons hdenotes hrest =>
          cases h' with
          | cons hdenotes' hrest' =>
              exact .cons ⟨_, _, hdenotes, hdenotes', hrule⟩ (ih hrest hrest')

/-- Nothing is passed over exactly where every member has a name the reader knows. -/
theorem nothingHidden_iff {request : Json} {grant : PermissionGrant}
    (h : parsePermissions request = .ok grant) : NothingHidden request ↔ KnownMembers request := by
  constructor
  · intro hnothing part known around hpart name member hmember hnull
    by_contra hname
    obtain ⟨other, hother⟩ := hnothing part known around hpart name member hmember hnull
    exact hother (hpart.unknown_hidden (parsePermissions_ok h) hmember hname other)
  · intro hknown part known around hpart name member hmember hnull
    exact hpart.known_shown h hmember (hknown part known around hpart name member hmember hnull)

/-- **A grant shows all of a request exactly where the request has no other members than
those the reader knows.** Its rules are the array elements in any case, one for one. -/
theorem permissions_shown_iff (request other : Json) (grant grant' : PermissionGrant)
    (h : parsePermissions request = .ok grant) (h' : parsePermissions other = .ok grant')
    (hsame : SameGrant grant grant') :
    List.Forall₂ Denotes (ruleElements request) grant.entries ∧
    List.Forall₂ Denotes (ruleElements other) grant'.entries ∧
    (SameAuthority request other ↔ KnownMembers request ∧ KnownMembers other) := by
  have hread := parsePermissions_ok h
  have hread' := parsePermissions_ok h'
  refine ⟨hread.rules, hread'.rules, ?_, ?_⟩
  · intro hauthority
    exact ⟨(nothingHidden_iff h).mp hauthority.shown, (nothingHidden_iff h').mp hauthority.otherShown⟩
  · rintro ⟨hknown, hknown'⟩
    exact {
      network := by rw [← hread.flag, ← hread'.flag, hsame.network]
      rules := sameElements hread.rules hread'.rules hsame.entries
      depth := by rw [← hread.scan, ← hread'.scan, hsame.globScanMaxDepth]
      shown := (nothingHidden_iff h).mpr hknown
      otherShown := (nothingHidden_iff h').mpr hknown' }

/-! ## Two requests with one grant -/

/-- A request to read a file, as a list element. -/
def listRequest : Json :=
  .object [("fileSystem", .object [("read", .array [.string "/repo/README.md"])])]

/-- The same request, as an entry. -/
def entryRequest : Json :=
  .object [("fileSystem", .object [("entries", .array [.object [("access", .string "read"),
    ("path", .object [("path", .string "/repo/README.md"), ("type", .string "path")])]])])]

/-- The grant of both. -/
def readmeGrant : PermissionGrant where
  network := none
  entries := [⟨.read, .path "/repo/README.md"⟩]
  globScanMaxDepth := none

theorem readmeGrant_same : SameGrant readmeGrant readmeGrant :=
  ⟨rfl, .cons ⟨rfl, .path rfl⟩ .nil, rfl⟩

theorem permissions_shown_iff_readme :
    List.Forall₂ Denotes (ruleElements listRequest) readmeGrant.entries ∧
    List.Forall₂ Denotes (ruleElements entryRequest) readmeGrant.entries ∧
    (SameAuthority listRequest entryRequest ↔
      KnownMembers listRequest ∧ KnownMembers entryRequest) :=
  permissions_shown_iff listRequest entryRequest readmeGrant readmeGrant rfl rfl readmeGrant_same

/-- A request for the network that names hosts. -/
def openRequest : Json :=
  .object [("network", .object [("allowedHosts", .array [.string "*"]), ("enabled", .bool true)])]

/-- The list of hosts of an accepted request does not reach the grant. -/
theorem hosts_passed_over :
    ¬∀ (request other : Json) (grant grant' : PermissionGrant),
      parsePermissions request = .ok grant → parsePermissions other = .ok grant' →
      SameGrant grant grant' → SameAuthority request other := by
  intro h
  have hopen : parsePermissions openRequest = .ok ⟨some true, [], none⟩ := rfl
  have hauthority := h openRequest openRequest _ _ hopen hopen ⟨rfl, .nil, rfl⟩
  have hpart : Part openRequest _ ["enabled"] _ := .network rfl
  obtain ⟨other, hother⟩ := hauthority.shown _ _ _ hpart "allowedHosts" (.array [.string "*"]) rfl
    (by simp)
  exact hother (hpart.unknown_hidden (parsePermissions_ok hopen) rfl (by decide) other)

end Vergerail.Approval
