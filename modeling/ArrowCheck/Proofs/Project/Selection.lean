import ArrowCheck.Proofs.Project.Globs
import ArrowCheck.Proofs.Project.Order
import ArrowCheck.Proofs.Project.Trees
import Mathlib.Data.List.Forall2

namespace ArrowCheck

variable {d : Disk} {accepts : Acceptance} {root p f : FilePath} {g : Glob} {entry : String}
  {name : FileName} {place names : List FileName} {included excluded : List String}
  {files : List FilePath}

/-- The name of a script: something, a dot, and the extension. -/
def IsScript (name : FileName) : Prop := ∃ stem, stem ≠ [] ∧ name = stem ++ Utf8.bytesOf ".js"

theorem isScript_iff :
    IsScript name ↔ ∃ stem ≠ [], name.reverse = sourceExtension.reverse ++ dot :: stem := by
  have hjs : Utf8.bytesOf ".js" = dot :: sourceExtension := rfl
  constructor
  · rintro ⟨stem, hne, rfl⟩
    exact ⟨stem.reverse, by simpa using hne, by simp [hjs]⟩
  · rintro ⟨stem, hne, h⟩
    refine ⟨stem.reverse, by simpa using hne, ?_⟩
    rw [List.reverse_eq_iff] at h
    simp [h, hjs]

/-- Read from its end, a script is the extension up to the first dot, and something behind the dot. -/
theorem takeWhile_eq_extension_iff {bs extension : List UInt8} (hdot : dot ∉ extension) :
    bs.takeWhile (· ≠ dot) = extension ∧ bs.drop (extension.length + 1) ≠ [] ↔
      ∃ stem ≠ [], bs = extension ++ dot :: stem := by
  constructor
  · rintro ⟨rfl, hstem⟩
    induction bs with
    | nil => exact absurd List.drop_nil hstem
    | cons b bs ih =>
      by_cases hb : b = dot
      · exact ⟨bs, by simpa [hb] using hstem, by simp [hb]⟩
      · have htake : (b :: bs).takeWhile (· ≠ dot) = b :: bs.takeWhile (· ≠ dot) := by simp [hb]
        rw [htake] at hdot hstem ⊢
        obtain ⟨stem, hne, h⟩ := ih (fun hmem => hdot (List.mem_cons_of_mem _ hmem)) hstem
        exact ⟨stem, hne, congrArg (b :: ·) h⟩
  · rintro ⟨stem, hne, rfl⟩
    have hall : ∀ b ∈ extension, decide (b ≠ dot) = true :=
      fun b hb => decide_eq_true fun heq => hdot (heq ▸ hb)
    rw [List.takeWhile_append_of_pos hall]
    simpa using hne

theorem isSource_iff (h : p.components.getLast? = some (.normal name)) :
    isSource p = true ↔ IsScript name := by
  rw [isScript_iff, ← takeWhile_eq_extension_iff (by decide), isSource, decide_eq_true_iff,
    FilePath.extension?, h]
  simp only [Option.bind_eq_bind, Option.bind_some, List.isEmpty_iff]
  generalize name.reverse = bs
  grind [List.reverse_eq_iff]

/-- The path below the root from which the files of an entry are searched. -/
def searchStart (entry : String) : FilePath :=
  if Glob.isGlob ⟨entry⟩ then Glob.literalPrefix ⟨entry⟩ else .ofText entry

/-- An entry selects the file with these names: a glob describes it below its literal prefix, or a path
names it or a directory above it. A path that ends in a single dot names directories only. -/
inductive Selects (entry : String) : List FileName → Prop
  | glob {names : List FileName} (hglob : Glob.isGlob ⟨entry⟩ = true)
    (hstart : (Glob.literalPrefix ⟨entry⟩).names <+: names)
    (h : Glob.matchesNames ⟨entry⟩ names = true) : Selects entry names
  | file (hplain : Glob.isGlob ⟨entry⟩ = false)
    (h : FilePath.endsInDirectory (FilePath.ofText entry).segments = false) :
    Selects entry (FilePath.ofText entry).names
  | directory {rest : List FileName} (hplain : Glob.isGlob ⟨entry⟩ = false) (h : rest ≠ []) :
    Selects entry ((FilePath.ofText entry).names ++ rest)

section Searching

theorem Glob.isName_of_mem_literalNames (hup : [dot, dot] ∉ (FilePath.ofText g.source).segments) :
    ∀ name ∈ g.literalNames.map Utf8.encode, IsName name := by
  intro name hname
  obtain ⟨part, hpart, rfl⟩ := List.mem_map.mp hname
  obtain ⟨hliteral, hkept⟩ := List.mem_filter.mp hpart
  have hsegment : Utf8.encode part ∈ (FilePath.ofText g.source).segments := by
    rw [FilePath.segments, FilePath.ofText, Utf8.bytesOf, splitPath_encode]
    exact List.mem_map_of_mem ((List.takeWhile_sublist _).subset hliteral)
  simp only [Bool.and_eq_true, decide_eq_true_eq] at hkept
  refine FilePath.isName_of_mem_segments hup hsegment ?_ ?_
  · exact fun heq => hkept.1 (Utf8.eq_of_encode_eq [] heq)
  · exact fun heq => hkept.2 (Utf8.eq_of_encode_eq ['.'] heq)

theorem searchStart_glob (h : Glob.isGlob ⟨entry⟩ = true) :
    searchStart entry = Glob.literalPrefix ⟨entry⟩ := if_pos h

theorem searchStart_plain (h : Glob.isGlob ⟨entry⟩ = false) : searchStart entry = .ofText entry :=
  if_neg (by simp [h])

theorem descends_searchStart (h : (FilePath.ofText entry).Descends) : (searchStart entry).Descends := by
  cases hglob : Glob.isGlob ⟨entry⟩ with
  | false =>
    rw [searchStart_plain hglob]
    exact h
  | true =>
    have hnames := Glob.isName_of_mem_literalNames (g := ⟨entry⟩) h.no_up
    rw [searchStart_glob hglob]
    exact ⟨FilePath.isAbsolute_ofNames hnames, FilePath.no_up_ofNames hnames⟩

theorem rest_ne_nil_of_matches {rest : List FileName} (hentry : (FilePath.ofText entry).Descends)
    (hglob : Glob.isGlob ⟨entry⟩ = true)
    (hnames : ∀ name ∈ (searchStart entry).names ++ rest, IsName name)
    (hne : (searchStart entry).names ++ rest ≠ [])
    (h : Glob.matchesNames ⟨entry⟩ ((searchStart entry).names ++ rest) = true) : rest ≠ [] := by
  obtain ⟨front, back, heq, hliteral, hmore⟩ := Glob.names_eq_of_matches hnames h
  have hlength : (searchStart entry).names.length = front.length := by
    have hstart : (Glob.literalPrefix ⟨entry⟩).names = (Glob.literalNames ⟨entry⟩).map Utf8.encode :=
      FilePath.names_ofNames (Glob.isName_of_mem_literalNames (g := ⟨entry⟩) hentry.no_up)
    rw [searchStart_glob hglob, hstart, hliteral, List.length_map, List.length_map]
  rw [(List.append_inj heq hlength).2]
  exact hmore hne hglob

theorem selects_iff (hnames : ∀ name ∈ names, IsName name) (hne : names ≠ [])
    (hentry : (FilePath.ofText entry).Descends) :
    Selects entry names ↔ ∃ rest, names = (searchStart entry).names ++ rest ∧
      (FilePath.endsInDirectory (searchStart entry).segments = true → rest ≠ []) ∧
      (Glob.isGlob ⟨entry⟩ = true → Glob.matchesNames ⟨entry⟩ names = true) := by
  constructor
  · intro h
    cases h with
    | glob hglob hstart h =>
      rw [← searchStart_glob hglob] at hstart
      obtain ⟨rest, rfl⟩ := hstart
      exact ⟨rest, rfl, fun _ => rest_ne_nil_of_matches hentry hglob hnames hne h, fun _ => h⟩
    | file hplain h =>
      rw [searchStart_plain hplain, hplain, h]
      exact ⟨[], (List.append_nil _).symm, fun h => absurd h Bool.false_ne_true,
        fun h => absurd h Bool.false_ne_true⟩
    | @directory rest hplain h =>
      rw [searchStart_plain hplain, hplain]
      exact ⟨rest, rfl, fun _ => h, fun h => absurd h Bool.false_ne_true⟩
  · rintro ⟨rest, rfl, hend, hmatch⟩
    cases hglob : Glob.isGlob ⟨entry⟩ with
    | true =>
      refine .glob hglob ?_ (hmatch hglob)
      rw [← searchStart_glob hglob]
      exact List.prefix_append _ _
    | false =>
      rw [searchStart_plain hglob] at hend ⊢
      by_cases hrest : rest = []
      · subst hrest
        rw [List.append_nil]
        exact .file hglob (Bool.eq_false_iff.mpr fun hinside => hend hinside rfl)
      · exact .directory hglob hrest

end Searching

section Traversal

variable {α β ε : Type} {f : α → Except ε β} {xs : List α} {ys : List β} {e : ε}

theorem mapM_eq_ok_iff : xs.mapM f = .ok ys ↔ List.Forall₂ (fun x y => f x = .ok y) xs ys := by
  induction xs generalizing ys with
  | nil => cases ys <;> simp [pure, Except.pure]
  | cons x xs ih =>
    rw [List.mapM_cons]
    cases hx : f x with
    | error e => cases ys <;> simp [bind, Except.bind, hx]
    | ok y =>
      cases hxs : xs.mapM f with
      | error e => cases ys <;> simp [bind, Except.bind, hx, ← ih, hxs]
      | ok rest => cases ys <;> simp [bind, Except.bind, pure, Except.pure, hx, ← ih, hxs]

theorem exists_mapM_eq_ok (h : ∀ x ∈ xs, ∃ y, f x = .ok y) : ∃ ys, xs.mapM f = .ok ys := by
  induction xs with
  | nil => exact ⟨[], rfl⟩
  | cons x xs ih =>
    obtain ⟨⟨y, hy⟩, hxs⟩ := List.forall_mem_cons.mp h
    obtain ⟨ys, hys⟩ := ih hxs
    exact ⟨y :: ys, mapM_eq_ok_iff.mpr (.cons hy (mapM_eq_ok_iff.mp hys))⟩

theorem exists_of_mapM_eq_error (h : xs.mapM f = .error e) : ∃ x ∈ xs, f x = .error e := by
  induction xs with
  | nil => cases h
  | cons x xs ih =>
    rw [List.mapM_cons] at h
    cases hx : f x with
    | error e' =>
      rw [hx] at h
      cases h
      exact ⟨x, List.mem_cons_self, hx⟩
    | ok y =>
      cases hxs : xs.mapM f with
      | ok ys =>
        rw [hx, hxs] at h
        cases h
      | error e' =>
        rw [hx, hxs] at h
        cases h
        obtain ⟨x', hmem, hx'⟩ := ih hxs
        exact ⟨x', List.mem_cons_of_mem _ hmem, hx'⟩

theorem mem_flatten_of_mapM {f : α → Except ε (List β)} {yss : List (List β)} {y : β}
    (h : xs.mapM f = .ok yss) : y ∈ yss.flatten ↔ ∃ x ∈ xs, ∃ ys, f x = .ok ys ∧ y ∈ ys := by
  induction mapM_eq_ok_iff.mp h with
  | nil => simp
  | cons hx hxs ih =>
    rw [List.flatten_cons, List.mem_append, ih (mapM_eq_ok_iff.mpr hxs), List.exists_mem_cons_iff, hx]
    simp

end Traversal

namespace Disk

variable {cs : List Component}

/-- The file with these names below a directory is a script. -/
structure HasScript (d : Disk) (place names : List FileName) : Prop where
  file : ∃ text, d.tree.get? (place ++ names) = some (.file text)
  script : ∃ name, names.getLast? = some name ∧ IsScript name

/-- A path with a name behind a directory tells by its last name whether it is a source. -/
theorem isSource_iff_exists (h : f.components = root.components ++ names.map .normal) (hne : names ≠ []) :
    isSource f = true ↔ ∃ name, names.getLast? = some name ∧ IsScript name := by
  obtain ⟨front, name, rfl⟩ := (List.eq_nil_or_concat names).resolve_left hne
  have hlast : f.components.getLast? = some (.normal name) := by simp [h]
  rw [isSource_iff hlast]
  simp

theorem walkSources_eq_ok (h : d.walk p = .ok files) : d.walkSources p = .ok (files.filter isSource) := by
  rw [walkSources, h]

theorem filesAt_of_isFile (h : d.isFile p = true) : d.filesAt p = [p] := by
  unfold isFile at h
  cases hlookup : d.lookup? p with
  | none => simp [hlookup] at h
  | some t =>
    cases t with
    | dir es => simp [hlookup, FileTree.isDir] at h
    | file text => simp [filesAt, hlookup, FileTree.files, FileTree.nodes, FileTree.isDir]

theorem filesAt_eq_nil (hdir : d.isDir p = false) (hfile : d.isFile p = false) : d.filesAt p = [] := by
  unfold isDir at hdir
  unfold isFile at hfile
  unfold filesAt
  cases hlookup : d.lookup? p with
  | none => rfl
  | some t => simp_all

theorem exists_lookup?_of_isDir (h : d.isDir p = true) : ∃ t, d.lookup? p = some t :=
  Option.isSome_iff_exists.mp (Option.isSome_of_any h)

section Entries

theorem selectedBy_refused (h : accepts (Glob.mk entry).parts = false) :
    d.selectedBy accepts root entry = .error (.pattern entry) := by
  have hcompile : Glob.compile accepts entry = .error (.pattern entry) := if_neg (by simp [h])
  rw [selectedBy, hcompile]
  rfl

theorem selectedBy_glob (h : accepts (Glob.mk entry).parts = true) (hglob : Glob.isGlob ⟨entry⟩ = true) :
    d.selectedBy accepts root entry =
      if d.isDir (root.join (searchStart entry)) then
        (d.walkSources (root.join (searchStart entry))).map fun found =>
          found.filter fun p => (p.namesBelow? root).any (Glob.matchesNames ⟨entry⟩)
      else .ok [] := by
  have hcompile : Glob.compile accepts entry = .ok ⟨entry⟩ := if_pos h
  rw [selectedBy, hcompile, searchStart_glob hglob]
  simp only [bind, Except.bind, hglob, ↓reduceIte]
  split
  · cases d.walkSources (root.join (Glob.literalPrefix ⟨entry⟩)) <;> rfl
  · rfl

theorem selectedBy_plain (h : accepts (Glob.mk entry).parts = true) (hglob : Glob.isGlob ⟨entry⟩ = false) :
    d.selectedBy accepts root entry =
      if d.isDir (root.join (searchStart entry)) then d.walkSources (root.join (searchStart entry))
      else .ok ((d.filesAt (root.join (searchStart entry))).filter isSource) := by
  have hcompile : Glob.compile accepts entry = .ok ⟨entry⟩ := if_pos h
  rw [selectedBy, hcompile, searchStart_plain hglob]
  simp only [bind, Except.bind, hglob, Bool.false_eq_true, ↓reduceIte]
  split
  · rfl
  · rename_i hdir
    cases hfile : d.isFile (root.join (.ofText entry)) with
    | false =>
      rw [filesAt_eq_nil (Bool.eq_false_iff.mpr hdir) hfile]
      rfl
    | true =>
      rw [filesAt_of_isFile hfile, Bool.true_and, List.filter_singleton]
      cases isSource (root.join (.ofText entry)) <;> rfl

/-- If its pattern is taken and the walk comes to its end, an entry gives the source files at and below
the start of its search that a glob, if it is one, describes. -/
theorem mem_selectedBy (haccepts : accepts (Glob.mk entry).parts = true)
    (hwalk : ∀ t, d.lookup? (root.join (searchStart entry)) = some t →
      d.walk (root.join (searchStart entry)) = .ok (d.filesAt (root.join (searchStart entry)))) :
    ∃ files, d.selectedBy accepts root entry = .ok files ∧ ∀ f, f ∈ files ↔
      f ∈ d.filesAt (root.join (searchStart entry)) ∧ isSource f = true ∧
      (Glob.isGlob ⟨entry⟩ = true → d.isDir (root.join (searchStart entry)) = true ∧
        (f.namesBelow? root).any (Glob.matchesNames ⟨entry⟩) = true) := by
  have hfound : d.isDir (root.join (searchStart entry)) = true →
      d.walkSources (root.join (searchStart entry)) =
        .ok ((d.filesAt (root.join (searchStart entry))).filter isSource) := by
    intro hdir
    obtain ⟨t, ht⟩ := exists_lookup?_of_isDir hdir
    exact walkSources_eq_ok (hwalk t ht)
  cases hglob : Glob.isGlob ⟨entry⟩ with
  | true =>
    rw [selectedBy_glob haccepts hglob]
    split
    · rename_i hdir
      rw [hfound hdir]
      exact ⟨_, rfl, by grind⟩
    · exact ⟨_, rfl, by grind⟩
  | false =>
    rw [selectedBy_plain haccepts hglob]
    split
    · rename_i hdir
      rw [hfound hdir]
      exact ⟨_, rfl, by grind⟩
    · exact ⟨_, rfl, by grind⟩

/-- An entry fails for its pattern, or for a directory at or below the start of its search. -/
theorem selectedBy_eq_error {fault : SearchFault} (h : d.selectedBy accepts root entry = .error fault) :
    fault = .pattern entry ∧ accepts (Glob.mk entry).parts = false ∨
      ∃ q t, fault = .walk q ∧ d.lookup? (root.join (searchStart entry)) = some t ∧
        q ∈ t.unlisted (root.join (searchStart entry)) := by
  cases haccepts : accepts (Glob.mk entry).parts with
  | false =>
    rw [selectedBy_refused haccepts] at h
    cases h
    exact .inl ⟨rfl, rfl⟩
  | true =>
    right
    have hwalk : d.isDir (root.join (searchStart entry)) = true ∧
        d.walkSources (root.join (searchStart entry)) = .error fault := by
      cases hglob : Glob.isGlob ⟨entry⟩ with
      | true =>
        rw [selectedBy_glob haccepts hglob] at h
        cases hsources : d.walkSources (root.join (searchStart entry)) <;> grind [Except.map]
      | false =>
        rw [selectedBy_plain haccepts hglob] at h
        grind
    obtain ⟨t, ht⟩ := exists_lookup?_of_isDir hwalk.1
    rcases walk_cases ht with ⟨-, hok⟩ | ⟨q, hq, herror⟩
    · cases (walkSources_eq_ok hok).symm.trans hwalk.2
    · have hfault : d.walkSources (root.join (searchStart entry)) = .error (.walk q) := by
        rw [walkSources, herror]
      cases hfault.symm.trans hwalk.2
      exact ⟨q, t, rfl, ht, hq⟩

theorem mem_components_selectedBy (ht : d.tree.Regular) (hroot : d.LeadsTo root place)
    (hentry : (FilePath.ofText entry).Descends) (haccepts : accepts (Glob.mk entry).parts = true)
    (hwalk : (root.join (searchStart entry)).IsShort → d.Walkable root place (searchStart entry)) :
    ∃ files, d.selectedBy accepts root entry = .ok files ∧ ∀ cs, cs ∈ files.map FilePath.components ↔
      ∃ names, cs = root.components ++ names.map .normal ∧ d.HasScript place names ∧
        (root.join (searchStart entry)).IsShort ∧ Selects entry names := by
  have hstart := descends_searchStart hentry
  have hwalked := fun t (h : d.lookup? (root.join (searchStart entry)) = some t) =>
    walk_join ht hroot hstart (hwalk ((lookup?_join ht hroot hstart).mp h).1) h
  obtain ⟨files, hfiles, hmem⟩ := mem_selectedBy haccepts hwalked
  refine ⟨files, hfiles, fun cs => ?_⟩
  rw [List.mem_map]
  constructor
  · rintro ⟨f, hf, rfl⟩
    obtain ⟨hat, hsource, hglob⟩ := (hmem f).mp hf
    obtain ⟨hshort, rest, text, hfile, hend, rfl⟩ := (mem_filesAt_join ht hroot hstart).mp hat
    have hsteps := components_join_below ht hroot hstart hfile
    have hne := hroot.ne_nil hfile
    have hscript := (isSource_iff_exists hsteps hne).mp hsource
    refine ⟨_, hsteps, ⟨⟨text, hfile⟩, hscript⟩, hshort, ?_⟩
    refine (selects_iff (ht.isName hfile) hne hentry).mpr ⟨rest, rfl, hend, fun h => ?_⟩
    have hmatch := (hglob h).2
    rwa [FilePath.namesBelow?_eq hsteps] at hmatch
  · rintro ⟨names, rfl, hscript, hshort, hselects⟩
    obtain ⟨text, hfile⟩ := hscript.file
    have hne := hroot.ne_nil hfile
    have hnames := ht.isName hfile
    obtain ⟨rest, rfl, hend, hmatch⟩ := (selects_iff hnames hne hentry).mp hselects
    have hsteps := components_join_below ht hroot hstart hfile
    refine ⟨_, (hmem _).mpr ⟨?_, ?_, fun hglob => ⟨?_, ?_⟩⟩, hsteps⟩
    · exact (mem_filesAt_join ht hroot hstart).mpr ⟨hshort, rest, text, hfile, hend, rfl⟩
    · exact (isSource_iff_exists hsteps hne).mpr hscript.script
    · -- a glob describes nothing at the place itself, so the place is a directory
      have hmore := rest_ne_nil_of_matches hentry hglob hnames hne (hmatch hglob)
      exact isDir_join ht hroot hstart hshort hfile hmore
    · rw [FilePath.namesBelow?_eq hsteps]
      exact hmatch hglob

end Entries

/-- The names of the files of a project: scripts below the root that an entry selects, from a path that
is not too long, and no glob takes out. -/
structure IsChosen (d : Disk) (root : FilePath) (place : List FileName) (included excluded : List String)
    (names : List FileName) : Prop extends HasScript d place names where
  selected : ∃ entry ∈ included, (root.join (searchStart entry)).IsShort ∧ Selects entry names
  kept : ∀ glob ∈ excluded, Glob.matchesNames ⟨glob⟩ names = false

theorem isChosen_iff : d.IsChosen root place included excluded names ↔ d.HasScript place names ∧
    (∃ entry ∈ included, (root.join (searchStart entry)).IsShort ∧ Selects entry names) ∧
    ∀ glob ∈ excluded, Glob.matchesNames ⟨glob⟩ names = false :=
  ⟨fun h => ⟨h.toHasScript, h.selected, h.kept⟩, fun h => ⟨h.1, h.2.1, h.2.2⟩⟩

/-- The root is a directory, all entries go down from it, all patterns are taken, and every walk comes
to its end. -/
structure Searchable (d : Disk) (accepts : Acceptance) (root : FilePath) (place : List FileName)
    (included excluded : List String) : Prop where
  regular : d.tree.Regular
  leads : d.LeadsTo root place
  descends : ∀ entry ∈ included, (FilePath.ofText entry).Descends
  accepted : ∀ pattern ∈ included ++ excluded, accepts (Glob.mk pattern).parts = true
  walkable : ∀ entry ∈ included, (root.join (searchStart entry)).IsShort →
    d.Walkable root place (searchStart entry)

section Search

theorem mapM_compile (h : ∀ pattern ∈ excluded, accepts (Glob.mk pattern).parts = true) :
    excluded.mapM (Glob.compile accepts) = .ok (excluded.map Glob.mk) := by
  rw [mapM_eq_ok_iff, List.forall₂_map_right_iff, List.forall₂_same]
  exact fun pattern hpattern => if_pos (h pattern hpattern)

theorem Searchable.mem_components (h : d.Searchable accepts root place included excluded) :
    ∃ files, d.sourceFiles accepts root included excluded = .ok files ∧
      (files.map FilePath.components).Pairwise FilePath.Precedes ∧
      ∀ cs, cs ∈ files.map FilePath.components ↔ ∃ names,
        cs = root.components ++ names.map .normal ∧ d.IsChosen root place included excluded names := by
  have hentry := fun entry (hmem : entry ∈ included) => mem_components_selectedBy h.regular h.leads
    (h.descends entry hmem) (h.accepted entry (List.mem_append_left _ hmem)) (h.walkable entry hmem)
  have hglobs := mapM_compile fun pattern hmem => h.accepted pattern (List.mem_append_right _ hmem)
  obtain ⟨selected, hselected⟩ := exists_mapM_eq_ok fun entry hmem =>
    (hentry entry hmem).imp fun _ hfiles => hfiles.1
  refine ⟨_, by rw [sourceFiles, hglobs, hselected]; rfl, precedes_sorted _, fun cs => ?_⟩
  rw [mem_sorted, List.mem_map]
  constructor
  · rintro ⟨f, hf, rfl⟩
    obtain ⟨hf, hkept⟩ := List.mem_filter.mp hf
    obtain ⟨entry, hmem, files, hfiles, hf⟩ := (mem_flatten_of_mapM hselected).mp hf
    obtain ⟨files', hfiles', hcomponents⟩ := hentry entry hmem
    cases hfiles.symm.trans hfiles'
    obtain ⟨names, hsteps, hscript, hselects⟩ := (hcomponents _).mp (List.mem_map_of_mem hf)
    rw [FilePath.namesBelow?_eq hsteps] at hkept
    exact ⟨names, hsteps, hscript, ⟨entry, hmem, hselects⟩, by simpa using hkept⟩
  · rintro ⟨names, rfl, hchosen⟩
    obtain ⟨entry, hmem, hselects⟩ := hchosen.selected
    obtain ⟨files, hfiles, hcomponents⟩ := hentry entry hmem
    obtain ⟨f, hf, hsteps⟩ :=
      List.mem_map.mp ((hcomponents _).mpr ⟨names, rfl, hchosen.toHasScript, hselects⟩)
    have hflat := (mem_flatten_of_mapM hselected).mpr ⟨entry, hmem, files, hfiles, hf⟩
    refine ⟨f, List.mem_filter.mpr ⟨hflat, ?_⟩, hsteps⟩
    rw [FilePath.namesBelow?_eq hsteps]
    simpa using hchosen.kept

theorem Searchable.congr {included' excluded' : List String}
    (h : d.Searchable accepts root place included excluded)
    (hincluded : ∀ entry, entry ∈ included' ↔ entry ∈ included)
    (hexcluded : ∀ glob, glob ∈ excluded' ↔ glob ∈ excluded) :
    d.Searchable accepts root place included' excluded' where
  regular := h.regular
  leads := h.leads
  descends entry hmem := h.descends entry ((hincluded entry).mp hmem)
  accepted pattern hmem := h.accepted pattern (by simpa [hincluded, hexcluded] using hmem)
  walkable entry hmem := h.walkable entry ((hincluded entry).mp hmem)

/-- A search fails for a pattern that is refused, or for a directory at or below the start of an entry. -/
theorem sourceFiles_eq_error {fault : SearchFault}
    (h : d.sourceFiles accepts root included excluded = .error fault) :
    (∃ pattern ∈ included ++ excluded, fault = .pattern pattern ∧ accepts (Glob.mk pattern).parts = false) ∨
      ∃ entry ∈ included, ∃ q t, fault = .walk q ∧ d.lookup? (root.join (searchStart entry)) = some t ∧
        q ∈ t.unlisted (root.join (searchStart entry)) := by
  unfold sourceFiles at h
  cases hglobs : excluded.mapM (Glob.compile accepts) with
  | error fault' =>
    rw [hglobs] at h
    cases h
    obtain ⟨pattern, hmem, hpattern⟩ := exists_of_mapM_eq_error hglobs
    refine .inl ⟨pattern, List.mem_append_right _ hmem, ?_⟩
    unfold Glob.compile at hpattern
    grind
  | ok globs =>
    cases hselected : included.mapM (d.selectedBy accepts root) with
    | ok selected =>
      rw [hglobs, hselected] at h
      cases h
    | error fault' =>
      rw [hglobs, hselected] at h
      cases h
      obtain ⟨entry, hmem, hentry⟩ := exists_of_mapM_eq_error hselected
      rcases selectedBy_eq_error hentry with hfault | hfault
      · exact .inl ⟨entry, List.mem_append_left _ hmem, hfault⟩
      · exact .inr ⟨entry, hmem, hfault⟩

end Search

/-- The search for the source files of a project comes to its end and gives exactly those that are
chosen, each once and in the order of their paths, whatever the order and number of the entries. -/
theorem sourceFiles_exact (h : d.Searchable accepts root place included excluded) :
    ∃ files, d.sourceFiles accepts root included excluded = .ok files ∧
      (files.map FilePath.components).Pairwise FilePath.Precedes ∧
      (∀ cs, cs ∈ files.map FilePath.components ↔ ∃ names,
        cs = root.components ++ names.map .normal ∧ d.IsChosen root place included excluded names) ∧
      ∀ included' excluded' : List String, (∀ entry, entry ∈ included' ↔ entry ∈ included) →
        (∀ glob, glob ∈ excluded' ↔ glob ∈ excluded) →
        ∃ files', d.sourceFiles accepts root included' excluded' = .ok files' ∧
          files'.map FilePath.components = files.map FilePath.components := by
  obtain ⟨files, hfiles, hsorted, hmem⟩ := h.mem_components
  refine ⟨files, hfiles, hsorted, hmem, fun included' excluded' hincluded hexcluded => ?_⟩
  obtain ⟨files', hfiles', hsorted', hmem'⟩ := (h.congr hincluded hexcluded).mem_components
  refine ⟨files', hfiles', FilePath.eq_of_precedes hsorted' hsorted fun cs => ?_⟩
  rw [hmem, hmem']
  simp only [isChosen_iff, hincluded, hexcluded]

end Disk

section Sample

def work : FileName := Utf8.bytesOf "work"

def sampleDisk : Disk :=
  ⟨.dir [(work, .dir [(Utf8.bytesOf "main.js", .file (some "")),
    (Utf8.bytesOf "src", .dir [(Utf8.bytesOf "a.js", .file (some "")),
      (Utf8.bytesOf "old.js", .file none)])])], [work]⟩

theorem sampleDisk_regular : sampleDisk.tree.Regular := by
  refine FileTree.regular_dir ⟨by decide +kernel, by decide +kernel⟩ ?_
  rw [List.forall_mem_singleton]
  refine FileTree.regular_dir ⟨by decide +kernel, by decide +kernel⟩ ?_
  rw [List.forall_mem_cons, List.forall_mem_singleton]
  refine ⟨FileTree.regular_file _, ?_⟩
  refine FileTree.regular_dir ⟨by decide +kernel, by decide +kernel⟩ ?_
  rw [List.forall_mem_cons, List.forall_mem_singleton]
  exact ⟨FileTree.regular_file _, FileTree.regular_file _⟩

theorem sampleDisk_searchable :
    sampleDisk.Searchable .all (.ofText ".") [work] ["src", "*.js"] ["src/old*"] where
  regular := sampleDisk_regular
  leads := ⟨rfl, rfl⟩
  descends entry hentry := by
    have hall : ["src", "*.js"].all (fun entry => (FilePath.ofText entry).isAbsolute = false ∧
        [dot, dot] ∉ (FilePath.ofText entry).segments) = true := by decide +kernel
    have h := of_decide_eq_true (List.all_eq_true.mp hall entry hentry)
    exact ⟨h.1, h.2⟩
  accepted _ _ := rfl
  walkable entry hentry _ := by
    refine Disk.walkable_of_nodes sampleDisk_regular ?_
    have hall : ["src", "*.js"].all (fun entry =>
        (sampleDisk.tree.get? ([work] ++ (searchStart entry).names)).all fun t =>
          (t.nodes ((FilePath.ofText ".").join (searchStart entry))).all fun node => node.1.IsShort) =
        true := by decide +kernel
    exact List.all_eq_true.mp hall entry hentry

theorem sample_script_selected :
    sampleDisk.Searchable .all (.ofText ".") [work] ["src", "*.js"] ["src/old*"] ∧
    ∃ files, sampleDisk.sourceFiles .all (.ofText ".") ["src", "*.js"] ["src/old*"] = .ok files ∧
      [.current, .normal (Utf8.bytesOf "src"), .normal (Utf8.bytesOf "a.js")] ∈
        files.map FilePath.components ∧
      ∃ files', sampleDisk.sourceFiles .all (.ofText ".") ["*.js", "src", "*.js"] ["src/old*"] =
        .ok files' ∧ files'.map FilePath.components = files.map FilePath.components := by
  have hscript : sampleDisk.HasScript [work] [Utf8.bytesOf "src", Utf8.bytesOf "a.js"] :=
    ⟨⟨some "", rfl⟩, Utf8.bytesOf "a.js", rfl, Utf8.bytesOf "a", by decide, rfl⟩
  have hselects : Selects "src" [Utf8.bytesOf "src", Utf8.bytesOf "a.js"] :=
    .directory (by decide +kernel) (List.cons_ne_nil (Utf8.bytesOf "a.js") [])
  have hkept : ∀ glob ∈ ["src/old*"],
      Glob.matchesNames ⟨glob⟩ [Utf8.bytesOf "src", Utf8.bytesOf "a.js"] = false := by
    decide +kernel
  obtain ⟨files, hfiles, -, hmem, hsame⟩ := Disk.sourceFiles_exact sampleDisk_searchable
  refine ⟨sampleDisk_searchable, files, hfiles,
    (hmem _).mpr ⟨[Utf8.bytesOf "src", Utf8.bytesOf "a.js"], rfl, ?_⟩, hsame _ _ ?_ ?_⟩
  · exact ⟨hscript, ⟨"src", by simp, by decide +kernel, hselects⟩, hkept⟩
  · grind
  · grind

/-- The empty path stands for the working directory, but under it a glob without a name in front
selects nothing: the script that it describes is selected by its name, or under a single dot. -/
theorem empty_root_selects_nothing :
    sampleDisk.IsChosen (.ofText "") sampleDisk.cwd ["*.js"] [] [Utf8.bytesOf "main.js"] ∧
    sampleDisk.sourceFiles .all (.ofText "") ["*.js"] [] = .ok [] ∧
    sampleDisk.sourceFiles .all (.ofText "") ["main.js"] [] = .ok [.ofText "main.js"] ∧
    sampleDisk.sourceFiles .all (.ofText ".") ["*.js"] [] = .ok [.ofText "./main.js"] := by
  have hscript : sampleDisk.HasScript sampleDisk.cwd [Utf8.bytesOf "main.js"] :=
    ⟨⟨some "", rfl⟩, Utf8.bytesOf "main.js", rfl, Utf8.bytesOf "main", by decide, rfl⟩
  have hselects : Selects "*.js" [Utf8.bytesOf "main.js"] :=
    .glob (by decide +kernel) (by decide +kernel) (by decide +kernel)
  refine ⟨⟨hscript, ⟨"*.js", by simp, by decide +kernel, hselects⟩, by simp⟩, ?_, ?_, ?_⟩ <;>
    decide +kernel

end Sample

end ArrowCheck
