import ArrowCheck.Project.FileTree
import ArrowCheck.Proofs.Project.Paths

namespace ArrowCheck

structure IsStorable (name : FileName) : Prop extends IsName name where
  no_zero : 0 ∉ name
  size_le : name.length ≤ nameLimit

instance : DecidablePred IsStorable := fun name =>
  decidable_of_iff
    ((separator ∉ name ∧ FilePath.componentOf? name = some (.normal name)) ∧ 0 ∉ name ∧
      name.length ≤ nameLimit)
    ⟨fun h => ⟨⟨h.1.1, h.1.2⟩, h.2.1, h.2.2⟩,
      fun h => ⟨⟨h.no_separator, h.component⟩, h.no_zero, h.size_le⟩⟩

namespace FilePath

variable {root p : FilePath}

/-- The path goes down from wherever it starts. -/
structure Descends (p : FilePath) : Prop where
  relative : p.isAbsolute = false
  no_up : [dot, dot] ∉ p.segments

/-- The path is short enough to be one. -/
def IsShort (p : FilePath) : Prop := p.bytes.length < pathLimit

instance : DecidablePred IsShort := fun p => inferInstanceAs (Decidable (p.bytes.length < pathLimit))

theorem isUsable_iff : p.isUsable = true ↔ p.IsShort ∧ 0 ∉ p.bytes := by
  simp [isUsable, IsShort]

theorem isUsable_join (hroot : root.isUsable = true) (hp : p.Descends)
    (hnames : ∀ name ∈ p.names, 0 ∉ name) : (root.join p).isUsable = true ↔ (root.join p).IsShort := by
  have hzero : 0 ∉ (root.join p).bytes := by
    intro h
    rcases mem_bytes_join hp.relative h with h | h | h
    · exact (isUsable_iff.mp hroot).2 h
    · cases h
    · obtain ⟨name, hname, hmem⟩ := exists_mem_names hp.no_up h (by decide) (by decide)
      exact hnames name hname hmem
  rw [isUsable_iff, and_iff_left hzero]

theorem no_zero_below {names : List FileName} (hroot : 0 ∉ root.bytes)
    (hnames : ∀ name ∈ names, IsStorable name) : 0 ∉ (root.below names).bytes := by
  induction names generalizing root with
  | nil => exact hroot
  | cons name names ih =>
    obtain ⟨hname, hnames⟩ := List.forall_mem_cons.mp hnames
    refine ih (fun h => ?_) hnames
    rcases mem_bytes_join (isAbsolute_name hname.no_separator) h with h | h | h
    · exact hroot h
    · cases h
    · exact hname.no_zero h

end FilePath

namespace FileTree

variable {t child : FileTree} {es : List (FileName × FileTree)} {names rest place : List FileName}
  {name : FileName} {p : FilePath}

/-- What a directory can hold: storable names, and none of them twice. -/
structure IsListing (es : List (FileName × FileTree)) : Prop where
  storable : ∀ e ∈ es, IsStorable e.1
  distinct : (es.map Prod.fst).Nodup

def Regular (t : FileTree) : Prop := ∀ place es, t.get? place = some (.dir es) → IsListing es

theorem get?_cons : t.get? (name :: names) = (Table.getEntry? name t.entries).bind (·.get? names) := by
  rw [get?]
  cases Table.getEntry? name t.entries <;> rfl

theorem get?_append : t.get? (names ++ rest) = (t.get? names).bind (·.get? rest) := by
  induction names generalizing t with
  | nil => rfl
  | cons name names ih =>
    rw [List.cons_append, get?_cons, get?_cons]
    cases Table.getEntry? name t.entries with
    | none => rfl
    | some child => exact ih

theorem get?_append_eq_some : t.get? (names ++ rest) = some child ↔
    ∃ u, t.get? names = some u ∧ u.get? rest = some child := by
  rw [get?_append, Option.bind_eq_some_iff]

theorem Regular.below (ht : t.Regular) (h : t.get? place = some child) : child.Regular := by
  intro names es hes
  exact ht (place ++ names) es (get?_append_eq_some.mpr ⟨child, h, hes⟩)

theorem getEntry?_eq_some (h : (es.map Prod.fst).Nodup) :
    Table.getEntry? name es = some child ↔ (name, child) ∈ es := by
  induction es with
  | nil => simp [Table.getEntry?]
  | cons e es ih =>
    obtain ⟨first, t⟩ := e
    obtain ⟨hfirst, hrest⟩ := List.nodup_cons.mp h
    rw [Table.getEntry?, List.mem_cons, Prod.mk.injEq]
    by_cases he : first = name
    · subst he
      have hother : (first, child) ∉ es := fun hmem => hfirst (List.mem_map.mpr ⟨_, hmem, rfl⟩)
      simp [hother, eq_comm]
    · simp [he, Ne.symm he, ih hrest]

theorem Regular.get?_dir_cons (ht : (dir es).Regular) :
    (dir es).get? (name :: names) = some child ↔ ∃ t, (name, t) ∈ es ∧ t.get? names = some child := by
  rw [get?_cons, Option.bind_eq_some_iff]
  exact exists_congr fun t => and_congr_left fun _ => getEntry?_eq_some (ht [] es rfl).distinct

theorem regular_file (text : Option String) : (file text).Regular := by
  intro place es h
  cases place <;> cases h

theorem regular_dir (hlisting : IsListing es) (hes : ∀ e ∈ es, e.2.Regular) : (dir es).Regular := by
  intro place es' h
  cases place with
  | nil =>
    cases h
    exact hlisting
  | cons name names =>
    rw [get?_cons] at h
    obtain ⟨t, ht, hnames⟩ := Option.bind_eq_some_iff.mp h
    exact hes _ ((getEntry?_eq_some hlisting.distinct).mp ht) names es' hnames

theorem isDir_of_get? (h : t.get? names = some child) (hne : names ≠ []) : t.isDir = true := by
  cases t with
  | dir es => rfl
  | file text =>
    cases names with
    | nil => exact absurd rfl hne
    | cons name names => cases h

theorem any_isDir_of_get? (h : t.get? (place ++ names) = some child)
    (hdir : names = [] → child.isDir = true) : (t.get? place).any isDir = true := by
  obtain ⟨u, hu, hnames⟩ := get?_append_eq_some.mp h
  rw [hu]
  by_cases hne : names = []
  · subst hne
    cases hnames
    exact hdir rfl
  · exact isDir_of_get? hnames hne

theorem Regular.of_mem (ht : (dir es).Regular) (h : (name, child) ∈ es) : child.Regular := by
  have hget : (dir es).get? [name] = some child := ht.get?_dir_cons.mpr ⟨child, h, rfl⟩
  exact ht.below hget

theorem Regular.isStorable (ht : t.Regular) (h : t.get? names = some child) :
    ∀ name ∈ names, IsStorable name := by
  induction names generalizing t with
  | nil => exact fun _ h => absurd h List.not_mem_nil
  | cons name names ih =>
    cases t with
    | file text => cases h
    | dir es =>
      obtain ⟨t, hmem, hrest⟩ := ht.get?_dir_cons.mp h
      exact List.forall_mem_cons.mpr ⟨(ht [] es rfl).storable _ hmem, ih (ht.of_mem hmem) hrest⟩

theorem Regular.isName (ht : t.Regular) (h : t.get? (place ++ names) = some child) :
    ∀ name ∈ names, IsName name :=
  fun name hname => (ht.isStorable h name (List.mem_append_right place hname)).toIsName

mutual

theorem mem_nodes (t : FileTree) (ht : t.Regular) (base : FilePath) :
    (p, child) ∈ t.nodes base ↔ ∃ names, t.get? names = some child ∧ p = base.below names := by
  cases t with
  | file text =>
    rw [nodes, List.mem_singleton, Prod.mk.injEq]
    constructor
    · rintro ⟨rfl, rfl⟩
      exact ⟨[], rfl, rfl⟩
    · rintro ⟨_ | ⟨name, names⟩, h, rfl⟩
      · cases h
        exact ⟨rfl, rfl⟩
      · cases h
  | dir es =>
    rw [nodes, List.mem_cons, Prod.mk.injEq, mem_nodesIn es (fun e he => ht.of_mem he) base]
    constructor
    · rintro (⟨rfl, rfl⟩ | ⟨⟨name, t⟩, he, names, h, rfl⟩)
      · exact ⟨[], rfl, rfl⟩
      · exact ⟨name :: names, ht.get?_dir_cons.mpr ⟨t, he, h⟩, rfl⟩
    · rintro ⟨_ | ⟨name, names⟩, h, rfl⟩
      · cases h
        exact .inl ⟨rfl, rfl⟩
      · obtain ⟨t, he, h⟩ := ht.get?_dir_cons.mp h
        exact .inr ⟨(name, t), he, names, h, rfl⟩
termination_by structural t

theorem mem_nodesIn (es : List (FileName × FileTree)) (hes : ∀ e ∈ es, e.2.Regular) (base : FilePath) :
    (p, child) ∈ nodesIn base es ↔ ∃ e ∈ es, ∃ names,
      e.2.get? names = some child ∧ p = (base.join ⟨e.1⟩).below names := by
  cases es with
  | nil => simp [nodesIn]
  | cons e es =>
    obtain ⟨he, hes⟩ := List.forall_mem_cons.mp hes
    rw [nodesIn, List.mem_append, mem_nodesOf e he base, mem_nodesIn es hes base,
      List.exists_mem_cons_iff]
termination_by structural es

theorem mem_nodesOf (e : FileName × FileTree) (he : e.2.Regular) (base : FilePath) :
    (p, child) ∈ nodesOf base e ↔ ∃ names,
      e.2.get? names = some child ∧ p = (base.join ⟨e.1⟩).below names := by
  cases e with
  | mk name t => exact mem_nodes t he (base.join ⟨name⟩)
termination_by structural e

end

theorem isDir_eq_false : t.isDir = false ↔ ∃ text, t = .file text := by
  cases t <;> simp [isDir]

theorem isDir_eq_true : t.isDir = true ↔ ∃ es, t = .dir es := by
  cases t <;> simp [isDir]

theorem mem_files (ht : t.Regular) (base : FilePath) :
    p ∈ t.files base ↔ ∃ names text, t.get? names = some (.file text) ∧ p = base.below names := by
  simp only [files, List.mem_map, List.mem_filter, Prod.exists, exists_and_right, exists_eq_right,
    mem_nodes t ht, Bool.not_eq_true', isDir_eq_false]
  grind

theorem mem_unlisted (ht : t.Regular) (base : FilePath) :
    p ∈ t.unlisted base ↔ ∃ names es, t.get? names = some (.dir es) ∧ p = base.below names ∧
      p.isUsable = false := by
  simp only [unlisted, List.mem_map, List.mem_filter, Prod.exists, exists_and_right, exists_eq_right,
    mem_nodes t ht, Bool.and_eq_true, Bool.not_eq_true', isDir_eq_true]
  grind

end FileTree

namespace Disk

variable {d : Disk} {place q names rest segments : List FileName} {segment : FileName} {t : FileTree}
  {text : Option String} {root p f : FilePath}

theorem step_eq_ok (ht : d.tree.Regular) (hup : segment ≠ [dot, dot]) :
    d.step place segment = .ok q ↔ (d.tree.get? place).any FileTree.isDir = true ∧
      q = place ++ FilePath.namesOf [segment] ∧ (d.tree.get? q).isSome = true := by
  by_cases hdot : segment = [] ∨ segment = [dot]
  · have hplace : (d.tree.get? place).any FileTree.isDir = true → (d.tree.get? place).isSome = true :=
      Option.isSome_of_any
    grind [step, FilePath.namesOf_dot]
  · obtain ⟨hempty, hdot⟩ := not_or.mp hdot
    have hsize : (d.tree.get? (place ++ [segment])).isSome = true → segment.length ≤ nameLimit := by
      intro h
      obtain ⟨t, hget⟩ := Option.isSome_iff_exists.mp h
      exact (ht.isStorable hget segment (by simp)).size_le
    grind [step, FilePath.namesOf_singleton]

theorem foldlM_step_eq_ok (ht : d.tree.Regular) (hup : [dot, dot] ∉ segments)
    (hplace : (d.tree.get? place).isSome = true) :
    segments.foldlM d.step place = .ok q ↔ q = place ++ FilePath.namesOf segments ∧
      ∃ t, d.tree.get? q = some t ∧ (FilePath.endsInDirectory segments = true → t.isDir = true) := by
  induction segments generalizing place with
  | nil =>
    obtain ⟨t, hget⟩ := Option.isSome_iff_exists.mp hplace
    rw [List.foldlM_nil, show FilePath.namesOf [] = [] from rfl, List.append_nil]
    constructor
    · intro h
      cases h
      exact ⟨rfl, t, hget, fun h => absurd h Bool.false_ne_true⟩
    · rintro ⟨rfl, -⟩
      rfl
  | cons segment rest ih =>
    rw [List.mem_cons, not_or] at hup
    rw [List.foldlM_cons, FilePath.namesOf_cons, ← List.append_assoc]
    constructor
    · intro h
      cases hstep : d.step place segment with
      | error fault =>
        rw [hstep] at h
        cases h
      | ok next =>
        rw [hstep] at h
        obtain ⟨hdir, rfl, hnext⟩ := (step_eq_ok ht (Ne.symm hup.1)).mp hstep
        obtain ⟨rfl, t, hget, hend⟩ := (ih hup.2 hnext).mp h
        refine ⟨rfl, t, hget, fun hinside => ?_⟩
        by_cases hrest : rest = []
        · subst hrest
          -- a dot at the end is a step from the directory to itself
          have hsame : place ++ FilePath.namesOf [segment] ++ FilePath.namesOf [] = place := by
            rw [FilePath.namesOf_dot (FilePath.endsInDirectory_singleton.mp hinside), List.append_nil]
            exact List.append_nil place
          rw [← hsame, hget] at hdir
          exact hdir
        · rw [FilePath.endsInDirectory_cons hrest] at hinside
          exact hend hinside
    · rintro ⟨rfl, t, hget, hend⟩
      have hnext : (d.tree.get? (place ++ FilePath.namesOf [segment])).isSome = true := by
        obtain ⟨u, hu, -⟩ := FileTree.get?_append_eq_some.mp hget
        exact Option.isSome_iff_exists.mpr ⟨u, hu⟩
      have hdir : (d.tree.get? place).any FileTree.isDir = true := by
        rw [List.append_assoc, ← FilePath.namesOf_cons] at hget
        refine FileTree.any_isDir_of_get? hget fun hnames => hend ?_
        have hup' : [dot, dot] ∉ segment :: rest := by simp [hup]
        exact FilePath.endsInDirectory_of_namesOf_eq_nil (List.cons_ne_nil _ _) hup' hnames
      rw [(step_eq_ok ht (Ne.symm hup.1)).mpr ⟨hdir, rfl, hnext⟩]
      refine (ih hup.2 hnext).mpr ⟨rfl, t, hget, fun hinside => hend ?_⟩
      have hrest : rest ≠ [] := by
        rintro rfl
        exact Bool.false_ne_true hinside
      rw [FilePath.endsInDirectory_cons hrest, hinside]

theorem find_eq_ok : d.find p = .ok place ↔ p.bytes ≠ [] ∧ p.isUsable = true ∧
    p.segments.foldlM d.step (if p.isAbsolute then [] else d.cwd) = .ok place := by
  unfold find
  simp only [List.isEmpty_iff]
  grind

/-- The path leads to a directory. -/
structure LeadsTo (d : Disk) (root : FilePath) (place : List FileName) : Prop where
  found : d.find root = .ok place
  isDir : (d.tree.get? place).any FileTree.isDir = true

theorem LeadsTo.ne_nil (h : d.LeadsTo root place)
    (hfile : d.tree.get? (place ++ names) = some (.file text)) : names ≠ [] := by
  rintro rfl
  have hdir := h.isDir
  rw [List.append_nil] at hfile
  rw [hfile] at hdir
  cases hdir

theorem LeadsTo.front {front : List FileName} (h : d.LeadsTo root place)
    (hfront : root.segments = front ∨ root.segments = front ++ [[]]) :
    front.foldlM d.step (if root.isAbsolute then [] else d.cwd) = .ok place := by
  obtain ⟨-, -, hfold⟩ := find_eq_ok.mp h.found
  rcases hfront with hsegments | hsegments
  · rw [hsegments] at hfold
    exact hfold
  · rw [hsegments, List.foldlM_append] at hfold
    cases hplace : front.foldlM d.step (if root.isAbsolute then [] else d.cwd) with
    | error fault =>
      rw [hplace] at hfold
      cases hfold
    | ok q =>
      rw [hplace] at hfold
      have hstep : (d.step q [] >>= pure) = .ok place := hfold
      rw [bind_pure] at hstep
      grind [step]

theorem find_join (ht : d.tree.Regular) (hroot : d.LeadsTo root place) (hp : p.Descends) :
    d.find (root.join p) = .ok q ↔ (root.join p).IsShort ∧ q = place ++ p.names ∧
      ∃ t, d.tree.get? q = some t ∧ (FilePath.endsInDirectory p.segments = true → t.isDir = true) := by
  obtain ⟨hbase, husable, -⟩ := find_eq_ok.mp hroot.found
  obtain ⟨front, -, hfront, hsegments⟩ := FilePath.segments_join hbase hp.relative
  have hfold := foldlM_step_eq_ok ht hp.no_up (q := q) (Option.isSome_of_any hroot.isDir)
  rw [← FilePath.names_eq] at hfold
  rw [find_eq_ok, hsegments, FilePath.isAbsolute_join hbase hp.relative, List.foldlM_append,
    hroot.front hfront, and_iff_right (FilePath.join_bytes_ne hbase hp.relative), ← hfold]
  refine and_congr_left fun h => FilePath.isUsable_join husable hp fun name hname => ?_
  obtain ⟨rfl, t, hget, -⟩ := hfold.mp h
  exact (ht.isStorable hget name (List.mem_append_right place hname)).no_zero

theorem lookup?_join (ht : d.tree.Regular) (hroot : d.LeadsTo root place) (hp : p.Descends) :
    d.lookup? (root.join p) = some t ↔ (root.join p).IsShort ∧
      d.tree.get? (place ++ p.names) = some t ∧
      (FilePath.endsInDirectory p.segments = true → t.isDir = true) := by
  have hfind := fun q => find_join (q := q) ht hroot hp
  unfold lookup?
  cases h : d.find (root.join p) with
  | ok q =>
    obtain ⟨hshort, rfl, u, hget, hend⟩ := (hfind q).mp h
    grind
  | error fault =>
    have := hfind (place ++ p.names)
    grind

def filesAt (d : Disk) (p : FilePath) : List FilePath := (d.lookup? p).toList.flatMap (·.files p)

theorem mem_filesAt : f ∈ d.filesAt p ↔ ∃ t, d.lookup? p = some t ∧ f ∈ t.files p := by
  simp [filesAt]

/-- Behind the names of a path below a directory are files of the tree, and no file where the path asks
for a directory. -/
theorem mem_filesAt_join (ht : d.tree.Regular) (hroot : d.LeadsTo root place) (hp : p.Descends) :
    f ∈ d.filesAt (root.join p) ↔ (root.join p).IsShort ∧ ∃ rest text,
      d.tree.get? (place ++ (p.names ++ rest)) = some (.file text) ∧
      (FilePath.endsInDirectory p.segments = true → rest ≠ []) ∧ f = (root.join p).below rest := by
  rw [mem_filesAt]
  constructor
  · rintro ⟨t, hlookup, hf⟩
    obtain ⟨hshort, hget, hend⟩ := (lookup?_join ht hroot hp).mp hlookup
    obtain ⟨rest, text, hfile, rfl⟩ := (FileTree.mem_files (ht.below hget) _).mp hf
    refine ⟨hshort, rest, text, ?_, fun hinside => ?_, rfl⟩
    · rw [← List.append_assoc]
      exact FileTree.get?_append_eq_some.mpr ⟨t, hget, hfile⟩
    · rintro rfl
      cases hfile
      exact Bool.false_ne_true (hend hinside)
  · rintro ⟨hshort, rest, text, hfile, hend, rfl⟩
    rw [← List.append_assoc] at hfile
    obtain ⟨t, hget, hrest⟩ := FileTree.get?_append_eq_some.mp hfile
    have hdir := fun hinside => FileTree.isDir_of_get? hrest (hend hinside)
    exact ⟨t, (lookup?_join ht hroot hp).mpr ⟨hshort, hget, hdir⟩,
      (FileTree.mem_files (ht.below hget) _).mpr ⟨rest, text, hrest, rfl⟩⟩

theorem isDir_join (ht : d.tree.Regular) (hroot : d.LeadsTo root place) (hp : p.Descends)
    (hshort : (root.join p).IsShort) (h : d.tree.get? (place ++ (p.names ++ rest)) = some t)
    (hne : rest ≠ []) : d.isDir (root.join p) = true := by
  rw [← List.append_assoc] at h
  obtain ⟨u, hget, hrest⟩ := FileTree.get?_append_eq_some.mp h
  have hdir := FileTree.isDir_of_get? hrest hne
  rw [isDir, (lookup?_join ht hroot hp).mpr ⟨hshort, hget, fun _ => hdir⟩]
  exact hdir

/-- No directory at or below a path has too long a path, by which a walk would have to list it. -/
def Walkable (d : Disk) (root : FilePath) (place : List FileName) (p : FilePath) : Prop :=
  ∀ rest es, d.tree.get? (place ++ (p.names ++ rest)) = some (.dir es) →
    ((root.join p).below rest).IsShort

theorem walkable_of_nodes (ht : d.tree.Regular)
    (h : ((d.tree.get? (place ++ p.names)).all fun t =>
      (t.nodes (root.join p)).all fun node => node.1.IsShort) = true) : d.Walkable root place p := by
  intro rest es hdir
  rw [← List.append_assoc] at hdir
  obtain ⟨t, hget, hrest⟩ := FileTree.get?_append_eq_some.mp hdir
  have hnode := (FileTree.mem_nodes t (ht.below hget) (root.join p)).mpr ⟨rest, hrest, rfl⟩
  rw [hget, Option.all_some, List.all_eq_true] at h
  simpa using h _ hnode

theorem walk_cases (h : d.lookup? p = some t) :
    t.unlisted p = [] ∧ d.walk p = .ok (d.filesAt p) ∨ ∃ q ∈ t.unlisted p, d.walk p = .error q := by
  have hfiles : d.filesAt p = t.files p := by simp [filesAt, h]
  simp only [walk, h, hfiles]
  cases hsorted : (t.unlisted p).mergeSort FilePath.le with
  | nil => exact .inl ⟨by simpa using congrArg List.length hsorted, rfl⟩
  | cons q qs =>
    have hq : q ∈ (t.unlisted p).mergeSort FilePath.le := hsorted ▸ List.mem_cons_self
    exact .inr ⟨q, List.mem_mergeSort.mp hq, rfl⟩

theorem walk_join (ht : d.tree.Regular) (hroot : d.LeadsTo root place) (hp : p.Descends)
    (hwalk : d.Walkable root place p) (h : d.lookup? (root.join p) = some t) :
    d.walk (root.join p) = .ok (d.filesAt (root.join p)) := by
  rcases walk_cases h with ⟨-, h⟩ | ⟨q, hq, -⟩
  · exact h
  · obtain ⟨hshort, hget, -⟩ := (lookup?_join ht hroot hp).mp h
    obtain ⟨rest, es, hdir, rfl, hunusable⟩ := (FileTree.mem_unlisted (ht.below hget) _).mp hq
    have hplace := FileTree.get?_append_eq_some.mpr ⟨t, hget, hdir⟩
    rw [List.append_assoc] at hplace
    have hzero : 0 ∉ ((root.join p).below rest).bytes := by
      refine FilePath.no_zero_below ?_ ((ht.below hget).isStorable hdir)
      obtain ⟨q, hfind⟩ : ∃ q, d.find (root.join p) = .ok q := by
        unfold lookup? at h
        grind
      exact (FilePath.isUsable_iff.mp (find_eq_ok.mp hfind).2.1).2
    rw [FilePath.isUsable_iff.mpr ⟨hwalk rest es hplace, hzero⟩] at hunusable
    cases hunusable

theorem components_join_below (ht : d.tree.Regular) (hroot : d.LeadsTo root place) (hp : p.Descends)
    (h : d.tree.get? (place ++ (p.names ++ rest)) = some t) :
    ((root.join p).below rest).components = root.components ++ (p.names ++ rest).map .normal := by
  obtain ⟨hbase, -, -⟩ := find_eq_ok.mp hroot.found
  have hnames : ∀ name ∈ rest, IsName name := fun name hname =>
    ht.isName h name (List.mem_append_right p.names hname)
  rw [FilePath.components_below (FilePath.join_bytes_ne hbase hp.relative) hnames,
    FilePath.components_join hbase hp.relative, FilePath.steps_eq_names hp.no_up, List.append_assoc,
    List.map_append]

end Disk

end ArrowCheck
