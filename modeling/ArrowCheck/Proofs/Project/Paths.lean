import ArrowCheck.Project.Path
import ArrowCheck.Proofs.Text.Utf8
import Mathlib.Data.List.Basic

namespace ArrowCheck

section Splitting

variable {α : Type} [DecidableEq α] {sep c : α} {cs part : List α} {parts rest : List (List α)}

theorem splitPath_eq_splitOn (cs : List α) : splitPath sep cs = cs.splitOn sep := by
  induction cs with
  | nil => rfl
  | cons c cs ih =>
    rw [List.splitOn_cons_eq_if_modifyHead, ← ih, splitPath]
    by_cases hc : c = sep
    · simp [hc]
    · cases hcs : splitPath sep cs with
      | nil => exact absurd (ih.symm.trans hcs) (List.splitOn_ne_nil sep cs)
      | cons part parts => simp [hc]

theorem splitPath_ne_nil (cs : List α) : splitPath sep cs ≠ [] := by
  rw [splitPath_eq_splitOn]
  exact List.splitOn_ne_nil sep cs

theorem splitPath_append_separator (front back : List α) :
    splitPath sep (front ++ sep :: back) = splitPath sep front ++ splitPath sep back := by
  simp only [splitPath_eq_splitOn]
  exact List.splitOn_append_cons_self front back

theorem splitPath_eq_singleton (h : sep ∉ part) : splitPath sep part = [part] := by
  rw [splitPath_eq_splitOn]
  exact List.splitOn_eq_singleton h

theorem splitPath_cons_separator (h : sep ∉ part) (cs : List α) :
    splitPath sep (part ++ sep :: cs) = part :: splitPath sep cs := by
  rw [splitPath_append_separator, splitPath_eq_singleton h]
  rfl

theorem splitPath_intercalate (hparts : ∀ part ∈ parts, sep ∉ part) (hne : parts ≠ []) :
    splitPath sep ([sep].intercalate parts) = parts := by
  rw [splitPath_eq_splitOn]
  exact List.splitOn_intercalate sep hparts hne

/-- A text is a part without separators, or such a part in front of a separator and another text. -/
theorem separated_induction (sep : α) {motive : List α → Prop} (last : ∀ part, sep ∉ part → motive part)
    (first : ∀ part cs, sep ∉ part → motive cs → motive (part ++ sep :: cs)) (cs : List α) :
    motive cs := by
  induction hlen : cs.length using Nat.strongRecOn generalizing cs with
  | ind n ih =>
    by_cases hcs : sep ∈ cs
    · obtain ⟨part, rest, rfl, hpart⟩ := List.eq_append_cons_of_mem hcs
      refine first part rest hpart (ih rest.length ?_ rest rfl)
      rw [← hlen, List.length_append, List.length_cons]
      omega
    · exact last cs hcs

theorem not_mem_of_mem_splitPath (h : part ∈ splitPath sep cs) : sep ∉ part := by
  induction cs using separated_induction sep with
  | last cs hcs =>
    rw [splitPath_eq_singleton hcs, List.mem_singleton] at h
    rwa [h]
  | first front cs hfront ih =>
    rw [splitPath_cons_separator hfront, List.mem_cons] at h
    rcases h with rfl | h
    · exact hfront
    · exact ih h

theorem mem_of_mem_splitPath (h : part ∈ splitPath sep cs) (hc : c ∈ part) : c ∈ cs := by
  induction cs using separated_induction sep with
  | last cs hcs =>
    rw [splitPath_eq_singleton hcs, List.mem_singleton] at h
    rwa [← h]
  | first front cs hfront ih =>
    rw [splitPath_cons_separator hfront, List.mem_cons] at h
    rcases h with rfl | h
    · exact List.mem_append_left _ hc
    · exact List.mem_append_right _ (List.mem_cons_of_mem _ (ih h))

theorem mem_splitPath_of_mem (h : c ∈ cs) (hc : c ≠ sep) : ∃ part ∈ splitPath sep cs, c ∈ part := by
  induction cs using separated_induction sep with
  | last cs hcs => exact ⟨cs, by simp [splitPath_eq_singleton hcs], h⟩
  | first front cs hfront ih =>
    rw [splitPath_cons_separator hfront]
    rcases List.mem_append.mp h with h | h
    · exact ⟨front, List.mem_cons_self, h⟩
    · obtain ⟨part, hpart, hmem⟩ := ih (List.mem_of_ne_of_mem hc h)
      exact ⟨part, List.mem_cons_of_mem _ hpart, hmem⟩

theorem eq_of_splitPath_eq_singleton (h : splitPath sep cs = [part]) : cs = part := by
  induction cs using separated_induction sep with
  | last cs hcs =>
    rw [splitPath_eq_singleton hcs] at h
    exact (List.cons.inj h).1
  | first front cs hfront _ =>
    rw [splitPath_cons_separator hfront] at h
    exact absurd (List.cons.inj h).2 (splitPath_ne_nil cs)

theorem eq_append_of_splitPath_eq (h : splitPath sep cs = parts ++ rest) (hparts : parts ≠ [])
    (hrest : rest ≠ []) : ∃ front back, cs = front ++ sep :: back ∧
      splitPath sep front = parts ∧ splitPath sep back = rest := by
  induction parts generalizing cs with
  | nil => exact absurd rfl hparts
  | cons part parts ih =>
    induction cs using separated_induction sep with
    | last cs hcs =>
      rw [splitPath_eq_singleton hcs, List.cons_append, List.cons.injEq] at h
      exact absurd (List.append_eq_nil_iff.mp h.2.symm).2 hrest
    | first front cs hfront _ =>
      rw [splitPath_cons_separator hfront, List.cons_append, List.cons.injEq] at h
      obtain ⟨rfl, h⟩ := h
      by_cases hne : parts = []
      · subst parts
        exact ⟨front, cs, rfl, splitPath_eq_singleton hfront, h⟩
      · obtain ⟨front', back, rfl, hfront', hback⟩ := ih h hne
        refine ⟨front ++ sep :: front', back, by simp, ?_, hback⟩
        rw [splitPath_cons_separator hfront, hfront']

theorem splitPath_encode (cs : List Char) :
    splitPath separator (Utf8.encode cs) = (splitPath '/' cs).map Utf8.encode := by
  have hsep : ∀ {cs}, '/' ∉ cs → separator ∉ Utf8.encode cs :=
    fun h hmem => h (Utf8.mem_of_mem_encode hmem rfl (by decide))
  induction cs using separated_induction '/' with
  | last cs hcs =>
    rw [splitPath_eq_singleton hcs, splitPath_eq_singleton (hsep hcs)]
    rfl
  | first front cs hfront ih =>
    have hencode : Utf8.encode (front ++ '/' :: cs) = Utf8.encode front ++ separator :: Utf8.encode cs :=
      List.flatMap_append
    rw [hencode, splitPath_cons_separator (hsep hfront), splitPath_cons_separator hfront, ih]
    rfl

end Splitting

section Components

variable {segment : FileName} {s : Component}

theorem FilePath.componentOf?_eq_some : componentOf? segment = some s ↔
    segment ≠ [] ∧ segment ≠ [dot] ∧
      (segment = [dot, dot] ∧ s = .parent ∨ segment ≠ [dot, dot] ∧ s = .normal segment) := by
  unfold componentOf?
  grind

theorem FilePath.componentOf?_eq_none :
    componentOf? segment = none ↔ segment = [] ∨ segment = [dot] := by
  unfold componentOf?
  grind

end Components

/-- A name can stand between separators, and is no step to the same place or up. -/
structure IsName (name : FileName) : Prop where
  no_separator : separator ∉ name
  component : FilePath.componentOf? name = some (.normal name)

theorem IsName.ne {name : FileName} (h : IsName name) : name ≠ [] ∧ name ≠ [dot] ∧ name ≠ [dot, dot] := by
  obtain ⟨hempty, hdot, ⟨-, h⟩ | ⟨hup, -⟩⟩ := FilePath.componentOf?_eq_some.mp h.component
  · cases h
  · exact ⟨hempty, hdot, hup⟩

namespace FilePath

variable {base p : FilePath} {name segment : FileName} {names segments : List FileName} {b : UInt8}

theorem no_separator_of_mem_segments (h : segment ∈ p.segments) : separator ∉ segment :=
  not_mem_of_mem_splitPath h

def namesOf (segments : List FileName) : List FileName :=
  (segments.filterMap componentOf?).filterMap Component.name?

theorem names_eq (p : FilePath) : p.names = namesOf p.segments := by
  simp only [names, components]
  split
  · rfl
  · split <;> rfl

theorem isName_of_mem_names (h : name ∈ p.names) : name ∈ p.segments ∧ IsName name := by
  rw [names_eq] at h
  obtain ⟨s, hs, hname⟩ := List.mem_filterMap.mp h
  obtain ⟨segment, hsegment, hcomponent⟩ := List.mem_filterMap.mp hs
  cases s with
  | root | current | parent => cases hname
  | normal =>
    cases hname
    obtain ⟨-, -, ⟨-, h⟩ | ⟨-, h⟩⟩ := componentOf?_eq_some.mp hcomponent
    · cases h
    · cases h
      exact ⟨hsegment, no_separator_of_mem_segments hsegment, hcomponent⟩

theorem isName_of_mem_segments (hup : [dot, dot] ∉ p.segments) (h : segment ∈ p.segments)
    (hempty : segment ≠ []) (hdot : segment ≠ [dot]) : IsName segment := by
  refine ⟨no_separator_of_mem_segments h, ?_⟩
  exact componentOf?_eq_some.mpr ⟨hempty, hdot, .inr ⟨fun heq => hup (heq ▸ h), rfl⟩⟩

/-- A byte of a path stands in one of its names, if it is no separator and no dot. -/
theorem exists_mem_names (hup : [dot, dot] ∉ p.segments) (hb : b ∈ p.bytes) (hsep : b ≠ separator)
    (hdot : b ≠ dot) : ∃ name ∈ p.names, b ∈ name := by
  obtain ⟨segment, hsegment, hmem⟩ := mem_splitPath_of_mem hb hsep
  have hname : IsName segment := by
    refine isName_of_mem_segments hup hsegment ?_ ?_ <;> rintro rfl <;> simp [hdot] at hmem
  refine ⟨_, ?_, hmem⟩
  rw [names_eq]
  exact List.mem_filterMap.mpr ⟨_, List.mem_filterMap.mpr ⟨_, hsegment, hname.component⟩, rfl⟩

section Parts

theorem namesOf_cons : namesOf (segment :: segments) = namesOf [segment] ++ namesOf segments := by
  rw [← List.singleton_append, namesOf, List.filterMap_append, List.filterMap_append]
  rfl

theorem namesOf_dot (h : segment = [] ∨ segment = [dot]) : namesOf [segment] = [] := by
  rcases h with rfl | rfl <;> rfl

theorem namesOf_singleton (hempty : segment ≠ []) (hdot : segment ≠ [dot]) (hup : segment ≠ [dot, dot]) :
    namesOf [segment] = [segment] := by
  simp [namesOf, componentOf?, Component.name?, hempty, hdot, hup]

/-- The last part is empty or a single dot: the path leads to a directory or nowhere. -/
def endsInDirectory (segments : List FileName) : Bool :=
  segments.getLast?.any fun segment => segment = [] || segment = [dot]

theorem endsInDirectory_singleton :
    endsInDirectory [segment] = true ↔ segment = [] ∨ segment = [dot] := by
  simp [endsInDirectory]

theorem endsInDirectory_cons (h : segments ≠ []) :
    endsInDirectory (segment :: segments) = endsInDirectory segments := by
  obtain ⟨next, rest, rfl⟩ := List.exists_cons_of_ne_nil h
  rw [endsInDirectory, List.getLast?_cons_cons]
  rfl

theorem endsInDirectory_of_namesOf_eq_nil (hne : segments ≠ []) (hup : [dot, dot] ∉ segments)
    (h : namesOf segments = []) : endsInDirectory segments = true := by
  induction segments with
  | nil => exact absurd rfl hne
  | cons segment rest ih =>
    rw [List.mem_cons, not_or] at hup
    rw [namesOf_cons, List.append_eq_nil_iff] at h
    by_cases hrest : rest = []
    · subst hrest
      rw [endsInDirectory_singleton]
      by_contra hend
      obtain ⟨hempty, hdot⟩ := not_or.mp hend
      rw [namesOf_singleton hempty hdot (Ne.symm hup.1)] at h
      exact List.cons_ne_nil _ _ h.1
    · rw [endsInDirectory_cons hrest]
      exact ih hrest hup.2 h.2

theorem steps_eq_names (h : [dot, dot] ∉ p.segments) :
    p.segments.filterMap componentOf? = p.names.map .normal := by
  rw [names_eq]
  generalize p.segments = segments at h
  induction segments with
  | nil => rfl
  | cons segment segments ih =>
    rw [List.mem_cons, not_or] at h
    rw [namesOf_cons]
    by_cases hdot : segment = [] ∨ segment = [dot]
    · rw [namesOf_dot hdot, List.filterMap_cons_none (componentOf?_eq_none.mpr hdot)]
      exact ih h.2
    · obtain ⟨hempty, hdot⟩ := not_or.mp hdot
      have hs := componentOf?_eq_some.mpr ⟨hempty, hdot, .inr ⟨Ne.symm h.1, rfl⟩⟩
      rw [namesOf_singleton hempty hdot (Ne.symm h.1), List.filterMap_cons_some hs, ih h.2]
      rfl

end Parts

section Joining

theorem segments_join (hbase : base.bytes ≠ []) (hp : p.isAbsolute = false) :
    ∃ front, front ≠ [] ∧ (base.segments = front ∨ base.segments = front ++ [[]]) ∧
      (base.join p).segments = front ++ p.segments := by
  by_cases hlast : base.bytes.getLast? = some separator
  · obtain ⟨bs, hbs⟩ := List.getLast?_eq_some_iff.mp hlast
    refine ⟨splitPath separator bs, splitPath_ne_nil bs, .inr ?_, ?_⟩
    · rw [segments, hbs, splitPath_append_separator]
      simp [splitPath]
    · simp [join, hp, segments, hbs, splitPath_append_separator]
  · refine ⟨base.segments, splitPath_ne_nil _, .inl rfl, ?_⟩
    simp [join, hp, hbase, hlast, segments, splitPath_append_separator]

theorem mem_bytes_join (hp : p.isAbsolute = false) (hb : b ∈ (base.join p).bytes) :
    b ∈ base.bytes ∨ b = separator ∨ b ∈ p.bytes := by
  simp only [join, hp, Bool.false_eq_true, ↓reduceIte] at hb
  split at hb <;> simp at hb <;> tauto

theorem join_bytes_ne (hbase : base.bytes ≠ []) (hp : p.isAbsolute = false) : (base.join p).bytes ≠ [] := by
  simp only [join, hp, Bool.false_eq_true, ↓reduceIte]
  split <;> simp [hbase]

theorem isAbsolute_join (hbase : base.bytes ≠ []) (hp : p.isAbsolute = false) :
    (base.join p).isAbsolute = base.isAbsolute := by
  obtain ⟨b, bs, hbs⟩ := List.exists_cons_of_ne_nil hbase
  simp only [join, hp, Bool.false_eq_true, ↓reduceIte]
  split <;> simp [isAbsolute, hbs]

theorem components_join (hbase : base.bytes ≠ []) (hp : p.isAbsolute = false) :
    (base.join p).components = base.components ++ p.segments.filterMap componentOf? := by
  obtain ⟨front, hne, hfront, hsegments⟩ := segments_join hbase hp
  have hsteps : base.segments.filterMap componentOf? = front.filterMap componentOf? := by
    rcases hfront with h | h
    · rw [h]
    · rw [h, List.filterMap_append]
      exact List.append_nil _
  have hhead : ∀ segments, (front ++ segments).head? = front.head? := by
    obtain ⟨first, rest, rfl⟩ := List.exists_cons_of_ne_nil hne
    exact fun _ => rfl
  have hbegin : base.segments.head? = front.head? := by
    rcases hfront with h | h
    · rw [h]
    · rw [h, hhead]
  simp only [components, isAbsolute_join hbase hp, hsegments, hsteps, hbegin, hhead,
    List.filterMap_append]
  split
  · rfl
  · split <;> rfl

end Joining

section Named

theorem segments_name (h : separator ∉ name) : (⟨name⟩ : FilePath).segments = [name] :=
  splitPath_eq_singleton h

theorem isAbsolute_name (h : separator ∉ name) : (⟨name⟩ : FilePath).isAbsolute = false := by
  rw [isAbsolute, decide_eq_false_iff_not]
  exact fun hhead => h (List.mem_of_mem_head? hhead)

def ofNames (names : List FileName) : FilePath := ⟨[separator].intercalate names⟩

theorem segments_ofNames (h : ∀ name ∈ names, separator ∉ name) (hne : names ≠ []) :
    (ofNames names).segments = names := splitPath_intercalate h hne

theorem isAbsolute_ofNames (h : ∀ name ∈ names, IsName name) : (ofNames names).isAbsolute = false := by
  rw [isAbsolute, decide_eq_false_iff_not]
  intro hhead
  obtain ⟨cs, hcs⟩ := List.head?_eq_some_iff.mp hhead
  have hne : names ≠ [] := by
    rintro rfl
    cases hcs
  -- a separator in front would leave an empty name
  have hempty : [] ∈ (ofNames names).segments := by simp [segments, hcs, splitPath]
  rw [segments_ofNames (fun name hname => (h name hname).no_separator) hne] at hempty
  exact (h _ hempty).ne.1 rfl

theorem components_ofNames (h : ∀ name ∈ names, IsName name) :
    (ofNames names).components = names.map .normal := by
  by_cases hne : names = []
  · subst names
    rfl
  · have hsegments := segments_ofNames (fun name hname => (h name hname).no_separator) hne
    have hdot : names.head? ≠ some [dot] :=
      fun hhead => (h _ (List.mem_of_mem_head? hhead)).ne.2.1 rfl
    have hsteps : names.filterMap componentOf? = names.map .normal :=
      List.filterMap_eq_map_iff_forall_eq_some.mpr fun name hname => (h name hname).component
    simp only [components, isAbsolute_ofNames h, hsegments, hdot, hsteps, Bool.false_eq_true, ↓reduceIte]

theorem names_ofNames (h : ∀ name ∈ names, IsName name) : (ofNames names).names = names := by
  rw [FilePath.names, components_ofNames h, List.filterMap_map]
  exact List.filterMap_some

theorem no_up_ofNames (h : ∀ name ∈ names, IsName name) : [dot, dot] ∉ (ofNames names).segments := by
  by_cases hne : names = []
  · subst hne
    decide
  · rw [segments_ofNames (fun name hname => (h name hname).no_separator) hne]
    exact fun hmem => (h _ hmem).ne.2.2 rfl

def below (base : FilePath) (names : List FileName) : FilePath :=
  names.foldl (fun p name => p.join ⟨name⟩) base

theorem components_below (hbase : base.bytes ≠ []) (h : ∀ name ∈ names, IsName name) :
    (base.below names).components = base.components ++ names.map .normal := by
  induction names generalizing base with
  | nil => exact (List.append_nil _).symm
  | cons name names ih =>
    obtain ⟨hname, hnames⟩ := List.forall_mem_cons.mp h
    have hrel := isAbsolute_name hname.no_separator
    have hstep : (base.join ⟨name⟩).components = base.components ++ [.normal name] := by
      rw [components_join hbase hrel, segments_name hname.no_separator,
        List.filterMap_cons_some hname.component]
      rfl
    have hnext := ih (join_bytes_ne hbase hrel) hnames
    rw [hstep, List.append_assoc] at hnext
    exact hnext

theorem namesBelow?_eq (h : p.components = base.components ++ names.map .normal) :
    p.namesBelow? base = some names := by
  have hfront : base.components.isPrefixOf p.components = true := by
    rw [h]
    exact List.isPrefixOf_iff_prefix.mpr (List.prefix_append _ _)
  rw [namesBelow?, if_pos hfront, h, List.drop_left, List.filterMap_map]
  exact congrArg some List.filterMap_some

end Named

end FilePath

end ArrowCheck
