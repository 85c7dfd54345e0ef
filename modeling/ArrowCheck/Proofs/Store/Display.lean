import ArrowCheck.Proofs.Typing.Safety

namespace ArrowCheck

mutual

/-- A finite type: a name, a free variable with the number of its cell, or an object shape. -/
inductive TypeTree
  | named (name : String)
  | free (id : TypeId)
  | record (fields : FieldTrees)

inductive FieldTrees
  | nil
  | cons (name : String) (type : TypeTree) (rest : FieldTrees)

end

mutual

/-- The text of a type with nothing left out. -/
def TypeTree.text : TypeTree → String
  | .named name => name
  | .free id => "'t" ++ toString id
  | .record fields => "\x7b" ++ ", ".intercalate fields.texts ++ "\x7d"
termination_by structural t => t

def FieldTrees.texts : FieldTrees → List String
  | .nil => []
  | .cons name type rest => (name ++ ": " ++ type.text) :: rest.texts
termination_by structural fs => fs

end

mutual

def TypeTree.levels : TypeTree → Nat
  | .named _ | .free _ => 0
  | .record fields => fields.levels + 1
termination_by structural t => t

def FieldTrees.levels : FieldTrees → Nat
  | .nil => 0
  | .cons _ type rest => max type.levels rest.levels
termination_by structural fs => fs

end

namespace TypeStore

variable {s : TypeStore} {a : TypeId} {name : String} {fields : Table String TypeId} {levels : Nat}
  {entries : List (String × TypeId)}

mutual

/-- Following representatives and fields from a type gives the tree. -/
inductive Unfolds (s : TypeStore) : TypeId → TypeTree → Prop
  | named {a : TypeId} {name : String} (h : s.content a = some (.concrete name)) :
    Unfolds s a (.named name)
  | free {a : TypeId} (h : s.content a = some .unbound) : Unfolds s a (.free (s.find a))
  | record {a : TypeId} {fields : Table String TypeId} {trees : FieldTrees}
    (h : s.content a = some (.object fields)) (hfields : UnfoldsFields s fields.entries trees) :
    Unfolds s a (.record trees)

inductive UnfoldsFields (s : TypeStore) : List (String × TypeId) → FieldTrees → Prop
  | nil : UnfoldsFields s [] .nil
  | cons {name : String} {a : TypeId} {tree : TypeTree} {rest : List (String × TypeId)}
    {trees : FieldTrees} (h : Unfolds s a tree) (hrest : UnfoldsFields s rest trees) :
    UnfoldsFields s ((name, a) :: rest) (.cons name tree trees)

end

def FieldOf (s : TypeStore) (b a : TypeId) : Prop :=
  ∃ fields name, s.content a = some (.object fields) ∧ (name, b) ∈ fields.entries

section Written

theorem displayWithin_concrete (h : s.content a = some (.concrete name)) :
    s.displayWithin levels a = some name := by
  unfold displayWithin
  simp only [show s.cells[s.find a]? = some (.concrete name) from h]

theorem displayWithin_unbound (h : s.content a = some .unbound) :
    s.displayWithin levels a = some (typeIdText (s.find a)) := by
  unfold displayWithin
  simp only [show s.cells[s.find a]? = some .unbound from h]

theorem displayWithin_object (h : s.content a = some (.object fields)) :
    s.displayWithin (levels + 1) a =
      (fields.entries.mapM fun e => (s.displayWithin levels e.2).map fun text => e.1 ++ ": " ++ text).map
        fun texts => "\x7b" ++ ", ".intercalate texts ++ "\x7d" := by
  conv => lhs; unfold displayWithin
  simp only [show s.cells[s.find a]? = some (.object fields) from h, Option.map_eq_bind]
  rfl

end Written

mutual

/-- A type that is finite and fits in the levels is written out in full. -/
theorem Unfolds.displayWithin_eq (tree : TypeTree) {s : TypeStore} {a : TypeId} {levels : Nat}
    (h : s.Unfolds a tree) (hlevels : tree.levels ≤ levels) :
    s.displayWithin levels a = some tree.text := by
  cases h with
  | named h => exact displayWithin_concrete h
  | free h => exact displayWithin_unbound h
  | @record _ fields trees h hfields =>
    cases levels with
    | zero => exact absurd hlevels (Nat.not_succ_le_zero _)
    | succ levels =>
      rw [displayWithin_object h, hfields.mapM_eq trees (Nat.le_of_succ_le_succ hlevels)]
      rfl
termination_by structural tree

theorem UnfoldsFields.mapM_eq (trees : FieldTrees) {s : TypeStore} {entries : List (String × TypeId)}
    {levels : Nat} (h : s.UnfoldsFields entries trees) (hlevels : trees.levels ≤ levels) :
    (entries.mapM fun e => (s.displayWithin levels e.2).map fun text => e.1 ++ ": " ++ text) =
      some trees.texts := by
  cases h with
  | nil => rfl
  | @cons name a tree rest trees h hrest =>
    have htree := h.displayWithin_eq tree ((Nat.le_max_left _ _).trans hlevels)
    have htrees := hrest.mapM_eq trees ((Nat.le_max_right _ _).trans hlevels)
    rw [List.mapM_cons, htree, htrees]
    rfl
termination_by structural trees

end

section Finite

mutual

theorem Unfolds.acc (tree : TypeTree) {s : TypeStore} {a : TypeId} (h : s.Unfolds a tree) :
    Acc s.FieldOf a := by
  refine ⟨a, fun b hb => ?_⟩
  obtain ⟨fields, name, hcontent, hmem⟩ := hb
  cases h with
  | named h | free h => cases hcontent.symm.trans h
  | @record _ _ trees h hfields =>
    cases hcontent.symm.trans h
    exact hfields.acc trees hmem
termination_by structural tree

theorem UnfoldsFields.acc (trees : FieldTrees) {s : TypeStore} {entries : List (String × TypeId)}
    {name : String} {b : TypeId} (h : s.UnfoldsFields entries trees) (hb : (name, b) ∈ entries) :
    Acc s.FieldOf b := by
  cases h with
  | nil => exact absurd hb List.not_mem_nil
  | @cons _ _ tree _ trees h hrest =>
    rcases List.mem_cons.mp hb with heq | hb
    · cases heq
      exact h.acc tree
    · exact hrest.acc trees hb
termination_by structural trees

end

theorem exists_unfoldsFields (h : ∀ e ∈ entries, ∃ tree, s.Unfolds e.2 tree) :
    ∃ trees, s.UnfoldsFields entries trees := by
  induction entries with
  | nil => exact ⟨.nil, .nil⟩
  | cons e rest ih =>
    obtain ⟨⟨tree, htree⟩, hrest⟩ := List.forall_mem_cons.mp h
    obtain ⟨trees, htrees⟩ := ih hrest
    exact ⟨.cons e.1 tree trees, .cons htree htrees⟩

theorem WellFormed.exists_unfolds (hs : s.WellFormed) (h : Acc s.FieldOf a) (ha : a < s.size) :
    ∃ tree, s.Unfolds a tree := by
  induction h with
  | intro a _ ih =>
    obtain ⟨c, hc, hend⟩ := (hs.rooted.root_find ha).cell
    cases c with
    | unbound => exact ⟨_, .free hc⟩
    | link b => exact absurd rfl (hend b)
    | concrete name => exact ⟨_, .named hc⟩
    | object fields =>
      obtain ⟨trees, htrees⟩ := exists_unfoldsFields fun e he =>
        ih e.2 ⟨fields, e.1, hc, he⟩ (hs.fields hc e he)
      exact ⟨_, .record hc htrees⟩

theorem WellFormed.acc_iff_unfolds (hs : s.WellFormed) (ha : a < s.size) :
    Acc s.FieldOf a ↔ ∃ tree, s.Unfolds a tree :=
  ⟨fun h => hs.exists_unfolds h ha, fun ⟨tree, h⟩ => h.acc tree⟩

end Finite

/-- In every store that operations lead to, if the fields of its object shapes are types of the store:
links end, so every type has a text; and where following representatives and fields ends within nine
levels of objects, nothing of the type is left out of the text. -/
theorem display_exact (steps : List StoreStep) (a : TypeId)
    (hfields : ∀ (x : TypeId) (fields : Table String TypeId),
      (after steps).cells[x]? = some (.object fields) → ∀ e ∈ fields.entries, e.2 < (after steps).size)
    (ha : a < (after steps).size) :
    (after steps).Settled ∧
    (∃ text, (after steps).display a = some text) ∧
    (Acc (after steps).FieldOf a ↔ ∃ tree, (after steps).Unfolds a tree) ∧
    ∀ tree, (after steps).Unfolds a tree → tree.levels ≤ 9 →
      (after steps).display a = some tree.text := by
  have hs : (after steps).WellFormed := ⟨rooted_after steps, fun h => hfields _ _ h⟩
  refine ⟨hs.rooted.settled, hs.displayWithin shownLevels ha, hs.acc_iff_unfolds ha, ?_⟩
  exact fun tree h hlevels => h.displayWithin_eq tree hlevels

/-- An object that is tied to the variable in its own field, and an object with fields of all kinds. -/
theorem tied_object_shown :
    let steps : List StoreStep := [.fresh, .object ⟨[("next", 0)]⟩, .unify 0 1, .concrete "Number",
      .fresh, .object {}, .object ⟨[("x", 2), ("y", 3), ("z", 4)]⟩, .fresh, .unify 6 5]
    let s := after steps
    (∀ (x : TypeId) (fields : Table String TypeId),
      s.cells[x]? = some (.object fields) → ∀ e ∈ fields.entries, e.2 < s.size) ∧
    0 < s.size ∧ s.FieldOf 0 0 ∧ (∃ text, s.display 0 = some text) ∧
    6 < s.size ∧ s.display 6 = some "\x7bx: Number, y: 't3, z: \x7b\x7d\x7d" := by
  intro steps s
  have hcells : s.cells = #[.link 1, .object ⟨[("next", 0)]⟩, .concrete "Number", .unbound,
      .object {}, .object ⟨[("x", 2), ("y", 3), ("z", 4)]⟩, .link 5] := rfl
  have hfields : ∀ (x : TypeId) (fields : Table String TypeId),
      s.cells[x]? = some (.object fields) → ∀ e ∈ fields.entries, e.2 < 7 := by
    intro x fields h
    have hmem := Array.mem_of_getElem? h
    rw [hcells] at hmem
    have hcases : fields = ⟨[("next", 0)]⟩ ∨ fields = {} ∨ fields = ⟨[("x", 2), ("y", 3), ("z", 4)]⟩ := by
      simpa using hmem
    rcases hcases with rfl | rfl | rfl <;> simp
  have hlt₀ : 0 < s.size := by decide
  have hlt₆ : 6 < s.size := by decide
  have hself : s.FieldOf 0 0 := ⟨⟨[("next", 0)]⟩, "next", rfl, by simp⟩
  have hempty : s.content 4 = some (.object {}) := rfl
  have hpoint : s.content 6 = some (.object ⟨[("x", 2), ("y", 3), ("z", 4)]⟩) := rfl
  have htree : s.Unfolds 6 (.record (.cons "x" (.named "Number") (.cons "y" (.free 3)
      (.cons "z" (.record .nil) .nil)))) :=
    .record hpoint (.cons (.named rfl) (.cons (.free rfl) (.cons (.record hempty .nil) .nil)))
  obtain ⟨-, hshown, -⟩ := display_exact steps 0 hfields hlt₀
  obtain ⟨-, -, -, hexact⟩ := display_exact steps 6 hfields hlt₆
  refine ⟨hfields, hlt₀, hself, hshown, hlt₆, ?_⟩
  exact (hexact _ htree (by decide)).trans (by decide +kernel)

end TypeStore

end ArrowCheck
