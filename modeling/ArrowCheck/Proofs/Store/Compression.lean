import ArrowCheck.Proofs.Store.Growth
import Mathlib.Logic.Relation

namespace ArrowCheck.TypeStore

variable {s s₁ s' : TypeStore} {a b r x : TypeId} {n bound : Nat}

def Linked (s : TypeStore) (a b : TypeId) : Prop := s.cells[a]? = some (.link b)

/-- Links lead from `a` to `x`, which is on the way from `a` to its representative. -/
def Reaches (s : TypeStore) (a x : TypeId) : Prop := Relation.ReflTransGen s.Linked a x

theorem Linked.unique (h : s.Linked a b) (h' : s.Linked a x) : b = x := by
  rw [Linked, h] at h'
  exact Cell.link.inj (Option.some.inj h')

theorem Reaches.of_link (hlink : s.Linked a b) (h : s.Reaches a x) (hne : x ≠ a) : s.Reaches b x := by
  rcases Relation.ReflTransGen.cases_head h with heq | ⟨c, hc, hrest⟩
  · exact absurd heq.symm hne
  · rw [hlink.unique hc]
    exact hrest

theorem Reaches.eq_of_not_linked (h : s.Reaches a x) (hend : ∀ y, ¬ s.Linked a y) : x = a := by
  rcases Relation.ReflTransGen.cases_head h with heq | ⟨c, hc, -⟩
  · exact heq.symm
  · exact absurd hc (hend c)

theorem Chain.of_link (hlink : s.Linked a b) (h : Chain s n a r) :
    ∃ m, m < n ∧ Chain s m b r := by
  cases h with
  | root cell end_ =>
    rw [hlink] at cell
    exact absurd (Option.some.inj cell).symm (end_ b)
  | @link n _ _ _ cell rest =>
    rw [hlink] at cell
    cases cell
    exact ⟨n, Nat.lt_succ_self n, rest⟩

theorem Chain.shorter (h : Chain s n a r) (hab : Relation.TransGen s.Linked a b) :
    ∃ m, m < n ∧ Chain s m b r := by
  induction hab with
  | single hlink => exact h.of_link hlink
  | tail _ hlink ih =>
    obtain ⟨m, hm, hchain⟩ := ih
    obtain ⟨k, hk, hrest⟩ := hchain.of_link hlink
    exact ⟨k, hk.trans hm, hrest⟩

theorem Chain.not_reaches (h : Chain s n a r) (hlink : s.Linked a b) : ¬ s.Reaches b a := by
  intro hback
  obtain ⟨m, hm, hchain⟩ := h.shorter (Relation.TransGen.head' hlink hback)
  have := (h.unique hchain).1
  omega

theorem Chain.not_linked (h : Chain s n a r) : ¬ s.Linked r b := by
  intro hlink
  obtain ⟨c, hc, hend⟩ := Root.cell ⟨n, h⟩
  rw [Linked, hc] at hlink
  exact hend b (Option.some.inj hlink)

theorem Chain.eq_of_reaches (h : Chain s n a r) (hx : s.Reaches a x) (hend : ∀ y, ¬ s.Linked x y) :
    x = r := by
  induction h with
  | root cell end_ => exact hx.eq_of_not_linked fun _ => (Chain.root cell end_).not_linked
  | @link n a b r cell rest ih =>
    have hne : x ≠ a := fun heq => hend b (heq ▸ cell)
    exact ih (hx.of_link cell hne)

section Frame

variable (hcells : ∀ x, s.Reaches a x → s'.cells[x]? = s.cells[x]?)
include hcells

theorem reaches_congr : s'.Reaches a x ↔ s.Reaches a x := by
  constructor
  · intro h
    induction h with
    | refl => exact .refl
    | tail _ hlink ih =>
      refine ih.tail ?_
      rwa [Linked, hcells _ ih] at hlink
  · intro h
    induction h with
    | refl => exact .refl
    | tail hreach hlink ih =>
      refine ih.tail ?_
      rwa [Linked, hcells _ hreach]

theorem Chain.congr (h : Chain s n a r) : Chain s' n a r := by
  induction h with
  | root cell end_ => exact .root ((hcells _ .refl).trans cell) end_
  | link cell _ ih =>
    exact .link ((hcells _ .refl).trans cell) (ih fun x hx => hcells x (.head cell hx))

end Frame

/-- The links from `a` to `r` all point at `r` in `s'`, and no other cell differs. -/
structure Shortened (s : TypeStore) (a r : TypeId) (s' : TypeStore) : Prop where
  passed : ∀ {x}, s.Reaches a x → x ≠ r → s'.Linked x r
  kept : ∀ {x}, (s.Reaches a x → x = r) → s'.cells[x]? = s.cells[x]?

theorem Shortened.link (h : Chain s (n + 1) a r) (hlink : s.Linked a b) (hfirst : s₁.Linked a r)
    (hcells : ∀ x, x ≠ a → s₁.cells[x]? = s.cells[x]?) (hrest : Shortened s₁ b r s') :
    Shortened s a r s' := by
  have hback := h.not_reaches hlink
  have hne : a ≠ r := fun heq => h.not_linked (heq ▸ hlink)
  have hreach : ∀ {x}, s₁.Reaches b x ↔ s.Reaches b x :=
    reaches_congr fun x hx => hcells x fun heq => hback (heq ▸ hx)
  refine ⟨fun {x} hx hxr => ?_, fun {x} hx => ?_⟩
  · by_cases hxa : x = a
    · subst x
      rw [Linked, hrest.kept fun hx => absurd (hreach.mp hx) hback]
      exact hfirst
    · exact hrest.passed (hreach.mpr (hx.of_link hlink hxa)) hxr
  · have hxa : x ≠ a := by
      rintro rfl
      exact hne (hx .refl)
    rw [hrest.kept fun hbx => hx (.head hlink (hreach.mp hbx)), hcells x hxa]

theorem compress_link (bound : Nat) {cells : Array Cell} (hne : a ≠ r)
    (hc : cells[a]? = some (.link b)) : compress r (bound + 1) a cells =
      compress r bound b (if b = r then cells else cells.setIfInBounds a (.link r)) := by
  rw [compress, if_neg hne, hc]

theorem compress_self (bound : Nat) (cells : Array Cell) : compress r bound r cells = cells := by
  cases bound with
  | zero => rfl
  | succ bound => rw [compress, if_pos rfl]

theorem compress_shortened (h : Chain s n a r) (hn : n ≤ bound) :
    Shortened s a r ⟨compress r bound a s.cells⟩ := by
  induction n generalizing s a bound with
  | zero =>
    cases h with
    | root cell end_ =>
      rw [compress_self]
      have hend : ∀ y, ¬ s.Linked r y := fun _ => (Chain.root cell end_).not_linked
      exact ⟨fun hx hxr => absurd (hx.eq_of_not_linked hend) hxr, fun _ => rfl⟩
  | succ n ih =>
    cases h with
    | @link _ _ b _ cell rest =>
      have h : Chain s (n + 1) a r := .link cell rest
      have hne : a ≠ r := fun heq => h.not_linked (heq ▸ cell)
      obtain ⟨bound, rfl⟩ := Nat.exists_eq_succ_of_ne_zero (show bound ≠ 0 by omega)
      have hback := h.not_reaches cell
      rw [compress_link bound hne cell]
      by_cases hbr : b = r
      · rw [if_pos hbr]
        exact .link h cell (hbr ▸ cell) (fun _ _ => rfl) (ih rest (by omega))
      · rw [if_neg hbr]
        have hcells : ∀ x, x ≠ a → (s.setLink a r).cells[x]? = s.cells[x]? := fun x hx => by
          rw [cells_setLink _ _ _ _ h.lt_size, if_neg hx]
        have hfirst : (s.setLink a r).Linked a r := by
          rw [Linked, cells_setLink _ _ _ _ h.lt_size, if_pos rfl]
        have hrest := rest.congr fun x hx => hcells x fun heq => hback (heq ▸ hx)
        exact .link h cell hfirst hcells (ih hrest (by omega))

theorem resolve_shortened (hs : s.Rooted) (ha : a < s.size) :
    Shortened s a (s.find a) (s.resolve a).2 := by
  obtain ⟨n, hn⟩ := hs.root_find ha
  exact compress_shortened hn hn.length_le

/-- There is at most one link between a type and its representative. -/
def Direct (s : TypeStore) (a : TypeId) : Prop := s.find a = a ∨ s.Linked a (s.find a)

theorem Root.of_reaches (h : Root s a r) (hx : s.Reaches a x) : Root s x r := by
  induction hx with
  | refl => exact h
  | tail _ hlink ih => exact ih.of_link hlink

theorem direct_resolve_self (hs : s.Rooted) (ha : a < s.size) : (s.resolve a).2.Direct a := by
  rw [Direct, (resolve_eq (hs.root_find ha)).2.find_eq hs]
  by_cases hself : s.find a = a
  · exact .inl hself
  · exact .inr ((resolve_shortened hs ha).passed .refl fun h => hself h.symm)

theorem Direct.resolve_other (h : s.Direct a) (hs : s.Rooted) (hb : b < s.size) :
    (s.resolve b).2.Direct a := by
  have hroot := hs.root_find hb
  have hshort := resolve_shortened hs hb
  rw [Direct, (TypeStore.resolve_eq hroot).2.find_eq hs]
  rcases h with hself | hlink
  · exact .inl hself
  · right
    by_cases hon : s.Reaches b a → a = s.find b
    · rw [Linked, hshort.kept hon]
      exact hlink
    · obtain ⟨hreach, hne⟩ := Classical.not_imp.mp hon
      rw [(hroot.of_reaches hreach).find_eq]
      exact hshort.passed hreach hne

theorem Direct.resolve_eq (h : s.Direct a) : s.resolve a = (s.find a, s) := by
  have hcells : compress (s.find a) s.size a s.cells = s.cells := by
    rcases h with hself | hlink
    · rw [hself]
      exact compress_self s.size s.cells
    · cases s.size with
      | zero => rfl
      | succ bound =>
        by_cases hself : a = s.find a
        · rw [← hself]
          exact compress_self _ s.cells
        · rw [compress_link bound hself hlink, if_pos rfl]
          exact compress_self bound s.cells
  simp only [resolve, hcells]

theorem displayWithin_congr (hfind : ∀ a, s'.find a = s.find a)
    (hcontent : ∀ a, s'.content a = s.content a) (levels : Nat) (a : TypeId) :
    s'.displayWithin levels a = s.displayWithin levels a := by
  have hcell : ∀ a, s'.cells[s.find a]? = s.cells[s.find a]? := by
    intro a
    rw [← hfind a]
    exact (hcontent a).trans (by rw [content, hfind])
  induction levels generalizing a with
  | zero =>
    unfold displayWithin
    simp only [hfind, hcell]
    rcases s.cells[s.find a]? with _ | (_ | _ | _ | _) <;> rfl
  | succ levels ih =>
    unfold displayWithin
    simp only [hfind, hcell]
    rcases s.cells[s.find a]? with _ | (_ | _ | _ | _)
    · rfl
    · rfl
    · rfl
    · rfl
    · simp only [ih]

theorem Same.display_eq (h : Same s s') (hs : s.Rooted) (a : TypeId) : s'.display a = s.display a :=
  displayWithin_congr (h.find_eq hs) (h.content_eq hs) shownLevels a

/-- In every store that operations lead to, resolving a type gives its representative and shows nowhere
else: all representatives and texts stay, a cell that is no link stays, the links on the way from the
type point at its representative, and all other links stay. Resolving it once more changes nothing. -/
theorem resolve_shows_nowhere (steps : List StoreStep) (a : TypeId) (ha : a < (after steps).size) :
    let s := after steps
    let s' := (s.resolve a).2
    (s.resolve a).1 = s.find a ∧
    (∀ x, s'.find x = s.find x ∧ s'.display x = s.display x) ∧
    (∀ x, (∀ y, ¬ s.Linked x y) → s'.cells[x]? = s.cells[x]?) ∧
    (∀ x y, s.Linked x y → s.Reaches a x → s'.Linked x (s.find a)) ∧
    (∀ x y, s.Linked x y → ¬ s.Reaches a x → s'.Linked x y) ∧
    s'.resolve a = (s.find a, s') := by
  intro s s'
  have hs : s.Rooted := rooted_after steps
  have hroot := hs.root_find ha
  have hsame : Same s s' := (resolve_eq hroot).2
  have hshort : Shortened s a (s.find a) s' := resolve_shortened hs ha
  obtain ⟨n, hn⟩ := hroot
  refine ⟨rfl, fun x => ⟨hsame.find_eq hs x, hsame.display_eq hs x⟩, ?_, ?_, ?_, ?_⟩
  · intro x hx
    exact hshort.kept fun hreach => hn.eq_of_reaches hreach hx
  · intro x y hlink hreach
    exact hshort.passed hreach fun heq => hn.not_linked (heq ▸ hlink)
  · intro x y hlink hoff
    rw [Linked, hshort.kept fun hreach => absurd hreach hoff]
    exact hlink
  · rw [(direct_resolve_self hs ha).resolve_eq, hsame.find_eq hs]

/-- A chain of three links, which another chain joins behind the first: its own link stays, and its text
is the same. -/
theorem joined_chain_shortened :
    let steps : List StoreStep :=
      [.fresh, .fresh, .fresh, .fresh, .concrete "String", .unify 0 1, .unify 3 1, .unify 1 2, .unify 2 4]
    let s := after steps
    let s' := (s.resolve 0).2
    0 < s.size ∧ s.Linked 0 1 ∧ s.Linked 3 1 ∧ s'.Linked 0 4 ∧ s'.Linked 1 4 ∧ s'.Linked 3 1 ∧
      s'.display 3 = some "String" := by
  intro steps s s'
  have hsize : 0 < s.size := by decide
  have h₀ : s.Linked 0 1 := rfl
  have h₁ : s.Linked 1 2 := rfl
  have h₃ : s.Linked 3 1 := rfl
  have hfind : s.find 0 = 4 := by decide +kernel
  obtain ⟨-, hshown, -, hon, hoff, -⟩ := resolve_shows_nowhere steps 0 hsize
  have h₀' : s'.Linked 0 (s.find 0) := hon 0 1 h₀ .refl
  have h₁' : s'.Linked 1 (s.find 0) := hon 1 2 h₁ (.single h₀)
  rw [hfind] at h₀' h₁'
  have hapart : ¬ s.Reaches 0 3 := by
    intro h
    obtain ⟨n, hn⟩ := (rooted_after steps).root_find (a := 3) (by decide)
    exact hn.not_reaches h₃ (h.of_link h₀ (by decide))
  refine ⟨hsize, h₀, h₃, h₀', h₁', hoff 3 1 h₃ hapart, ?_⟩
  exact (hshown 3).2.trans (by decide +kernel)

end ArrowCheck.TypeStore
