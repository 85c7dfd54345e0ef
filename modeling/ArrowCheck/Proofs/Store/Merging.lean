import ArrowCheck.Proofs.Store.Compression

namespace ArrowCheck.TypeStore

variable {s : TypeStore} {a b r : TypeId}

/-- Links lead to cells of the store and never back, so that following them ends: at the
representative that `find` gives. -/
structure Settled (s : TypeStore) : Prop where
  in_range : ∀ {a b}, s.Linked a b → b < s.size
  acyclic : ∀ a, ¬ Relation.TransGen s.Linked a a
  leads : ∀ {a}, a < s.size → Relation.ReflTransGen s.Linked a (s.find a)
  ends : ∀ {a}, a < s.size → s.find a < s.size ∧ ∀ b, ¬ s.Linked (s.find a) b

theorem Chain.leads {n : Nat} (h : Chain s n a r) : Relation.ReflTransGen s.Linked a r := by
  induction h with
  | root => exact .refl
  | link cell _ ih => exact .head cell ih

theorem Rooted.settled (hs : s.Rooted) : s.Settled := by
  refine ⟨?_, ?_, ?_, ?_⟩
  · intro a b hlink
    obtain ⟨r, hr⟩ := hs a (Array.getElem?_eq_some_iff.mp hlink).1
    obtain ⟨n, hn⟩ := hr.of_link hlink
    exact hn.lt_size
  · intro a hcycle
    obtain ⟨b, hlink, -⟩ := Relation.TransGen.head'_iff.mp hcycle
    obtain ⟨r, n, hn⟩ := hs a (Array.getElem?_eq_some_iff.mp hlink).1
    obtain ⟨m, hm, hchain⟩ := hn.shorter hcycle
    have := (hn.unique hchain).1
    omega
  · intro a ha
    obtain ⟨n, hn⟩ := hs.root_find ha
    exact hn.leads
  · intro a ha
    have hr := hs.root_find ha
    obtain ⟨c, hc, hend⟩ := hr.cell
    refine ⟨hr.lt_size, fun b hlink => ?_⟩
    rw [Linked, hc] at hlink
    exact hend b (Option.some.inj hlink)

section Swap

theorem linkRoots_free_left (ha : s.cells[a]? = some .unbound) :
    s.linkRoots a b = .ok (s.setLink a b) := by
  simp only [linkRoots, ha]

theorem linkRoots_free_right (ha : s.cells[a]? ≠ some .unbound) (hb : s.cells[b]? = some .unbound) :
    s.linkRoots a b = .ok (s.setLink b a) := by
  cases hc : s.cells[a]? with
  | none => simp only [linkRoots, hc, hb]
  | some c =>
    cases c with
    | unbound => exact absurd hc ha
    | link | concrete | object => simp only [linkRoots, hc, hb]

theorem unify_swap (hs : s.Rooted) (ha : a < s.size) (hb : b < s.size)
    (hbound : s.content a ≠ some .unbound) (hfree : s.content b = some .unbound) :
    s.unify a b = ((s.resolve a).2.resolve b).2.unify b a := by
  have hsa := (resolve_eq (hs.root_find ha)).2
  have hs₁ := hsa.rooted hs
  have ha₁ : a < (s.resolve a).2.size := hsa.size_eq.symm ▸ ha
  have hb₁ : b < (s.resolve a).2.size := hsa.size_eq.symm ▸ hb
  have hsame := hsa.trans (resolve_eq (hs₁.root_find hb₁)).2
  have hda := (direct_resolve_self hs ha).resolve_other hs₁ hb₁
  have hdb := direct_resolve_self hs₁ hb₁
  have hfind : ((s.resolve a).2.resolve b).1 = s.find b := hsa.find_eq hs b
  have hne : s.find a ≠ s.find b := by
    intro h
    rw [content_congr h] at hbound
    exact hbound hfree
  generalize hs₂ : ((s.resolve a).2.resolve b).2 = s₂ at hsame hda hdb
  have hca : s₂.cells[s.find a]? ≠ some .unbound := by
    rw [← hsame.find_eq hs]
    exact fun h => hbound ((hsame.content_eq hs a).symm.trans h)
  have hcb : s₂.cells[s.find b]? = some .unbound := by
    rw [← hsame.find_eq hs]
    exact (hsame.content_eq hs b).trans hfree
  have hleft : s.unify a b = (.ok (), s₂.setLink (s.find b) (s.find a)) := by
    have hlink := linkRoots_free_right hca hcb
    unfold unify
    simp only [hfind, hs₂, show (s.resolve a).1 = s.find a from rfl, hlink, if_neg hne]
  have hright : s₂.unify b a = (.ok (), s₂.setLink (s.find b) (s.find a)) := by
    have hlink := linkRoots_free_left (b := s.find a) hcb
    unfold unify
    simp only [hdb.resolve_eq, hda.resolve_eq, hsame.find_eq hs, hlink, if_neg hne.symm]
  rw [hleft, hright]

end Swap

/-- In every store that operations lead to, unification merges classes: links end, a clash means two
names and changes no class and no cell that is no link, and without a clash exactly the two classes
become one. A bound type and a free one can be given in either order. -/
theorem unify_merges_classes (steps : List StoreStep) (a b : TypeId)
    (ha : a < (after steps).size) (hb : b < (after steps).size) :
    let s := after steps
    let s' := (s.unify a b).2
    s.Settled ∧ s'.Settled ∧
    (∀ clash, (s.unify a b).1 = .error clash ↔
      s.content a = some (.concrete clash.left) ∧ s.content b = some (.concrete clash.right) ∧
        clash.left ≠ clash.right) ∧
    (∀ clash, (s.unify a b).1 = .error clash →
      s'.size = s.size ∧ (∀ x, s'.find x = s.find x) ∧
        ∀ (x : TypeId) (c : Cell), (∀ y, c ≠ .link y) →
          (s'.cells[x]? = some c ↔ s.cells[x]? = some c)) ∧
    ((s.unify a b).1 = .ok () → Merged s a b s') ∧
    (s.content a ≠ some .unbound → s.content b = some .unbound →
      s.unify a b = ((s.resolve a).2.resolve b).2.unify b a) := by
  intro s s'
  have hs : s.Rooted := rooted_after steps
  have hs' : s'.Rooted := (unify_spec hs ha hb).1
  refine ⟨hs.settled, hs'.settled, unify_eq_error_iff hs ha hb, ?_, merged_of_unify hs ha hb,
    unify_swap hs ha hb⟩
  intro clash herr
  have hsame := same_of_clash hs ha hb herr
  exact ⟨hsame.size_eq, hsame.find_eq hs, fun x c hc => hsame.cell hc⟩

/-- A type that is known to be a number only through a link, and an object shape. -/
theorem number_merges_shape :
    let steps : List StoreStep :=
      [.fresh, .fresh, .concrete "Number", .unify 0 1, .unify 1 2, .object {}, .fresh, .unify 4 3]
    0 < (after steps).size ∧ 4 < (after steps).size ∧
      Merged (after steps) 0 4 ((after steps).unify 0 4).2 := by
  intro steps
  have ha : 0 < (after steps).size := by decide
  have hb : 4 < (after steps).size := by decide
  have hok : ((after steps).unify 0 4).1 = .ok () := by decide +kernel
  exact ⟨ha, hb, (unify_merges_classes steps 0 4 ha hb).2.2.2.2.1 hok⟩

end ArrowCheck.TypeStore
