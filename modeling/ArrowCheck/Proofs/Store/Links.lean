import ArrowCheck.Typing.Store
import Mathlib.Data.Finset.Card

namespace ArrowCheck.TypeStore

/-- From cell `a` a chain of `n` links leads to cell `r`, which is no link. -/
inductive Chain (s : TypeStore) : Nat → TypeId → TypeId → Prop
  | root {a : TypeId} {c : Cell} (cell : s.cells[a]? = some c) (end_ : ∀ b, c ≠ .link b) :
      Chain s 0 a a
  | link {n : Nat} {a b r : TypeId} (cell : s.cells[a]? = some (.link b)) (rest : Chain s n b r) :
      Chain s (n + 1) a r

def Root (s : TypeStore) (a r : TypeId) : Prop := ∃ n, Chain s n a r

def Rooted (s : TypeStore) : Prop := ∀ a, a < s.size → ∃ r, Root s a r

variable {s : TypeStore} {a b r : TypeId}

theorem Chain.unique {n m : Nat} {q : TypeId} (h : Chain s n a r) (h' : Chain s m a q) :
    n = m ∧ r = q := by
  induction h generalizing m q with
  | root cell end_ =>
    cases h' with
    | root => exact ⟨rfl, rfl⟩
    | link cell' rest =>
      rw [cell] at cell'
      exact absurd (Option.some.inj cell') (end_ _)
  | link cell rest ih =>
    cases h' with
    | root cell' end_ =>
      rw [cell] at cell'
      exact absurd (Option.some.inj cell').symm (end_ _)
    | link cell' rest' =>
      rw [cell] at cell'
      cases cell'
      obtain ⟨rfl, rfl⟩ := ih rest'
      exact ⟨rfl, rfl⟩

theorem Chain.follow_eq {n m : Nat} (h : Chain s n a r) (hm : n ≤ m) : follow s.cells m a = r := by
  induction h generalizing m with
  | root cell end_ =>
    cases m with
    | zero => rfl
    | succ m =>
      simp only [follow, cell]
      split
      · rename_i b heq
        exact absurd (Option.some.inj heq) (end_ b)
      · rfl
  | link cell rest ih =>
    cases m with
    | zero => omega
    | succ m =>
      simp only [follow, cell]
      exact ih (by omega)

theorem Chain.lt_size {n : Nat} (h : Chain s n a r) : a < s.size := by
  cases h with
  | root cell | link cell => exact (Array.getElem?_eq_some_iff.mp cell).1

open Classical in
/-- The cells with shorter chains than `n`; a chain passes one of each length, so it is no longer
than the store. -/
theorem Chain.length_le {n : Nat} (h : Chain s n a r) : n ≤ s.size := by
  let shorter (n : Nat) : Finset TypeId :=
    {b ∈ Finset.range s.size | ∃ k q, Chain s k b q ∧ k < n}
  have hcard : n ≤ (shorter n).card := by
    induction h with
    | root => exact Nat.zero_le _
    | @link n a b r cell rest ih =>
      have hb : b ∉ shorter n := by
        intro hm
        obtain ⟨k, q, hk, hlt⟩ := (Finset.mem_filter.mp hm).2
        have := (rest.unique hk).1
        omega
      have hsub : insert b (shorter n) ⊆ shorter (n + 1) := by
        intro x hx
        rcases Finset.mem_insert.mp hx with rfl | hx
        · exact Finset.mem_filter.mpr ⟨Finset.mem_range.mpr rest.lt_size, n, r, rest, by omega⟩
        · obtain ⟨hr, k, q, hk, hlt⟩ := Finset.mem_filter.mp hx
          exact Finset.mem_filter.mpr ⟨hr, k, q, hk, by omega⟩
      have := Finset.card_le_card hsub
      rw [Finset.card_insert_of_notMem hb] at this
      omega
  have hle : (shorter n).card ≤ (Finset.range s.size).card :=
    Finset.card_le_card (Finset.filter_subset _ _)
  rw [Finset.card_range] at hle
  omega

theorem Root.unique {q : TypeId} (h : Root s a r) (h' : Root s a q) : r = q := by
  obtain ⟨n, hn⟩ := h
  obtain ⟨m, hm⟩ := h'
  exact (hn.unique hm).2

theorem Root.find_eq (h : Root s a r) : s.find a = r := by
  obtain ⟨n, hn⟩ := h
  exact hn.follow_eq hn.length_le

theorem Root.cell (h : Root s a r) : ∃ c, s.cells[r]? = some c ∧ ∀ b, c ≠ .link b := by
  obtain ⟨n, hn⟩ := h
  induction hn with
  | root cell end_ => exact ⟨_, cell, end_⟩
  | link _ _ ih => exact ih

theorem Root.self (h : Root s a r) : Root s r r := by
  obtain ⟨c, hc, hend⟩ := h.cell
  exact ⟨0, .root hc hend⟩

theorem Root.lt_size (h : Root s a r) : r < s.size := by
  obtain ⟨n, hn⟩ := h.self
  exact hn.lt_size

theorem Root.of_link (hc : s.cells[a]? = some (.link b)) (h : Root s a r) : Root s b r := by
  obtain ⟨n, hn⟩ := h
  cases hn with
  | root cell end_ =>
    rw [hc] at cell
    exact absurd (Option.some.inj cell).symm (end_ b)
  | link cell rest =>
    rw [hc] at cell
    cases cell
    exact ⟨_, rest⟩

/-- The same chains' ends, and the same contents of all cells that are no links. -/
structure Same (s s' : TypeStore) : Prop where
  size_eq : s'.size = s.size
  root : ∀ {a r}, Root s a r → Root s' a r
  cell : ∀ {a : TypeId} {c : Cell}, (∀ b, c ≠ .link b) → (s'.cells[a]? = some c ↔ s.cells[a]? = some c)

theorem Same.refl (s : TypeStore) : Same s s := ⟨rfl, id, fun _ => Iff.rfl⟩

theorem Same.trans {s₁ s₂ s₃ : TypeStore} (h : Same s₁ s₂) (h' : Same s₂ s₃) : Same s₁ s₃ :=
  ⟨h'.size_eq.trans h.size_eq, fun hr => h'.root (h.root hr),
    fun hc => (h'.cell hc).trans (h.cell hc)⟩

theorem Same.rooted {s' : TypeStore} (h : Same s s') (hs : s.Rooted) : s'.Rooted := by
  intro a ha
  rw [h.size_eq] at ha
  obtain ⟨r, hr⟩ := hs a ha
  exact ⟨r, h.root hr⟩

theorem cells_setLink (s : TypeStore) (x y a : TypeId) (hx : x < s.size) :
    (s.setLink x y).cells[a]? = if a = x then some (.link y) else s.cells[a]? := by
  simp only [setLink, Array.getElem?_setIfInBounds]
  by_cases h : x = a
  · subst a
    have hx' : x < s.cells.size := hx
    simp [hx']
  · simp [h, Ne.symm h]

theorem size_setLink (s : TypeStore) (x y : TypeId) : (s.setLink x y).size = s.size := by
  simp [setLink, size]

theorem same_shortcut (hc : s.cells[a]? = some (.link b)) (hr : Root s b r) :
    Same s (s.setLink a r) := by
  have ha : a < s.size := (Array.getElem?_eq_some_iff.mp hc).1
  have hne : r ≠ a := by
    rintro rfl
    obtain ⟨c, hcell, hend⟩ := hr.cell
    rw [hc] at hcell
    exact hend b (Option.some.inj hcell).symm
  obtain ⟨c, hcell, hend⟩ := hr.cell
  have hself : Chain (s.setLink a r) 0 r r :=
    .root (by rw [cells_setLink _ _ _ _ ha, if_neg hne]; exact hcell) hend
  refine ⟨size_setLink s a r, ?_, ?_⟩
  · rintro x q ⟨n, hn⟩
    induction hn with
    | @root x c cell end_ =>
      have hx : x ≠ a := by
        rintro rfl
        rw [hc] at cell
        exact end_ b (Option.some.inj cell).symm
      exact ⟨0, .root (by rw [cells_setLink _ _ _ _ ha, if_neg hx]; exact cell) end_⟩
    | @link n x y q cell rest ih =>
      by_cases hx : x = a
      · subst x
        rw [hc] at cell
        cases cell
        have := hr.unique ⟨n, rest⟩
        subst q
        exact ⟨1, .link (by rw [cells_setLink _ _ _ _ ha, if_pos rfl]) hself⟩
      · obtain ⟨m, hm⟩ := ih
        exact ⟨m + 1, .link (by rw [cells_setLink _ _ _ _ ha, if_neg hx]; exact cell) hm⟩
  · intro x c hend'
    rw [cells_setLink _ _ _ _ ha]
    by_cases hx : x = a
    · subst x
      rw [if_pos rfl, hc]
      constructor
      · intro h
        exact absurd (Option.some.inj h).symm (hend' r)
      · intro h
        exact absurd (Option.some.inj h).symm (hend' b)
    · rw [if_neg hx]

theorem same_compress (bound : Nat) (cells : Array Cell) (h : Root ⟨cells⟩ a r) :
    Same ⟨cells⟩ ⟨compress r bound a cells⟩ := by
  induction bound generalizing a cells with
  | zero => exact Same.refl _
  | succ bound ih =>
    rw [compress]
    split
    · exact Same.refl _
    · split
      · rename_i hne b hc
        have hb : Root ⟨cells⟩ b r := h.of_link hc
        split
        · exact ih cells hb
        · have hshort := same_shortcut hc hb
          exact hshort.trans (ih _ (hshort.root hb))
      · exact Same.refl _

theorem resolve_eq (h : Root s a r) : (s.resolve a).1 = r ∧ Same s (s.resolve a).2 := by
  refine ⟨h.find_eq, ?_⟩
  simp only [resolve, h.find_eq]
  exact same_compress s.size s.cells h

/-- Hanging the end `x` of chains below the end `y` moves the chains of `x` there and no others. -/
theorem root_setLink {x y : TypeId} (hx : Root s x x) (hy : Root s y y) (hne : x ≠ y)
    (h : Root s a r) : Root (s.setLink x y) a (if r = x then y else r) := by
  obtain ⟨cy, hcy, hendy⟩ := hy.cell
  obtain ⟨cx, hcx, hendx⟩ := hx.cell
  have hyy : Chain (s.setLink x y) 0 y y :=
    .root (by rw [cells_setLink _ _ _ _ hx.lt_size, if_neg hne.symm]; exact hcy) hendy
  obtain ⟨n, hn⟩ := h
  induction hn with
  | @root a c cell end_ =>
    by_cases ha : a = x
    · subst a
      rw [if_pos rfl]
      exact ⟨1, .link (by rw [cells_setLink _ _ _ _ hx.lt_size, if_pos rfl]) hyy⟩
    · rw [if_neg ha]
      exact ⟨0, .root (by rw [cells_setLink _ _ _ _ hx.lt_size, if_neg ha]; exact cell) end_⟩
  | @link n a b r cell rest ih =>
    have ha : a ≠ x := by
      rintro rfl
      rw [hcx] at cell
      exact hendx b (Option.some.inj cell)
    obtain ⟨m, hm⟩ := ih
    exact ⟨m + 1, .link (by rw [cells_setLink _ _ _ _ hx.lt_size, if_neg ha]; exact cell) hm⟩

theorem rooted_setLink {x y : TypeId} (hs : s.Rooted) (hx : Root s x x) (hy : Root s y y)
    (hne : x ≠ y) : (s.setLink x y).Rooted := by
  intro a ha
  rw [size_setLink] at ha
  obtain ⟨r, hr⟩ := hs a ha
  exact ⟨_, root_setLink hx hy hne hr⟩

end ArrowCheck.TypeStore
