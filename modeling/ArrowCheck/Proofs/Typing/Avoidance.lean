import ArrowCheck.Proofs.Typing.Moves
import ArrowCheck.Proofs.Typing.Operations

namespace ArrowCheck

open TypeStore Check

def builtinNames : List String := ["String", "Number", "Boolean", "Function", "Array", "Void"]

structure Avoided where
  /-- Cells that no type in use leads to, with what they are bound to. -/
  cell : TypeId → Option Cell
  word : String → Prop
  fault : TypeFault → Prop
  clash : Prop
  not_link : ∀ {c content}, cell c = some content → ∀ b, content ≠ .link b
  unspoken : ∀ {w}, word w → w ∉ builtinNames ∧ ∀ name, canonicalName name ≠ w
  unreported : ∀ {f}, fault f →
    f = .operandUnifyFailed ∨ ∃ l r, f = .addMismatch l r ∧ (word l ∨ word r)

namespace Avoided

variable {v : Avoided} {store store' : TypeStore} {a b type : TypeId} {c : Cell}

/-- No cell, word or fault, and clashes only if they are to be avoided. -/
def clashes (clash : Prop) : Avoided :=
  ⟨fun _ => none, fun _ => False, fun _ => False, clash, by simp, False.elim, False.elim⟩

abbrev nothing : Avoided := clashes False

/-- Cells that are avoided are as they were, no other type leads to them, and no type has a name that is
avoided. -/
structure CoversStore (v : Avoided) (store : TypeStore) : Prop where
  rooted : store.Rooted
  cells : ∀ {c : TypeId} {content : Cell}, v.cell c = some content → store.cells[c]? = some content
  apart : ∀ {a}, a < store.size → v.cell a = none → v.cell (store.find a) = none
  words : ∀ {a : TypeId} {n : String}, store.cells[a]? = some (.concrete n) → ¬ v.word n

theorem CoversStore.same (h : v.CoversStore store) (hsame : Same store store') :
    v.CoversStore store' where
  rooted := hsame.rooted h.rooted
  cells hc := (hsame.cell (v.not_link hc)).mpr (h.cells hc)
  apart {a} ha hfree := by
    rw [hsame.find_eq h.rooted]
    exact h.apart (hsame.size_eq ▸ ha) hfree
  words hn := h.words ((hsame.cell (by simp)).mp hn)

theorem CoversStore.free (h : v.CoversStore store) (ha : store.size ≤ a) : v.cell a = none := by
  cases hcell : v.cell a with
  | none => rfl
  | some content =>
    exact absurd (Array.getElem?_eq_some_iff.mp (h.cells hcell)).1 (Nat.not_lt.mpr ha)

theorem CoversStore.push (h : v.CoversStore store) (hc : ∀ b, c ≠ .link b)
    (hword : ∀ n, c = .concrete n → ¬ v.word n) : v.CoversStore (store.push c).2 where
  rooted := rooted_push h.rooted hc
  cells {x content} hx := by
    have hcell := h.cells hx
    have hne : x ≠ store.size := Nat.ne_of_lt (Array.getElem?_eq_some_iff.mp hcell).1
    rw [cells_push, if_neg hne, hcell]
  apart {a} ha hfree := by
    rw [size_push] at ha
    by_cases heq : a = store.size
    · rw [heq, find_push_self hc]
      exact h.free (Nat.le_refl _)
    · have hlt : a < store.size := by omega
      rw [find_push h.rooted hlt]
      exact h.apart hlt hfree
  words {a n} hn := by
    rw [cells_push] at hn
    split at hn
    · exact hword n (Option.some.inj hn)
    · exact h.words hn

theorem CoversStore.setLink {x y : TypeId} (h : v.CoversStore store) (hx : Root store x x)
    (hy : Root store y y) (hne : x ≠ y) (hxfree : v.cell x = none) (hyfree : v.cell y = none) :
    v.CoversStore (store.setLink x y) where
  rooted := rooted_setLink h.rooted hx hy hne
  cells {c content} hc := by
    have hcx : c ≠ x := by
      rintro rfl
      rw [hxfree] at hc
      cases hc
    rw [cells_setLink _ _ _ _ hx.lt_size, if_neg hcx]
    exact h.cells hc
  apart {a} ha hfree := by
    rw [size_setLink] at ha
    rw [find_setLink h.rooted hx hy hne]
    split
    · exact hyfree
    · exact h.apart ha hfree
  words {a n} hn := by
    rw [cells_setLink _ _ _ _ hx.lt_size] at hn
    split at hn
    · cases hn
    · exact h.words hn

theorem CoversStore.unify (h : v.CoversStore store) (ha : a < store.size) (hb : b < store.size)
    (hafree : v.cell a = none) (hbfree : v.cell b = none) : v.CoversStore (store.unify a b).2 := by
  obtain ⟨ra, rb, store₁, hra, hrb, hsame, hcases⟩ := unify_cases h.rooted ha hb
  have h₁ := h.same hsame
  have hra' := (hsame.root hra).self
  have hrb' := (hsame.root hrb).self
  have hrafree : v.cell ra = none := hra.find_eq ▸ h.apart ha hafree
  have hrbfree : v.cell rb = none := hrb.find_eq ▸ h.apart hb hbfree
  rcases hcases with ⟨-, heq⟩ | ⟨l, r, -, -, -, heq⟩ | ⟨x, y, hxy, hne, -, -, heq⟩
  · rw [heq]
    exact h₁
  · rw [heq]
    exact h₁
  · rw [heq]
    rcases hxy with ⟨rfl, rfl⟩ | ⟨rfl, rfl⟩
    · exact h₁.setLink hra' hrb' hne hrafree hrbfree
    · exact h₁.setLink hrb' hra' hne hrbfree hrafree

theorem not_word_of_builtin {name : String} (h : name ∈ builtinNames) : ¬ v.word name :=
  fun hword => (v.unspoken hword).1 h

theorem CoversStore.translate (h : v.CoversStore store) (type : Option TypeExpr) :
    v.CoversStore (translateOptional type store).2 := by
  refine translateOptional_keeps (fun hc hstore => hstore.push hc.not_link ?_) type h
  rintro n rfl
  cases hc with
  | named name => exact fun hword => (v.unspoken hword).2 name rfl
  | array | function => exact not_word_of_builtin (by decide)

end Avoided

namespace CheckOp

def InRange (n : Nat) : CheckOp → Prop
  | object fields => fields.Below n
  | name type | record _ type | recordReturn _ type | define _ type => type < n
  | unify left right => left < n ∧ right < n
  | fresh | concrete _ | annotated _ | look | report _ _ | pushScope | popScope => True

def Records (ids : List NodeId) : CheckOp → Prop
  | record node _ => node ∈ ids
  | _ => True

def KeepsClear (v : Avoided) (s : CheckState) : CheckOp → Prop
  | concrete text => ¬ v.word text
  | name type | record _ type | recordReturn _ type | define _ type => v.cell type = none
  | unify left right => (v.cell left = none ∧ v.cell right = none) ∧
    (v.clash → (s.store.unify left right).1 = .ok ())
  | report fault _ => ¬ v.fault fault
  | fresh | object _ | annotated _ | look | pushScope | popScope => True

/-- What every operation of a visit from a state that holds nothing avoided is like. -/
structure Fair (v : Avoided) (ids : List NodeId) (s : CheckState) (op : CheckOp) : Prop where
  range : op.InRange s.store.size
  records : op.Records ids
  clear : op.KeepsClear v s

variable {v : Avoided} {op : CheckOp} {ids : List NodeId} {s : CheckState}

theorem moves (hrange : op.InRange s.store.size) (hids : op.Records ids) :
    Moves ids s (op.perform.run s).2 := by
  have operate : ∀ step : StoreStep, step.Within s.store.size →
      Moves ids s (s.withStore (s.store.step step).2) := fun _ h => .single (.operate h)
  cases op with
  | fresh => exact operate .fresh trivial
  | concrete text => exact operate (.concrete text) trivial
  | object fields => exact operate (.object fields) hrange
  | annotated type => exact operate (.annotated type) trivial
  | name type =>
    have h := operate (.name type) hrange
    rwa [step_name hrange] at h
  | unify left right =>
    have h := operate (.unify left right) hrange
    rwa [step_unify hrange.1 hrange.2] at h
  | look => exact .refl
  | report fault place => exact .single (.report _)
  | record node type => exact .single (.record hids hrange)
  | recordReturn arrow type => exact .single (.recordReturn arrow hrange)
  | pushScope => exact .single .pushScope
  | popScope => exact .single .popScope
  | define word type => exact .single (.define word hrange)

end CheckOp

namespace Avoided

variable {v : Avoided} {op : CheckOp} {ids : List NodeId} {s : CheckState} {type : TypeId}

structure Covers (v : Avoided) (s : CheckState) : Prop where
  closed : s.Closed
  store : v.CoversStore s.store
  nodes : s.nodeTypes.All fun type => v.cell type = none
  returns : s.returnTypes.All fun type => v.cell type = none
  scopes : s.scopes.All fun type => v.cell type = none
  reports : ∀ d ∈ s.diagnostics, ¬ v.fault d.fault

theorem covers_clashes {clash : Prop} (hs : s.Closed) : (clashes clash).Covers s :=
  ⟨hs, ⟨hs.rooted, by simp [clashes], fun _ h => h, fun _ => id⟩, fun _ _ => rfl, fun _ _ => rfl,
    fun _ _ _ _ => rfl, fun _ _ => id⟩

def Shows (v : Avoided) (s : CheckState) (type : TypeId) : Prop :=
  type < s.store.size ∧ v.cell type = none

theorem Covers.perform (hs : v.Covers s) (h : op.Fair v ids s) : v.Covers (op.perform.run s).2 := by
  have hclosed := ((CheckOp.moves h.range h.records).keeps hs.closed).closed
  -- an operation on the store leaves the rest of the state alone
  have onStore : ∀ {store}, (s.withStore store).Closed → v.CoversStore store →
      v.Covers (s.withStore store) :=
    fun hclosed hstore => ⟨hclosed, hstore, hs.nodes, hs.returns, hs.scopes, hs.reports⟩
  cases op with
  | fresh => exact onStore hclosed (hs.store.push (by simp) (by simp))
  | concrete text =>
    refine onStore hclosed (hs.store.push (by simp) ?_)
    rintro _ ⟨⟩
    exact h.clear
  | object fields => exact onStore hclosed (hs.store.push (by simp) (by simp))
  | annotated type => exact onStore hclosed (hs.store.translate type)
  | name type =>
    have hroot := hs.store.rooted.root_find h.range
    exact onStore hclosed (hs.store.same (resolve_eq hroot).2)
  | unify left right =>
    obtain ⟨⟨hl, hr⟩, -⟩ := h.clear
    exact onStore hclosed (hs.store.unify h.range.1 h.range.2 hl hr)
  | look => exact hs
  | report fault place =>
    refine ⟨hclosed, hs.store, hs.nodes, hs.returns, hs.scopes, ?_⟩
    exact List.forall_mem_append.mpr ⟨hs.reports, List.forall_mem_singleton.mpr h.clear⟩
  | record node type =>
    exact ⟨hclosed, hs.store, hs.nodes.insert node h.clear, hs.returns, hs.scopes, hs.reports⟩
  | recordReturn arrow type =>
    exact ⟨hclosed, hs.store, hs.nodes, hs.returns.insert arrow h.clear, hs.scopes, hs.reports⟩
  | pushScope => exact ⟨hclosed, hs.store, hs.nodes, hs.returns, hs.scopes.push, hs.reports⟩
  | popScope => exact ⟨hclosed, hs.store, hs.nodes, hs.returns, hs.scopes.pop, hs.reports⟩
  | define word type =>
    exact ⟨hclosed, hs.store, hs.nodes, hs.returns, hs.scopes.define word h.clear, hs.reports⟩

end Avoided

end ArrowCheck
