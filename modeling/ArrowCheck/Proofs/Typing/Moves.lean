import ArrowCheck.Proofs.Store.Growth
import ArrowCheck.Proofs.Typing.Frames
import Mathlib.Logic.Relation

namespace ArrowCheck

open TypeStore Check

namespace Table

variable {κ : Type} {t : Table κ TypeId} {P : TypeId → Prop} {m n : Nat} {type : TypeId}

def All (P : TypeId → Prop) (t : Table κ TypeId) : Prop := ∀ e ∈ t.entries, P e.2

def Below (t : Table κ TypeId) (n : Nat) : Prop := ∀ e ∈ t.entries, e.2 < n

theorem all_empty : All P ({} : Table κ TypeId) := fun _ h => absurd h List.not_mem_nil

theorem below_empty : Below ({} : Table κ TypeId) n := all_empty (P := (· < n))

theorem Below.mono (h : t.Below m) (hmn : m ≤ n) : t.Below n :=
  fun e he => Nat.lt_of_lt_of_le (h e he) hmn

variable [DecidableEq κ]

theorem mem_insertEntry {k : κ} {e : κ × TypeId} {entries : List (κ × TypeId)}
    (h : e ∈ insertEntry k type entries) : e = (k, type) ∨ e ∈ entries := by
  induction entries with
  | nil => exact .inl (List.mem_singleton.mp h)
  | cons first rest ih =>
    rw [insertEntry] at h
    grind

theorem All.insert (h : t.All P) (k : κ) (htype : P type) : (t.insert k type).All P := by
  intro e he
  cases mem_insertEntry he with
  | inl heq => rwa [heq]
  | inr hmem => exact h e hmem

theorem Below.insert (h : t.Below n) (k : κ) (htype : type < n) : (t.insert k type).Below n :=
  All.insert (P := (· < n)) h k htype

theorem below_ofList {entries : List (κ × TypeId)} (h : ∀ e ∈ entries, e.2 < n) :
    (ofList entries).Below n := by
  have hfold : ∀ t : Table κ TypeId, t.Below n →
      (entries.foldl (fun t e => t.insert e.1 e.2) t).Below n := by
    induction entries with
    | nil => exact fun _ ht => ht
    | cons e rest ih =>
      obtain ⟨he, hrest⟩ := List.forall_mem_cons.mp h
      exact fun t ht => ih hrest _ (ht.insert e.1 he)
  exact hfold {} below_empty

theorem All.get? (h : t.All P) {k : κ} (hk : t.get? k = some type) : P type := by
  obtain ⟨entries⟩ := t
  rw [Table.get?] at hk
  induction entries with
  | nil => cases hk
  | cons e rest ih =>
    obtain ⟨he, hrest⟩ := List.forall_mem_cons.mp h
    by_cases hek : e.1 = k
    · rw [ getEntry?, if_pos hek] at hk
      cases hk
      exact he
    · rw [ getEntry?, if_neg hek] at hk
      exact ih hrest hk

theorem Below.get? (h : t.Below n) {k : κ} (hk : t.get? k = some type) : type < n :=
  All.get? (P := (· < n)) h hk

end Table

namespace ScopeStack

variable {scopes : ScopeStack} {P : TypeId → Prop} {m n : Nat} {type : TypeId}

def All (P : TypeId → Prop) (scopes : ScopeStack) : Prop :=
  ∀ scope ∈ scopes.inner ++ [scopes.global], scope.All P

def Below (scopes : ScopeStack) (n : Nat) : Prop :=
  ∀ scope ∈ scopes.inner ++ [scopes.global], scope.Below n

theorem Below.mono (h : scopes.Below m) (hmn : m ≤ n) : scopes.Below n :=
  fun scope hscope => (h scope hscope).mono hmn

theorem All.push (h : scopes.All P) : scopes.push.All P :=
  List.forall_mem_cons.mpr ⟨Table.all_empty, h⟩

theorem below_reset : scopes.reset.Below n := fun _ h => List.mem_singleton.mp h ▸ Table.below_empty

theorem Below.push (h : scopes.Below n) : scopes.push.Below n := All.push (P := (· < n)) h

theorem All.pop (h : scopes.All P) : scopes.pop.2.All P := by
  obtain ⟨inner, global⟩ := scopes
  cases inner with
  | nil => exact h
  | cons scope rest => exact (List.forall_mem_cons.mp h).2

theorem Below.pop (h : scopes.Below n) : scopes.pop.2.Below n := All.pop (P := (· < n)) h

theorem All.define (h : scopes.All P) (name : String) (htype : P type) :
    (scopes.define name type).All P := by
  obtain ⟨inner, global⟩ := scopes
  cases inner with
  | nil => exact fun scope hscope =>
      List.mem_singleton.mp hscope ▸ (h global (by simp)).insert name htype
  | cons scope rest =>
    obtain ⟨hscope, hrest⟩ := List.forall_mem_cons.mp h
    exact List.forall_mem_cons.mpr ⟨hscope.insert name htype, hrest⟩

theorem Below.define (h : scopes.Below n) (name : String) (htype : type < n) :
    (scopes.define name type).Below n :=
  All.define (P := (· < n)) h name htype

theorem All.lookup (h : scopes.All P) {name : String} (hname : scopes.lookup name = some type) :
    P type := by
  obtain ⟨scope, hscope, hget⟩ := List.exists_of_findSome?_eq_some hname
  exact (h scope hscope).get? hget

theorem Below.lookup (h : scopes.Below n) {name : String} (hname : scopes.lookup name = some type) :
    type < n :=
  All.lookup (P := (· < n)) h hname

end ScopeStack

/-- An operation on types of a store with `n` cells, which takes nothing back. -/
def StoreStep.Within (n : Nat) : StoreStep → Prop
  | .unify a b => a < n ∧ b < n
  | .resolve a | .find a | .name a | .display a | .cell a => a < n
  | .object fields => fields.Below n
  | .fresh | .concrete _ | .annotated _ | .isEmpty => True
  | .clear => False

/-- A single change that a visit of nodes with the given ids makes. -/
inductive Move (ids : List NodeId) (s : CheckState) : CheckState → Prop
  | operate {step : StoreStep} (h : step.Within s.store.size) :
    Move ids s (s.withStore (s.store.step step).2)
  | report (d : TypeDiagnostic) : Move ids s { s with diagnostics := s.diagnostics ++ [d] }
  | record {id : NodeId} {type : TypeId} (hid : id ∈ ids) (h : type < s.store.size) :
    Move ids s { s with nodeTypes := s.nodeTypes.insert id type }
  | recordReturn (arrow : NodeId) {type : TypeId} (h : type < s.store.size) :
    Move ids s { s with returnTypes := s.returnTypes.insert arrow type }
  | pushScope : Move ids s { s with scopes := s.scopes.push }
  | popScope : Move ids s { s with scopes := s.scopes.pop.2 }
  | define (name : String) {type : TypeId} (h : type < s.store.size) :
    Move ids s { s with scopes := s.scopes.define name type }

abbrev Moves (ids : List NodeId) : CheckState → CheckState → Prop :=
  Relation.ReflTransGen (Move ids)

/-- Links end, and every type that the state holds is a type of its store. -/
structure CheckState.Closed (s : CheckState) : Prop where
  rooted : s.store.Rooted
  nodes : s.nodeTypes.Below s.store.size
  returns : s.returnTypes.Below s.store.size
  scopes : s.scopes.Below s.store.size

theorem closed_initial : CheckState.Closed {} :=
  ⟨rooted_empty, Table.below_empty, Table.below_empty,
    fun _ h => List.mem_singleton.mp h ▸ Table.below_empty⟩

theorem CheckState.Closed.withStore {s : CheckState} {store : TypeStore} (hs : s.Closed)
    (h : Grows s.store store) : (s.withStore store).Closed :=
  ⟨h.rooted, hs.nodes.mono h.size_le, hs.returns.mono h.size_le, hs.scopes.mono h.size_le⟩

structure Keeps (ids : List NodeId) (s s' : CheckState) : Prop where
  closed : s'.Closed
  grows : Grows s.store s'.store
  reported : s.diagnostics <+: s'.diagnostics
  frame : Frame ids s s'

variable {ids : List NodeId} {s s₁ s₂ s' : CheckState}

theorem Keeps.refl (hs : s.Closed) : Keeps ids s s :=
  ⟨hs, Grows.refl hs.rooted, List.prefix_rfl, fun _ _ => rfl⟩

theorem Keeps.trans (h : Keeps ids s s₁) (h' : Keeps ids s₁ s₂) : Keeps ids s s₂ where
  closed := h'.closed
  grows := h.grows.trans h'.grows
  reported := h.reported.trans h'.reported
  frame id hid := by rw [h'.frame id hid, h.frame id hid]

theorem Move.keeps (h : Move ids s s') (hs : s.Closed) : Keeps ids s s' := by
  have hstay := Grows.refl hs.rooted
  cases h with
  | @operate step hstep =>
    have hclear : step ≠ .clear := by
      rintro rfl
      exact hstep
    have hg := step_grows hs.rooted step hclear
    exact ⟨hs.withStore hg, hg, List.prefix_rfl, fun _ _ => rfl⟩
  | report d =>
    exact ⟨⟨hs.rooted, hs.nodes, hs.returns, hs.scopes⟩, hstay, List.prefix_append _ _,
      fun _ _ => rfl⟩
  | @record id type hid htype =>
    refine ⟨⟨hs.rooted, hs.nodes.insert id htype, hs.returns, hs.scopes⟩, hstay, List.prefix_rfl, ?_⟩
    intro other hother
    have hne : other ≠ id := fun heq => hother (heq ▸ hid)
    exact (Table.get?_insert ..).trans (if_neg hne)
  | recordReturn arrow htype =>
    exact ⟨⟨hs.rooted, hs.nodes, hs.returns.insert arrow htype, hs.scopes⟩, hstay, List.prefix_rfl,
      fun _ _ => rfl⟩
  | pushScope =>
    exact ⟨⟨hs.rooted, hs.nodes, hs.returns, hs.scopes.push⟩, hstay, List.prefix_rfl, fun _ _ => rfl⟩
  | popScope =>
    exact ⟨⟨hs.rooted, hs.nodes, hs.returns, hs.scopes.pop⟩, hstay, List.prefix_rfl, fun _ _ => rfl⟩
  | define name htype =>
    exact ⟨⟨hs.rooted, hs.nodes, hs.returns, hs.scopes.define name htype⟩, hstay, List.prefix_rfl,
      fun _ _ => rfl⟩

theorem Moves.keeps (h : Moves ids s s') (hs : s.Closed) : Keeps ids s s' := by
  induction h with
  | refl => exact Keeps.refl hs
  | tail _ hmove ih => exact ih.trans (hmove.keeps ih.closed)

end ArrowCheck
