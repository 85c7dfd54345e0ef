import ArrowCheck.Proofs.Store.Merging
import ArrowCheck.Proofs.Typing.Ranges

namespace ArrowCheck

namespace TypeStore

variable {s s' : TypeStore} {a b x y : TypeId} {c : Cell}

/-- Links end, and the fields of object shapes are types of the store. -/
structure WellFormed (s : TypeStore) : Prop where
  rooted : s.Rooted
  fields : ∀ {a : TypeId} {fields}, s.cells[a]? = some (.object fields) → fields.Below s.size

/-- Nothing that can be asked of a type of the store leaves the store: links lead to cells, never back,
and end at the representative; fields are types of the store; and there is a text for the type. -/
structure Sound (s : TypeStore) : Prop extends Settled s where
  fields : ∀ {a : TypeId} {fields}, s.cells[a]? = some (.object fields) → fields.Below s.size
  shown : ∀ {a}, a < s.size → ∃ text, s.display a = some text

theorem wellFormed_empty : WellFormed {} :=
  ⟨rooted_empty, fun h => by simp at h⟩

theorem Same.wellFormed (h : Same s s') (hs : s.WellFormed) : s'.WellFormed := by
  refine ⟨h.rooted hs.rooted, fun hcell => ?_⟩
  rw [h.size_eq]
  exact hs.fields ((h.cell (by simp)).mp hcell)

theorem WellFormed.setLink (hs : s.WellFormed) (hx : Root s x x) (hy : Root s y y) (hne : x ≠ y) :
    (s.setLink x y).WellFormed := by
  refine ⟨rooted_setLink hs.rooted hx hy hne, fun {a} fields hcell => ?_⟩
  rw [cells_setLink _ _ _ _ hx.lt_size] at hcell
  rw [size_setLink]
  by_cases ha : a = x
  · rw [if_pos ha] at hcell
    cases hcell
  · rw [if_neg ha] at hcell
    exact hs.fields hcell

theorem WellFormed.push (hs : s.WellFormed) (hlink : ∀ b, c ≠ .link b)
    (hfields : ∀ fields, c = .object fields → fields.Below s.size) : (s.push c).2.WellFormed := by
  refine ⟨rooted_push hs.rooted hlink, fun {a} fields hcell => ?_⟩
  have hbelow : fields.Below s.size := by
    rw [cells_push] at hcell
    by_cases ha : a = s.size
    · rw [if_pos ha] at hcell
      exact hfields fields (Option.some.inj hcell)
    · rw [if_neg ha] at hcell
      exact hs.fields hcell
  rw [size_push]
  exact hbelow.mono (Nat.le_succ _)

section Inside

/-- The stores that resolving a type passes: the links from it are shortened one after the other. -/
def shortened (s : TypeStore) (a : TypeId) : List TypeStore :=
  (List.range (s.size + 1)).map fun bound => ⟨compress (s.find a) bound a s.cells⟩

theorem WellFormed.shortened (hs : s.WellFormed) (ha : a < s.size) :
    ∀ s' ∈ s.shortened a, s'.WellFormed := by
  intro s' hmem
  obtain ⟨bound, -, rfl⟩ := List.mem_map.mp hmem
  exact (same_compress bound s.cells (hs.rooted.root_find ha)).wellFormed hs

theorem WellFormed.resolve (hs : s.WellFormed) (ha : a < s.size) : (s.resolve a).2.WellFormed :=
  (resolve_eq (hs.rooted.root_find ha)).2.wellFormed hs

theorem size_resolve (hs : s.WellFormed) (ha : a < s.size) : (s.resolve a).2.size = s.size :=
  (resolve_eq (hs.rooted.root_find ha)).2.size_eq

theorem WellFormed.unify (hs : s.WellFormed) (ha : a < s.size) (hb : b < s.size) :
    (s.unify a b).2.WellFormed := by
  obtain ⟨ra, rb, s₁, hra, hrb, hsame, hcases⟩ := unify_cases hs.rooted ha hb
  have hs₁ := hsame.wellFormed hs
  rcases hcases with ⟨-, heq⟩ | ⟨l, r, -, -, -, heq⟩ | ⟨x, y, hxy, hne, -, -, heq⟩
  · rw [heq]
    exact hs₁
  · rw [heq]
    exact hs₁
  · rw [heq]
    have hra' := (hsame.root hra).self
    have hrb' := (hsame.root hrb).self
    rcases hxy with ⟨rfl, rfl⟩ | ⟨rfl, rfl⟩
    · exact hs₁.setLink hra' hrb' hne
    · exact hs₁.setLink hrb' hra' hne

end Inside

end TypeStore

open TypeStore

mutual

/-- The stores that adding the type of an annotation passes, up to the last cell of it. -/
def TypeExpr.stores : TypeExpr → TypeStore → List TypeStore
  | .object fields _, s => fieldStores fields s
  | .named .., _ | .array .., _ | .function .., _ | .union .., _ => []
termination_by structural t => t

def fieldStores : List Field → TypeStore → List TypeStore
  | [], _ => []
  | ⟨_, type, _⟩ :: fs, s =>
    type.stores s ++ (type.translate s).2 :: fieldStores fs (type.translate s).2
termination_by structural fs => fs

end

mutual

theorem translate_wellFormed (type : TypeExpr) {s : TypeStore} (hs : s.WellFormed) :
    (type.translate s).2.WellFormed ∧ ∀ s' ∈ type.stores s, s'.WellFormed := by
  match type with
  | .named .. | .array .. | .function .. | .union .. =>
    exact ⟨hs.push (by simp) (by simp), fun _ h => absurd h List.not_mem_nil⟩
  | .object fields _ =>
    obtain ⟨hend, hbelow, hpassed⟩ := translateFields_wellFormed fields hs
    refine ⟨hend.push (by simp) ?_, hpassed⟩
    rintro _ ⟨⟩
    exact Table.below_ofList hbelow
termination_by structural type

theorem translateFields_wellFormed (fields : List Field) {s : TypeStore} (hs : s.WellFormed) :
    (translateFields fields s).2.WellFormed ∧
      (∀ e ∈ (translateFields fields s).1, e.2 < (translateFields fields s).2.size) ∧
        ∀ s' ∈ fieldStores fields s, s'.WellFormed := by
  match fields with
  | [] => exact ⟨hs, fun _ h => absurd h List.not_mem_nil, fun _ h => absurd h List.not_mem_nil⟩
  | ⟨name, type, _⟩ :: rest =>
    obtain ⟨hs₁, hpassed⟩ := translate_wellFormed type hs
    obtain ⟨hend, hbelow, hpassed'⟩ := translateFields_wellFormed rest hs₁
    have hlt := Nat.lt_of_lt_of_le (translate_grows type hs.rooted).2
      (translateFields_untouched rest hs₁.rooted).size_le
    refine ⟨hend, List.forall_mem_cons.mpr ⟨hlt, hbelow⟩, fun s' hmem => ?_⟩
    cases List.mem_append.mp hmem with
    | inl h => exact hpassed s' h
    | inr h => exact List.forall_mem_cons.mpr ⟨hs₁, hpassed'⟩ s' h
termination_by structural fields

end

theorem translateOptional_wellFormed (type : Option TypeExpr) {s : TypeStore} (hs : s.WellFormed) :
    (translateOptional type s).2.WellFormed := by
  cases type with
  | some type => exact (translate_wellFormed type hs).1
  | none => exact hs.push (by simp) (by simp)

namespace TypeStore

variable {s : TypeStore} {a : TypeId}

theorem exists_mapM {α β : Type} {f : α → Option β} {xs : List α} (h : ∀ x ∈ xs, ∃ y, f x = some y) :
    ∃ ys, xs.mapM f = some ys := by
  induction xs with
  | nil => exact ⟨[], rfl⟩
  | cons x rest ih =>
    obtain ⟨⟨y, hy⟩, hrest⟩ := List.forall_mem_cons.mp h
    obtain ⟨ys, hys⟩ := ih hrest
    exact ⟨y :: ys, by simp [List.mapM_cons, hy, hys]⟩

theorem WellFormed.displayWithin (hs : s.WellFormed) (levels : Nat) (ha : a < s.size) :
    ∃ text, s.displayWithin levels a = some text := by
  induction levels generalizing a with
  | zero =>
    obtain ⟨c, hc, -⟩ := (hs.rooted.root_find ha).cell
    unfold TypeStore.displayWithin
    simp only [hc]
    cases c <;> exact ⟨_, rfl⟩
  | succ levels ih =>
    obtain ⟨c, hc, -⟩ := (hs.rooted.root_find ha).cell
    unfold TypeStore.displayWithin
    simp only [hc]
    cases c with
    | unbound | link | concrete => exact ⟨_, rfl⟩
    | object fields =>
      have htexts : ∀ e ∈ fields.entries, ∃ text,
          (do return e.1 ++ ": " ++ (← s.displayWithin levels e.2)) = some text := by
        intro e he
        obtain ⟨text, htext⟩ := ih (hs.fields hc e he)
        exact ⟨_, by rw [htext]; rfl⟩
      obtain ⟨texts, h⟩ := exists_mapM htexts
      exact ⟨_, by simp only [h]; rfl⟩

theorem WellFormed.sound (hs : s.WellFormed) : s.Sound :=
  { hs.rooted.settled with fields := hs.fields, shown := hs.displayWithin shownLevels }

theorem WellFormed.step (hs : s.WellFormed) {step : StoreStep} (hstep : step.Within s.size) :
    (s.step step).2.WellFormed := by
  cases step with
  | fresh | concrete => exact hs.push (by simp) (by simp)
  | object fields =>
    refine hs.push (by simp) ?_
    rintro _ ⟨⟩
    exact hstep
  | annotated type => exact translateOptional_wellFormed type hs
  | unify a b =>
    rw [step_unify hstep.1 hstep.2]
    exact hs.unify hstep.1 hstep.2
  | resolve a =>
    rw [step_resolve hstep]
    exact hs.resolve hstep
  | name a =>
    rw [step_name hstep]
    exact hs.resolve hstep
  | find a =>
    have ha : a < s.size := hstep
    simpa [TypeStore.step, contains, ha] using hs
  | display | cell | isEmpty => exact hs
  | clear => exact absurd hstep id

end TypeStore

namespace CheckOp

def stores : CheckOp → TypeStore → List TypeStore
  | name type, s => s.shortened type
  | unify left right, s => s.shortened left ++ (s.resolve left).2.shortened right
  | annotated (some type), s => type.stores s
  | annotated none, _ | fresh, _ | concrete _, _ | object _, _ | look, _ | report _ _, _ | record _ _, _
  | recordReturn _ _, _ | pushScope, _ | popScope, _ | define _ _, _ => []

theorem stores_wellFormed {op : CheckOp} {s : TypeStore} (hs : s.WellFormed) (hop : op.InRange s.size) :
    ∀ s' ∈ op.stores s, s'.WellFormed := by
  match op with
  | name type => exact hs.shortened hop
  | unify left right =>
    intro s' hmem
    cases List.mem_append.mp hmem with
    | inl h => exact hs.shortened hop.1 s' h
    | inr h =>
      have hright : right < (s.resolve left).2.size := (size_resolve hs hop.1).symm ▸ hop.2
      exact (hs.resolve hop.1).shortened hright s' h
  | annotated (some type) => exact (translate_wellFormed type hs).2
  | annotated none | fresh | concrete _ | object _ | look | report _ _ | record _ _ | recordReturn _ _
  | pushScope | popScope | define _ _ => exact fun _ h => absurd h List.not_mem_nil

end CheckOp

namespace CheckState

/-- Links end, and all types in the state and in the shapes of its store are types of the store. -/
structure WellFormed (s : CheckState) : Prop where
  closed : s.Closed
  store : s.store.WellFormed

/-- Nothing that the state holds leads out of its store, and nothing there leads back. -/
structure Sound (s : CheckState) : Prop where
  store : s.store.Sound
  nodes : s.nodeTypes.Below s.store.size
  returns : s.returnTypes.Below s.store.size
  scopes : s.scopes.Below s.store.size

theorem WellFormed.initial : WellFormed {} := ⟨closed_initial, wellFormed_empty⟩

variable {ids : List NodeId} {s s' : CheckState}

theorem WellFormed.sound (hs : s.WellFormed) : s.Sound :=
  ⟨hs.store.sound, hs.closed.nodes, hs.closed.returns, hs.closed.scopes⟩

theorem WellFormed.move (hs : s.WellFormed) (h : Move ids s s') : s'.WellFormed := by
  refine ⟨(h.keeps hs.closed).closed, ?_⟩
  cases h with
  | operate hstep => exact hs.store.step hstep
  | report | record | recordReturn | pushScope | popScope | define => exact hs.store

/-- The states of a reset, from its start to its end. -/
def resetting (s : CheckState) : List CheckState := clearings.scanl (fun s clear => clear s) s

/-- In the middle of a reset the store is empty or as it was, and the types that are still held are types
of the store as it was. -/
structure Fading (s start : CheckState) : Prop where
  store : s.store.Sound
  emptied : s = start ∨ s.store.size = 0
  nodes : s.nodeTypes.Below start.store.size
  returns : s.returnTypes.Below start.store.size
  scopes : s.scopes.Below start.store.size

theorem WellFormed.fading (hs : s.WellFormed) : ∀ s' ∈ s.resetting, s'.Fading s := by
  have hempty : ({} : TypeStore).Sound := wellFormed_empty.sound
  obtain ⟨hstore, hnodes, hreturns, hscopes⟩ := hs.sound
  have hreset : s.scopes.reset.Below s.store.size := ScopeStack.below_reset
  intro s' hmem
  -- the store goes first; what the tables and scopes held goes after it, one by one
  simp only [resetting, clearings, List.scanl_cons, List.scanl_nil, List.mem_cons, List.not_mem_nil,
    or_false] at hmem
  rcases hmem with rfl | rfl | rfl | rfl | rfl | rfl
  · exact ⟨hstore, .inl rfl, hnodes, hreturns, hscopes⟩
  · exact ⟨hempty, .inr rfl, hnodes, hreturns, hscopes⟩
  · exact ⟨hempty, .inr rfl, hnodes, hreturns, hreset⟩
  · exact ⟨hempty, .inr rfl, hnodes, hreturns, hreset⟩
  · exact ⟨hempty, .inr rfl, Table.below_empty, hreturns, hreset⟩
  · exact ⟨hempty, .inr rfl, Table.below_empty, Table.below_empty, hreset⟩

theorem reset_eq (s : CheckState) : s.reset = {} := rfl

theorem WellFormed.moves (hs : s.WellFormed) (h : Moves ids s s') : s'.WellFormed := by
  induction h with
  | refl => exact hs
  | tail _ hmove ih => exact ih.move hmove

end CheckState

/-- An operation meets a sound state, is about types of its store, and passes sound stores only. -/
def CheckOp.SoundIn (op : CheckOp) (s : CheckState) : Prop :=
  s.Sound ∧ op.InRange s.store.size ∧ ∀ store ∈ op.stores s.store, store.Sound

theorem Plan.Safe.sound {α : Type} {m : Check α} {p : Plan m} {ids : List NodeId} {s : CheckState}
    {Q : α → CheckState → Prop} (h : p.Safe .nothing ids s Q) (hs : s.WellFormed) :
    (∀ x ∈ p.history s, x.2.SoundIn x.1) ∧ (m.run s).2.WellFormed := by
  have hkeeps := (h (Avoided.covers_clashes hs.closed)).1
  obtain ⟨hend, hpassed⟩ := hkeeps.moves
  refine ⟨fun x hx => ?_, hs.moves hend⟩
  have hx' := hs.moves (hpassed x hx)
  have hrange := (hkeeps x hx).range
  exact ⟨hx'.sound, hrange, fun store hmem =>
    (CheckOp.stores_wellFormed hx'.store hrange store hmem).sound⟩

/-- A call on a checker that keeps its state. -/
inductive CheckCall
  | check (p : Program)
  | visit (statements : List Stmt)
  | visitExpr (e : Expr)
  | visitBlock (b : Block)

namespace CheckCall

/-- The operations of a call from a state, each with the state in which it is performed. -/
def history (o : CheckOptions) : CheckCall → CheckState → List (CheckState × CheckOp)
  | check p, s => (visitAllPlan o p.statements).history s.reset
  | visit statements, s => (visitAllPlan o statements).history s
  | visitExpr e, s => (e.plan o).history s
  | visitBlock b, s => (b.plan o).history s

/-- The states of the reset that a call begins with. -/
def resetting : CheckCall → CheckState → List CheckState
  | check _, s => s.resetting
  | visit _, _ | visitExpr _, _ | visitBlock _, _ => []

def finish (o : CheckOptions) : CheckCall → CheckState → CheckState
  | check p, s => ((visitAll o p.statements).run s.reset).2
  | visit statements, s => ((visitAll o statements).run s).2
  | visitExpr e, s => ((e.check o).run s).2
  | visitBlock b, s => ((b.check o).run s).2

theorem sound (o : CheckOptions) (r : CheckCall) {s : CheckState} (hs : s.WellFormed) :
    (∀ x ∈ r.history o s, x.2.SoundIn x.1) ∧ (r.finish o s).WellFormed := by
  cases r with
  | check p =>
    exact (visitAll_safe o id p.statements (List.Subset.refl _)).sound (s.reset_eq ▸ .initial)
  | visit statements => exact (visitAll_safe o id statements (List.Subset.refl _)).sound hs
  | visitExpr e => exact (e.safe o id (List.Subset.refl _)).sound hs
  | visitBlock b => exact (b.safe o id (List.Subset.refl _)).sound hs

end CheckCall

/-- Whatever a checker holds of earlier visits, a whole program is checked as by a new one. -/
theorem Session.check_fst (s : Session) (p : Program) : (s.check p).1 = checkProgram s.options p := by
  rw [Session.check, CheckState.reset_eq]
  rfl

/-- A checked program is given away with the state; all other calls leave theirs to the next one. -/
def Session.serve (s : Session) : CheckCall → Session
  | .check p => (s.check p).2
  | .visit statements => (s.visit statements).2
  | .visitExpr e => { s with state := ((e.check s.options).run s.state).2 }
  | .visitBlock b => { s with state := ((b.check s.options).run s.state).2 }

def Session.after (o : CheckOptions) (calls : List CheckCall) : Session :=
  calls.foldl Session.serve { options := o }

/-- What holds of an empty state and is kept by calls holds of a checker behind any calls. -/
theorem Session.after_keeps {P : CheckState → Prop} (hnew : P {})
    (hcall : ∀ o r {s}, P s → P (CheckCall.finish o r s)) (o : CheckOptions)
    (calls : List CheckCall) : P (Session.after o calls).state := by
  have hcalls : ∀ (calls : List CheckCall) {s : Session}, P s.state →
      P (calls.foldl Session.serve s).state := by
    intro calls
    induction calls with
    | nil => exact id
    | cons r rest ih =>
      intro s hs
      apply ih
      cases r with
      | check p => exact hnew
      | visit statements => exact hcall s.options (.visit statements) hs
      | visitExpr e => exact hcall s.options (.visitExpr e) hs
      | visitBlock b => exact hcall s.options (.visitBlock b) hs
  exact hcalls calls hnew

theorem Session.after_wellFormed (o : CheckOptions) (calls : List CheckCall) :
    (Session.after o calls).state.WellFormed :=
  Session.after_keeps (P := CheckState.WellFormed) .initial
    (fun o r _ hs => (CheckCall.sound o r hs).2) o calls

/-- Whatever was asked of a checker before, every state that a call passes is sound and every
operation of it is about types that the store has: no cell is missed, following links ends, and types
have a text, during the call and behind it. Only inside a reset are types held that the store has no
longer; no operation is performed there, and nothing is left of them at its end. -/
theorem every_state_sound (o : CheckOptions) (earlier : List CheckCall) (r : CheckCall) :
    (Session.after o earlier).state.Sound ∧
      (∀ s ∈ r.resetting (Session.after o earlier).state, s.Fading (Session.after o earlier).state) ∧
      (Session.after o earlier).state.reset = {} ∧
      (∀ x ∈ r.history o (Session.after o earlier).state, x.2.SoundIn x.1) ∧
      (r.finish o (Session.after o earlier).state).Sound := by
  have hs := Session.after_wellFormed o earlier
  obtain ⟨hpassed, hend⟩ := CheckCall.sound o r hs
  refine ⟨hs.sound, fun s hmem => ?_, CheckState.reset_eq _, hpassed, hend.sound⟩
  cases r with
  | check p => exact hs.fading s hmem
  | visit | visitExpr | visitBlock => exact absurd hmem List.not_mem_nil

/-- Behind a visit of one node, the reset in front of the next program first empties the store, while the
node still has the first type of it. -/
theorem type_outlives_store :
    ∃ s ∈ (CheckCall.check ⟨[], default⟩).resetting
      (Session.after {} [.visitExpr (.boolean ⟨7, default⟩ true)]).state,
      s.nodeTypes.get? 7 = some 0 ∧ s.store.size = 0 ∧ ¬ s.Sound := by
  have hget : (Session.after {} [.visitExpr (.boolean ⟨7, default⟩ true)]).state.nodeTypes.get? 7 =
      some 0 := by decide +kernel
  generalize (Session.after {} [.visitExpr (.boolean ⟨7, default⟩ true)]).state = state at hget
  have hmem : CheckState.mk {} state.scopes state.diagnostics state.nodeTypes state.returnTypes ∈
      state.resetting := List.mem_cons_of_mem _ List.mem_cons_self
  exact ⟨_, hmem, hget, rfl, fun h => absurd (h.nodes.get? hget) (Nat.not_lt_zero 0)⟩

/-- An expression that could not be read and an object, visited one after the other under one id, and a
name without binding that is compared with the object: the comparison passes eight stores, all sound,
and behind it the name has the text of the object. -/
theorem repeated_ids_sound :
    let at_ : NodeId → Node := fun id => ⟨id, default⟩
    let earlier := [CheckCall.visitExpr (.error (at_ 1)),
      .visit [.const (at_ 1) ⟨at_ 1, "a"⟩ none
        (.object (at_ 1) [⟨at_ 2, "x", .ident (at_ 1) "u"⟩])]]
    let r := CheckCall.visit [.const (at_ 1) ⟨at_ 1, "b"⟩ none
      (.binary (at_ 2) .sub (.ident (at_ 4) "v") (.ident (at_ 3) "a"))]
    let s := (Session.after {} earlier).state
    (∃ x ∈ r.history {} s, (x.2.stores x.1.store).length = 8 ∧ x.2.SoundIn x.1) ∧
      (r.finish {} s).Sound ∧
      (r.finish {} s).store.display 2 = some "\x7bx: 't0\x7d" := by
  intro at_ earlier r s
  obtain ⟨-, -, -, hpassed, hend⟩ := every_state_sound {} earlier r
  have hunify : (r.history {} s)[8]?.map (fun x => (x.2.stores x.1.store).length) = some 8 := by
    decide +kernel
  obtain ⟨x, hx, hlength⟩ := Option.map_eq_some_iff.mp hunify
  have hmem := List.mem_of_getElem? hx
  exact ⟨⟨x, hmem, hlength, hpassed x hmem⟩, hend, by decide +kernel⟩

end ArrowCheck
