import ArrowCheck.Proofs.Typing.Plain
import Mathlib.Data.List.Infix

namespace ArrowCheck

open Check

namespace ScopeStack

variable {base scopes : ScopeStack}

def all (scopes : ScopeStack) : List Scope := scopes.inner ++ [scopes.global]

def outer (scopes : ScopeStack) : List Scope := scopes.all.tail

theorem exists_all_eq (scopes : ScopeStack) : ∃ scope, scopes.all = scope :: scopes.outer := by
  obtain ⟨inner, global⟩ := scopes
  cases inner with
  | nil => exact ⟨global, rfl⟩
  | cons scope rest => exact ⟨scope, rfl⟩

theorem depth_eq (scopes : ScopeStack) : scopes.depth = scopes.outer.length + 1 := by
  simp [depth, outer, all]

theorem outer_suffix (scopes : ScopeStack) : scopes.outer <:+ scopes.all := List.tail_suffix _

theorem all_define {scope : Scope} (h : scopes.all = scope :: scopes.outer) (name : String)
    (type : TypeId) : (scopes.define name type).all = scope.insert name type :: scopes.outer := by
  obtain ⟨inner, global⟩ := scopes
  cases inner with
  | nil =>
    cases h
    rfl
  | cons first rest =>
    cases h
    rfl

theorem outer_define (scopes : ScopeStack) (name : String) (type : TypeId) :
    (scopes.define name type).outer = scopes.outer := by
  obtain ⟨scope, h⟩ := scopes.exists_all_eq
  rw [outer, all_define h, List.tail_cons]

theorem depth_lt_of_outer (h : scopes.outer = base.all) : base.depth < scopes.depth := by
  rw [depth_eq scopes, h]
  simp [depth, all]

theorem pop_of_outer (h : scopes.outer = base.all) : scopes.pop.2 = base := by
  obtain ⟨inner, global⟩ := scopes
  cases inner with
  | nil => exact absurd h.symm (by simp [all, outer])
  | cons scope rest =>
    obtain ⟨hrest, hglobal⟩ := List.append_inj' h rfl
    cases hglobal
    cases hrest
    rfl

end ScopeStack

def Stmt.bind (st : Stmt) (type : TypeId) (scope : Scope) : Scope :=
  match st with
  | .const _ name _ _ => scope.insert name.name type
  | .ret .. => scope

def Stmt.scopesAfter (st : Stmt) (type : TypeId) (scopes : ScopeStack) : ScopeStack :=
  match st with
  | .const _ name _ _ => scopes.define name.name type
  | .ret .. => scopes

theorem Stmt.outer_scopesAfter (st : Stmt) (type : TypeId) (scopes : ScopeStack) :
    (st.scopesAfter type scopes).outer = scopes.outer := by
  cases st with
  | const _ name _ _ => exact scopes.outer_define name.name type
  | ret => rfl

theorem Stmt.all_scopesAfter (st : Stmt) (type : TypeId) {scopes : ScopeStack} {scope : Scope}
    (h : scopes.all = scope :: scopes.outer) :
    (st.scopesAfter type scopes).all = st.bind type scope :: scopes.outer := by
  cases st with
  | const _ name _ _ => exact ScopeStack.all_define h name.name type
  | ret => exact h

theorem Stmt.depth_scopesAfter (st : Stmt) (type : TypeId) (scopes : ScopeStack) :
    (st.scopesAfter type scopes).depth = scopes.depth := by
  rw [ScopeStack.depth_eq, outer_scopesAfter, ScopeStack.depth_eq]

def CheckOp.Quiet : CheckOp → Prop
  | pushScope | popScope | define _ _ => False
  | _ => True

namespace Plan

variable {α β : Type} {m : Check α} {f : α → Check β} {s : CheckState} {scopes : ScopeStack}
  {base : List Scope} {n : Nat}

theorem scopes_of_quiet {op : CheckOp} (h : op.Quiet) (s : CheckState) :
    (op.perform.run s).2.scopes = s.scopes := by
  cases op with
  | pushScope | popScope | define => exact absurd h id
  | _ => rfl

theorem Within.scopes_eq {p : Plan m} (hp : p.Within CheckOp.Quiet s) :
    (m.run s).2.scopes = s.scopes ∧ ∀ x ∈ p.history s, x.1.scopes = s.scopes := by
  induction p generalizing s with
  | value a => exact ⟨rfl, fun _ hx => absurd hx List.not_mem_nil⟩
  | act op =>
    refine ⟨scopes_of_quiet (hp (s, op) (List.mem_singleton_self _)) s, fun x hx => ?_⟩
    rw [List.mem_singleton.mp hx]
  | @next _ _ m f p q ihp ihq =>
    obtain ⟨hp, hq⟩ := hp.of_next
    obtain ⟨hend, hpassed⟩ := ihp hp
    obtain ⟨hend', hpassed'⟩ := ihq (m.run s).1 hq
    rw [hend] at hend' hpassed'
    refine ⟨hend', fun x hx => ?_⟩
    cases List.mem_append.mp hx with
    | inl h => exact hpassed x h
    | inr h => exact hpassed' x h
  | choose c p q ihp ihq =>
    by_cases hc : c
    · simp only [Within, Plan.history, hc, ↓reduceIte] at hp ⊢
      exact ihp hp
    · simp only [Within, Plan.history, hc, ↓reduceIte] at hp ⊢
      exact ihq hp

/-- While a run from `s` goes on, the scopes `base` stay at the bottom, and only a scope above the first
`n` is closed. -/
def Nests (base : List Scope) (n : Nat) (p : Plan m) (s : CheckState) : Prop :=
  ∀ x ∈ p.history s, base <:+ x.1.scopes.all ∧ (x.2 = .popScope → n < x.1.scopes.depth)

/-- A run that nests, with what is known of its value and the scopes at the end. -/
def Runs (base : List Scope) (n : Nat) (p : Plan m) (s : CheckState) (Q : α → ScopeStack → Prop) :
    Prop :=
  p.Nests base n s ∧ Q (m.run s).1 (m.run s).2.scopes

variable {Q : α → ScopeStack → Prop} {R : β → ScopeStack → Prop}

theorem Runs.next {p : Plan m} {q : (a : α) → Plan (f a)} (hp : p.Runs base n s Q)
    (hq : ∀ a s', Q a s'.scopes → (q a).Runs base n s' R) : (p.next q).Runs base n s R := by
  obtain ⟨hnests, hQ⟩ := hp
  obtain ⟨hnests', hR⟩ := hq _ _ hQ
  refine ⟨fun x hx => ?_, hR⟩
  cases List.mem_append.mp hx with
  | inl h => exact hnests x h
  | inr h => exact hnests' x h

theorem Within.runs {p : Plan m} (hp : p.Within CheckOp.Quiet s) (hs : s.scopes = scopes)
    (hbase : base <:+ scopes.all) : p.Runs base n s fun _ end_ => end_ = scopes := by
  obtain ⟨hend, hpassed⟩ := hp.scopes_eq
  refine ⟨fun x hx => ?_, hend.trans hs⟩
  have hquiet := hp x hx
  refine ⟨by rwa [hpassed x hx, hs], fun hpop => ?_⟩
  rw [hpop] at hquiet
  exact absurd hquiet id

theorem All.runs {p : Plan m} (hp : p.All CheckOp.Quiet) (hs : s.scopes = scopes)
    (hbase : base <:+ scopes.all) : p.Runs base n s fun _ end_ => end_ = scopes :=
  (hp.within s).runs hs hbase

theorem act_runs {op : CheckOp} {Q : op.Answer → ScopeStack → Prop} (hbase : base <:+ s.scopes.all)
    (hpop : op = .popScope → n < s.scopes.depth)
    (hQ : Q (op.perform.run s).1 (op.perform.run s).2.scopes) : (Plan.act op).Runs base n s Q := by
  refine ⟨fun x hx => ?_, hQ⟩
  rw [List.mem_singleton.mp hx]
  exact ⟨hbase, hpop⟩

theorem pushScope_runs (hs : s.scopes = scopes) (hbase : base <:+ scopes.all) :
    (Plan.act .pushScope).Runs base n s fun _ end_ => end_ = scopes.push :=
  act_runs (hs ▸ hbase) (by simp) (congrArg ScopeStack.push hs)

theorem popScope_runs (houter : s.scopes.outer = scopes.all) (hbase : base <:+ scopes.all)
    (hn : n ≤ scopes.depth) :
    (Plan.act .popScope).Runs base n s fun _ end_ => end_ = scopes :=
  act_runs ((houter ▸ hbase).trans s.scopes.outer_suffix)
    (fun _ => Nat.lt_of_le_of_lt hn (ScopeStack.depth_lt_of_outer houter))
    (ScopeStack.pop_of_outer houter)

end Plan

theorem CheckOp.Plain.quiet {op : CheckOp} (h : op.Plain true) : op.Quiet := by
  cases op with
  | record | recordReturn | pushScope | popScope | define => exact absurd h id
  | _ => trivial

theorem Plan.All.quiet {α : Type} {m : Check α} {p : Plan m} (h : p.All (CheckOp.Plain true)) :
    p.All CheckOp.Quiet := h.imp fun hop => hop.quiet

theorem Check.record_quiet (node : NodeId) {type : TypeId} :
    (recordPlan node type).All CheckOp.Quiet := ⟨trivial, fun _ => trivial⟩

section Tree

variable (o : CheckOptions) {base : List Scope} {n : Nat}

theorem bindParams_runs (params : List Param) {s : CheckState} (hbase : base <:+ s.scopes.outer) :
    (bindParamsPlan params).Runs base n s fun _ end_ => end_.outer = s.scopes.outer := by
  induction params generalizing s with
  | nil => exact ⟨fun _ hx => absurd hx List.not_mem_nil, rfl⟩
  | cons p rest ih =>
    have hall := hbase.trans s.scopes.outer_suffix
    have htype : (Plan.act (.annotated p.type)).All CheckOp.Quiet := trivial
    apply (htype.runs rfl hall).next
    intro (type : TypeId) s₁ h₁
    have hrecord : (Plan.act (.record p.node.id type)).All CheckOp.Quiet := trivial
    apply (hrecord.runs h₁ hall).next
    intro _ s₂ h₂
    have hdefine : (Plan.act (.define p.name type)).Runs base n s₂ fun _ end_ =>
        end_.outer = s.scopes.outer := by
      refine Plan.act_runs (by rwa [h₂]) (by simp) ?_
      show (s₂.scopes.define p.name type).outer = s.scopes.outer
      rw [h₂, ScopeStack.outer_define]
    apply hdefine.next
    intro _ s₃ h₃
    rw [← h₃] at hbase ⊢
    exact ih hbase

mutual

theorem Expr.runs (e : Expr) {s : CheckState} {scopes : ScopeStack} (hs : s.scopes = scopes)
    (hbase : base <:+ scopes.all) (hn : n ≤ scopes.depth) :
    (e.plan o).Runs base n s fun _ end_ => end_ = scopes := by
  match e with
  | .string .. | .number .. | .boolean .. =>
    exact Plan.All.runs (.next trivial fun _ => record_quiet _) hs hbase
  | .ident .. => exact Plan.All.runs (.next (identType_plain _ _).quiet fun _ => record_quiet _) hs hbase
  | .binary node op l r =>
    apply (l.runs hs hbase hn).next
    intro _ s₁ h₁
    apply (r.runs h₁ hbase hn).next
    intro _ s₂ h₂
    exact Plan.All.runs (.next (binaryType_plain op).quiet fun _ => record_quiet _) h₂ hbase
  | .conditional node c a b =>
    apply (c.runs hs hbase hn).next
    intro _ s₁ h₁
    apply (a.runs h₁ hbase hn).next
    intro _ s₂ h₂
    apply (b.runs h₂ hbase hn).next
    intro _ s₃ h₃
    exact Plan.All.runs (.next conditionalType_plain.quiet fun _ => record_quiet _) h₃ hbase
  | .call node f args =>
    apply (f.runs hs hbase hn).next
    intro _ s₁ h₁
    have hfresh : (Plan.act .fresh).All CheckOp.Quiet := trivial
    apply (hfresh.runs h₁ hbase).next
    intro _ s₂ h₂
    apply (checkExprs_runs args h₂ hbase hn).next
    intro _ s₃ h₃
    exact Plan.All.runs (.next (callType_plain f).quiet fun _ => record_quiet _) h₃ hbase
  | .arrow node params result body =>
    apply (Plan.pushScope_runs hs hbase).next
    intro _ s₁ h₁
    have hbase₁ : base <:+ s₁.scopes.outer := by rwa [h₁]
    apply (bindParams_runs params hbase₁).next
    intro _ s₂ h₂
    -- the scope of the parameters is open from here on, and the scopes below are those of the start
    have hbelow : s₂.scopes.outer = scopes.all := by rw [h₂, h₁]; rfl
    have hall : base <:+ s₂.scopes.all := (hbelow.symm ▸ hbase).trans s₂.scopes.outer_suffix
    have hlt := ScopeStack.depth_lt_of_outer hbelow
    apply (body.runs rfl hall (by omega)).next
    intro type s₃ h₃
    have hreturn : (Plan.act (.recordReturn node.id type)).All CheckOp.Quiet := trivial
    apply (hreturn.runs h₃ hall).next
    intro _ s₄ h₄
    apply ((checkResult_plain result).quiet.runs h₄ hall).next
    intro _ s₅ h₅
    apply (Plan.popScope_runs (h₅ ▸ hbelow) hbase hn).next
    intro _ s₆ h₆
    exact Plan.All.runs (.next trivial fun _ => record_quiet _) h₆ hbase
  | .array node elements =>
    apply (checkArray_runs elements hs hbase hn).next
    intro _ s₁ h₁
    exact Plan.All.runs (.next trivial fun _ => record_quiet _) h₁ hbase
  | .object node properties =>
    apply (checkProperties_runs properties hs hbase hn).next
    intro _ s₁ h₁
    exact Plan.All.runs (.next trivial fun _ => record_quiet _) h₁ hbase
  | .error node =>
    exact Plan.All.runs (.next trivial fun _ => .next trivial fun _ => record_quiet _) hs hbase
termination_by structural e

theorem checkExprs_runs (es : List Expr) {s : CheckState} {scopes : ScopeStack}
    (hs : s.scopes = scopes) (hbase : base <:+ scopes.all) (hn : n ≤ scopes.depth) :
    (checkExprsPlan o es).Runs base n s fun _ end_ => end_ = scopes := by
  match es with
  | [] => exact Plan.All.runs trivial hs hbase
  | e :: rest =>
    apply (e.runs hs hbase hn).next
    intro _ s₁ h₁
    apply (checkExprs_runs rest h₁ hbase hn).next
    intro _ s₂ h₂
    exact Plan.All.runs trivial h₂ hbase
termination_by structural es

theorem checkArray_runs (es : List Expr) {s : CheckState} {scopes : ScopeStack}
    (hs : s.scopes = scopes) (hbase : base <:+ scopes.all) (hn : n ≤ scopes.depth) :
    (checkArrayPlan o es).Runs base n s fun _ end_ => end_ = scopes := by
  match es with
  | [] => exact Plan.All.runs trivial hs hbase
  | first :: rest =>
    apply (first.runs hs hbase hn).next
    intro type s₁ h₁
    have hname : (Plan.act (.name type)).All CheckOp.Quiet := trivial
    apply (hname.runs h₁ hbase).next
    intro name s₂ h₂
    exact checkRest_runs name rest h₂ hbase hn
termination_by structural es

theorem checkRest_runs {first : TypeId} (name : Option String) (es : List Expr) {s : CheckState}
    {scopes : ScopeStack} (hs : s.scopes = scopes) (hbase : base <:+ scopes.all) (hn : n ≤ scopes.depth) :
    (checkRestPlan o first name es).Runs base n s fun _ end_ => end_ = scopes := by
  match es with
  | [] => exact Plan.All.runs trivial hs hbase
  | e :: rest =>
    apply (e.runs hs hbase hn).next
    intro _ s₁ h₁
    apply ((elementType_plain name).quiet.runs h₁ hbase).next
    intro _ s₂ h₂
    exact checkRest_runs name rest h₂ hbase hn
termination_by structural es

theorem checkProperties_runs (ps : List Property) {s : CheckState} {scopes : ScopeStack}
    (hs : s.scopes = scopes) (hbase : base <:+ scopes.all) (hn : n ≤ scopes.depth) :
    (checkPropertiesPlan o ps).Runs base n s fun _ end_ => end_ = scopes := by
  match ps with
  | [] => exact Plan.All.runs trivial hs hbase
  | ⟨_, key, value⟩ :: rest =>
    apply (value.runs hs hbase hn).next
    intro _ s₁ h₁
    apply (checkProperties_runs rest h₁ hbase hn).next
    intro _ s₂ h₂
    exact Plan.All.runs trivial h₂ hbase
termination_by structural ps

theorem Stmt.runs (st : Stmt) {s : CheckState} {scopes : ScopeStack} (hs : s.scopes = scopes)
    (hbase : base <:+ scopes.outer) (hn : n ≤ scopes.depth) :
    (st.plan o).Runs base n s fun type end_ => end_ = st.scopesAfter type scopes := by
  have hall := hbase.trans scopes.outer_suffix
  match st with
  | .const node name declared value =>
    apply (value.runs hs hall hn).next
    intro init s₁ h₁
    have hrecord : (Plan.act (.record name.node.id init)).All CheckOp.Quiet := trivial
    apply (hrecord.runs h₁ hall).next
    intro _ s₂ h₂
    have hdefine : (Plan.act (.define name.name init)).Runs base n s₂ fun _ end_ =>
        end_ = scopes.define name.name init :=
      Plan.act_runs (h₂ ▸ hall) (by simp) (congrArg (·.define name.name init) h₂)
    apply hdefine.next
    intro _ s₃ h₃
    have hall₃ : base <:+ (scopes.define name.name init).all :=
      (scopes.outer_define name.name init ▸ hbase).trans (ScopeStack.outer_suffix _)
    cases declared with
    | none => exact ⟨fun _ hx => absurd hx List.not_mem_nil, h₃⟩
    | some declared =>
      have hcheck : (checkDeclaredPlan o ⟨node, "ConstDeclaration"⟩ value init declared).Within
          CheckOp.Quiet s₃ :=
        (checkDeclared_within value declared fun _ _ => .inl rfl).imp fun hop => hop.quiet
      apply (hcheck.runs h₃ hall₃).next
      intro _ s₄ h₄
      exact ⟨fun _ hx => absurd hx List.not_mem_nil, h₄⟩
  | .ret _ (some argument) => exact argument.runs hs hall hn
  | .ret _ none => exact Plan.All.runs trivial hs hall
termination_by structural st

theorem Block.runs (b : Block) {s : CheckState} {scopes : ScopeStack} (hs : s.scopes = scopes)
    (hbase : base <:+ scopes.all) (hn : n ≤ scopes.depth) :
    (b.plan o).Runs base n s fun _ end_ => end_ = scopes := by
  match b with
  | ⟨node, statements⟩ =>
    have hvoid : (Plan.act (.concrete "Void")).All CheckOp.Quiet := trivial
    apply (hvoid.runs hs hbase).next
    intro void s₁ h₁
    apply (Plan.pushScope_runs h₁ hbase).next
    intro _ s₂ h₂
    have hbelow : s₂.scopes.outer = scopes.all := by rw [h₂]; rfl
    have hlt := ScopeStack.depth_lt_of_outer hbelow
    apply (checkStmts_runs statements rfl (hbelow.symm ▸ hbase) (by omega)).next
    intro _ s₃ h₃
    apply (Plan.popScope_runs (h₃.trans hbelow) hbase hn).next
    intro _ s₄ h₄
    exact (record_quiet _).runs h₄ hbase
termination_by structural b

theorem checkStmts_runs (ss : List Stmt) {last : TypeId} {s : CheckState} {scopes : ScopeStack}
    (hs : s.scopes = scopes) (hbase : base <:+ scopes.outer) (hn : n ≤ scopes.depth) :
    (checkStmtsPlan o ss last).Runs base n s fun _ end_ => end_.outer = scopes.outer := by
  match ss with
  | [] => exact ⟨fun _ hx => absurd hx List.not_mem_nil, congrArg _ hs⟩
  | st :: rest =>
    apply (st.runs hs hbase hn).next
    intro type s₁ h₁
    rw [← st.depth_scopesAfter type scopes] at hn
    rw [← st.outer_scopesAfter type scopes] at hbase ⊢
    exact checkStmts_runs rest h₁ hbase hn
termination_by structural ss

end

end Tree

/-- From any state, and whatever is reported, expressions and blocks end with the scopes that they
started with. A statement changes the innermost scope only, and only a declaration does: it binds its
name to the type that is the result. The scopes from the start stay open all the time, so what is
closed is never the global scope. -/
theorem scopes_nest (o : CheckOptions) (s : CheckState) :
    (∀ e : Expr, ((e.check o).run s).2.scopes = s.scopes ∧
      (e.plan o).Nests s.scopes.all s.scopes.depth s) ∧
    (∀ b : Block, ((b.check o).run s).2.scopes = s.scopes ∧
      (b.plan o).Nests s.scopes.all s.scopes.depth s) ∧
    ∀ st : Stmt, ∃ scope, s.scopes.all = scope :: s.scopes.outer ∧
      ((st.check o).run s).2.scopes.all = st.bind ((st.check o).run s).1 scope :: s.scopes.outer ∧
      (st.plan o).Nests s.scopes.outer s.scopes.depth s := by
  refine ⟨fun e => ?_, fun b => ?_, fun st => ?_⟩
  · obtain ⟨hnests, hend⟩ := e.runs o rfl List.suffix_rfl (Nat.le_refl s.scopes.depth)
    exact ⟨hend, hnests⟩
  · obtain ⟨hnests, hend⟩ := b.runs o rfl List.suffix_rfl (Nat.le_refl s.scopes.depth)
    exact ⟨hend, hnests⟩
  · obtain ⟨scope, hall⟩ := s.scopes.exists_all_eq
    obtain ⟨hnests, hend⟩ := st.runs o rfl List.suffix_rfl (Nat.le_refl s.scopes.depth)
    exact ⟨scope, hall, hend ▸ st.all_scopesAfter _ hall, hnests⟩

end ArrowCheck
