import ArrowCheck.Proofs.Typing.Avoidance
import ArrowCheck.Proofs.Typing.Choice
import ArrowCheck.Proofs.Typing.Walk

namespace ArrowCheck

open TypeStore Check

namespace Plan

variable {α β : Type} {m : Check α} {f : α → Check β} {v : Avoided} {ids : List NodeId}
  {s : CheckState}

/-- All operations of a run from `s` are in range, record types for the given nodes only, and keep clear
of what is avoided. -/
def Keeps (v : Avoided) (ids : List NodeId) (p : Plan m) (s : CheckState) : Prop :=
  ∀ x ∈ p.history s, x.2.Fair v ids x.1

theorem Keeps.of_next {p : Plan m} {q : (a : α) → Plan (f a)} (h : (p.next q).Keeps v ids s) :
    p.Keeps v ids s ∧ (q (m.run s).1).Keeps v ids (m.run s).2 :=
  ⟨fun x hx => h x (List.mem_append_left _ hx), fun x hx => h x (List.mem_append_right _ hx)⟩

theorem Keeps.moves {p : Plan m} (h : p.Keeps v ids s) :
    Moves ids s (m.run s).2 ∧ ∀ x ∈ p.history s, Moves ids s x.1 := by
  induction p generalizing s with
  | value a => exact ⟨.refl, fun x hx => absurd hx List.not_mem_nil⟩
  | act op =>
    have hop := h (s, op) (List.mem_singleton_self _)
    refine ⟨CheckOp.moves hop.range hop.records, fun x hx => ?_⟩
    rw [List.mem_singleton.mp hx]
  | next p q ihp ihq =>
    obtain ⟨hp, hq⟩ := h.of_next
    obtain ⟨hend, hpassed⟩ := ihp hp
    obtain ⟨hend', hpassed'⟩ := ihq _ hq
    refine ⟨hend.trans hend', fun x hx => ?_⟩
    cases List.mem_append.mp hx with
    | inl hx => exact hpassed x hx
    | inr hx => exact hend.trans (hpassed' x hx)
  | choose c p q ihp ihq =>
    by_cases hc : c
    · simp only [Keeps, history, hc, ↓reduceIte] at h ⊢
      exact ihp h
    · simp only [Keeps, history, hc, ↓reduceIte] at h ⊢
      exact ihq h

theorem Keeps.covers {p : Plan m} (h : p.Keeps v ids s) (hs : v.Covers s) :
    v.Covers (m.run s).2 ∧ ∀ x ∈ p.history s, v.Covers x.1 := by
  induction p generalizing s with
  | value a => exact ⟨hs, fun x hx => absurd hx List.not_mem_nil⟩
  | act op =>
    refine ⟨hs.perform (h (s, op) (List.mem_singleton_self _)), fun x hx => ?_⟩
    rwa [List.mem_singleton.mp hx]
  | next p q ihp ihq =>
    obtain ⟨hp, hq⟩ := h.of_next
    obtain ⟨hend, hpassed⟩ := ihp hp hs
    obtain ⟨hend', hpassed'⟩ := ihq _ hq hend
    exact ⟨hend', fun x hx => (List.mem_append.mp hx).elim (hpassed x) (hpassed' x)⟩
  | choose c p q ihp ihq =>
    by_cases hc : c
    · simp only [Keeps, history, hc, ↓reduceIte] at h ⊢
      exact ihp h hs
    · simp only [Keeps, history, hc, ↓reduceIte] at h ⊢
      exact ihq h hs

/-- From a state that holds nothing avoided all operations are fair, and `Q` holds of the value and the
state at the end. -/
def Safe (v : Avoided) (ids : List NodeId) (p : Plan m) (s : CheckState)
    (Q : α → CheckState → Prop) : Prop :=
  v.Covers s → p.Keeps v ids s ∧ Q (m.run s).1 (m.run s).2

variable {Q : α → CheckState → Prop} {R : β → CheckState → Prop}

theorem Safe.traces {p : Plan m} (h : p.Safe .nothing ids s Q) (hs : s.Closed) :
    p.Traces s fun a s' _ => ArrowCheck.Keeps ids s s' ∧ Q a s' := by
  obtain ⟨hkeeps, hQ⟩ := h (Avoided.covers_clashes hs)
  exact ⟨hkeeps.moves.1.keeps hs, hQ⟩

theorem safe_value {a : α} (h : Q a s) : (Plan.value a).Safe v ids s Q :=
  fun _ => ⟨fun _ hx => absurd hx List.not_mem_nil, h⟩

theorem Safe.of_covers {p : Plan m} (h : v.Covers s → p.Safe v ids s Q) : p.Safe v ids s Q :=
  fun hs => h hs hs

theorem Safe.imp {p : Plan m} {Q' : α → CheckState → Prop} (h : p.Safe v ids s Q)
    (hQ : ∀ a s', Q a s' → Q' a s') : p.Safe v ids s Q' :=
  fun hs => ⟨(h hs).1, hQ _ _ (h hs).2⟩

theorem Safe.and_traces {p : Plan m} {T : α → CheckState → List (CheckState × CheckOp) → Prop}
    (h : p.Safe v ids s Q) (hT : v.Covers s → p.Traces s T) :
    p.Safe v ids s fun a s' => Q a s' ∧ ∃ ops, T a s' ops :=
  fun hs => ⟨(h hs).1, (h hs).2, _, hT hs⟩

/-- One step after the other. Types that the store has at first are there for the second step. -/
theorem Safe.next {p : Plan m} {q : (a : α) → Plan (f a)} (hp : p.Safe v ids s Q)
    (hq : ∀ a s', (∀ {type}, v.Shows s type → v.Shows s' type) → Q a s' →
      (q a).Safe v ids s' R) : (p.next q).Safe v ids s R := by
  intro hs
  obtain ⟨hkeeps, hQ⟩ := hp hs
  have hmoved := hkeeps.moves.1.keeps hs.closed
  have hshows : ∀ {type}, v.Shows s type → v.Shows (m.run s).2 type :=
    fun h => ⟨Nat.lt_of_lt_of_le h.1 hmoved.grows.size_le, h.2⟩
  obtain ⟨hkeeps', hR⟩ := hq _ _ hshows hQ (hkeeps.covers hs).1
  refine ⟨fun x hx => ?_, hR⟩
  cases List.mem_append.mp hx with
  | inl hx => exact hkeeps x hx
  | inr hx => exact hkeeps' x hx

theorem Safe.choose {m' : Check α} {p : Plan m} {q : Plan m'} {c : Prop} [Decidable c]
    (hp : c → p.Safe v ids s Q) (hq : ¬ c → q.Safe v ids s Q) :
    (Plan.choose c p q).Safe v ids s Q := by
  by_cases hc : c
  · simp only [Safe, Keeps, history, hc, ↓reduceIte]
    exact hp hc
  · simp only [Safe, Keeps, history, hc, ↓reduceIte]
    exact hq hc

end Plan

namespace Avoided

variable {v : Avoided} {s s' : CheckState} {type : TypeId} {name : Option String}

def Names (v : Avoided) (s : CheckState) (type : TypeId) (name : Option String) : Prop :=
  v.Shows s type ∧ HasName s.store type name

theorem Names.untouched (h : v.Names s type name) (hs : Untouched s.store s'.store) :
    v.Names s' type name :=
  ⟨⟨Nat.lt_of_lt_of_le h.1.1 hs.size_le, h.1.2⟩, h.2.congr (hs.content_eq h.1.1)⟩

theorem Names.unify_ok {left right : TypeId} {a b : Option String} (hl : v.Names s left a)
    (hr : v.Names s right b) (hs : v.Covers s) (h : differ a b = none) :
    (s.store.unify left right).1 = .ok () :=
  ArrowCheck.unify_ok hs.store.rooted hl.1.1 hr.1.1 hl.2 hr.2 h

theorem Names.not_word {n : String} (h : v.Names s type (some n)) (hs : v.Covers s) : ¬ v.word n :=
  hs.store.words ((h.2 n).mp rfl)

theorem Covers.shows_new (hs : v.Covers s) (hnew : s.store.size ≤ type) (hlt : type < s'.store.size) :
    v.Shows s' type :=
  ⟨hlt, hs.store.free hnew⟩

end Avoided

namespace Check

open Plan

variable {o : CheckOptions} {v : Avoided} {ids : List NodeId} {s : CheckState}
  {type left right : TypeId} {place leftPlace rightPlace : Place}

theorem act_safe {op : CheckOp} {Q : op.Answer → CheckState → Prop} (hfair : op.Fair v ids s)
    (hQ : v.Covers s → Q (op.perform.run s).1 (op.perform.run s).2) :
    (Plan.act op).Safe v ids s Q :=
  fun hs => ⟨fun x hx => by rw [List.mem_singleton.mp hx]; exact hfair, hQ hs⟩

theorem push_lt (c : Cell) : s.store.size < (s.store.push c).2.size := by
  rw [size_push]
  exact Nat.lt_succ_self _

theorem fresh_safe :
    (Plan.act .fresh).Safe v ids s fun (type : TypeId) s' => v.Shows s' type :=
  act_safe ⟨trivial, trivial, trivial⟩ fun hs => hs.shows_new (Nat.le_refl _) (push_lt _)

theorem concrete_safe (text : String) (htext : text ∈ builtinNames) :
    (Plan.act (.concrete text)).Safe v ids s fun (type : TypeId) s' =>
      v.Names s' type (some text) ∧ Untouched s.store s'.store := by
  refine act_safe ⟨trivial, trivial, Avoided.not_word_of_builtin htext⟩ fun hs => ⟨⟨?_, ?_⟩, ?_⟩
  · exact hs.shows_new (Nat.le_refl _) (push_lt _)
  · exact hasName_push (by simp) (by simp)
  · exact push_untouched hs.store.rooted (by simp)

theorem builtin_safe {text : String} (htext : text ∈ builtinNames) :
    (Plan.act (.concrete text)).Safe v ids s fun (type : TypeId) s' => v.Shows s' type :=
  (concrete_safe text htext).imp fun _ _ h => h.1.1

theorem object_safe {fields : Table String TypeId} (h : fields.Below s.store.size) :
    (Plan.act (.object fields)).Safe v ids s fun (type : TypeId) s' => v.Shows s' type :=
  act_safe ⟨h, trivial, trivial⟩ fun hs => hs.shows_new (Nat.le_refl _) (push_lt _)

theorem annotated_safe (type : Option TypeExpr) :
    (Plan.act (.annotated type)).Safe v ids s fun (type : TypeId) s' => v.Shows s' type := by
  refine act_safe ⟨trivial, trivial, trivial⟩ fun hs => hs.shows_new ?_ ?_
  · cases type with
    | some type => exact (translate_added type hs.store.rooted).new
    | none => exact Nat.le_refl _
  · exact (translateOptional_grows type hs.store.rooted).2

theorem name_safe (h : v.Shows s type) :
    (Plan.act (.name type)).Safe v ids s fun (name : Option String) s' =>
      v.Names s' type name ∧ Untouched s.store s'.store := by
  refine act_safe ⟨h.1, trivial, h.2⟩ fun hs => ?_
  have hrooted := hs.store.rooted
  have huntouched := (resolve_eq (hrooted.root_find h.1)).2.untouched hrooted
  have hnames : v.Names s type (s.store.concreteName type).1 := ⟨h, hasName_concreteName hrooted h.1⟩
  exact ⟨hnames.untouched huntouched, huntouched⟩

theorem report_safe {fault : TypeFault} (place : Place) (h : ¬ v.fault fault) :
    (Plan.act (.report fault place)).Safe v ids s fun _ s' => Untouched s.store s'.store :=
  act_safe ⟨trivial, trivial, h⟩ fun hs => .refl hs.store.rooted

theorem record_safe {node : NodeId} (hid : node ∈ ids) (h : v.Shows s type) :
    (Plan.act (.record node type)).Safe v ids s fun _ _ => True :=
  act_safe ⟨h.1, hid, h.2⟩ fun _ => trivial

theorem recordReturn_safe (arrow : NodeId) (h : v.Shows s type) :
    (Plan.act (.recordReturn arrow type)).Safe v ids s fun _ _ => True :=
  act_safe ⟨h.1, trivial, h.2⟩ fun _ => trivial

theorem pushScope_safe : (Plan.act .pushScope).Safe v ids s fun _ _ => True :=
  act_safe ⟨trivial, trivial, trivial⟩ fun _ => trivial

theorem popScope_safe : (Plan.act .popScope).Safe v ids s fun _ _ => True :=
  act_safe ⟨trivial, trivial, trivial⟩ fun _ => trivial

theorem define_safe (word : String) (h : v.Shows s type) :
    (Plan.act (.define word type)).Safe v ids s fun _ _ => True :=
  act_safe ⟨h.1, trivial, h.2⟩ fun _ => trivial

theorem unify_safe (place : Place) (hl : v.Shows s left) (hr : v.Shows s right)
    (hok : v.clash → (s.store.unify left right).1 = .ok ()) :
    (unifyPlan left right place).Safe v ids s fun ok s' =>
      (s.store.unify left right).1 = .ok () → ok = true ∧ Merged s.store left right s'.store := by
  have hstore : (Plan.act (.unify left right)).Safe v ids s
      fun (outcome : Except Clash Unit) s' => outcome = (s.store.unify left right).1 ∧
        ((s.store.unify left right).1 = .ok () → Merged s.store left right s'.store) :=
    act_safe ⟨⟨hl.1, hr.1⟩, trivial, ⟨hl.2, hr.2⟩, hok⟩
      fun hs => ⟨rfl, merged_of_unify hs.store.rooted hl.1 hr.1⟩
  apply hstore.next
  rintro outcome s₁ - ⟨houtcome, hmerged⟩
  cases outcome with
  | ok => exact safe_value fun h => ⟨rfl, hmerged h⟩
  | error clash =>
    refine (report_safe place fun h => ?_).next fun _ _ _ _ => safe_value fun h => ?_
    · rcases v.unreported h with h | ⟨l, r, h, -⟩ <;> cases h
    · rw [← houtcome] at h
      cases h

theorem tie_safe (place : Place) (hl : v.Shows s left) (hr : v.Shows s right)
    (hok : v.clash → (s.store.unify left right).1 = .ok ()) :
    (tiePlan left right place).Safe v ids s fun _ s' =>
      (s.store.unify left right).1 = .ok () → Merged s.store left right s'.store :=
  (unify_safe place hl hr hok).next fun _ _ _ h => safe_value fun hok => (h hok).2

theorem look_safe : (Plan.act .look).Safe v ids s fun (found : CheckState) s' => found = s ∧ s' = s :=
  act_safe ⟨trivial, trivial, trivial⟩ fun _ => ⟨rfl, rfl⟩

theorem recorded_safe (node : NodeId) :
    (recordedPlan node).Safe v ids s fun type s' => v.Shows s' type := by
  apply Safe.of_covers
  intro hs
  apply look_safe.next
  rintro found s₁ - ⟨rfl, rfl⟩
  cases hget : s₁.nodeTypes.get? node with
  | some type => exact safe_value ⟨hs.closed.nodes.get? hget, hs.nodes.get? hget⟩
  | none => exact fresh_safe

theorem lookup_safe (word : String) : (lookupPlan word).Safe v ids s fun found s' =>
    s' = s ∧ ∀ type, found = some type → v.Shows s' type := by
  apply Safe.of_covers
  intro hs
  apply look_safe.next
  rintro found s₁ - ⟨rfl, rfl⟩
  exact safe_value ⟨rfl, fun type htype => ⟨hs.closed.scopes.lookup htype, hs.scopes.lookup htype⟩⟩

theorem identType_safe (node : NodeId) (word : String) :
    (identTypePlan node word).Safe v ids s fun type s' => v.Shows s' type := by
  apply (lookup_safe word).next
  rintro found s₁ - ⟨-, hfound⟩
  cases found with
  | some type => exact safe_value (hfound type rfl)
  | none => exact recorded_safe node

section Operators

theorem not_fault_of_ne {fault : TypeFault} (hfailed : fault ≠ .operandUnifyFailed)
    (hmismatch : ∀ l r, fault ≠ .addMismatch l r) : ¬ v.fault fault := by
  intro h
  rcases v.unreported h with h | ⟨l, r, h, -⟩
  · exact hfailed h
  · exact hmismatch l r h

theorem names_safe {α : Type} {k : Option String → Option String → Check α}
    {Q : α → CheckState → Prop} {q : (a b : Option String) → Plan (k a b)} (hl : v.Shows s left)
    (hr : v.Shows s right)
    (hq : ∀ a b s', Untouched s.store s'.store → v.Names s' left a → v.Names s' right b →
      v.Covers s' → (q a b).Safe v ids s' Q) :
    (Plan.next (.act (.name left)) fun a => .next (.act (.name right)) fun b => q a b).Safe v ids s
      Q := by
  apply (name_safe hl).next
  rintro a s₁ h₁ ⟨hleft, huntouched₁⟩
  apply (name_safe (h₁ hr)).next
  rintro b s₂ - ⟨hright, huntouched₂⟩
  apply Safe.of_covers
  exact hq a b s₂ (huntouched₁.trans huntouched₂) (hleft.untouched huntouched₂) hright

theorem compared_safe {α : Type} {apart : String → String → Check α} {one : Check α}
    {failed : Option String → Option String → Check α} {onApart : ∀ l r, Plan (apart l r)}
    {onOne : Plan one} {onFailed : ∀ a b, Plan (failed a b)} {Q : α → CheckState → Prop}
    (hl : v.Shows s left) (hr : v.Shows s right)
    (hapart : ∀ l r s', v.Names s' left (some l) → v.Names s' right (some r) → v.Covers s' →
      (onApart l r).Safe v ids s' Q)
    (hone : ∀ s', v.Shows s' left → onOne.Safe v ids s' Q) :
    (comparedPlan place left right onApart onOne onFailed).Safe v ids s Q := by
  apply names_safe hl hr
  intro a b s₁ _ hleft hright hs₁
  cases hdiffer : differ a b with
  | some pair =>
    obtain ⟨rfl, rfl, -⟩ := differ_eq_some hdiffer
    exact hapart pair.1 pair.2 s₁ hleft hright hs₁
  | none =>
    have hok := hleft.unify_ok hright hs₁ hdiffer
    apply (unify_safe place hleft.1 hright.1 fun _ => hok).next
    intro ok s₂ h₂ htrue
    rw [(htrue hok).1]
    exact hone s₂ (h₂ hleft.1)

theorem addType_safe (hl : v.Shows s left) (hr : v.Shows s right) :
    (addTypePlan place left right).Safe v ids s fun type s' => v.Shows s' type := by
  refine compared_safe hl hr (fun l r s₁ hleft hright hs₁ => ?_) fun _ h => safe_value h
  refine (report_safe place fun h => ?_).next fun _ _ _ _ => builtin_safe (by decide)
  rcases v.unreported h with h | ⟨l, r, h, hword⟩
  · cases h
  · cases h
    exact hword.elim (hleft.not_word hs₁) (hright.not_word hs₁)

theorem sameType_safe (hl : v.Shows s left) (hr : v.Shows s right) :
    (sameTypePlan place left right).Safe v ids s fun type s' => v.Shows s' type := by
  refine compared_safe hl hr (fun l r s₁ hleft _ _ => ?_) fun _ h => safe_value h
  exact (report_safe place (not_fault_of_ne (by simp) (by simp))).next
    fun _ _ h₂ _ => safe_value (h₂ hleft.1)

theorem reportOperand_safe (side : Side) (name : Option String) :
    (reportOperandPlan place side name).Safe v ids s fun _ s' => Untouched s.store s'.store := by
  have hstay : (Plan.value ()).Safe v ids s fun _ s' => Untouched s.store s'.store :=
    .of_covers fun hs => safe_value (.refl hs.store.rooted)
  cases name with
  | none => exact hstay
  | some found =>
    exact .choose (fun _ => hstay) fun _ => report_safe place (not_fault_of_ne (by simp) (by simp))

/-- An operand without a name is made a number. Whatever has no other name than that of a number before
has none behind it. -/
theorem coerceOperand_safe {number : TypeId} {name : Option String} (htype : v.Shows s type)
    (hnumber : v.Names s number (some "Number")) (hname : name = none → MayBe s.store type "Number") :
    (coerceOperandPlan place type number name).Safe v ids s fun _ s' =>
      v.Names s' number (some "Number") ∧
        ∀ other, MayBe s.store other "Number" → MayBe s'.store other "Number" := by
  apply Safe.of_covers
  intro hs
  cases name with
  | some found => exact safe_value ⟨hnumber, fun _ h => h⟩
  | none =>
    have hcontent := (hnumber.2 "Number").mp rfl
    have hok := (hname rfl).unify_ok hs.store.rooted htype.1 hnumber.1.1 hcontent
    refine (tie_safe place htype hnumber.1 fun _ => hok).imp fun _ s' hmerged => ?_
    have hm := hmerged hok
    have hsize : number < s'.store.size := hm.size_eq.symm ▸ hnumber.1.1
    exact ⟨⟨⟨hsize, hnumber.1.2⟩, hasName_of_content (hm.name_kept hcontent)⟩,
      fun _ h => h.merged hm hcontent⟩

theorem mulType_safe (hl : v.Shows s left) (hr : v.Shows s right) :
    (mulTypePlan leftPlace rightPlace left right).Safe v ids s fun type s' => v.Shows s' type := by
  apply names_safe hl hr
  intro a b s₁ _ hleft hright hs₁
  apply (concrete_safe "Number" (by decide)).next
  rintro number s₂ - ⟨hnumber, huntouched₂⟩
  apply (reportOperand_safe .left a).next
  intro _ s₃ _ huntouched₃
  apply (reportOperand_safe .right b).next
  intro _ s₄ _ huntouched₄
  have huntouched := (huntouched₂.trans huntouched₃).trans huntouched₄
  have hleft₄ := hleft.untouched huntouched
  have hright₄ := hright.untouched huntouched
  have hnumber₄ := hnumber.untouched (huntouched₃.trans huntouched₄)
  -- both operands may be one type, which is a number behind the first step
  apply (coerceOperand_safe hleft₄.1 hnumber₄ fun h => (h ▸ hleft₄.2).mayBe).next
  rintro _ s₅ h₅ ⟨hnumber₅, hstays⟩
  apply (coerceOperand_safe (h₅ hright₄.1) hnumber₅ fun h => hstays right (h ▸ hright₄.2).mayBe).next
  rintro _ s₆ - ⟨hnumber₆, -⟩
  exact safe_value hnumber₆.1

theorem binaryType_safe (op : BinaryOp) (hl : v.Shows s left) (hr : v.Shows s right) :
    (binaryTypePlan place leftPlace rightPlace left right op).Safe v ids s
      fun type s' => v.Shows s' type := by
  cases op with
  | add => exact addType_safe hl hr
  | mul => exact mulType_safe hl hr
  | sub | div => exact sameType_safe hl hr

theorem branches_safe {consequent alternate : TypeId} (hc : v.Shows s consequent)
    (ha : v.Shows s alternate) : (branchesPlan place consequent alternate).Safe v ids s
      fun type s' => v.Shows s' type := by
  apply names_safe hc ha
  intro a b s₁ _ hconsequent halternate hs₁
  cases hdiffer : differ a b with
  | some pair =>
    exact (report_safe place (not_fault_of_ne (by simp) (by simp))).next
      fun _ _ h₂ _ => safe_value (h₂ hconsequent.1)
  | none =>
    have hok := hconsequent.unify_ok halternate hs₁ hdiffer
    exact (unify_safe place hconsequent.1 halternate.1 fun _ => hok).next
      fun _ _ h₂ _ => safe_value (h₂ hconsequent.1)

theorem conditionalType_safe {testPlace : Place} {test consequent alternate : TypeId}
    (ht : v.Shows s test) (hc : v.Shows s consequent) (ha : v.Shows s alternate) :
    (conditionalTypePlan place testPlace test consequent alternate).Safe v ids s
      fun type s' => v.Shows s' type := by
  apply (concrete_safe "Boolean" (by decide)).next
  rintro boolean s₁ h₁ ⟨hboolean, -⟩
  apply (name_safe (h₁ ht)).next
  rintro name s₂ h₂ ⟨htest, huntouched₂⟩
  apply Safe.of_covers
  intro hs₂
  have hboolean₂ := hboolean.untouched huntouched₂
  cases hdiffer : differ name (some "Boolean") with
  | some pair =>
    apply (report_safe testPlace (not_fault_of_ne (by simp) (by simp))).next
    intro _ s₃ h₃ _
    exact branches_safe (h₃ (h₂ (h₁ hc))) (h₃ (h₂ (h₁ ha)))
  | none =>
    have hok := htest.unify_ok hboolean₂ hs₂ hdiffer
    apply (unify_safe testPlace htest.1 hboolean₂.1 fun _ => hok).next
    intro _ s₃ h₃ _
    exact branches_safe (h₃ (h₂ (h₁ hc))) (h₃ (h₂ (h₁ ha)))

theorem isBound_safe (callee : Expr) :
    (isBoundPlan callee).Safe v ids s fun _ s' => s' = s := by
  cases callee with
  | ident node word => exact (lookup_safe word).next fun _ _ _ h => safe_value h.1
  | _ => exact safe_value rfl

/-- The result of a call, as long as it is free, does not clash with an argument. -/
theorem callType_safe (callee : Expr) {result : TypeId} {args : List TypeId}
    (hresult : v.Shows s result) (hargs : ∀ arg ∈ args, v.Shows s arg)
    (hfree : v.clash → HasName s.store result none) :
    (callTypePlan place callee result args).Safe v ids s fun _ _ => True := by
  apply Safe.of_covers
  intro hs
  apply (isBound_safe callee).next
  rintro bound s₁ - rfl
  match bound, args with
  | true, [arg] =>
    have harg := hargs arg (List.mem_singleton_self _)
    refine (tie_safe place hresult harg fun h => ?_).imp fun _ _ _ => trivial
    exact unify_ok_of_unnamed hs.store.rooted hresult.1 harg.1 (hfree h)
  | true, [] | true, _ :: _ :: _ | false, _ => exact safe_value trivial

theorem elementType_safe (hv : ¬ v.clash) {first element : TypeId} (name : Option String)
    (hf : v.Shows s first) (he : v.Shows s element) :
    (elementTypePlan place first name element).Safe v ids s fun _ _ => True := by
  apply (name_safe he).next
  rintro elementName s₁ h₁ -
  cases differ name elementName with
  | some pair =>
    exact (report_safe place (not_fault_of_ne (by simp) (by simp))).imp fun _ _ _ => trivial
  | none =>
    apply (unify_safe place (h₁ hf) (h₁ he) fun h => absurd h hv).next
    intro ok _ _ _
    cases ok with
    | true => exact safe_value trivial
    | false =>
      exact (report_safe place (not_fault_of_ne (by simp) (by simp))).imp fun _ _ _ => trivial

end Operators

section Annotations

theorem bindParams_safe {params : List Param} (hids : params.map (·.node.id) ⊆ ids)
    {s : CheckState} : (bindParamsPlan params).Safe v ids s fun _ _ => True := by
  induction params generalizing s with
  | nil => exact safe_value trivial
  | cons p rest ih =>
    rw [List.map_cons, List.cons_subset] at hids
    apply (annotated_safe p.type).next
    intro type s₁ _ htype
    apply (record_safe hids.1 htype).next
    intro _ s₂ h₂ _
    exact (define_safe p.name (h₂ htype)).next fun _ _ _ _ => ih hids.2

theorem chooseMember_safe (name : Option String) (members : List TypeExpr) {s : CheckState} :
    (chooseMemberPlan name members).Safe v ids s fun _ _ => True := by
  induction members generalizing s with
  | nil => exact safe_value trivial
  | cons member rest ih =>
    apply (annotated_safe (some member)).next
    intro type s₁ _ htype
    apply (name_safe htype).next
    rintro memberName s₂ - -
    cases differ name memberName with
    | some pair => exact ih
    | none => exact safe_value trivial

theorem declaredUnion_safe (members : List TypeExpr) (span : Span) (value : Expr)
    (htype : v.Shows s type) :
    (checkDeclaredPlan o place value type (.union members span)).Safe v ids s fun _ _ => True := by
  apply (name_safe htype).next
  rintro name s₁ - ⟨hname, -⟩
  apply Safe.of_covers
  intro hs₁
  have hscan : (chooseMemberPlan name members).Safe v ids s₁ _ :=
    (chooseMember_safe name members).and_traces fun hs =>
      chooseMember_traces name members hs.store.rooted
  apply hscan.next
  rintro chosen - - ⟨-, ops, store, rfl, huntouched, hchosen⟩
  apply Safe.of_covers
  intro hs₂
  have hname₂ : v.Names (s₁.withStore store) type name := hname.untouched huntouched
  cases hchosen with
  | apart =>
    exact (report_safe place (not_fault_of_ne (by simp) (by simp))).imp fun _ _ _ => trivial
  | first _ _ hmember hadded _ =>
    have hshows : v.Shows (s₁.withStore store) _ := hs₁.shows_new hadded.new hadded.lt_size
    have hok := hname₂.unify_ok ⟨hshows, hadded.name⟩ hs₂ hmember
    exact (tie_safe place hname₂.1 hshows fun _ => hok).imp fun _ _ _ => trivial

theorem when_safe {α : Type} {enabled : Bool} {m : Check Unit} {k : Check α} {p : Plan m} {q : Plan k}
    {Q : α → CheckState → Prop} (hp : p.Safe v ids s fun _ _ => True)
    (hq : ∀ s', (∀ {type}, v.Shows s type → v.Shows s' type) → q.Safe v ids s' Q) :
    (whenPlan enabled p q).Safe v ids s Q :=
  .choose (fun _ => hp.next fun _ s' h _ => hq s' h) fun _ => hq s id

section Clashing

variable (hv : ¬ v.clash)
include hv

theorem checkAgainst_safe (declared : TypeExpr) (htype : v.Shows s type) :
    (checkAgainstPlan place type declared).Safe v ids s fun _ _ => True := by
  apply (annotated_safe (some declared)).next
  intro _ s₁ h₁ hannotated
  exact (tie_safe place (h₁ htype) hannotated fun h => absurd h hv).imp fun _ _ _ => trivial

theorem checkResult_safe (result : Option TypeExpr) (htype : v.Shows s type) :
    (checkResultPlan o place type result).Safe v ids s fun _ _ => True := by
  cases result with
  | none => exact safe_value trivial
  | some declared =>
    exact .choose (fun _ => checkAgainst_safe hv declared htype) fun _ => safe_value trivial

theorem checkReturn_safe (arrow : NodeId) (result : TypeExpr) :
    (checkReturnPlan place arrow result).Safe v ids s fun _ _ => True := by
  apply (annotated_safe (some result)).next
  intro annotated s₁ _ hannotated
  apply Safe.of_covers
  intro hs₁
  apply look_safe.next
  rintro found s₂ h₂ ⟨rfl, rfl⟩
  cases hget : s₂.returnTypes.get? arrow with
  | some inferred =>
    have hinferred : v.Shows s₂ inferred := ⟨hs₁.closed.returns.get? hget, hs₁.returns.get? hget⟩
    exact (tie_safe place hinferred hannotated fun h => absurd h hv).imp fun _ _ _ => trivial
  | none => exact safe_value trivial

theorem checkParams_safe (pairs : List (Field × Param)) {s : CheckState} :
    (checkParamsPlan place pairs).Safe v ids s fun _ _ => True := by
  induction pairs generalizing s with
  | nil => exact safe_value trivial
  | cons pair rest ih =>
    apply (annotated_safe (some pair.1.type)).next
    intro _ s₁ _ hannotated
    apply (recorded_safe pair.2.node.id).next
    intro _ s₂ h₂ hactual
    exact (unify_safe place hactual (h₂ hannotated) fun h => absurd h hv).next fun _ _ _ _ => ih

theorem checkField_safe (field : Field) {rest : Check Unit} {p : Plan rest} (found : Option Property)
    (hp : ∀ s', p.Safe v ids s' fun _ _ => True) :
    (checkFieldPlan place field p found).Safe v ids s fun _ _ => True := by
  cases found with
  | none =>
    exact (report_safe place (not_fault_of_ne (by simp) (by simp))).next fun _ s₁ _ _ => hp s₁
  | some property =>
    apply (recorded_safe property.value.id).next
    intro _ s₁ _ hactual
    apply (annotated_safe (some field.type)).next
    intro _ s₂ h₂ hannotated
    exact (unify_safe _ (h₂ hactual) hannotated fun h => absurd h hv).next fun _ s₃ _ _ => hp s₃

theorem checkFields_safe (properties : List Property) (fields : List Field) (s : CheckState) :
    (checkFieldsPlan place properties fields).Safe v ids s fun _ _ => True := by
  induction fields generalizing s with
  | nil => exact safe_value trivial
  | cons field rest ih => exact checkField_safe hv field _ ih

theorem checkElements_safe {common : TypeId} (elements : List Expr) {s : CheckState}
    (hcommon : v.Shows s common) :
    (checkElementsPlan common elements).Safe v ids s fun _ _ => True := by
  induction elements generalizing s with
  | nil => exact safe_value trivial
  | cons e rest ih =>
    apply (recorded_safe e.id).next
    intro _ s₁ h₁ hactual
    apply (unify_safe _ hactual (h₁ hcommon) fun h => absurd h hv).next
    intro _ s₂ h₂ _
    exact ih (h₂ (h₁ hcommon))

theorem declaredFunction_safe (params : List Field) (result : TypeExpr) (span : Span) (value : Expr)
    (htype : v.Shows s type) :
    (declaredFunctionPlan o place type params result span value).Safe v ids s fun _ _ => True := by
  cases value with
  | arrow node actual _ _ =>
    apply when_safe (checkReturn_safe hv node.id result)
    intro s₁ h₁
    apply when_safe (checkParams_safe hv (params.zip actual))
    intro s₂ h₂
    apply (concrete_safe "Function" (by decide)).next
    rintro function s₃ h₃ ⟨hfunction, -⟩
    exact (tie_safe place (h₃ (h₂ (h₁ htype))) hfunction.1 fun h => absurd h hv).imp
      fun _ _ _ => trivial
  | _ => exact checkAgainst_safe hv _ htype

theorem declaredObject_safe (fields : List Field) (span : Span) (value : Expr)
    (htype : v.Shows s type) :
    (declaredObjectPlan o place type fields span value).Safe v ids s fun _ _ => True := by
  cases value with
  | object node properties =>
    apply (annotated_safe (some (.object fields span))).next
    intro _ s₁ h₁ hannotated
    apply (checkFields_safe hv properties fields s₁).next
    intro _ s₂ h₂ _
    exact (tie_safe place (h₂ (h₁ htype)) (h₂ hannotated) fun h => absurd h hv).imp
      fun _ _ _ => trivial
  | _ => exact checkAgainst_safe hv _ htype

theorem declaredArray_safe (element : TypeExpr) (span : Span) (value : Expr)
    (htype : v.Shows s type) :
    (declaredArrayPlan o place type element span value).Safe v ids s fun _ _ => True := by
  cases value with
  | array node elements =>
    apply (annotated_safe (some element)).next
    intro common s₁ h₁ hcommon
    apply (checkElements_safe hv elements hcommon).next
    intro _ s₂ h₂ _
    exact checkAgainst_safe hv _ (h₂ (h₁ htype))
  | _ => exact checkAgainst_safe hv _ htype

theorem checkDeclared_safe (value : Expr) (declared : TypeExpr) (htype : v.Shows s type) :
    (checkDeclaredPlan o place value type declared).Safe v ids s fun _ _ => True := by
  cases declared with
  | function params result span => exact declaredFunction_safe hv params result span value htype
  | object fields span => exact declaredObject_safe hv fields span value htype
  | array element span => exact declaredArray_safe hv element span value htype
  | union members span => exact declaredUnion_safe members span value htype
  | named word span => exact checkAgainst_safe hv _ htype

end Clashing

end Annotations

end Check

section Tree

open Plan (safe_value)

variable {v : Avoided} {ids : List NodeId} {s : CheckState} {type : TypeId}

theorem recordType_safe {id : NodeId} (hid : id ∈ ids) (htype : v.Shows s type) :
    (recordPlan id type).Safe v ids s fun type s' => v.Shows s' type :=
  (record_safe hid htype).next fun _ _ h _ => safe_value (h htype)

/-- The last id of a tree is that of its root, the others belong to its parts. -/
theorem append_singleton_subset {parts : List NodeId} {id : NodeId} (h : parts ++ [id] ⊆ ids) :
    parts ⊆ ids ∧ id ∈ ids := by
  rw [List.append_subset] at h
  exact ⟨h.1, h.2 (by simp)⟩

variable (o : CheckOptions)

mutual

theorem Expr.safe (hv : ¬ v.clash) (e : Expr) {s : CheckState} (hids : e.labelIds ⊆ ids) :
    (e.plan o).Safe v ids s fun type s' => v.Shows s' type := by
  match e with
  | .string node _ | .number node _ | .boolean node _ =>
    have hid : node.id ∈ ids := hids (by simp [Expr.labelIds])
    exact (builtin_safe (by decide)).next fun _ _ _ htype => recordType_safe hid htype
  | .ident node name =>
    have hid : node.id ∈ ids := hids (by simp [Expr.labelIds])
    exact (identType_safe node.id name).next fun _ _ _ htype => recordType_safe hid htype
  | .binary node op l r =>
    obtain ⟨hparts, hid⟩ := append_singleton_subset hids
    obtain ⟨hl, hr⟩ := List.append_subset.mp hparts
    apply (l.safe hv hl).next
    intro lt s₁ _ hlt
    apply (r.safe hv hr).next
    intro rt s₂ h₂ hrt
    exact (binaryType_safe op (h₂ hlt) hrt).next fun _ _ _ htype => recordType_safe hid htype
  | .conditional node c a b =>
    obtain ⟨hparts, hid⟩ := append_singleton_subset hids
    obtain ⟨hca, hb⟩ := List.append_subset.mp hparts
    obtain ⟨hc, ha⟩ := List.append_subset.mp hca
    apply (c.safe hv hc).next
    intro ct s₁ _ hct
    apply (a.safe hv ha).next
    intro at_ s₂ h₂ hat
    apply (b.safe hv hb).next
    intro bt s₃ h₃ hbt
    apply (conditionalType_safe (h₃ (h₂ hct)) (h₃ hat) hbt).next
    intro _ _ _ htype
    exact recordType_safe hid htype
  | .call node f args =>
    obtain ⟨hparts, hid⟩ := append_singleton_subset hids
    obtain ⟨hf, hargs⟩ := List.append_subset.mp hparts
    apply (f.safe hv hf).next
    intro _ s₁ _ _
    apply fresh_safe.next
    intro type s₂ _ htype
    apply (checkExprs_safe hv args hargs).next
    intro types s₃ h₃ htypes
    apply (callType_safe f (h₃ htype) htypes fun h => absurd h hv).next
    intro _ s₄ h₄ _
    exact recordType_safe hid (h₄ (h₃ htype))
  | .arrow node params result body =>
    obtain ⟨hparts, hid⟩ := append_singleton_subset hids
    obtain ⟨hparams, hbody⟩ := List.append_subset.mp hparts
    apply pushScope_safe.next
    intro _ s₁ _ _
    apply (bindParams_safe hparams).next
    intro _ s₂ _ _
    apply (body.safe hv hbody).next
    intro type s₃ _ htype
    apply (recordReturn_safe node.id htype).next
    intro _ s₄ h₄ _
    apply (checkResult_safe hv result (h₄ htype)).next
    intro _ s₅ _ _
    apply popScope_safe.next
    intro _ s₆ _ _
    exact (builtin_safe (by decide)).next fun _ _ _ hfunction => recordType_safe hid hfunction
  | .array node elements =>
    obtain ⟨hparts, hid⟩ := append_singleton_subset hids
    apply (checkArray_safe hv elements hparts).next
    intro _ s₁ _ _
    exact (builtin_safe (by decide)).next fun _ _ _ htype => recordType_safe hid htype
  | .object node properties =>
    obtain ⟨hparts, hid⟩ := append_singleton_subset hids
    apply (checkProperties_safe hv properties hparts).next
    intro fields s₁ _ hfields
    have hbelow := Table.below_ofList fun field hfield => (hfields field hfield).1
    exact (object_safe hbelow).next fun _ _ _ htype => recordType_safe hid htype
  | .error node =>
    have hid : node.id ∈ ids := hids (by simp [Expr.labelIds])
    apply (report_safe _ (not_fault_of_ne (by simp) (by simp))).next
    intro _ s₁ _ _
    exact fresh_safe.next fun _ _ _ htype => recordType_safe hid htype
termination_by structural e

theorem checkExprs_safe (hv : ¬ v.clash) (es : List Expr) {s : CheckState} (hids : exprIds es ⊆ ids) :
    (checkExprsPlan o es).Safe v ids s fun types s' => ∀ type ∈ types, v.Shows s' type := by
  match es with
  | [] => exact safe_value (by simp)
  | e :: rest =>
    obtain ⟨he, hrest⟩ := List.append_subset.mp hids
    apply (e.safe hv he).next
    intro type s₁ _ htype
    apply (checkExprs_safe hv rest hrest).next
    intro types s₂ h₂ htypes
    exact safe_value (List.forall_mem_cons.mpr ⟨h₂ htype, htypes⟩)
termination_by structural es

theorem checkArray_safe (hv : ¬ v.clash) (es : List Expr) {s : CheckState} (hids : exprIds es ⊆ ids) :
    (checkArrayPlan o es).Safe v ids s fun _ _ => True := by
  match es with
  | [] => exact safe_value trivial
  | first :: rest =>
    obtain ⟨hfirst, hrest⟩ := List.append_subset.mp hids
    apply (first.safe hv hfirst).next
    intro type s₁ _ htype
    apply (name_safe htype).next
    intro name s₂ h₂ _
    exact checkRest_safe hv name rest hrest (h₂ htype)
termination_by structural es

theorem checkRest_safe (hv : ¬ v.clash) {first : TypeId} (name : Option String) (es : List Expr)
    {s : CheckState} (hids : exprIds es ⊆ ids) (hfirst : v.Shows s first) :
    (checkRestPlan o first name es).Safe v ids s fun _ _ => True := by
  match es with
  | [] => exact safe_value trivial
  | e :: rest =>
    obtain ⟨he, hrest⟩ := List.append_subset.mp hids
    apply (e.safe hv he).next
    intro type s₁ h₁ htype
    apply (elementType_safe hv name (h₁ hfirst) htype).next
    intro _ s₂ h₂ _
    exact checkRest_safe hv name rest hrest (h₂ (h₁ hfirst))
termination_by structural es

theorem checkProperties_safe (hv : ¬ v.clash) (ps : List Property) {s : CheckState}
    (hids : propertyIds ps ⊆ ids) :
    (checkPropertiesPlan o ps).Safe v ids s fun fields s' => ∀ field ∈ fields, v.Shows s' field.2 := by
  match ps with
  | [] => exact safe_value (by simp)
  | ⟨_, key, value⟩ :: rest =>
    obtain ⟨hvalue, hrest⟩ := List.append_subset.mp hids
    apply (value.safe hv hvalue).next
    intro type s₁ _ htype
    apply (checkProperties_safe hv rest hrest).next
    intro fields s₂ h₂ hfields
    exact safe_value (List.forall_mem_cons.mpr ⟨h₂ htype, hfields⟩)
termination_by structural ps

theorem Stmt.safe (hv : ¬ v.clash) (st : Stmt) {s : CheckState} (hids : st.labelIds ⊆ ids) :
    (st.plan o).Safe v ids s fun type s' => v.Shows s' type := by
  match st with
  | .const node name declared value =>
    obtain ⟨hvalue, hid⟩ := append_singleton_subset hids
    apply (value.safe hv hvalue).next
    intro init s₁ _ hinit
    apply (record_safe hid hinit).next
    intro _ s₂ h₂ _
    apply (define_safe name.name (h₂ hinit)).next
    intro _ s₃ h₃ _
    have hinit₃ := h₃ (h₂ hinit)
    cases declared with
    | some declared =>
      exact (checkDeclared_safe hv value declared hinit₃).next fun _ _ h₄ _ => safe_value (h₄ hinit₃)
    | none => exact safe_value hinit₃
  | .ret _ (some argument) => exact argument.safe hv hids
  | .ret _ none => exact builtin_safe (by decide)
termination_by structural st

theorem Block.safe (hv : ¬ v.clash) (b : Block) {s : CheckState} (hids : b.labelIds ⊆ ids) :
    (b.plan o).Safe v ids s fun type s' => v.Shows s' type := by
  match b with
  | ⟨node, statements⟩ =>
    obtain ⟨hparts, hid⟩ := append_singleton_subset hids
    apply (builtin_safe (by decide)).next
    intro void s₁ _ hvoid
    apply pushScope_safe.next
    intro _ s₂ h₂ _
    apply (checkStmts_safe hv statements hparts (h₂ hvoid)).next
    intro type s₃ _ htype
    exact popScope_safe.next fun _ _ h₄ _ => recordType_safe hid (h₄ htype)
termination_by structural b

theorem checkStmts_safe (hv : ¬ v.clash) (ss : List Stmt) {last : TypeId} {s : CheckState}
    (hids : stmtIds ss ⊆ ids) (hlast : v.Shows s last) :
    (checkStmtsPlan o ss last).Safe v ids s fun type s' => v.Shows s' type := by
  match ss with
  | [] => exact safe_value hlast
  | st :: rest =>
    obtain ⟨hst, hrest⟩ := List.append_subset.mp hids
    apply (st.safe hv hst).next
    intro type s₁ _ htype
    exact checkStmts_safe hv rest hrest htype
termination_by structural ss

end

theorem visitAll_safe (hv : ¬ v.clash) (ss : List Stmt) {s : CheckState} (hids : stmtIds ss ⊆ ids) :
    (visitAllPlan o ss).Safe v ids s fun _ _ => True := by
  induction ss generalizing s with
  | nil => exact safe_value trivial
  | cons st rest ih =>
    obtain ⟨hst, hrest⟩ := List.append_subset.mp hids
    apply (st.safe o hv hst).next
    intro type s₁ _ _
    exact (ih hrest).next fun _ _ _ _ => safe_value trivial

end Tree

end ArrowCheck
