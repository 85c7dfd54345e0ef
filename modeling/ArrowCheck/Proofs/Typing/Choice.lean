import ArrowCheck.Proofs.Store.Growth
import ArrowCheck.Proofs.Typing.Operations
import ArrowCheck.Proofs.Typing.Operators

namespace ArrowCheck

open TypeStore Check

theorem differ_eq_none_iff {a b : Option String} :
    differ a b = none ↔ ∀ l r, a = some l → b = some r → l = r := by
  unfold differ
  split
  · simp
  · rename_i hnone
    simp only [true_iff]
    intro l r hl hr
    exact absurd hr (hnone l r hl)

def HasName (store : TypeStore) (type : TypeId) (name : Option String) : Prop :=
  ∀ n, name = some n ↔ store.content type = some (.concrete n)

section Names

variable {store store' : TypeStore} {type left right : TypeId} {a b name : Option String} {c : Cell}

theorem hasName_concreteName (hs : store.Rooted) (htype : type < store.size) :
    HasName store type (store.concreteName type).1 :=
  fun _ => concreteName_eq_some hs htype

theorem HasName.congr (h : HasName store type name) (hcontent : store'.content type = store.content type) :
    HasName store' type name := by
  intro n
  rw [hcontent]
  exact h n

theorem HasName.unique (h : HasName store type a) (h' : HasName store type b) : a = b :=
  Option.ext fun n => (h n).trans (h' n).symm

/-- A type without a name, or with a name that is known not to differ, can be made one with the other. -/
theorem unify_ok (hs : store.Rooted) (hl : left < store.size) (hr : right < store.size)
    (ha : HasName store left a) (hb : HasName store right b) (h : differ a b = none) :
    (store.unify left right).1 = .ok () := by
  cases hunify : (store.unify left right).1 with
  | ok => rfl
  | error clash =>
    obtain ⟨hleft, hright, hne⟩ := (unify_eq_error_iff hs hl hr clash).mp hunify
    exact absurd (differ_eq_none_iff.mp h _ _ ((ha _).mpr hleft) ((hb _).mpr hright)) hne

theorem hasName_of_content {n : String} (h : store.content type = some (.concrete n)) :
    HasName store type (some n) := by
  intro m
  rw [h]
  simp

def MayBe (store : TypeStore) (type : TypeId) (n : String) : Prop :=
  ∀ m, store.content type = some (.concrete m) → m = n

theorem HasName.mayBe {n : String} (h : HasName store type none) : MayBe store type n := by
  intro m hm
  cases (h m).mpr hm

theorem MayBe.unify_ok {n : String} (h : MayBe store left n) (hs : store.Rooted)
    (hl : left < store.size) (hr : right < store.size)
    (hright : store.content right = some (.concrete n)) : (store.unify left right).1 = .ok () := by
  have hleft := hasName_concreteName hs hl
  apply ArrowCheck.unify_ok hs hl hr hleft (hasName_of_content hright)
  rw [differ_eq_none_iff]
  rintro l r hl ⟨⟩
  exact h l ((hleft l).mp hl)

theorem MayBe.merged {n : String} (h : MayBe store type n) (hmerged : Merged store left right store')
    (hright : store.content right = some (.concrete n)) : MayBe store' type n := by
  intro m hm
  by_cases hapart : store.find type ≠ store.find left ∧ store.find type ≠ store.find right
  · rw [(hmerged.apart type hapart.1 hapart.2).2] at hm
    exact h m hm
  · have htype : store'.find type = store'.find left := by
      rw [hmerged.together]
      by_cases hleft : store.find type = store.find left
      · exact .inl hleft
      · have hright : store.find type = store.find right := by
          by_contra hne
          exact hapart ⟨hleft, hne⟩
        exact .inr (.inr ⟨hright, rfl⟩)
    rw [content_congr htype, hmerged.named n (.inr hright)] at hm
    cases hm
    rfl

theorem unify_ok_of_unnamed (hs : store.Rooted) (hl : left < store.size) (hr : right < store.size)
    (h : HasName store left none) : (store.unify left right).1 = .ok () :=
  unify_ok hs hl hr h (hasName_concreteName hs hr) rfl

theorem hasName_push (hc : ∀ b, c ≠ .link b) (hname : ∀ n, name = some n ↔ c = .concrete n) :
    HasName (store.push c).2 store.size name := by
  intro n
  rw [content_push_self hc, Option.some_inj]
  exact hname n

/-- The type that an annotation adds: it is a cell of its own, with the name that the annotation stands
for. -/
structure Added (store : TypeStore) (declared : TypeExpr) (type : TypeId) (store' : TypeStore) :
    Prop where
  new : store.size ≤ type
  lt_size : type < store'.size
  self : store'.find type = type
  name : HasName store' type declared.label?

theorem translate_added (declared : TypeExpr) (hs : store.Rooted) :
    Added store declared (declared.translate store).1 (declared.translate store).2 := by
  -- a cell behind those that the fields of an object have added
  have hpush : ∀ {s : TypeStore} {c : Cell}, Untouched store s → (∀ b, c ≠ .link b) →
      (∀ n, declared.label? = some n ↔ c = .concrete n) →
      Added store declared (s.push c).1 (s.push c).2 := by
    intro s c huntouched hc hname
    refine ⟨huntouched.size_le, ?_, find_push_self hc, hasName_push hc hname⟩
    rw [size_push]
    exact Nat.lt_succ_self _
  cases declared with
  | named | array | function | union =>
    exact hpush (.refl hs) (by simp) (by simp [TypeExpr.label?])
  | object fields span =>
    exact hpush (translateFields_untouched fields hs) (by simp) (by simp [TypeExpr.label?])

theorem Added.same {declared : TypeExpr} {store₁ : TypeStore} (h : Added store declared type store')
    (hs : store'.Rooted) (hsame : Same store' store₁) : Added store declared type store₁ where
  new := h.new
  lt_size := hsame.size_eq.symm ▸ h.lt_size
  self := (hsame.find_eq hs type).trans h.self
  name := h.name.congr (hsame.content_eq hs type)

end Names

variable {s : CheckState} {type : TypeId} {name : Option String}

theorem annotated_traces (declared : TypeExpr) (hs : s.store.Rooted) :
    (Plan.act (.annotated (some declared))).Traces s fun (type : TypeId) s' ops =>
      ops = [(s, .annotated (some declared))] ∧ type = (declared.translate s.store).1 ∧
        ∃ store, s' = s.withStore store ∧ Untouched s.store store ∧
          Added s.store declared type store :=
  ⟨rfl, rfl, _, rfl, translateOptional_untouched (some declared) hs, translate_added declared hs⟩

theorem name_traces (hs : s.store.Rooted) (htype : type < s.store.size) :
    (Plan.act (.name type)).Traces s fun (name : Option String) s' _ =>
      HasName s.store type name ∧ ∃ store, s' = s.withStore store ∧ Same s.store store :=
  ⟨hasName_concreteName hs htype, _, rfl, (resolve_eq (hs.root_find htype)).2⟩

theorem unify_traces {left right : TypeId} (place : Place)
    (hok : (s.store.unify left right).1 = .ok ()) :
    (unifyPlan left right place).Traces s fun ok s' ops =>
      ok = true ∧ s' = s.withStore (s.store.unify left right).2 ∧
        ops = [(s, .unify left right)] := by
  have hact : (Plan.act (.unify left right)).Traces s fun (outcome : Except Clash Unit) s' ops =>
      outcome = .ok () ∧ s' = s.withStore (s.store.unify left right).2 ∧
        ops = [(s, .unify left right)] := ⟨hok, rfl, rfl⟩
  apply hact.next
  rintro _ s₁ ops ⟨rfl, hs₁, hops⟩
  exact ⟨rfl, hs₁, (List.append_nil _).trans hops⟩

theorem tie_traces {left right : TypeId} (place : Place)
    (hok : (s.store.unify left right).1 = .ok ()) :
    (tiePlan left right place).Traces s fun _ s' ops =>
      s' = s.withStore (s.store.unify left right).2 ∧ ops = [(s, .unify left right)] := by
  apply (unify_traces place hok).next
  rintro _ s₁ ops ⟨-, hs₁, hops⟩
  exact ⟨hs₁, (List.append_nil _).trans hops⟩

/-- How a scan of members ends: all have another name, or the first that has not is taken, with the type
that the scan has added for it. -/
inductive Chosen (name : Option String) (members : List TypeExpr) (store store' : TypeStore)
    (ops : List (CheckState × CheckOp)) : Option TypeId → Prop
  | apart (h : ∀ member ∈ members, differ name member.label? ≠ none) :
    Chosen name members store store' ops none
  | first {front rest : List TypeExpr} {member : TypeExpr} {type : TypeId}
    (hmembers : members = front ++ member :: rest)
    (hfront : ∀ other ∈ front, differ name other.label? ≠ none)
    (hmember : differ name member.label? = none) (hadded : Added store member type store')
    (hop : ∃ x ∈ ops, x.2 = .annotated (some member) ∧ type = (member.translate x.1.store).1) :
    Chosen name members store store' ops (some type)

theorem Chosen.cons {members : List TypeExpr} {member : TypeExpr} {store store₁ store' : TypeStore}
    {ops before : List (CheckState × CheckOp)} {chosen : Option TypeId}
    (h : Chosen name members store₁ store' ops chosen) (hle : store.size ≤ store₁.size)
    (hmember : differ name member.label? ≠ none) :
    Chosen name (member :: members) store store' (before ++ ops) chosen := by
  cases h with
  | apart h => exact .apart (List.forall_mem_cons.mpr ⟨hmember, h⟩)
  | @first front rest m type hmembers hfront hm hadded hop =>
    obtain ⟨x, hx, hop⟩ := hop
    have hcons : member :: members = (member :: front) ++ m :: rest := by
      rw [hmembers, List.cons_append]
    exact .first hcons (List.forall_mem_cons.mpr ⟨hmember, hfront⟩) hm
      { hadded with new := hle.trans hadded.new } ⟨x, List.mem_append_right _ hx, hop⟩

theorem chooseMember_traces (name : Option String) (members : List TypeExpr) {s : CheckState}
    (hs : s.store.Rooted) : (chooseMemberPlan name members).Traces s fun chosen s' ops =>
      ∃ store, s' = s.withStore store ∧ Untouched s.store store ∧
        Chosen name members s.store store ops chosen := by
  induction members generalizing s with
  | nil => exact ⟨s.store, rfl, .refl hs, .apart (by simp)⟩
  | cons member rest ih =>
    apply (annotated_traces member hs).next
    rintro type - - ⟨rfl, htype, store₁, rfl, huntouched₁, hadded⟩
    apply (name_traces huntouched₁.rooted hadded.lt_size).next
    rintro memberName - ops ⟨hname, store₂, rfl, hsame⟩
    rw [hname.unique hadded.name]
    have huntouched₂ := huntouched₁.trans (hsame.untouched huntouched₁.rooted)
    cases hdiffer : differ name member.label? with
    | some pair =>
      refine (ih huntouched₂.rooted).imp ?_
      rintro chosen - ops' ⟨store₃, rfl, huntouched₃, hchosen⟩
      refine ⟨store₃, rfl, huntouched₂.trans huntouched₃, ?_⟩
      rw [← List.append_assoc]
      exact hchosen.cons huntouched₂.size_le (by simp [hdiffer])
    | none =>
      refine ⟨store₂, rfl, huntouched₂, .first (List.nil_append _).symm (by simp) hdiffer ?_ ?_⟩
      · exact hadded.same huntouched₁.rooted hsame
      · exact ⟨_, List.mem_append_left _ (List.mem_singleton_self _), rfl, htype⟩

end ArrowCheck
