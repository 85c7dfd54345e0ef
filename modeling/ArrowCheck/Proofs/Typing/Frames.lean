import ArrowCheck.Proofs.Typing.Annotations

namespace ArrowCheck

open TypeStore Check

namespace ScopeStack

variable {base scopes : ScopeStack}

structure Above (base scopes : ScopeStack) : Prop where
  open_ : scopes.inner ≠ []
  pop : scopes.pop.2 = base

theorem above_push (base : ScopeStack) : Above base base.push := ⟨by simp [push], rfl⟩

theorem Above.define (h : Above base scopes) (name : String) (type : TypeId) :
    Above base (scopes.define name type) := by
  obtain ⟨hopen, rfl⟩ := h
  obtain ⟨inner, global⟩ := scopes
  cases inner with
  | nil => exact absurd rfl hopen
  | cons scope rest => exact ⟨by simp [ScopeStack.define], rfl⟩

@[simp]
theorem lookup_push (scopes : ScopeStack) (name : String) :
    scopes.push.lookup name = scopes.lookup name := rfl

theorem lookup_define (scopes : ScopeStack) (name other : String) (type : TypeId) :
    (scopes.define name type).lookup other =
      if other = name then some type else scopes.lookup other := by
  obtain ⟨inner, global⟩ := scopes
  cases inner with
  | nil =>
    simp only [define, lookup, List.nil_append, List.findSome?_cons, List.findSome?_nil,
      Table.get?_insert]
    by_cases h : other = name <;> simp [h]
  | cons scope rest =>
    simp only [define, lookup, List.cons_append, List.findSome?_cons, Table.get?_insert]
    by_cases h : other = name <;> simp [h]

end ScopeStack

def Frame (ids : List NodeId) (s s' : CheckState) : Prop :=
  ∀ id, id ∉ ids → s'.nodeTypes.get? id = s.nodeTypes.get? id

/-- Each name in scope has the recorded type of its binder. -/
structure Binds (env : Binders) (s : CheckState) : Prop where
  bound : ∀ {name type}, s.scopes.lookup name = some type →
    ∃ binder, env name = some binder ∧ s.nodeTypes.get? binder = some type
  free : ∀ {name}, s.scopes.lookup name = none → env name = none

structure Ready (env : Binders) (ids : List NodeId) (s : CheckState) : Prop where
  good : s.Good
  binds : Binds env s
  distinct : ids.Nodup
  new : ∀ id ∈ ids, s.nodeTypes.get? id = none

variable {t : Labelling} {env : Binders} {s s₁ s₂ s' : CheckState} {ids ids₁ ids₂ : List NodeId}
  {C : (TypeId → String) → Prop} {type : TypeId} {x : String}

theorem Frame.refl (s : CheckState) : Frame [] s s := fun _ _ => rfl

theorem Frame.trans (h : Frame ids₁ s s₁) (h' : Frame ids₂ s₁ s₂) : Frame (ids₁ ++ ids₂) s s₂ := by
  intro id hid
  rw [List.mem_append, not_or] at hid
  rw [h' id hid.2, h id hid.1]

theorem Silent.frame (h : Silent s s') : Frame [] s s' := fun id _ => by rw [h.types]

theorem Frame.silent (h : Frame ids s s₁) (h' : Silent s₁ s₂) : Frame ids s s₂ := by
  have := h.trans h'.frame
  rwa [List.append_nil] at this

theorem Silent.then_frame (h : Silent s s₁) (h' : Frame ids s₁ s₂) : Frame ids s s₂ :=
  h.frame.trans h'

theorem Binds.mono (h : Binds env s) (hscopes : s'.scopes = s.scopes)
    (htypes : ∀ id type, s.nodeTypes.get? id = some type → s'.nodeTypes.get? id = some type) :
    Binds env s' := by
  constructor
  · intro name type hl
    rw [hscopes] at hl
    obtain ⟨binder, hb, ht⟩ := h.bound hl
    exact ⟨binder, hb, htypes binder type ht⟩
  · intro name hl
    rw [hscopes] at hl
    exact h.free hl

theorem Frame.keeps (h : Frame ids s s') (hnew : ∀ id ∈ ids, s.nodeTypes.get? id = none) (id : NodeId)
    (type : TypeId) (hid : s.nodeTypes.get? id = some type) : s'.nodeTypes.get? id = some type := by
  rw [h id, hid]
  intro hm
  rw [hnew id hm] at hid
  cases hid

theorem Ready.left (h : Ready env (ids₁ ++ ids₂) s) : Ready env ids₁ s :=
  ⟨h.good, h.binds, (List.nodup_append.mp h.distinct).1,
    fun id hid => h.new id (List.mem_append_left _ hid)⟩

theorem Ready.disjoint (h : Ready env (ids₁ ++ ids₂) s) {id : NodeId} (hid : id ∈ ids₂) :
    id ∉ ids₁ :=
  fun hm => (List.nodup_append.mp h.distinct).2.2 id hm id hid rfl

theorem Ready.next (h : Ready env (ids₁ ++ ids₂) s) (hs' : s'.Good) (hframe : Frame ids₁ s s')
    (hscopes : s'.scopes = s.scopes) : Ready env ids₂ s' := by
  refine ⟨hs', h.binds.mono hscopes (hframe.keeps h.left.new),
    (List.nodup_append.mp h.distinct).2.1, fun id hid => ?_⟩
  rw [hframe id (h.disjoint hid)]
  exact h.new id (List.mem_append_right _ hid)

theorem Ready.silent (h : Ready env ids s) (hs' : s'.Good) (hsil : Silent s s') :
    Ready env ids s' := by
  have h' : Ready env ([] ++ ids) s := h
  exact h'.next hs' hsil.frame hsil.scopes

theorem Recorded.mono (h : Recorded s ids₁) (hframe : Frame ids₂ s s')
    (hdisj : ∀ id ∈ ids₁, id ∉ ids₂) : Recorded s' ids₁ := by
  intro id hid
  rw [hframe id (hdisj id hid)]
  exact h id hid

theorem Recorded.append (h₁ : Recorded s ids₁) (h₂ : Recorded s ids₂) : Recorded s (ids₁ ++ ids₂) :=
  fun id hid => (List.mem_append.mp hid).elim (h₁ id) (h₂ id)

theorem record_meets {id : NodeId} (hs : s.Good) (hnew : s.nodeTypes.get? id = none)
    (htype : type < s.store.size) :
    Meets (record id type) s fun _ s' =>
      Step t (fun ρ => t id = ρ type) s s' ∧ Frame [id] s s' ∧ s'.scopes = s.scopes ∧
        s'.returnTypes = s.returnTypes ∧ s'.nodeTypes.get? id = some type := by
  have hget : ∀ other, (s.nodeTypes.insert id type).get? other =
      if other = id then some type else s.nodeTypes.get? other :=
    fun other => Table.get?_insert s.nodeTypes id other type
  have hself : (s.nodeTypes.insert id type).get? id = some type := by rw [hget, if_pos rfl]
  have hfits : ∀ ρ, Fits ρ t { s with nodeTypes := s.nodeTypes.insert id type } ↔
      Fits ρ t s ∧ t id = ρ type := by
    intro ρ
    constructor
    · intro h
      refine ⟨⟨h.models, fun {other ty} hother => h.label ?_⟩, h.label hself⟩
      show (s.nodeTypes.insert id type).get? other = some ty
      rw [hget, if_neg, hother]
      rintro rfl
      rw [hnew] at hother
      cases hother
    · rintro ⟨h, heq⟩
      refine ⟨h.models, fun {other ty} hother => ?_⟩
      have hother' : (s.nodeTypes.insert id type).get? other = some ty := hother
      rw [hget] at hother'
      split at hother'
      · rename_i hid
        cases hother'
        rw [hid]
        exact heq
      · exact h.label hother'
  refine ⟨?_, fun other hother => ?_, rfl, rfl, hself⟩
  · exact
      { good := ⟨hs.rooted, fun {other ty} hother => by
          have hother' : (s.nodeTypes.insert id type).get? other = some ty := hother
          rw [hget] at hother'
          split at hother'
          · cases hother'
            exact htype
          · exact hs.range hother'⟩
        size_le := Nat.le_refl _
        fits := fun {ρ} h => ((hfits ρ).mp h).1
        quiet := fun hd => hd
        sound := fun _ ρ h => ((hfits ρ).mp h).2
        complete := fun {ρ} hρ heq =>
          ⟨fun hd => hd, ρ, Agree.refl s ρ, (hfits ρ).mpr ⟨hρ, heq⟩⟩ }
  · show (s.nodeTypes.insert id type).get? other = _
    rw [hget, if_neg (by simpa using hother)]

end ArrowCheck
