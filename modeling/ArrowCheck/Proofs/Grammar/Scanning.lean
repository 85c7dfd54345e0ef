import ArrowCheck.Proofs.Grammar.Building

namespace ArrowCheck

/-- The fault is one of the order of tokens, not of the text of a token. -/
def ParseFault.IsSyntactic : ParseFault → Prop
  | .lexical _ => False
  | _ => True

namespace Cursor

variable {c d e : Cursor}

theorem isSyntactic_unexpected (c : Cursor) (expected : String) :
    (c.unexpected expected).IsSyntactic := by
  unfold unexpected
  cases c.kind? <;> trivial

theorem span_unexpected (c : Cursor) (expected : String) : (c.unexpected expected).span = c.here := by
  unfold unexpected
  cases c.kind? <;> rfl

structure Ahead (c d : Cursor) : Prop where
  suffix : d.rest <:+ c.rest
  stop : d.stop = c.stop
  nextId : d.nextId = c.nextId
  faults : d.faults = c.faults

theorem Ahead.refl (c : Cursor) : c.Ahead c := ⟨List.suffix_refl _, rfl, rfl, rfl⟩

theorem Ahead.trans (h : c.Ahead d) (h' : d.Ahead e) : c.Ahead e :=
  ⟨h'.suffix.trans h.suffix, h'.stop.trans h.stop, h'.nextId.trans h.nextId, h'.faults.trans h.faults⟩

theorem ahead_next (c : Cursor) : c.Ahead c.next := by
  obtain ⟨rest, last, stop, nextId, faults⟩ := c
  cases rest with
  | nil => exact .refl _
  | cons t rest => exact ⟨List.suffix_cons t rest, rfl, rfl, rfl⟩

end Cursor

namespace Reader

variable {α β : Type} {r : Reader α} {f : α → Reader β} {bound : Nat}

/-- From `c` on tokens were passed and nothing else was done, up to the token that a failure is
reported at. -/
def Scanned (c : Cursor) (x : Except ParseFault α) (d : Cursor) : Prop :=
  c.Ahead d ∧ ∀ fault, x = .error fault → fault.IsSyntactic ∧ fault.span = d.here

def Scans (r : Reader α) : Prop := ∀ c, Meets r c (Scanned c)

theorem scanned_ok (c : Cursor) (a : α) : Scanned c (.ok a) c := ⟨.refl c, nofun⟩

theorem scanned_error {c : Cursor} {fault : ParseFault} (hfault : fault.IsSyntactic)
    (hspan : fault.span = c.here) : Scanned c (.error fault : Except ParseFault α) c := by
  refine ⟨.refl c, fun _ h => ?_⟩
  cases h
  exact ⟨hfault, hspan⟩

theorem Scanned.after {c c₁ d : Cursor} {x : Except ParseFault α} (h : Scanned c₁ x d)
    (hc : c.Ahead c₁) : Scanned c x d :=
  ⟨hc.trans h.1, h.2⟩

theorem Scans.bind (h : Scans r) (hf : ∀ a, Scans (f a)) : Scans (r >>= f) := by
  intro c
  apply meets_bind.mpr
  apply (h c).imp
  intro x c₁ hx
  cases x with
  | ok a => exact (hf a c₁).imp fun _ _ h₁ => h₁.after hx.1
  | error fault => exact ⟨hx.1, fun _ heq => by cases heq; exact hx.2 fault rfl⟩

theorem Scans.attempt {f : Except ParseFault α → Reader β} (h : Scans r)
    (hok : ∀ a, Scans (f (.ok a)))
    (herror : ∀ fault c, fault.IsSyntactic → fault.span = c.here →
      Meets (f (.error fault)) c (Scanned c)) : Scans (attempt r >>= f) := by
  intro c
  obtain ⟨hahead, hfault⟩ := h c
  rw [meets_attempt]
  cases hx : (r.run c).1 with
  | ok a => exact (hok a _).imp fun _ _ h₁ => h₁.after hahead
  | error fault =>
    obtain ⟨hsyntactic, hspan⟩ := hfault fault hx
    exact (herror fault _ hsyntactic hspan).imp fun _ _ h₁ => h₁.after hahead

theorem scans_pure (a : α) : Scans (pure a) := fun c => scanned_ok c a

theorem scans_get : Scans get := fun c => scanned_ok c c

theorem scans_here : Scans here := fun c => scanned_ok c c.here

theorem scans_kind? : Scans kind? := fun c => scanned_ok c c.kind?

theorem scans_atEnd : Scans atEnd := fun c => scanned_ok c c.rest.isEmpty

theorem scans_sees (k : TokenKind) : Scans (sees k) := fun c => scanned_ok c (c.kind? == some k)

theorem scans_unexpected (expected : String) : Scans (unexpected expected : Reader α) :=
  fun c => scanned_error (c.isSyntactic_unexpected expected) (c.span_unexpected expected)

theorem scans_advance : Scans advance := fun c => ⟨c.ahead_next, nofun⟩

theorem scans_eat (k : TokenKind) : Scans (eat k) := by
  apply (scans_sees k).bind
  intro seen
  split
  · exact scans_advance.bind fun _ => scans_pure true
  · exact scans_pure false

theorem scans_expect (k : TokenKind) : Scans (expect k) := by
  apply scans_here.bind
  intro span
  apply (scans_sees k).bind
  intro seen
  split
  · exact scans_advance.bind fun _ => scans_pure span
  · exact scans_unexpected _

theorem scans_expectIdent (what : String) : Scans (expectIdent what) := by
  apply scans_kind?.bind
  intro k
  split
  · apply scans_here.bind
    exact fun span => scans_advance.bind fun _ => scans_pure _
  · exact scans_unexpected _

theorem scans_arraySuffix (bound : Nat) (t : TypeExpr) : Scans (arraySuffix bound t) := by
  induction bound generalizing t with
  | zero => exact scans_pure t
  | succ bound ih =>
    apply scans_get.bind
    intro c
    split
    · exact scans_advance.bind fun _ => scans_advance.bind fun _ => ih _
    · exact scans_pure t

theorem scans_arraySuffixes (t : TypeExpr) : Scans (arraySuffixes t) :=
  scans_get.bind fun _ => scans_arraySuffix _ t

structure TypesScan (bound : Nat) : Prop where
  type : Scans (typeWithin bound)
  union : ∀ t, Scans (unionWithin bound t)
  base : Scans (baseWithin bound)
  fields : ∀ close what, Scans (fieldsWithin bound close what)

namespace TypesScan

theorem type_succ (h : TypesScan bound) : Scans (typeWithin (bound + 1)) :=
  h.base.bind fun first => (scans_arraySuffixes first).bind h.union

theorem union_succ (h : TypesScan bound) (t : TypeExpr) : Scans (unionWithin (bound + 1) t) := by
  apply (scans_eat _).bind
  intro eaten
  split
  · exact h.base.bind fun member => (scans_arraySuffixes member).bind fun _ => h.union _
  · exact scans_pure t

theorem base_succ (h : TypesScan bound) : Scans (baseWithin (bound + 1)) := by
  intro c
  unfold baseWithin
  rw [meets_here, meets_kind?]
  split
  · refine scans_advance.bind (fun _ => (scans_eat _).bind fun eaten => ?_) c
    split
    · exact h.type.bind fun _ => (scans_expect _).bind fun _ => scans_pure _
    · exact scans_pure _
  · exact scans_advance.bind (fun _ => scans_pure _) c
  · split
    · -- the type `any` is reported where it stands
      exact scanned_error trivial rfl
    · exact scans_advance.bind (fun _ => scans_pure _) c
  · refine scans_advance.bind (fun _ => (h.fields _ _).bind fun _ => ?_) c
    apply (scans_expect _).bind
    intro _
    exact (scans_expect _).bind fun _ => h.type.bind fun _ => scans_pure _
  · refine scans_advance.bind (fun _ => (h.fields _ _).bind fun _ => ?_) c
    exact (scans_expect _).bind fun _ => scans_pure _
  · exact scans_unexpected _ c

theorem fields_succ (h : TypesScan bound) (close : Mark) (what : String) :
    Scans (fieldsWithin (bound + 1) close what) := by
  apply scans_atEnd.bind
  intro ended
  apply (scans_sees _).bind
  intro closed
  split
  · exact scans_pure []
  · apply (scans_expectIdent _).bind
    intro name
    apply (scans_expect _).bind
    intro _
    apply h.type.bind
    intro type
    apply (scans_eat _).bind
    intro eaten
    split
    · exact (h.fields _ _).bind fun _ => scans_pure _
    · exact scans_pure _

end TypesScan

theorem typesScan (bound : Nat) : TypesScan bound := by
  induction bound with
  | zero =>
    exact
      { type := scans_unexpected _
        union := scans_pure
        base := scans_unexpected _
        fields := fun _ what => scans_unexpected what }
  | succ bound ih =>
    exact
      { type := ih.type_succ
        union := ih.union_succ
        base := ih.base_succ
        fields := ih.fields_succ }

theorem scans_optionalType : Scans optionalType := by
  apply (scans_eat _).bind
  intro eaten
  split
  · have htype : Scans typeExpr := scans_get.bind fun _ => (typesScan _).type
    exact htype.bind fun _ => scans_pure _
  · exact scans_pure none

theorem scans_skimParams (bound : Nat) : Scans (skimParams bound) := by
  induction bound with
  | zero => exact scans_unexpected _
  | succ bound ih =>
    apply (scans_expectIdent _).bind
    intro _
    apply scans_optionalType.attempt
    · intro type
      apply (scans_eat _).bind
      intro eaten
      split
      · exact ih
      · exact scans_pure false
    · intro fault c hsyntactic hspan
      split
      · exact scanned_ok c true
      · rename_i heq
        cases heq
        exact scanned_error hsyntactic hspan
      · rename_i heq
        cases heq

theorem scans_arrowHead : Scans arrowHead := by
  have hrest : Scans (do
      let _ ← expect (.mark .parenClose)
      let _ ← optionalType
      let _ ← expect (.mark .arrow)) :=
    (scans_expect _).bind fun _ => scans_optionalType.bind fun _ =>
      (scans_expect _).bind fun _ => scans_pure ()
  apply (scans_expect _).bind
  intro _
  apply (scans_sees _).bind
  intro seen
  split
  · exact hrest
  · apply scans_get.bind
    intro _
    apply (scans_skimParams _).bind
    intro cut
    cases cut with
    | true => exact scans_pure ()
    | false => exact hrest

theorem unnumbered_arrowHead (c : Cursor) : (arrowHead.run c).2.nextId = c.nextId :=
  (scans_arrowHead c).1.nextId

end Reader

end ArrowCheck
