import ArrowCheck.Proofs.Grammar.Bare

namespace ArrowCheck

namespace Cursor

def kinds (c : Cursor) : List TokenKind := c.rest.map Token.kind

theorem kind?_eq_head? (c : Cursor) : c.kind? = c.kinds.head? := by
  rw [kind?, kinds, List.head?_map]

theorem length_kinds (c : Cursor) : c.kinds.length = c.rest.length := List.length_map _

theorem kinds_next (c : Cursor) : c.next.kinds = c.kinds.tail := by
  obtain ⟨rest, last, stop, nextId, faults⟩ := c
  cases rest <;> rfl

theorem faults_next (c : Cursor) : c.next.faults = c.faults := by
  obtain ⟨rest, last, stop, nextId, faults⟩ := c
  cases rest <;> rfl

theorem isEmpty_kinds (c : Cursor) : c.rest.isEmpty = c.kinds.isEmpty := by
  rw [kinds, List.isEmpty_map]

end Cursor

namespace Reader

variable {α β : Type} {r : Reader α} {f : α → Reader β} {c c₀ c' : Cursor} {k : TokenKind}
  {ts us rest : List TokenKind}

/-- Running `r` from `c` ends in a result and a cursor with the property. -/
def Meets (r : Reader α) (c : Cursor) (Q : Except ParseFault α → Cursor → Prop) : Prop :=
  Q (r.run c).1 (r.run c).2

theorem Meets.imp {Q R : Except ParseFault α → Cursor → Prop} (h : Meets r c Q)
    (hQR : ∀ x c', Q x c' → R x c') : Meets r c R := hQR _ _ h

theorem meets_bind {Q : Except ParseFault β → Cursor → Prop} :
    Meets (r >>= f) c Q ↔ Meets r c fun x c' =>
      match x with
      | .ok a => Meets (f a) c' Q
      | .error fault => Q (.error fault) c' := by
  have hrun : (r >>= f).run c = (ExceptT.bindCont f (r.run c).1).run (r.run c).2 := rfl
  unfold Meets
  rw [hrun]
  cases (r.run c).1 <;> rfl

/-- The reader succeeds with such a value, leaves the tokens `rest` and records no fault. -/
def Gives (r : Reader α) (c : Cursor) (rest : List TokenKind) (P : α → Prop) : Prop :=
  Meets r c fun x c' => (∃ a, x = .ok a ∧ P a) ∧ c'.kinds = rest ∧ c'.faults = c.faults

/-- The reader records no fault, and if it succeeds its value and the tokens left are as said. -/
def Reads (r : Reader α) (c : Cursor) (P : α → List TokenKind → Prop) : Prop :=
  Meets r c fun x c' => c'.faults = c.faults ∧ ∀ a, x = .ok a → P a c'.kinds

section Giving

variable {P : α → Prop} {Q : β → Prop}

theorem gives_pure {a : α} (ha : P a) (hc : c.kinds = rest) : Gives (pure a) c rest P :=
  ⟨⟨a, rfl, ha⟩, hc, rfl⟩

theorem Gives.imp {P' : α → Prop} (h : Gives r c rest P) (hP : ∀ a, P a → P' a) :
    Gives r c rest P' := by
  obtain ⟨⟨a, ha, hPa⟩, hkinds, hfaults⟩ := h
  exact ⟨⟨a, ha, hP a hPa⟩, hkinds, hfaults⟩

theorem gives_bind (h : Gives r c us P)
    (hf : ∀ a c', P a → c'.kinds = us → c'.faults = c.faults → Gives (f a) c' rest Q) :
    Gives (r >>= f) c rest Q := by
  refine meets_bind.mpr (Meets.imp h ?_)
  rintro x c' ⟨⟨a, rfl, ha⟩, hkinds, hfaults⟩
  obtain ⟨hvalue, hrest, hfaults'⟩ := hf a c' ha hkinds hfaults
  exact ⟨hvalue, hrest, hfaults'.trans hfaults⟩

theorem gives_get : Gives get c c.kinds (· = c) := ⟨⟨c, rfl, rfl⟩, rfl, rfl⟩

theorem gives_here : Gives here c c.kinds fun _ => True := ⟨⟨c.here, rfl, trivial⟩, rfl, rfl⟩

theorem gives_kind? : Gives kind? c c.kinds (· = c.kinds.head?) :=
  ⟨⟨c.kind?, rfl, c.kind?_eq_head?⟩, rfl, rfl⟩

theorem gives_atEnd : Gives atEnd c c.kinds (· = c.kinds.isEmpty) :=
  ⟨⟨c.rest.isEmpty, rfl, c.isEmpty_kinds⟩, rfl, rfl⟩

theorem gives_sees : Gives (sees k) c c.kinds (· = (c.kinds.head? == some k)) :=
  ⟨⟨c.kind? == some k, rfl, by rw [c.kind?_eq_head?]⟩, rfl, rfl⟩

theorem gives_freshId : Gives freshId c c.kinds fun _ => True :=
  ⟨⟨c.nextId, rfl, trivial⟩, rfl, rfl⟩

theorem gives_advance (h : c.kinds = k :: ts) : Gives advance c ts fun _ => True :=
  ⟨⟨(), rfl, trivial⟩, by show c.next.kinds = ts; rw [c.kinds_next, h, List.tail_cons],
    c.faults_next⟩

theorem gives_eat (h : c.kinds = k :: ts) : Gives (eat k) c ts (· = true) := by
  refine gives_bind gives_sees ?_
  rintro _ c₁ rfl hkinds -
  have hseen : (c.kinds.head? == some k) = true := by simp [h]
  rw [if_pos hseen]
  exact gives_bind (gives_advance (hkinds.trans h)) fun _ _ _ hkinds' _ => gives_pure rfl hkinds'

theorem gives_eat_not (h : c.kinds.head? ≠ some k) : Gives (eat k) c c.kinds (· = false) := by
  refine gives_bind gives_sees ?_
  rintro _ c₁ rfl hkinds -
  have hseen : ¬ (c.kinds.head? == some k) = true := by simpa using h
  rw [if_neg hseen]
  exact gives_pure rfl hkinds

theorem gives_expect (h : c.kinds = k :: ts) : Gives (expect k) c ts fun _ => True := by
  refine gives_bind gives_here fun span c₁ _ hkinds₁ _ => gives_bind gives_sees ?_
  rintro _ c₂ rfl hkinds₂ -
  have hkinds := hkinds₁.trans h
  have hseen : (c₁.kinds.head? == some k) = true := by simp [hkinds]
  rw [if_pos hseen]
  exact gives_bind (gives_advance (hkinds₂.trans hkinds)) fun _ _ _ hkinds' _ =>
    gives_pure trivial hkinds'

theorem gives_expectIdent {what name : String} (h : c.kinds = .ident name :: ts) :
    Gives (expectIdent what) c ts fun found => ∃ span, found = (name, span) := by
  refine gives_bind gives_kind? ?_
  rintro _ c₁ rfl hkinds₁ -
  rw [h, List.head?_cons]
  refine gives_bind gives_here fun span c₂ _ hkinds₂ _ => ?_
  have hkinds : c₂.kinds = .ident name :: ts := hkinds₂.trans (hkinds₁.trans h)
  exact gives_bind (gives_advance hkinds) fun _ _ _ hkinds' _ => gives_pure ⟨span, rfl⟩ hkinds'

theorem gives_first {F : Span → Option TokenKind → Reader β} (h : c.kinds = k :: ts)
    (hF : ∀ start c', c'.kinds = k :: ts → c'.faults = c.faults → Gives (F start (some k)) c' rest Q) :
    Gives (do let start ← here; let next ← kind?; F start next) c rest Q := by
  refine gives_bind gives_here fun start c₁ _ hkinds₁ hfaults₁ => gives_bind gives_kind? ?_
  rintro _ c₂ rfl hkinds₂ hfaults₂
  have hc₁ := hkinds₁.trans h
  rw [hc₁, List.head?_cons]
  exact hF start c₂ (hkinds₂.trans hc₁) (hfaults₂.trans hfaults₁)

end Giving

section Reading

variable {P : α → List TokenKind → Prop} {Q : β → List TokenKind → Prop}

theorem reads_pure {a : α} (ha : P a c.kinds) : Reads (pure a) c P :=
  ⟨rfl, fun _ h => by cases h; exact ha⟩

theorem reads_unexpected (expected : String) : Reads (unexpected expected) c P :=
  ⟨rfl, fun _ h => by cases h⟩

theorem reads_throw (fault : ParseFault) : Reads (throw fault) c P :=
  ⟨rfl, fun _ h => by cases h⟩

theorem Reads.imp {P' : α → List TokenKind → Prop} (h : Reads r c P)
    (hP : ∀ a us, P a us → P' a us) : Reads r c P' :=
  ⟨h.1, fun a ha => hP a _ (h.2 a ha)⟩

theorem reads_bind (h : Reads r c P) (hf : ∀ a c', P a c'.kinds → Reads (f a) c' Q) :
    Reads (r >>= f) c Q := by
  refine meets_bind.mpr (Meets.imp h ?_)
  rintro (fault | a) c' ⟨hfaults, hvalue⟩
  · exact ⟨hfaults, fun _ h => by cases h⟩
  · obtain ⟨hfaults', hvalue'⟩ := hf a c' (hvalue a rfl)
    exact ⟨hfaults'.trans hfaults, hvalue'⟩

theorem reads_get : Reads get c fun c' us => c' = c ∧ us = c.kinds :=
  ⟨rfl, fun _ h => by cases h; exact ⟨rfl, rfl⟩⟩

theorem reads_here : Reads here c fun _ us => us = c.kinds := ⟨rfl, fun _ _ => rfl⟩

theorem reads_kind? : Reads kind? c fun k us => k = c.kinds.head? ∧ us = c.kinds :=
  ⟨rfl, fun _ h => by cases h; exact ⟨c.kind?_eq_head?, rfl⟩⟩

theorem reads_atEnd : Reads atEnd c fun b us => b = c.kinds.isEmpty ∧ us = c.kinds :=
  ⟨rfl, fun _ h => by cases h; exact ⟨c.isEmpty_kinds, rfl⟩⟩

theorem reads_sees : Reads (sees k) c fun b us => b = (c.kinds.head? == some k) ∧ us = c.kinds :=
  ⟨rfl, fun _ h => by cases h; exact ⟨by rw [c.kind?_eq_head?], rfl⟩⟩

theorem reads_freshId : Reads freshId c fun _ us => us = c.kinds := ⟨rfl, fun _ _ => rfl⟩

theorem reads_advance : Reads advance c fun _ us => us = c.kinds.tail :=
  ⟨c.faults_next, fun _ _ => c.kinds_next⟩

theorem eq_cons_of_head? (h : (ts.head? == some k) = true) : ts = k :: ts.tail := by
  cases ts with
  | nil => simp at h
  | cons t ts => simpa using h

theorem reads_eat : Reads (eat k) c fun b us =>
    (b = true ∧ c.kinds = k :: us) ∨ (b = false ∧ us = c.kinds ∧ c.kinds.head? ≠ some k) := by
  refine reads_bind reads_sees ?_
  rintro _ c₁ ⟨rfl, hkinds⟩
  split
  · rename_i hseen
    refine reads_bind reads_advance fun _ c₂ hkinds₂ => reads_pure (.inl ⟨rfl, ?_⟩)
    rw [hkinds₂, hkinds]
    exact eq_cons_of_head? hseen
  · rename_i hseen
    exact reads_pure (.inr ⟨rfl, hkinds, by simpa using hseen⟩)

theorem reads_expect : Reads (expect k) c fun _ us => c.kinds = k :: us := by
  refine reads_bind reads_here fun _ c₁ hkinds₁ => reads_bind reads_sees ?_
  rintro _ c₂ ⟨rfl, hkinds₂⟩
  split
  · rename_i hseen
    refine reads_bind reads_advance fun _ c₃ hkinds₃ => reads_pure ?_
    rw [hkinds₃, hkinds₂, ← hkinds₁]
    exact eq_cons_of_head? hseen
  · exact reads_unexpected _

theorem reads_expectIdent {what : String} :
    Reads (expectIdent what) c fun name us => c.kinds = .ident name.1 :: us := by
  refine reads_bind reads_kind? ?_
  rintro _ c₁ ⟨rfl, hkinds₁⟩
  split
  · rename_i name hname
    refine reads_bind reads_here fun _ c₂ hkinds₂ => reads_bind reads_advance fun _ c₃ hkinds₃ =>
      reads_pure ?_
    rw [hkinds₃, hkinds₂, hkinds₁]
    exact eq_cons_of_head? (by rw [hname]; exact beq_self_eq_true _)
  · exact reads_unexpected _

end Reading

end Reader

end ArrowCheck
