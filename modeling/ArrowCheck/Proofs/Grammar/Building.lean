import ArrowCheck.Proofs.Grammar.Places
import ArrowCheck.Proofs.Grammar.Readers
import Mathlib.Data.List.Intervals

namespace ArrowCheck

open Shape

variable {ts : List Token} {c c₀ c' c₁ : Cursor} {xs ys parts : List Shape} {x y : Shape} {span : Span}

theorem Ordered.start_le (h : Ordered ts) {t u : Token} (ht : t ∈ ts) (hu : u ∈ ts)
    (hlt : t.span.start < u.span.stop) : t.span.start ≤ u.span.start := by
  obtain ⟨i, hi, rfl⟩ := List.mem_iff_getElem.mp ht
  obtain ⟨j, hj, rfl⟩ := List.mem_iff_getElem.mp hu
  have hapart := List.pairwise_iff_getElem.mp h.apart
  have hlt' := h.lt _ ht
  rcases Nat.lt_trichotomy i j with hij | rfl | hij
  · have := hapart i j hi hj hij
    omega
  · exact Nat.le_refl _
  · have := hapart j i hj hi hij
    omega

/-- The cursor stands between two of the tokens: those left are the last ones, and all of them come
behind the token that was read last. -/
structure Cursor.On (ts : List Token) (c : Cursor) : Prop where
  ordered : Ordered ts
  rest : c.rest <:+ ts
  ahead : ∀ t ∈ c.rest, c.last.stop ≤ t.span.start
  behind : c.last.stop = 0 ∨ ∃ t ∈ ts, t.span = c.last

theorem Cursor.exists_token {k : TokenKind} (h : c.kind? = some k) :
    ∃ t rest, c.rest = t :: rest ∧ c.here = t.span := by
  obtain ⟨rest, last, stop, nextId, faults⟩ := c
  cases rest with
  | nil => cases h
  | cons t rest => exact ⟨t, rest, rfl, rfl⟩

theorem Cursor.On.next (h : c.On ts) : c.next.On ts := by
  obtain ⟨rest, last, stop, nextId, faults⟩ := c
  cases rest with
  | nil => exact h
  | cons t rest =>
    have ht : t ∈ ts := h.rest.subset (List.mem_cons_self ..)
    have hapart := List.pairwise_cons.mp (h.ordered.apart.sublist h.rest.sublist)
    exact ⟨h.ordered, (List.suffix_cons t rest).trans h.rest, hapart.1, .inr ⟨t, ht, rfl⟩⟩

/-- The cursor goes on; ids are only given and faults only added. -/
structure Moved (ts : List Token) (c c' : Cursor) : Prop where
  on : c'.On ts
  stop_le : c.last.stop ≤ c'.last.stop
  id_le : c.nextId ≤ c'.nextId
  faults_le : c.faults.length ≤ c'.faults.length

theorem Moved.refl (h : c.On ts) : Moved ts c c := ⟨h, Nat.le_refl _, Nat.le_refl _, Nat.le_refl _⟩

theorem Moved.trans (h : Moved ts c₀ c) (h' : Moved ts c c') : Moved ts c₀ c' :=
  ⟨h'.on, h.stop_le.trans h'.stop_le, h.id_le.trans h'.id_le, h.faults_le.trans h'.faults_le⟩

/-- Between the cursors there are trees one behind the other. Their ids are among those given
between the cursors, in the order in which they were given, and all of them if no fault was added. -/
structure Built (ts : List Token) (c c' : Cursor) (xs : List Shape) : Prop extends Moved ts c c' where
  placed : Placed ts c.last.stop c'.last.stop xs
  ids : (idsOf xs).Sublist (List.Ico c.nextId c'.nextId)
  dense : c'.faults.length = c.faults.length → idsOf xs = List.Ico c.nextId c'.nextId

namespace Built

theorem start (h : c.On ts) : Built ts c c [] :=
  { Moved.refl h with
    placed := .nil (Nat.le_refl _)
    ids := List.nil_sublist _
    dense := fun _ => List.Ico.self_empty.symm }

theorem append (h : Built ts c₀ c xs) (h' : Built ts c c' ys) : Built ts c₀ c' (xs ++ ys) where
  toMoved := h.toMoved.trans h'.toMoved
  placed := h.placed.append h'.placed
  ids := by
    rw [idsOf_append, ← List.Ico.append_consecutive h.id_le h'.id_le]
    exact h.ids.append h'.ids
  dense hfaults := by
    have hle := h.faults_le
    have hle' := h'.faults_le
    rw [idsOf_append, ← List.Ico.append_consecutive h.id_le h'.id_le, h.dense (by omega),
      h'.dense (by omega)]

theorem replace (h : Built ts c₀ c xs) (hplaced : Placed ts c₀.last.stop c.last.stop ys)
    (hids : idsOf ys = idsOf xs) : Built ts c₀ c ys :=
  { h.toMoved with placed := hplaced, ids := hids ▸ h.ids, dense := hids ▸ h.dense }

theorem drop (h : Built ts c₀ c (xs ++ [leaf span])) : Built ts c₀ c xs := by
  refine h.replace (h.placed.sublist (List.sublist_append_left _ _)) ?_
  rw [idsOf_append, idsOf_leaf, idsOf, List.append_nil]

theorem lose (h : Built ts c₀ c xs) (h' : Moved ts c c') (hlt : c.faults.length < c'.faults.length) :
    Built ts c₀ c' xs where
  toMoved := h.toMoved.trans h'
  placed := h.placed.extend h'.stop_le
  ids := by
    rw [← List.Ico.append_consecutive h.id_le h'.id_le]
    exact h.ids.trans (List.sublist_append_left _ _)
  dense hfaults := by
    have hle := h.faults_le
    omega

theorem advance {k : TokenKind} (h : Built ts c₀ c xs) (hk : c.kind? = some k) :
    Built ts c₀ c.next (xs ++ [leaf c.here]) := by
  obtain ⟨t, rest, hrest, hhere⟩ := Cursor.exists_token hk
  have ht : t ∈ c.rest := hrest ▸ List.mem_cons_self ..
  have hmem : t ∈ ts := h.on.rest.subset ht
  have hahead := h.on.ahead t ht
  have hlt := h.on.ordered.lt t hmem
  have hnext : c.next = { c with rest := rest, last := t.span } := by rw [Cursor.next, hrest]
  have hon := h.on.next
  rw [hnext] at hon ⊢
  rw [hhere]
  refine h.append ⟨⟨hon, by show c.last.stop ≤ t.span.stop; omega, Nat.le_refl _, Nat.le_refl _⟩, ?_,
    ?_, fun _ => ?_⟩
  · refine Placed.cons_iff.mpr ⟨hahead, fits_node.mpr ⟨h.on.ordered.onTokens hmem, .nil ?_⟩,
      .nil (Nat.le_refl _)⟩
    exact Nat.le_of_lt hlt
  · exact List.nil_sublist _
  · exact List.Ico.self_empty.symm

theorem number (h : Built ts c₀ c (xs ++ [.node none span parts])) :
    Built ts c₀ { c with nextId := c.nextId + 1 } (xs ++ [.node (some c.nextId) span parts]) := by
  have hids : idsOf (xs ++ [.node (some c.nextId) span parts]) =
      idsOf (xs ++ [.node none span parts]) ++ [c.nextId] := by
    simp [idsOf, Shape.ids]
  have hon : Cursor.On ts { c with nextId := c.nextId + 1 } :=
    ⟨h.on.ordered, h.on.rest, h.on.ahead, h.on.behind⟩
  refine ⟨⟨hon, h.stop_le, Nat.le_succ_of_le h.id_le, h.faults_le⟩, h.placed.renumber, ?_, ?_⟩
  · rw [hids, List.Ico.succ_top h.id_le]
    exact h.ids.append (List.Sublist.refl _)
  · intro hfaults
    rw [hids, List.Ico.succ_top h.id_le, h.dense hfaults]

theorem merge (x : Shape) (xs : List Shape) (y : Shape) (parts : List Shape)
    (h : Built ts c₀ c (x :: xs ++ [y])) (hparts : parts.Sublist (x :: xs ++ [y]))
    (hids : idsOf parts = idsOf (x :: xs ++ [y])) :
    Built ts c₀ c [.node none (x.span.merge y.span) parts] := by
  obtain ⟨hlast, hle⟩ := h.placed.to_last
  have hy : y.Fits ts := h.placed.fits y (by simp)
  rw [h.placed.merge_eq]
  refine h.replace (hlast.enclose hle hy.onTokens.stop (hlast.from_first.sublist hparts)) ?_
  rw [← hids]
  simp [idsOf, Shape.ids]

theorem brackets {start stop : Span} (h : Built ts c₀ c (leaf start :: xs ++ [leaf stop])) :
    Built ts c₀ c [.node none (start.merge stop) xs] := by
  refine h.merge (leaf start) xs (leaf stop) xs ((List.sublist_append_left _ _).cons _) ?_
  rw [List.cons_append, idsOf_leaf, idsOf_append, idsOf_leaf, idsOf, List.append_nil]

theorem headed (xs : List Shape) (y : Shape) {start : Span}
    (h : Built ts c₀ c (leaf start :: xs ++ [y])) :
    Built ts c₀ c [.node none (start.merge y.span) (xs ++ [y])] :=
  h.merge (leaf start) xs y (xs ++ [y]) (List.sublist_cons_self _ _) (idsOf_leaf _ _).symm

theorem mergeLast (parts : List Shape) (h : Built ts c₀ c (x :: xs))
    (hparts : parts.Sublist (x :: xs)) (hids : idsOf parts = idsOf (x :: xs)) :
    Built ts c₀ c [.node none (x.span.merge c.last) parts] := by
  obtain ⟨-, hx, hrest⟩ := Placed.cons_iff.mp h.placed
  have hlt := hx.onTokens.lt
  have hle := hrest.le
  obtain hzero | ⟨u, hu, hlast⟩ := h.on.behind
  · omega
  · obtain ⟨t, ht, hstart⟩ := hx.onTokens.start
    have hstart_le := h.on.ordered.start_le ht hu (by rw [hstart, hlast]; omega)
    rw [hstart, hlast] at hstart_le
    have hspan : x.span.merge c.last = ⟨x.span.start, c.last.stop⟩ := by
      rw [Span.merge, Nat.min_eq_left hstart_le, Nat.max_eq_right hle]
    rw [hspan]
    refine h.replace (h.placed.enclose (Nat.le_refl _) ⟨u, hu, by rw [hlast]⟩
      (h.placed.from_first.sublist hparts)) ?_
    rw [← hids]
    simp [idsOf, Shape.ids]

end Built

namespace Reader

variable {α β : Type} {r : Reader α} {f : α → Reader β} {view : α → List Shape}
  {view' : β → List Shape} {k : TokenKind}

section Single

variable {Q : Except ParseFault β → Cursor → Prop}

theorem meets_get {f : Cursor → Reader β} : Meets (get >>= f) c Q ↔ Meets (f c) c Q := Iff.rfl

theorem meets_here {f : Span → Reader β} : Meets (here >>= f) c Q ↔ Meets (f c.here) c Q := Iff.rfl

theorem meets_kind? {f : Option TokenKind → Reader β} :
    Meets (kind? >>= f) c Q ↔ Meets (f c.kind?) c Q := Iff.rfl

theorem meets_atEnd {f : Bool → Reader β} :
    Meets (atEnd >>= f) c Q ↔ Meets (f c.rest.isEmpty) c Q := Iff.rfl

theorem meets_sees {f : Bool → Reader β} :
    Meets (sees k >>= f) c Q ↔ Meets (f (c.kind? == some k)) c Q := Iff.rfl

theorem meets_succeeds {f : Bool → Reader β} :
    Meets (succeeds r >>= f) c Q ↔ Meets (f (r.run c).1.isOk) c Q := Iff.rfl

theorem meets_attempt {f : Except ParseFault α → Reader β} :
    Meets (attempt r >>= f) c Q ↔ Meets (f (r.run c).1) (r.run c).2 Q := Iff.rfl

theorem meets_modify {g : Cursor → Cursor} {f : Unit → Reader β} :
    Meets (modify g >>= f) c Q ↔ Meets (f ()) (g c) Q := Iff.rfl

end Single

/-- What a reader that started at `c₀` has built; only the way it went if it failed. -/
def Yields (ts : List Token) (c₀ : Cursor) (view : α → List Shape) :
    Except ParseFault α → Cursor → Prop
  | .ok a, c => Built ts c₀ c (view a)
  | .error _, c => Moved ts c₀ c

/-- From every cursor between the tokens, the reader builds the trees of its value. -/
def Builds (ts : List Token) (r : Reader α) (view : α → List Shape) : Prop :=
  ∀ {c : Cursor}, c.On ts → Meets r c (Yields ts c view)

theorem yields_pure {a : α} (h : Built ts c₀ c (view a)) : Meets (pure a) c (Yields ts c₀ view) := h

theorem yields_throw (h : Built ts c₀ c xs) (fault : ParseFault) :
    Meets (throw fault) c (Yields ts c₀ view) := h.toMoved

theorem yields_unexpected (h : Built ts c₀ c xs) (expected : String) :
    Meets (unexpected expected) c (Yields ts c₀ view) := h.toMoved

theorem Yields.after {x : Except ParseFault α} (h₀ : Built ts c₀ c xs) (h : Yields ts c view x c') :
    Yields ts c₀ (fun a => xs ++ view a) x c' := by
  cases x with
  | ok a => exact h₀.append h
  | error fault => exact h₀.toMoved.trans h

theorem yields_bind (h₀ : Built ts c₀ c xs) (h : Builds ts r view)
    (hf : ∀ a c', Built ts c₀ c' (xs ++ view a) → Meets (f a) c' (Yields ts c₀ view')) :
    Meets (r >>= f) c (Yields ts c₀ view') := by
  apply meets_bind.mpr
  apply (h h₀.on).imp
  intro x c' hx
  have hx' := hx.after h₀
  cases x with
  | ok a => exact hf a c' hx'
  | error fault => exact hx'

theorem yields_advance {f : Unit → Reader β} (h₀ : Built ts c₀ c xs) (hk : c.kind? = some k)
    (hf : ∀ c', Built ts c₀ c' (xs ++ [leaf c.here]) → Meets (f ()) c' (Yields ts c₀ view')) :
    Meets (advance >>= f) c (Yields ts c₀ view') :=
  hf _ (h₀.advance hk)

theorem yields_number (xs : List Shape) {f : NodeId → Reader β}
    (h₀ : Built ts c₀ c (xs ++ [.node none span parts]))
    (hf : ∀ id c', Built ts c₀ c' (xs ++ [.node (some id) span parts]) →
      Meets (f id) c' (Yields ts c₀ view')) : Meets (freshId >>= f) c (Yields ts c₀ view') :=
  hf _ _ h₀.number

theorem yields_attempt {f : Except ParseFault α → Reader β} (h₀ : Built ts c₀ c xs)
    (h : Builds ts r view)
    (hok : ∀ a c', Built ts c₀ c' (xs ++ view a) → Meets (f (.ok a)) c' (Yields ts c₀ view'))
    (herror : ∀ fault c', Moved ts c c' → Meets (f (.error fault)) c' (Yields ts c₀ view')) :
    Meets (attempt r >>= f) c (Yields ts c₀ view') := by
  have hr := h h₀.on
  have hrun : (attempt r).run c = (.ok (r.run c).1, (r.run c).2) := rfl
  apply meets_bind.mpr
  unfold Meets at hr ⊢
  rw [hrun]
  cases hx : (r.run c).1 with
  | ok a =>
    rw [hx] at hr
    exact hok a _ (h₀.append hr)
  | error fault =>
    rw [hx] at hr
    exact herror fault _ hr

theorem builds_eat (k : TokenKind) : Builds ts (eat k) fun _ => [] := by
  intro c hc
  have h := Built.start hc
  unfold eat
  rw [meets_sees]
  by_cases hk : (c.kind? == some k) = true
  · rw [if_pos hk]
    exact yields_advance h (beq_iff_eq.mp hk) fun c' h' => yields_pure h'.drop
  · rw [if_neg hk]
    exact yields_pure h

theorem builds_expect (k : TokenKind) : Builds ts (expect k) fun span => [leaf span] := by
  intro c hc
  have h := Built.start hc
  unfold expect
  rw [meets_here, meets_sees]
  by_cases hk : (c.kind? == some k) = true
  · rw [if_pos hk]
    exact yields_advance h (beq_iff_eq.mp hk) fun c' h' => yields_pure h'
  · rw [if_neg hk]
    exact yields_unexpected h _

theorem builds_expectIdent (what : String) : Builds ts (expectIdent what) fun name => [leaf name.2] := by
  intro c hc
  have h := Built.start hc
  unfold expectIdent
  rw [meets_kind?]
  split
  · rename_i name hk
    rw [meets_here]
    exact yields_advance h hk fun c' h' => yields_pure h'
  · exact yields_unexpected h _

end Reader

end ArrowCheck
