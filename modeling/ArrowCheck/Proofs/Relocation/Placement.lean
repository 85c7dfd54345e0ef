import ArrowCheck.Proofs.Grammar.Building
import ArrowCheck.Proofs.Relocation.Trees

namespace ArrowCheck

attribute [ext] Cursor

section Way

variable {p q : TokenKind → Prop} {n m : Nat} {c c₁ d : Cursor} {k : TokenKind}

/-- Between two cursors there are `n` tokens or more, and `p` allows the last one. -/
def Way (p : TokenKind → Prop) (n : Nat) (c d : Cursor) : Prop :=
  ∃ ts, c.rest = ts ++ d.rest ∧ (∀ t, ts.getLast? = some t → p t.kind) ∧ n ≤ ts.length

namespace Way

theorem stay (h : d.rest = c.rest) : Way p 0 c d := ⟨[], h.symm, nofun, Nat.le_refl _⟩

theorem mono (h : Way p n c d) (hm : m ≤ n) (hpq : ∀ k, p k → q k) : Way q m c d := by
  obtain ⟨ts, hts, hlast, hn⟩ := h
  exact ⟨ts, hts, fun t ht => hpq _ (hlast t ht), hm.trans hn⟩

theorem trans (h : Way p n c c₁) (h' : Way q m c₁ d) (hpq : 0 < m ∨ ∀ k, p k → q k) :
    Way q (n + m) c d := by
  obtain ⟨ts, hts, hlast, hn⟩ := h
  obtain ⟨us, hus, hlast', hm⟩ := h'
  refine ⟨ts ++ us, by rw [hts, hus, List.append_assoc], ?_, by rw [List.length_append]; omega⟩
  intro t ht
  rw [List.getLast?_append] at ht
  cases hu : us.getLast? with
  | some u =>
    rw [hu] at ht
    exact hlast' t (hu.trans ht)
  | none =>
    rw [hu] at ht
    have hnil : us = [] := List.getLast?_eq_none_iff.mp hu
    rw [hnil] at hm
    exact (hpq.resolve_left (Nat.not_lt.mpr hm)) _ (hlast t ht)

theorem suffix (h : Way p n c d) : d.rest <:+ c.rest := by
  obtain ⟨ts, hts, -⟩ := h
  exact ⟨ts, hts.symm⟩

theorem length (h : Way p n c d) : d.rest.length + n ≤ c.rest.length := by
  obtain ⟨ts, hts, -, hn⟩ := h
  rw [hts, List.length_append]
  omega

theorem next (hk : c.kind? = some k) (hp : p k) : Way p 1 c c.next := by
  obtain ⟨rest, last, stop, nextId, faults⟩ := c
  cases rest with
  | nil => cases hk
  | cons t rest =>
    cases hk
    refine ⟨[t], rfl, fun u hu => ?_, Nat.le_refl _⟩
    cases hu
    exact hp

end Way

end Way

def NoSemicolon (k : TokenKind) : Prop := k ≠ .mark .semicolon

/-- A text inside another one: the tokens that follow there, the end of that text and the faults found
before. -/
structure Placement extends Relocation where
  more : List Token
  stop : Nat → Nat
  before : List ParseFault

namespace Placement

variable {ρ : Placement} {α : Type} {c d : Cursor} {k : TokenKind}

def cursor (ρ : Placement) (c : Cursor) : Cursor where
  rest := c.rest.map (Token.relocate ρ.toRelocation) ++ ρ.more
  last := c.last.relocate ρ.toRelocation
  stop := ρ.stop c.stop
  nextId := c.nextId + ρ.ids
  faults := ρ.before ++ c.faults.map (ParseFault.relocate ρ.toRelocation)

def outcome (ρ : Placement) (view : α → α) : Except ParseFault α → Except ParseFault α
  | .ok a => .ok (view a)
  | .error fault => .error (fault.relocate ρ.toRelocation)

def placeless : Placement := ⟨.forget, [], fun _ => 0, []⟩

def Whole (ρ : Placement) : Prop := ρ.more = [] ∧ ρ.stop = ρ.pos

/-- What follows in the other text is not seen: there is nothing, or a semicolon is still to come. -/
def Hides (ρ : Placement) (c : Cursor) : Prop :=
  ρ.Whole ∨ c.rest.getLast?.map Token.kind = some (.mark .semicolon)

theorem Hides.of_suffix (h : ρ.Hides d) (hsuffix : d.rest <:+ c.rest) : ρ.Hides c := by
  apply h.imp_right
  intro hlast
  obtain ⟨t, ht, -⟩ := Option.map_eq_some_iff.mp hlast
  obtain ⟨ts, hts⟩ := hsuffix
  rwa [← hts, List.getLast?_append, ht, Option.some_or, ← ht]

theorem Hides.of_way {n : Nat} (h : ρ.Hides c) (hway : Way NoSemicolon n c d) :
    ρ.Hides d := by
  apply h.imp_right
  intro hlast
  obtain ⟨ts, hts, hend, -⟩ := hway
  rw [hts, List.getLast?_append] at hlast
  cases hd : d.rest.getLast? with
  | some t => rwa [hd] at hlast
  | none =>
    rw [hd, Option.none_or] at hlast
    obtain ⟨t, ht, hkind⟩ := Option.map_eq_some_iff.mp hlast
    exact absurd hkind (hend t ht)

theorem Hides.of_ne_nil (h : ρ.Hides c) (hsuffix : d.rest <:+ c.rest) (hne : d.rest ≠ []) :
    ρ.Hides d := by
  apply h.imp_right
  intro hlast
  obtain ⟨ts, hts⟩ := hsuffix
  rwa [← hts, List.getLast?_append_of_ne_nil _ hne] at hlast

theorem Hides.whole (h : ρ.Hides c) (hrest : c.rest = []) : ρ.Whole := by
  apply h.resolve_right
  rw [hrest]
  exact nofun

theorem kind?_cursor (h : ρ.Hides c) : (ρ.cursor c).kind? = c.kind? := by
  obtain ⟨rest, last, stop, nextId, faults⟩ := c
  cases rest with
  | nil => rw [Cursor.kind?, cursor, (h.whole rfl).1]; rfl
  | cons t rest => rfl

theorem here_cursor (h : ρ.Hides c) : (ρ.cursor c).here = c.here.relocate ρ.toRelocation := by
  obtain ⟨rest, last, stop, nextId, faults⟩ := c
  cases rest with
  | nil => rw [Cursor.here, cursor, (h.whole rfl).1, (h.whole rfl).2]; rfl
  | cons t rest => rfl

theorem isEmpty_cursor (h : ρ.Hides c) : (ρ.cursor c).rest.isEmpty = c.rest.isEmpty := by
  obtain ⟨rest, last, stop, nextId, faults⟩ := c
  cases rest with
  | nil => rw [cursor, (h.whole rfl).1]; rfl
  | cons t rest => rfl

theorem next_cursor (hk : c.kind? = some k) : (ρ.cursor c).next = ρ.cursor c.next := by
  obtain ⟨rest, last, stop, nextId, faults⟩ := c
  cases rest with
  | nil => cases hk
  | cons t rest => rfl

theorem length_cursor (ρ : Placement) (c : Cursor) : c.rest.length ≤ (ρ.cursor c).rest.length := by
  rw [cursor, List.length_append, List.length_map]
  exact Nat.le_add_right _ _

theorem unexpected_cursor (h : ρ.Hides c) (expected : String) :
    (ρ.cursor c).unexpected expected = (c.unexpected expected).relocate ρ.toRelocation := by
  unfold Cursor.unexpected
  rw [kind?_cursor h, here_cursor h]
  cases c.kind? <;> rfl

end Placement

namespace Reader

open Placement

variable {α β : Type} {r r' : Reader α} {f f' : α → Reader β} {p q : TokenKind → Prop}
  {loose loose' : Prop} {n m : Nat} {view : α → α} {view' : β → β} {ρ : Placement} {c : Cursor}
  {k : TokenKind}

def OrLoose (p : TokenKind → Prop) (loose : Prop) (k : TokenKind) : Prop := p k ∨ loose

/-- The way of a reader that started at `c`: over `n` tokens or more, unless it failed. If it is
`loose` a failure can come behind any token. -/
def Passed (p : TokenKind → Prop) (loose : Prop) (n : Nat) (c : Cursor) :
    Except ParseFault α → Cursor → Prop
  | .ok _, d => Way p n c d
  | .error _, d => Way (OrLoose p loose) 0 c d

theorem Passed.way {x : Except ParseFault α} {d : Cursor} (h : Passed p loose n c x d) :
    Way (OrLoose p loose) 0 c d := by
  cases x with
  | ok a => exact Way.mono h (Nat.zero_le n) fun _ => Or.inl
  | error fault => exact h

theorem Passed.mono {x : Except ParseFault α} {d : Cursor} (h : Passed p loose n c x d) (hm : m ≤ n)
    (hpq : ∀ k, p k → q k) (hloose : loose → loose') : Passed q loose' m c x d := by
  cases x with
  | ok a => exact Way.mono h hm hpq
  | error fault => exact Way.mono h (Nat.le_refl _) fun k => Or.imp (hpq k) hloose

/-- From `c` the second reader does in the other text what the first one does in this text. -/
def Mirrors (ρ : Placement) (p : TokenKind → Prop) (loose : Prop) (n : Nat) (view : α → α)
    (r r' : Reader α) (c : Cursor) : Prop :=
  Meets r c fun x d =>
    Passed p loose n c x d ∧ (ρ.Hides d → r'.run (ρ.cursor c) = (ρ.outcome view x, ρ.cursor d))

namespace Mirrors

theorem mono (h : Mirrors ρ p loose n view r r' c) (hm : m ≤ n) (hpq : ∀ k, p k → q k)
    (hloose : loose → loose') : Mirrors ρ q loose' m view r r' c :=
  ⟨h.1.mono hm hpq hloose, h.2⟩

theorem loosen (h : Mirrors ρ p loose n view r r' c) : Mirrors ρ p True n view r r' c :=
  h.mono (Nat.le_refl n) (fun _ hk => hk) fun _ => trivial

theorem after {s s' : Reader α} {c₁ : Cursor} (h : Mirrors ρ p loose (m - n) view s s' c₁)
    (hway : Way q n c c₁) (hq : ∀ k, q k → OrLoose p loose k) (hlast : 0 < m - n ∨ ∀ k, q k → p k)
    (hr : r.run c = s.run c₁) (hr' : ρ.Hides c₁ → r'.run (ρ.cursor c) = s'.run (ρ.cursor c₁)) :
    Mirrors ρ p loose m view r r' c := by
  unfold Mirrors Meets
  rw [hr]
  obtain ⟨hpassed, himage⟩ := h
  refine ⟨?_, fun hd => (hr' (hd.of_suffix hpassed.way.suffix)).trans (himage hd)⟩
  cases hx : (s.run c₁).1 with
  | ok a =>
    rw [hx] at hpassed
    exact (hway.trans hpassed hlast).mono (by omega) fun _ hk => hk
  | error fault =>
    rw [hx] at hpassed
    exact (hway.trans hpassed (.inr hq)).mono (Nat.zero_le _) fun _ hk => hk

theorem congr {s s' : Reader α} (h : Mirrors ρ p loose n view s s' c) (hr : r.run c = s.run c)
    (hr' : ρ.Hides c → r'.run (ρ.cursor c) = s'.run (ρ.cursor c)) : Mirrors ρ p loose n view r r' c :=
  h.after (.stay rfl) (fun _ => Or.inl) (.inr fun _ hk => hk) hr hr'

end Mirrors

theorem mirrors_pure {a a' : α} (h : a' = view a) : Mirrors ρ p loose 0 view (pure a) (pure a') c :=
  ⟨.stay rfl, fun _ => by rw [h]; rfl⟩

theorem mirrors_throw {fault fault' : ParseFault} (h : fault' = fault.relocate ρ.toRelocation) :
    Mirrors ρ p loose n view (throw fault) (throw fault') c :=
  ⟨Way.stay rfl, fun _ => by rw [h]; rfl⟩

theorem mirrors_unexpected (expected : String) :
    Mirrors ρ p loose n view (unexpected expected) (unexpected expected) c := by
  refine ⟨.stay rfl, fun hd => ?_⟩
  have hfault := unexpected_cursor hd expected
  exact congrArg (fun fault => (Except.error fault, ρ.cursor c)) hfault

theorem run_bind (r : Reader α) (f : α → Reader β) (c : Cursor) :
    (r >>= f).run c = (ExceptT.bindCont f (r.run c).1).run (r.run c).2 := rfl

/-- One reader behind another, where the last token of the first one counts only if the second one
need not pass a token. -/
theorem mirrors_seq (h : Mirrors ρ q loose n view r r' c) (hq : ∀ k, q k → OrLoose p loose k)
    (hlast : 0 < m - n ∨ ∀ k, q k → p k)
    (hf : ∀ a c₁, c₁.rest.length + n ≤ c.rest.length →
      Mirrors ρ p loose (m - n) view' (f a) (f' (view a)) c₁) :
    Mirrors ρ p loose m view' (r >>= f) (r' >>= f') c := by
  obtain ⟨hpassed, himage⟩ := h
  cases hx : (r.run c).1 with
  | error fault =>
    rw [hx] at hpassed himage
    have hrun : (r >>= f).run c = (.error fault, (r.run c).2) := by rw [run_bind, hx]; rfl
    unfold Mirrors Meets
    rw [hrun]
    refine ⟨Way.mono hpassed (Nat.le_refl _) fun k hk => Or.elim hk (hq k) .inr, fun hd => ?_⟩
    rw [run_bind, himage hd]
    rfl
  | ok a =>
    rw [hx] at hpassed himage
    have hway : Way q n c (r.run c).2 := hpassed
    apply (hf a _ hway.length).after hway hq hlast
    · rw [run_bind, hx]
      rfl
    · intro hc
      rw [run_bind, himage hc]
      rfl

theorem mirrors_bind (h : Mirrors ρ p loose n view r r' c)
    (hf : ∀ a c₁, c₁.rest.length + n ≤ c.rest.length →
      Mirrors ρ p loose (m - n) view' (f a) (f' (view a)) c₁) :
    Mirrors ρ p loose m view' (r >>= f) (r' >>= f') c :=
  mirrors_seq h (fun _ => Or.inl) (.inr fun _ hk => hk) hf

section Single

theorem mirrors_get {f f' : Cursor → Reader β}
    (h : Mirrors ρ p loose n view' (f c) (f' (ρ.cursor c)) c) :
    Mirrors ρ p loose n view' (get >>= f) (get >>= f') c := h

theorem mirrors_here {f f' : Span → Reader β}
    (h : Mirrors ρ p loose n view' (f c.here) (f' (c.here.relocate ρ.toRelocation)) c) :
    Mirrors ρ p loose n view' (here >>= f) (here >>= f') c := by
  apply h.congr rfl
  intro hc
  rw [← here_cursor hc]
  rfl

theorem mirrors_kind? {f f' : Option TokenKind → Reader β}
    (h : Mirrors ρ p loose n view' (f c.kind?) (f' c.kind?) c) :
    Mirrors ρ p loose n view' (kind? >>= f) (kind? >>= f') c := by
  apply h.congr rfl
  intro hc
  rw [← kind?_cursor hc]
  rfl

theorem mirrors_atEnd {f f' : Bool → Reader β}
    (h : Mirrors ρ p loose n view' (f c.rest.isEmpty) (f' c.rest.isEmpty) c) :
    Mirrors ρ p loose n view' (atEnd >>= f) (atEnd >>= f') c := by
  apply h.congr rfl
  intro hc
  rw [← isEmpty_cursor hc]
  rfl

theorem mirrors_sees {f f' : Bool → Reader β}
    (h : Mirrors ρ p loose n view' (f (c.kind? == some k)) (f' (c.kind? == some k)) c) :
    Mirrors ρ p loose n view' (sees k >>= f) (sees k >>= f') c := by
  apply h.congr rfl
  intro hc
  rw [← kind?_cursor hc]
  rfl

theorem mirrors_advance {f f' : Unit → Reader β} (hk : c.kind? = some k) (hp : p k)
    (hf : ∀ c₁, c₁.rest.length + 1 ≤ c.rest.length →
      Mirrors ρ p loose (n - 1) view' (f ()) (f' ()) c₁) :
    Mirrors ρ p loose n view' (advance >>= f) (advance >>= f') c := by
  have hadvance : Mirrors ρ p loose 1 (fun u : Unit => u) advance advance c :=
    ⟨.next hk hp, fun _ => congrArg (Prod.mk (Except.ok ())) (next_cursor hk)⟩
  exact mirrors_bind hadvance fun _ c₁ h₁ => hf c₁ h₁

end Single

theorem mirrors_eat {f f' : Bool → Reader β} (hp : p k)
    (htrue : ∀ c₁, c₁.rest.length + 1 ≤ c.rest.length →
      Mirrors ρ p loose (n - 1) view' (f true) (f' true) c₁)
    (hfalse : c.kind? ≠ some k → Mirrors ρ p loose n view' (f false) (f' false) c) :
    Mirrors ρ p loose n view' (eat k >>= f) (eat k >>= f') c := by
  unfold eat
  rw [bind_assoc, bind_assoc]
  apply mirrors_sees
  by_cases hk : (c.kind? == some k) = true
  · rw [if_pos hk, bind_assoc, bind_assoc]
    exact mirrors_advance (beq_iff_eq.mp hk) hp htrue
  · rw [if_neg hk]
    exact hfalse (mt beq_iff_eq.mpr hk)

theorem mirrors_expect (hp : p k) :
    Mirrors ρ p loose 1 (Span.relocate ρ.toRelocation) (expect k) (expect k) c := by
  apply mirrors_here
  apply mirrors_sees
  by_cases hk : (c.kind? == some k) = true
  · rw [if_pos hk, if_pos hk]
    exact mirrors_advance (beq_iff_eq.mp hk) hp fun c₁ h₁ => mirrors_pure rfl
  · rw [if_neg hk, if_neg hk]
    exact mirrors_unexpected _

theorem mirrors_expectIdent (hp : ∀ name, p (.ident name)) (what : String) :
    Mirrors ρ p loose 1 (fun name => (name.1, name.2.relocate ρ.toRelocation)) (expectIdent what)
      (expectIdent what) c := by
  apply mirrors_kind?
  cases hk : c.kind? with
  | none => exact mirrors_unexpected _
  | some k =>
    cases k with
    | ident name =>
      apply mirrors_here
      exact mirrors_advance hk (hp name) fun c₁ h₁ => mirrors_pure rfl
    | _ => exact mirrors_unexpected _

theorem mirrors_freshId : Mirrors ρ p loose 0 (· + ρ.ids) freshId freshId c := by
  refine ⟨.stay rfl, fun _ => ?_⟩
  have hnext : ρ.cursor { c with nextId := c.nextId + 1 } =
      { ρ.cursor c with nextId := c.nextId + ρ.ids + 1 } := by
    rw [cursor, cursor, Nat.add_right_comm]
  exact congrArg (Prod.mk (Except.ok (c.nextId + ρ.ids))) hnext.symm

theorem mirrors_record {f f' : Unit → Reader β} (fault : ParseFault)
    (h : Mirrors ρ p loose n view' (f ()) (f' ()) { c with faults := c.faults ++ [fault] }) :
    Mirrors ρ p loose n view' (record fault >>= f)
      (record (fault.relocate ρ.toRelocation) >>= f') c := by
  have hrecord : ρ.cursor { c with faults := c.faults ++ [fault] } =
      { ρ.cursor c with
        faults := (ρ.cursor c).faults ++ [fault.relocate ρ.toRelocation] } := by
    simp [cursor]
  refine Mirrors.after (n := 0) h (.stay rfl) (fun _ => Or.inl) (.inr fun _ hk => hk) rfl fun _ => ?_
  rw [hrecord]
  rfl

theorem run_attempt (r : Reader α) (c : Cursor) :
    (attempt r).run c = (.ok (r.run c).1, (r.run c).2) := rfl

theorem mirrors_attempt {f f' : Except ParseFault α → Reader β}
    (h : Mirrors ρ p loose n view r r' c) (hloose : ∀ k, loose → p k)
    (hok : ∀ a c₁, c₁.rest.length + n ≤ c.rest.length →
      Mirrors ρ p loose (m - n) view' (f (.ok a)) (f' (.ok (view a))) c₁)
    (herror : ∀ fault c₁, c₁.rest <:+ c.rest →
      Mirrors ρ p loose m view' (f (.error fault)) (f' (.error (fault.relocate ρ.toRelocation))) c₁) :
    Mirrors ρ p loose m view' (attempt r >>= f) (attempt r' >>= f') c := by
  have hrun : ∀ (s : Reader α) (g : Except ParseFault α → Reader β) (c : Cursor),
      (attempt s >>= g).run c = (g (s.run c).1).run (s.run c).2 := fun _ _ _ => rfl
  obtain ⟨hpassed, himage⟩ := h
  cases hx : (r.run c).1 with
  | ok a =>
    rw [hx] at hpassed himage
    have hway : Way p n c (r.run c).2 := hpassed
    apply (hok a _ hway.length).after hway (fun _ => Or.inl) (.inr fun _ hk => hk)
    · rw [hrun, hx]
    · intro hc
      rw [hrun, himage hc]
      rfl
  | error fault =>
    rw [hx] at hpassed himage
    have hway : Way (OrLoose p loose) 0 c (r.run c).2 := hpassed
    apply (herror fault _ hway.suffix).after hway (fun _ hk => hk)
      (.inr fun k hk => hk.elim (fun hk => hk) (hloose k))
    · rw [hrun, hx]
    · intro hc
      rw [hrun, himage hc]
      rfl

theorem mirrors_succeeds {f f' : Bool → Reader β} (h : Mirrors ρ NoSemicolon False m view r r' c)
    (hf : ∀ found, Mirrors ρ p loose n view' (f found) (f' found) c) :
    Mirrors ρ p loose n view' (succeeds r >>= f) (succeeds r' >>= f') c := by
  apply (hf (r.run c).1.isOk).congr rfl
  intro hc
  have hway := h.1.way.mono (Nat.le_refl _) fun _ hk => hk.resolve_right not_false
  have hrun := h.2 (hc.of_way hway)
  have hfound : (r'.run (ρ.cursor c)).1.isOk = (r.run c).1.isOk := by
    rw [hrun]
    cases (r.run c).1 <;> rfl
  rw [← hfound]
  rfl

end Reader

end ArrowCheck
