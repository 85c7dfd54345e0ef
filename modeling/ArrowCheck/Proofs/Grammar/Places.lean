import ArrowCheck.Proofs.Grammar.Shape
import ArrowCheck.Token.Lexer
import Mathlib.Data.List.Infix
import Mathlib.Data.String.Basic

namespace ArrowCheck

theorem byteLength_pos {cs : List Char} (h : cs ≠ []) : 0 < byteLength cs := by
  cases cs with
  | nil => exact absurd rfl h
  | cons c rest =>
    have := c.utf8Size_pos
    rw [byteLength]
    omega

theorem byteLength_snoc (cs : List Char) (c : Char) :
    byteLength (cs ++ [c]) = byteLength cs + c.utf8Size := by
  rw [byteLength_append]
  rfl

theorem byteLength_toList (s : String) : byteLength s.toList = s.utf8ByteSize := by
  have hlength : ∀ cs, byteLength cs = String.utf8Len cs := by
    intro cs
    induction cs with
    | nil => rfl
    | cons c rest ih => rw [byteLength, String.utf8Len, ih, Nat.add_comm]
  rw [hlength, String.utf8Len_toList]

/-- The range covers whole characters of a text, at least one. -/
def Span.CutFrom (cs : List Char) (s : Span) : Prop :=
  ∃ before text after, cs = before ++ text ++ after ∧ text ≠ [] ∧
    s.start = byteLength before ∧ s.stop = byteLength (before ++ text)

theorem Span.CutFrom.lt {cs : List Char} {s : Span} (h : s.CutFrom cs) : s.start < s.stop := by
  obtain ⟨before, text, after, -, hne, hstart, hstop⟩ := h
  have := byteLength_pos hne
  rw [hstart, hstop, byteLength_append]
  omega

theorem Span.CutFrom.stop_le {source : String} {s : Span} (h : s.CutFrom source.toList) :
    s.stop ≤ source.utf8ByteSize := by
  obtain ⟨before, text, after, hcs, -, -, hstop⟩ := h
  rw [hstop, ← byteLength_toList, hcs, byteLength_append (before ++ text)]
  exact Nat.le_add_right _ _

theorem Span.CutFrom.between {cs : List Char} {s t : Span} (hs : s.CutFrom cs) (ht : t.CutFrom cs)
    (hlt : s.start < t.stop) : Span.CutFrom cs ⟨s.start, t.stop⟩ := by
  obtain ⟨before, text, after, hcs, -, hstart, -⟩ := hs
  obtain ⟨before', text', after', hcs', -, -, hstop⟩ := ht
  have hp : before <+: cs := ⟨text ++ after, by rw [hcs, List.append_assoc]⟩
  have hq : before' ++ text' <+: cs := ⟨after', hcs'.symm⟩
  rw [hstart, hstop] at hlt
  cases List.prefix_or_prefix_of_prefix hp hq with
  | inl h =>
    obtain ⟨middle, hmiddle⟩ := h
    refine ⟨before, middle, after', by rw [hmiddle, hcs'], ?_, hstart, by rw [hmiddle, hstop]⟩
    rintro rfl
    rw [← hmiddle, List.append_nil] at hlt
    exact absurd hlt (Nat.lt_irrefl _)
  | inr h =>
    obtain ⟨middle, hmiddle⟩ := h
    rw [← hmiddle, byteLength_append (before' ++ text')] at hlt
    omega

structure Ordered (ts : List Token) : Prop where
  apart : ts.Pairwise fun t u => t.span.stop ≤ u.span.start
  lt : ∀ t ∈ ts, t.span.start < t.span.stop

namespace Lexer

theorem cut_of_mem_tokensFrom {t : Token} {before cs : List Char} {skip : Nat}
    (h : t ∈ tokensFrom skip (byteLength before) cs) :
    byteLength (before ++ cs.take skip) ≤ t.span.start ∧ t.span.CutFrom (before ++ cs) := by
  induction cs generalizing before skip with
  | nil => cases skip <;> exact absurd h List.not_mem_nil
  | cons c rest ih =>
    have hrest : ∀ {skip}, t ∈ tokensFrom skip (byteLength before + c.utf8Size) rest →
        byteLength (before ++ c :: rest.take skip) ≤ t.span.start ∧
          t.span.CutFrom (before ++ c :: rest) := by
      intro skip hmem
      rw [← byteLength_snoc] at hmem
      rw [List.append_cons before c, List.append_cons before c rest]
      exact ih hmem
    have hbehind : ∀ {skip}, t ∈ tokensFrom skip (byteLength before + c.utf8Size) rest →
        byteLength (before ++ List.take 0 (c :: rest)) ≤ t.span.start ∧
          t.span.CutFrom (before ++ c :: rest) := by
      intro skip hmem
      obtain ⟨hle, hcut⟩ := hrest hmem
      refine ⟨Nat.le_trans ?_ hle, hcut⟩
      rw [List.take_zero, List.append_nil, byteLength_append]
      omega
    cases skip with
    | succ skip => exact hrest h
    | zero =>
      rw [tokensFrom] at h
      by_cases hblank : isBlank c
      · rw [if_pos hblank] at h
        exact hbehind h
      · rw [if_neg hblank] at h
        cases List.mem_cons.mp h with
        | inr hmem => exact hbehind hmem
        | inl heq =>
          subst heq
          refine ⟨by simp, before, c :: rest.take (lexeme c rest).2, rest.drop (lexeme c rest).2, ?_,
            by simp, rfl, (byteLength_append _ _).symm⟩
          rw [List.append_assoc, List.cons_append, List.take_append_drop]

theorem tokensFrom_apart (skip : Nat) (before cs : List Char) :
    (tokensFrom skip (byteLength before) cs).Pairwise fun t u => t.span.stop ≤ u.span.start := by
  induction cs generalizing before skip with
  | nil => cases skip <;> exact .nil
  | cons c rest ih =>
    have hrest : ∀ skip, (tokensFrom skip (byteLength before + c.utf8Size) rest).Pairwise
        fun t u => t.span.stop ≤ u.span.start := by
      intro skip
      rw [← byteLength_snoc]
      exact ih skip _
    cases skip with
    | succ skip => exact hrest skip
    | zero =>
      rw [tokensFrom]
      by_cases hblank : isBlank c
      · rw [if_pos hblank]
        exact hrest 0
      · rw [if_neg hblank]
        refine List.pairwise_cons.mpr ⟨fun u hu => ?_, hrest _⟩
        rw [← byteLength_snoc] at hu
        have hle := (cut_of_mem_tokensFrom hu).1
        rwa [List.append_assoc, List.singleton_append, byteLength_append] at hle

end Lexer

theorem cut_of_mem_tokenize {source : String} {t : Token} (h : t ∈ tokenize source) :
    t.span.CutFrom source.toList := by
  have h' : t ∈ Lexer.tokensFrom 0 (byteLength []) source.toList := h
  exact (Lexer.cut_of_mem_tokensFrom h').2

theorem ordered_tokenize (source : String) : Ordered (tokenize source) :=
  ⟨Lexer.tokensFrom_apart 0 [] source.toList, fun _ h => (cut_of_mem_tokenize h).lt⟩

theorem Ordered.sublist {ts us : List Token} (h : Ordered ts) (hus : us.Sublist ts) : Ordered us :=
  ⟨h.apart.sublist hus, fun t ht => h.lt t (hus.subset ht)⟩

theorem Ordered.filter {ts : List Token} (h : Ordered ts) (p : Token → Bool) : Ordered (ts.filter p) :=
  h.sublist List.filter_sublist

/-- The range starts where a token starts and ends where a token ends. -/
structure Span.OnTokens (ts : List Token) (s : Span) : Prop where
  start : ∃ t ∈ ts, t.span.start = s.start
  stop : ∃ t ∈ ts, t.span.stop = s.stop
  lt : s.start < s.stop

theorem Ordered.onTokens {ts : List Token} (h : Ordered ts) {t : Token} (ht : t ∈ ts) :
    t.span.OnTokens ts :=
  ⟨⟨t, ht, rfl⟩, ⟨t, ht, rfl⟩, h.lt t ht⟩

/-- The range runs from the start of a token to the end of that or a later one. -/
def Span.RunsOver (ts : List Token) (s : Span) : Prop :=
  ∃ i j : Nat, i ≤ j ∧ ts[i]?.map (·.span.start) = some s.start ∧ ts[j]?.map (·.span.stop) = some s.stop

theorem Span.OnTokens.runsOver {ts : List Token} {s : Span} (h : s.OnTokens ts) (hts : Ordered ts) :
    s.RunsOver ts := by
  obtain ⟨⟨t, ht, hstart⟩, ⟨u, hu, hstop⟩, hlt⟩ := h
  obtain ⟨i, hi⟩ := List.mem_iff_getElem?.mp ht
  obtain ⟨j, hj⟩ := List.mem_iff_getElem?.mp hu
  refine ⟨i, j, ?_, by rw [hi, ← hstart]; rfl, by rw [hj, ← hstop]; rfl⟩
  by_contra hji
  -- the token at the end would stand before the one at the start
  obtain ⟨hi', rfl⟩ := List.getElem?_eq_some_iff.mp hi
  obtain ⟨hj', rfl⟩ := List.getElem?_eq_some_iff.mp hj
  have := List.pairwise_iff_getElem.mp hts.apart j i hj' hi' (by omega)
  omega

def Laid : Nat → Nat → List Shape → Prop
  | lo, hi, [] => lo ≤ hi
  | lo, hi, x :: xs => lo ≤ x.span.start ∧ Laid x.span.stop hi xs

/-- All nodes of a tree run over tokens, and hold their parts one behind the other. -/
def Shape.Fits (ts : List Token) (x : Shape) : Prop :=
  ∀ y ∈ x.nodes, y.span.OnTokens ts ∧ Laid y.span.start y.span.stop y.parts

structure Placed (ts : List Token) (lo hi : Nat) (xs : List Shape) : Prop where
  laid : Laid lo hi xs
  fits : ∀ x ∈ xs, x.Fits ts

variable {ts : List Token} {lo mid hi : Nat} {x y : Shape} {xs ys parts : List Shape} {span : Span}
  {id : Option NodeId}

theorem Shape.fits_node : (node id span parts).Fits ts ↔
    span.OnTokens ts ∧ Placed ts span.start span.stop parts := by
  constructor
  · intro h
    obtain ⟨hspan, hlaid⟩ := h _ (List.mem_cons_self ..)
    refine ⟨hspan, hlaid, fun x hx y hy => h y (List.mem_cons_of_mem _ ?_)⟩
    exact mem_nodesOf.mpr ⟨x, hx, hy⟩
  · rintro ⟨hspan, hparts⟩ y hy
    cases List.mem_cons.mp hy with
    | inl heq =>
      subst heq
      exact ⟨hspan, hparts.laid⟩
    | inr hmem =>
      obtain ⟨x, hx, hyx⟩ := mem_nodesOf.mp hmem
      exact hparts.fits x hx y hyx

theorem Shape.Fits.of_mem (h : x.Fits ts) (hy : y ∈ x.nodes) : y.Fits ts :=
  fun z hz => h z (nodes_subset x y hy hz)

theorem Shape.Fits.placed (h : x.Fits ts) : Placed ts x.span.start x.span.stop x.parts := by
  cases x with
  | node id span parts => exact (fits_node.mp h).2

theorem Shape.Fits.onTokens (h : x.Fits ts) : x.span.OnTokens ts := by
  cases x with
  | node id span parts => exact (fits_node.mp h).1

namespace Placed

theorem nil (h : lo ≤ hi) : Placed ts lo hi [] := ⟨h, fun _ hx => absurd hx List.not_mem_nil⟩

theorem cons_iff : Placed ts lo hi (x :: xs) ↔
    lo ≤ x.span.start ∧ x.Fits ts ∧ Placed ts x.span.stop hi xs := by
  constructor
  · rintro ⟨⟨hlo, hlaid⟩, hfits⟩
    obtain ⟨hx, hxs⟩ := List.forall_mem_cons.mp hfits
    exact ⟨hlo, hx, hlaid, hxs⟩
  · rintro ⟨hlo, hx, hxs⟩
    exact ⟨⟨hlo, hxs.laid⟩, List.forall_mem_cons.mpr ⟨hx, hxs.fits⟩⟩

theorem le (h : Placed ts lo hi xs) : lo ≤ hi := by
  induction xs generalizing lo with
  | nil => exact h.laid
  | cons x rest ih =>
    obtain ⟨hlo, hx, hrest⟩ := cons_iff.mp h
    have hlt := hx.onTokens.lt
    have hle := ih hrest
    omega

theorem append (h : Placed ts lo mid xs) (h' : Placed ts mid hi ys) : Placed ts lo hi (xs ++ ys) := by
  induction xs generalizing lo with
  | nil =>
    have hle : lo ≤ mid := h.laid
    cases ys with
    | nil => exact nil (hle.trans h'.le)
    | cons y rest =>
      obtain ⟨hmid, hy, hrest⟩ := cons_iff.mp h'
      exact cons_iff.mpr ⟨hle.trans hmid, hy, hrest⟩
  | cons x rest ih =>
    obtain ⟨hlo, hx, hrest⟩ := cons_iff.mp h
    exact cons_iff.mpr ⟨hlo, hx, ih hrest⟩

theorem extend (h : Placed ts lo mid xs) (hhi : mid ≤ hi) : Placed ts lo hi xs := by
  have := h.append (nil hhi)
  rwa [List.append_nil] at this

theorem sublist (h : Placed ts lo hi xs) (hsub : ys.Sublist xs) : Placed ts lo hi ys := by
  induction hsub generalizing lo with
  | slnil => exact h
  | @cons ys xs x _ ih =>
    obtain ⟨hlo, hx, hrest⟩ := cons_iff.mp h
    have hlt := hx.onTokens.lt
    exact (nil (by omega)).append (ih hrest)
  | cons_cons x _ ih =>
    obtain ⟨hlo, hx, hrest⟩ := cons_iff.mp h
    exact cons_iff.mpr ⟨hlo, hx, ih hrest⟩

theorem pairwise (h : Placed ts lo hi xs) :
    (∀ y ∈ xs, lo ≤ y.span.start ∧ y.span.stop ≤ hi) ∧
      xs.Pairwise fun y z => y.span.stop ≤ z.span.start := by
  induction xs generalizing lo with
  | nil => exact ⟨fun _ hx => absurd hx List.not_mem_nil, .nil⟩
  | cons x rest ih =>
    obtain ⟨hlo, hx, hrest⟩ := cons_iff.mp h
    have hlt := hx.onTokens.lt
    obtain ⟨hinside, horder⟩ := ih hrest
    refine ⟨List.forall_mem_cons.mpr ⟨⟨hlo, hrest.le⟩, fun y hy => ?_⟩,
      List.pairwise_cons.mpr ⟨fun y hy => (hinside y hy).1, horder⟩⟩
    have := hinside y hy
    omega

theorem enclose {stop : Nat} (h : Placed ts lo stop (x :: xs)) (hhi : stop ≤ hi)
    (htoken : ∃ t ∈ ts, t.span.stop = stop) (hparts : Placed ts x.span.start stop parts) :
    Placed ts lo hi [.node id ⟨x.span.start, stop⟩ parts] := by
  obtain ⟨hlo, hx, hrest⟩ := cons_iff.mp h
  have hlt := hx.onTokens.lt
  have hle := hrest.le
  refine cons_iff.mpr ⟨hlo, Shape.fits_node.mpr ⟨⟨hx.onTokens.start, htoken, ?_⟩, hparts⟩, nil hhi⟩
  show x.span.start < stop
  omega

theorem renumber {id' : Option NodeId} (h : Placed ts lo hi (xs ++ [.node id span parts])) :
    Placed ts lo hi (xs ++ [.node id' span parts]) := by
  induction xs generalizing lo with
  | nil =>
    obtain ⟨hlo, hx, hrest⟩ := cons_iff.mp h
    exact cons_iff.mpr ⟨hlo, Shape.fits_node.mpr (Shape.fits_node.mp hx), hrest⟩
  | cons x rest ih =>
    obtain ⟨hlo, hx, hrest⟩ := cons_iff.mp h
    exact cons_iff.mpr ⟨hlo, hx, ih hrest⟩

theorem from_first (h : Placed ts lo hi (x :: xs)) : Placed ts x.span.start hi (x :: xs) := by
  obtain ⟨-, hx, hrest⟩ := cons_iff.mp h
  exact cons_iff.mpr ⟨Nat.le_refl _, hx, hrest⟩

theorem to_last (h : Placed ts lo hi (xs ++ [y])) :
    Placed ts lo y.span.stop (xs ++ [y]) ∧ y.span.stop ≤ hi := by
  induction xs generalizing lo with
  | nil =>
    obtain ⟨hlo, hy, hrest⟩ := cons_iff.mp h
    exact ⟨cons_iff.mpr ⟨hlo, hy, nil (Nat.le_refl _)⟩, hrest.le⟩
  | cons x rest ih =>
    obtain ⟨hlo, hx, hrest⟩ := cons_iff.mp h
    obtain ⟨hlast, hle⟩ := ih hrest
    exact ⟨cons_iff.mpr ⟨hlo, hx, hlast⟩, hle⟩

theorem merge_eq (h : Placed ts lo hi (x :: xs ++ [y])) :
    x.span.merge y.span = ⟨x.span.start, y.span.stop⟩ := by
  obtain ⟨-, hx, hrest⟩ := cons_iff.mp h
  have hlt := hx.onTokens.lt
  obtain ⟨hinside, -⟩ := hrest.pairwise
  have hle := (hinside y (by simp)).1
  have hlt' := (hrest.fits y (by simp)).onTokens.lt
  rw [Span.merge, Nat.min_eq_left (by omega), Nat.max_eq_right (by omega)]

end Placed

end ArrowCheck
