import ArrowCheck.Project.Glob
import ArrowCheck.Proofs.Project.Paths

namespace ArrowCheck

variable {part text pattern cs : List Char} {parts names : List (List Char)} {c : Char}

namespace GlobPart

variable {p : GlobPart} {front : List Char} {next more : Bool}

def Covers : GlobPart → List Char → Prop
  | char c, text => text = [c]
  | one, text => ∃ c, c ≠ '/' ∧ text = [c]
  | run, text => '/' ∉ text
  | deep, text => '\n' ∉ text
  | folders, text => text = [] ∨ ∃ front, '\n' ∉ front ∧ text = front ++ ['/']

def Repeats : GlobPart → Char → Prop
  | char _, _ | one, _ => False
  | run, c => c ≠ '/'
  | deep, c | folders, c => c ≠ '\n'

theorem isOptional_iff : p.isOptional = true ↔ p.Covers [] := by
  cases p <;> simp [isOptional, Covers]

theorem covers_cons (h : front ≠ []) : p.Covers (c :: front) ↔ p.Repeats c ∧ p.Covers front := by
  cases p with
  | char | one => simp [Covers, Repeats, h]
  | run | deep => simp [Covers, Repeats, eq_comm]
  | folders =>
    simp only [Covers, Repeats, h, reduceCtorEq, false_or]
    constructor
    · rintro ⟨_ | ⟨d, ds⟩, hline, heq⟩
      · exact absurd (List.cons.inj heq).2 h
      · obtain ⟨rfl, rfl⟩ := List.cons.inj heq
        rw [List.mem_cons, not_or] at hline
        exact ⟨fun hc => hline.1 hc.symm, ds, hline.2, rfl⟩
    · rintro ⟨hc, ds, hline, rfl⟩
      exact ⟨c :: ds, by simp [hc.symm, hline], rfl⟩

theorem takes_iff : p.takes c next more = true ↔
    p.Covers [c] ∧ next = true ∨ p.Repeats c ∧ more = true := by
  cases p with
  | char x => simp [takes, Covers, Repeats]
  | one => simp [takes, Covers, Repeats]
  | run | deep => simp [takes, Covers, Repeats, and_or_left, eq_comm (b := c)]
  | folders =>
    have hone : (∃ front, '\n' ∉ front ∧ [c] = front ++ ['/']) ↔ c = '/' := by
      constructor
      · rintro ⟨front, -, h⟩
        cases front <;> simp_all
      · rintro rfl
        exact ⟨[], by simp, rfl⟩
    simp [takes, Covers, Repeats, hone]

theorem opens_iff {rest : List Char → Bool} : p.opens rest cs = true ↔
    ∃ front back, cs = front ++ back ∧ front ≠ [] ∧ p.Covers front ∧ rest back = true := by
  induction cs with
  | nil =>
    simp only [opens, Bool.false_eq_true, false_iff]
    rintro ⟨front, back, h, hne, -⟩
    exact hne (List.append_eq_nil_iff.mp h.symm).1
  | cons c cs ih =>
    rw [opens, takes_iff, ih]
    constructor
    · rintro (⟨hc, hrest⟩ | ⟨hc, front, back, rfl, hne, hfront, hrest⟩)
      · exact ⟨[c], cs, rfl, by simp, hc, hrest⟩
      · exact ⟨c :: front, back, rfl, by simp, (covers_cons hne).mpr ⟨hc, hfront⟩, hrest⟩
    · rintro ⟨_ | ⟨d, front⟩, back, heq, hne, hfront, hrest⟩
      · exact absurd rfl hne
      · obtain ⟨rfl, rfl⟩ := List.cons.inj heq
        by_cases hnil : front = []
        · subst front
          exact .inl ⟨hfront, hrest⟩
        · obtain ⟨hc, hfront⟩ := (covers_cons hnil).mp hfront
          exact .inr ⟨hc, front, back, rfl, hnil, hfront, hrest⟩

end GlobPart

section Parts

variable {p : GlobPart} {ps qs : List GlobPart}

theorem matchParts_nil : matchParts [] text = true ↔ text = [] := by
  rw [matchParts, List.isEmpty_iff]

theorem matchParts_cons : matchParts (p :: ps) text = true ↔
    ∃ front back, text = front ++ back ∧ p.Covers front ∧ matchParts ps back = true := by
  rw [matchParts, Bool.or_eq_true, Bool.and_eq_true, GlobPart.isOptional_iff, GlobPart.opens_iff]
  constructor
  · rintro (⟨hp, hps⟩ | ⟨front, back, h, -, hfront, hback⟩)
    · exact ⟨[], text, rfl, hp, hps⟩
    · exact ⟨front, back, h, hfront, hback⟩
  · rintro ⟨front, back, h, hfront, hback⟩
    by_cases hnil : front = []
    · subst hnil h
      exact .inl ⟨hfront, hback⟩
    · exact .inr ⟨front, back, h, hnil, hfront, hback⟩

theorem matchParts_append : matchParts (ps ++ qs) text = true ↔
    ∃ front back, text = front ++ back ∧ matchParts ps front = true ∧ matchParts qs back = true := by
  induction ps generalizing text with
  | nil =>
    constructor
    · exact fun h => ⟨[], text, rfl, rfl, h⟩
    · rintro ⟨front, back, rfl, hfront, hback⟩
      rwa [matchParts_nil.mp hfront]
  | cons p ps ih =>
    simp only [List.cons_append, matchParts_cons, ih]
    constructor
    · rintro ⟨front, _, rfl, hfront, middle, back, rfl, hmiddle, hback⟩
      exact ⟨front ++ middle, back, by simp, ⟨front, middle, rfl, hfront, hmiddle⟩, hback⟩
    · rintro ⟨_, back, rfl, ⟨front, middle, rfl, hfront, hmiddle⟩, hback⟩
      exact ⟨front, middle ++ back, by simp, hfront, middle, back, rfl, hmiddle, hback⟩

theorem matchParts_char : matchParts (.char c :: ps) text = true ↔
    ∃ back, text = c :: back ∧ matchParts ps back = true := by
  rw [matchParts_cons]
  constructor
  · rintro ⟨_, back, rfl, rfl, hback⟩
    exact ⟨back, rfl, hback⟩
  · rintro ⟨back, rfl, hback⟩
    exact ⟨[c], back, rfl, rfl, hback⟩

theorem matchParts_deep : matchParts [.deep] text = true ↔ '\n' ∉ text := by
  rw [matchParts_cons]
  constructor
  · rintro ⟨front, back, rfl, hfront, hback⟩
    rwa [matchParts_nil.mp hback, List.append_nil]
  · exact fun h => ⟨text, [], by simp, h, rfl⟩

theorem matchParts_folders : matchParts (.folders :: ps) text = true ↔ matchParts ps text = true ∨
    ∃ front back, text = front ++ '/' :: back ∧ '\n' ∉ front ∧ matchParts ps back = true := by
  rw [matchParts_cons]
  constructor
  · rintro ⟨_, back, rfl, rfl | ⟨front, hline, rfl⟩, hback⟩
    · exact .inl hback
    · exact .inr ⟨front, back, by simp, hline, hback⟩
  · rintro (h | ⟨front, back, rfl, hline, hback⟩)
    · exact ⟨[], text, rfl, .inl rfl, h⟩
    · exact ⟨front ++ ['/'], back, by simp, .inr ⟨front, hline, rfl⟩, hback⟩

end Parts

section Segments

def GlobPart.ofChar (c : Char) : GlobPart := if c = '*' then .run else if c = '?' then .one else .char c

def doubleStar : List Char := ['*', '*']

theorem globParts_cons (h : c = '*' → cs.head? ≠ some '*') :
    globParts (c :: cs) = .ofChar c :: globParts cs := by
  rw [globParts]
  · rfl
  · rintro _ rfl rfl
    exact h rfl rfl
  · rintro _ rfl rfl
    exact h rfl rfl

theorem globParts_append (hfree : ¬ doubleStar <:+: part) (hcs : cs.head? ≠ some '*') :
    globParts (part ++ cs) = part.map .ofChar ++ globParts cs := by
  induction part with
  | nil => rfl
  | cons c part ih =>
    rw [List.infix_cons_iff, not_or] at hfree
    have hhead : c = '*' → (part ++ cs).head? ≠ some '*' := by
      rintro rfl
      cases part with
      | nil => exact hcs
      | cons d part =>
        intro hd
        cases hd
        exact hfree.1 ⟨part, rfl⟩
    rw [List.cons_append, globParts_cons hhead, ih hfree.2]
    rfl

theorem globParts_segment (hfree : ¬ doubleStar <:+: part) : globParts part = part.map .ofChar := by
  have h : globParts (part ++ []) = part.map .ofChar ++ [] := globParts_append hfree (by simp)
  rwa [List.append_nil, List.append_nil] at h

theorem globParts_append_separator (hfree : ¬ doubleStar <:+: part) (cs : List Char) :
    globParts (part ++ '/' :: cs) = part.map .ofChar ++ .char '/' :: globParts cs := by
  rw [globParts_append hfree (by simp), globParts_cons (by simp)]
  rfl

/-- A name has the form of a segment: `*` stands for any characters, `?` for one, and every other
character for itself. -/
inductive NameFits : List Char → List Char → Prop
  | nil : NameFits [] []
  | run (front : List Char) {part name : List Char} (h : NameFits part name) :
    NameFits ('*' :: part) (front ++ name)
  | one (c : Char) {part name : List Char} (h : NameFits part name) :
    NameFits ('?' :: part) (c :: name)
  | char {c : Char} {part name : List Char} (hrun : c ≠ '*') (hone : c ≠ '?') (h : NameFits part name) :
    NameFits (c :: part) (c :: name)

theorem matchParts_segment (hpart : '/' ∉ part) : matchParts (part.map .ofChar) text = true ↔
    '/' ∉ text ∧ NameFits part text := by
  induction part generalizing text with
  | nil =>
    rw [List.map_nil, matchParts_nil]
    constructor
    · rintro rfl
      exact ⟨by simp, .nil⟩
    · rintro ⟨-, h⟩
      cases h
      rfl
  | cons c part ih =>
    rw [List.mem_cons, not_or] at hpart
    rw [List.map_cons, matchParts_cons]
    simp only [ih hpart.2]
    constructor
    · rintro ⟨front, back, rfl, hfront, hback, h⟩
      unfold GlobPart.ofChar at hfront
      split at hfront
      · subst c
        exact ⟨by simpa using ⟨hfront, hback⟩, .run front h⟩
      · split at hfront
        · subst c
          obtain ⟨d, hd, rfl⟩ := hfront
          exact ⟨by simpa using ⟨fun h => hd h.symm, hback⟩, .one d h⟩
        · rename_i hrun hone
          cases hfront
          exact ⟨by simpa using ⟨hpart.1, hback⟩, .char hrun hone h⟩
    · rintro ⟨htext, h⟩
      cases h with
      | run front h =>
        rw [List.mem_append, not_or] at htext
        exact ⟨front, _, rfl, htext.1, htext.2, h⟩
      | one d h =>
        rw [List.mem_cons, not_or] at htext
        exact ⟨[d], _, rfl, ⟨d, fun h => htext.1 h.symm, rfl⟩, htext.2, h⟩
      | char hrun hone h =>
        rw [List.mem_cons, not_or] at htext
        refine ⟨[c], _, rfl, ?_, htext.2, h⟩
        rw [GlobPart.ofChar, if_neg hrun, if_neg hone]
        rfl

theorem matchParts_segment_separator {ps : List GlobPart} (hpart : '/' ∉ part) :
    matchParts (part.map .ofChar ++ .char '/' :: ps) text = true ↔
      ∃ front back, text = front ++ '/' :: back ∧ '/' ∉ front ∧ NameFits part front ∧
        matchParts ps back = true := by
  rw [matchParts_append]
  simp only [matchParts_segment hpart, matchParts_char]
  constructor
  · rintro ⟨front, _, rfl, ⟨hfront, hfits⟩, back, rfl, hback⟩
    exact ⟨front, back, rfl, hfront, hfits, hback⟩
  · rintro ⟨front, back, rfl, hfront, hfits, hback⟩
    exact ⟨front, _, rfl, ⟨hfront, hfits⟩, back, rfl, hback⟩

/-- The names of a path have the form of the segments: `**` stands for any number of names, but for one
at least if nothing follows it, and every other segment for one name. -/
inductive PathFits : List (List Char) → List (List Char) → Prop
  | nil : PathFits [] []
  | name {part name : List Char} {parts names : List (List Char)} (hpart : part ≠ doubleStar)
    (h : NameFits part name) (rest : PathFits parts names) : PathFits (part :: parts) (name :: names)
  | folders (passed : List (List Char)) {parts names : List (List Char)} (hparts : parts ≠ [])
    (rest : PathFits parts names) : PathFits (doubleStar :: parts) (passed ++ names)
  | deep {names : List (List Char)} (h : names ≠ []) : PathFits [doubleStar] names

theorem PathFits.ne_nil (h : PathFits parts names) (hparts : parts ≠ []) : names ≠ [] := by
  induction h with
  | nil => exact absurd rfl hparts
  | name => exact List.cons_ne_nil _ _
  | folders passed hne _ ih => exact List.append_ne_nil_of_right_ne_nil _ (ih hne)
  | deep h => exact h

theorem pathFits_nil : PathFits [] names ↔ names = [] := by
  constructor
  · intro h
    cases h
    rfl
  · rintro rfl
    exact .nil

theorem pathFits_cons (hpart : part ≠ doubleStar) : PathFits (part :: parts) names ↔
    ∃ name rest, names = name :: rest ∧ NameFits part name ∧ PathFits parts rest := by
  constructor
  · intro h
    cases h with
    | name _ h rest => exact ⟨_, _, rfl, h, rest⟩
    | folders => exact absurd rfl hpart
    | deep => exact absurd rfl hpart
  · rintro ⟨name, rest, rfl, h, hrest⟩
    exact .name hpart h hrest

theorem pathFits_doubleStar (hparts : parts ≠ []) : PathFits (doubleStar :: parts) names ↔
    ∃ passed rest, names = passed ++ rest ∧ PathFits parts rest := by
  constructor
  · intro h
    cases h with
    | name hpart => exact absurd rfl hpart
    | folders passed _ rest => exact ⟨passed, _, rfl, rest⟩
    | deep => exact absurd rfl hparts
  · rintro ⟨passed, rest, rfl, hrest⟩
    exact .folders passed hparts hrest

theorem pathFits_last : PathFits [doubleStar] names ↔ names ≠ [] :=
  ⟨fun h => h.ne_nil (List.cons_ne_nil _ _), .deep⟩

def Segmented (part : List Char) : Prop := part = doubleStar ∨ ¬ doubleStar <:+: part

instance : DecidablePred Segmented := fun part =>
  inferInstanceAs (Decidable (part = doubleStar ∨ ¬ doubleStar <:+: part))

theorem not_segment_of_free (h : ¬ doubleStar <:+: part) : part ≠ doubleStar :=
  fun heq => h (heq ▸ List.infix_rfl)

theorem matchParts_iff_pathFits (hpattern : ∀ part ∈ splitPath '/' pattern, Segmented part)
    (hline : '\n' ∉ text) :
    matchParts (globParts pattern) text = true ↔ PathFits (splitPath '/' pattern) (splitPath '/' text) := by
  induction pattern using separated_induction '/' generalizing text with
  | last part hpart =>
    rw [splitPath_eq_singleton hpart] at hpattern ⊢
    rcases hpattern part (List.mem_singleton_self _) with rfl | hfree
    · rw [pathFits_last]
      exact iff_of_true (matchParts_deep.mpr hline) (splitPath_ne_nil text)
    · rw [globParts_segment hfree, matchParts_segment hpart, pathFits_cons (not_segment_of_free hfree)]
      constructor
      · rintro ⟨htext, h⟩
        exact ⟨text, [], splitPath_eq_singleton htext, h, .nil⟩
      · rintro ⟨name, rest, hsplit, h, hrest⟩
        rw [pathFits_nil.mp hrest] at hsplit
        obtain rfl := eq_of_splitPath_eq_singleton hsplit
        exact ⟨not_mem_of_mem_splitPath (hsplit ▸ List.mem_singleton_self _), h⟩
  | first part pattern hpart ih =>
    rw [splitPath_cons_separator hpart] at hpattern ⊢
    obtain ⟨hfirst, hrest⟩ := List.forall_mem_cons.mp hpattern
    have hne : splitPath '/' pattern ≠ [] := splitPath_ne_nil pattern
    have hlines : ∀ {front back}, text = front ++ '/' :: back → '\n' ∉ front ∧ '\n' ∉ back := by
      rintro front back rfl
      simpa using hline
    rcases hfirst with rfl | hfree
    · rw [show globParts (doubleStar ++ '/' :: pattern) = .folders :: globParts pattern from rfl,
        matchParts_folders, pathFits_doubleStar hne, ih hrest hline]
      constructor
      · rintro (h | ⟨front, back, htext, -, h⟩)
        · exact ⟨[], _, rfl, h⟩
        · rw [ih hrest (hlines htext).2] at h
          exact ⟨splitPath '/' front, splitPath '/' back, by rw [htext, splitPath_append_separator], h⟩
      · rintro ⟨passed, rest, hsplit, h⟩
        by_cases hnil : passed = []
        · subst passed
          exact .inl (hsplit ▸ h)
        · obtain ⟨front, back, htext, -, rfl⟩ := eq_append_of_splitPath_eq hsplit hnil (h.ne_nil hne)
          exact .inr ⟨front, back, htext, (hlines htext).1, (ih hrest (hlines htext).2).mpr h⟩
    · rw [globParts_append_separator hfree, matchParts_segment_separator hpart,
        pathFits_cons (not_segment_of_free hfree)]
      constructor
      · rintro ⟨front, back, htext, hfront, hfits, h⟩
        rw [htext, splitPath_cons_separator hfront]
        exact ⟨front, _, rfl, hfits, (ih hrest (hlines htext).2).mp h⟩
      · rintro ⟨name, rest, hsplit, hfits, h⟩
        rw [← List.singleton_append] at hsplit
        obtain ⟨front, back, htext, hfront, rfl⟩ :=
          eq_append_of_splitPath_eq hsplit (by simp) (h.ne_nil hne)
        obtain rfl := eq_of_splitPath_eq_singleton hfront
        have hsep : '/' ∉ front := not_mem_of_mem_splitPath (hfront ▸ List.mem_singleton_self _)
        exact ⟨front, back, htext, hsep, hfits, (ih hrest (hlines htext).2).mpr h⟩

end Segments

section Literal

def isPlain (part : List Char) : Bool := !part.any isWild

theorem isPlain_cons : isPlain (c :: part) = true ↔ (c ≠ '*' ∧ c ≠ '?') ∧ isPlain part = true := by
  simp [isPlain, isWild]

theorem free_of_isPlain (h : isPlain part = true) : ¬ doubleStar <:+: part := by
  rintro ⟨front, back, rfl⟩
  simp [isPlain, doubleStar, isWild] at h

theorem NameFits.eq_of_isPlain {name : List Char} (h : NameFits part name) (hplain : isPlain part = true) :
    name = part := by
  induction h with
  | nil => rfl
  | run => exact absurd rfl (isPlain_cons.mp hplain).1.1
  | one => exact absurd rfl (isPlain_cons.mp hplain).1.2
  | char _ _ _ ih => rw [ih (isPlain_cons.mp hplain).2]

/-- A text that fits a glob begins with the plain segments of the glob, and has more parts if the glob
has a wildcard. -/
theorem splitPath_eq_of_matchParts (h : matchParts (globParts pattern) text = true) :
    ∃ rest, splitPath '/' text = (splitPath '/' pattern).takeWhile isPlain ++ rest ∧
      (isPlain pattern = false → rest ≠ []) := by
  induction pattern using separated_induction '/' generalizing text with
  | last part hpart =>
    rw [splitPath_eq_singleton hpart]
    by_cases hplain : isPlain part = true
    · rw [globParts_segment (free_of_isPlain hplain), matchParts_segment hpart] at h
      obtain rfl := h.2.eq_of_isPlain hplain
      exact ⟨[], by simp [hplain, splitPath_eq_singleton hpart], by simp [hplain]⟩
    · exact ⟨splitPath '/' text, by simp [hplain], fun _ => splitPath_ne_nil text⟩
  | first part pattern hpart ih =>
    rw [splitPath_cons_separator hpart]
    by_cases hplain : isPlain part = true
    · rw [globParts_append_separator (free_of_isPlain hplain), matchParts_segment_separator hpart] at h
      obtain ⟨front, back, rfl, hfront, hfits, h⟩ := h
      obtain rfl := hfits.eq_of_isPlain hplain
      obtain ⟨rest, hback, hrest⟩ := ih h
      refine ⟨rest, ?_, fun hwild => hrest ?_⟩
      · rw [splitPath_cons_separator hpart, hback, List.takeWhile_cons_of_pos hplain]
        rfl
      · have hpart : front.any isWild = false := by simpa [isPlain] using hplain
        simpa [isPlain, hpart, show isWild '/' = false from rfl] using hwild
    · exact ⟨splitPath '/' text, by simp [hplain], fun _ => splitPath_ne_nil text⟩

end Literal

namespace Glob

variable {g : Glob} {names : List FileName} {name : FileName}

def body (g : Glob) : List Char :=
  if ['.', '/'].isPrefixOf g.source.toList then g.source.toList.drop 2 else g.source.toList

theorem body_cases (g : Glob) : g.source.toList = '.' :: '/' :: g.body ∨
    (∀ cs, g.source.toList ≠ '.' :: '/' :: cs) ∧ g.source.toList = g.body := by
  by_cases h : ['.', '/'].isPrefixOf g.source.toList = true
  · obtain ⟨cs, hcs⟩ := List.isPrefixOf_iff_prefix.mp h
    left
    simp [body, ← hcs]
  · right
    rw [body, if_neg h]
    exact ⟨fun cs hcs => h (List.isPrefixOf_iff_prefix.mpr ⟨cs, hcs.symm⟩), rfl⟩

theorem parts_eq (g : Glob) : g.parts = globParts g.body := by
  unfold parts
  rcases g.body_cases with h | ⟨hne, h⟩
  · rw [h]
    rfl
  · split
    · rename_i cs hcs
      exact absurd hcs (hne cs)
    · rw [h]

theorem isGlob_eq (g : Glob) : g.isGlob = !isPlain g.body := by
  unfold isGlob
  rcases g.body_cases with h | ⟨-, h⟩
  · simp [h, isPlain, isWild]
  · simp [h, isPlain]

/-- The names between separators, whether the source starts with a step to the current directory or
not. -/
theorem literalNames_eq (g : Glob) : g.literalNames =
    ((splitPath '/' g.body).takeWhile isPlain).filter fun name => name ≠ [] && name ≠ ['.'] := by
  unfold literalNames
  rcases g.body_cases with h | ⟨-, h⟩
  · have hsplit : splitPath '/' ('.' :: '/' :: g.body) = ['.'] :: splitPath '/' g.body :=
      splitPath_append_separator ['.'] g.body
    rw [h, hsplit]
    rfl
  · rw [h]
    rfl

theorem matchesNames_iff : g.matchesNames names = true ↔
    matchParts (globParts g.body) (['/'].intercalate (names.map Utf8.decode)) = true := by
  rw [matchesNames, headD_matchRow, parts_eq]

theorem no_separator_decode (h : separator ∉ name) : '/' ∉ Utf8.decode name :=
  fun hmem => h (Utf8.mem_of_mem_decode hmem rfl (by decide))

theorem splitPath_names (hnames : ∀ name ∈ names, separator ∉ name) (hne : names ≠ []) :
    splitPath '/' (['/'].intercalate (names.map Utf8.decode)) = names.map Utf8.decode := by
  refine splitPath_intercalate (fun part hpart => ?_) (by simpa using hne)
  obtain ⟨name, hname, rfl⟩ := List.mem_map.mp hpart
  exact no_separator_decode (hnames name hname)

end Glob

section Reading

variable {name : FileName}

theorem encode_decode_of_eq (h : Utf8.decode name = cs) (hcs : cs.all (·.toNat < 0x80) = true) :
    name = Utf8.encode cs := by
  subst h
  exact (Utf8.encode_decode_of_narrow (by simpa using hcs)).symm

theorem IsName.encode_decode (h : IsName name) : IsName (Utf8.encode (Utf8.decode name)) := by
  obtain ⟨hempty, hdot, hup⟩ := h.ne
  refine ⟨fun hmem => ?_, FilePath.componentOf?_eq_some.mpr ⟨?_, ?_, .inr ⟨?_, rfl⟩⟩⟩
  · exact Glob.no_separator_decode h.no_separator (Utf8.mem_of_mem_encode hmem rfl (by decide))
  · exact fun heq => hempty (encode_decode_of_eq (Utf8.eq_of_encode_eq [] heq) rfl)
  · exact fun heq => hdot (encode_decode_of_eq (Utf8.eq_of_encode_eq ['.'] heq) rfl)
  · exact fun heq => hup (encode_decode_of_eq (Utf8.eq_of_encode_eq ['.', '.'] heq) rfl)

end Reading

namespace Glob

variable {g : Glob} {names : List FileName}

/-- What a glob describes lies below its literal names, strictly if the glob has a wildcard. -/
theorem names_eq_of_matches (hnames : ∀ name ∈ names, IsName name) (h : g.matchesNames names = true) :
    ∃ front rest, names = front ++ rest ∧ g.literalNames = front.map Utf8.decode ∧
      (names ≠ [] → g.isGlob = true → rest ≠ []) := by
  obtain ⟨rest, hsplit, hrest⟩ := splitPath_eq_of_matchParts (matchesNames_iff.mp h)
  by_cases hne : names = []
  · subst hne
    have hsplit : [[]] = (splitPath '/' g.body).takeWhile isPlain ++ rest := hsplit
    refine ⟨[], [], rfl, ?_, fun hne => absurd rfl hne⟩
    rw [literalNames_eq, List.map_nil, List.filter_eq_nil_iff]
    intro part hpart
    have hmem := List.mem_append_left rest hpart
    rw [← hsplit] at hmem
    simp [List.mem_singleton.mp hmem]
  · rw [splitPath_names (fun name hname => (hnames name hname).no_separator) hne,
      List.map_eq_append_iff] at hsplit
    obtain ⟨front, back, rfl, hfront, rfl⟩ := hsplit
    refine ⟨front, back, rfl, ?_, fun _ hglob => ?_⟩
    · rw [literalNames_eq, ← hfront, List.filter_eq_self]
      intro part hpart
      obtain ⟨name, hname, rfl⟩ := List.mem_map.mp hpart
      obtain ⟨hempty, hdot, -⟩ := (hnames name (List.mem_append_left _ hname)).ne
      have hempty' : Utf8.decode name ≠ [] := fun heq => hempty (encode_decode_of_eq heq rfl)
      have hdot' : Utf8.decode name ≠ ['.'] := fun heq => hdot (encode_decode_of_eq heq rfl)
      simp [hempty', hdot']
    · rw [isGlob_eq, Bool.not_eq_true'] at hglob
      simpa using hrest hglob

/-- The literal prefix of a glob is read as the first names of what the glob describes. -/
theorem names_literalPrefix (hnames : ∀ name ∈ names, IsName name) (h : g.matchesNames names = true) :
    ∃ front rest, names = front ++ rest ∧
      g.literalPrefix.names = front.map (Utf8.encode ∘ Utf8.decode) ∧
      g.literalPrefix.components = g.literalPrefix.names.map .normal := by
  obtain ⟨front, rest, rfl, hliteral, -⟩ := names_eq_of_matches hnames h
  have hread : g.literalNames.map Utf8.encode = front.map (Utf8.encode ∘ Utf8.decode) := by
    rw [hliteral, List.map_map]
  have hname : ∀ name ∈ g.literalNames.map Utf8.encode, IsName name := by
    rw [hread, List.forall_mem_map]
    exact fun name hname => (hnames name (List.mem_append_left _ hname)).encode_decode
  have hnames' : g.literalPrefix.names = g.literalNames.map Utf8.encode := FilePath.names_ofNames hname
  refine ⟨front, rest, rfl, hnames'.trans hread, ?_⟩
  rw [hnames']
  exact FilePath.components_ofNames hname

end Glob

/-- Where each segment of a glob is `**` or free of it, the glob describes a path exactly if the names of
the path, read as text, have the form of the segments, one after the other. -/
theorem matches_segmentwise (g : Glob) (p : FilePath)
    (hsegments : ∀ part ∈ splitPath '/' g.body, Segmented part) (hnames : p.names ≠ [])
    (hline : 0x0A ∉ p.bytes) :
    g.matchesNames p.names = true ↔ PathFits (splitPath '/' g.body) (p.names.map Utf8.decode) := by
  have hname := fun name (h : name ∈ p.names) => FilePath.isName_of_mem_names h
  have hsplit := Glob.splitPath_names (fun name h => (hname name h).2.no_separator) hnames
  have hline' : '\n' ∉ ['/'].intercalate (p.names.map Utf8.decode) := by
    intro hmem
    obtain ⟨part, hpart, hc⟩ := mem_splitPath_of_mem hmem (by decide : '\n' ≠ '/')
    rw [hsplit] at hpart
    obtain ⟨name, h, rfl⟩ := List.mem_map.mp hpart
    have hbyte : 0x0A ∈ name := Utf8.mem_of_mem_decode hc rfl (by decide)
    exact hline (mem_of_mem_splitPath (hname name h).1 hbyte)
  rw [Glob.matchesNames_iff, matchParts_iff_pathFits hsegments hline', hsplit]

/-- A path around a step up, to a name with a byte that is no text. -/
def oddScript : FilePath := ⟨Utf8.bytesOf "./src/a/../b/t" ++ 0xFF :: Utf8.bytesOf "st+1.js"⟩

/-- Two directories are passed, the question mark stands for the odd byte, and the plus sign for
itself. -/
theorem deep_file_matched :
    (∀ part ∈ splitPath '/' (Glob.mk "./src/**/t?st+*.js").body, Segmented part) ∧
    oddScript.names.map Utf8.decode = ["src".toList, "a".toList, "b".toList, "t�st+1.js".toList] ∧
    0x0A ∉ oddScript.bytes ∧
    PathFits (splitPath '/' (Glob.mk "./src/**/t?st+*.js").body) (oddScript.names.map Utf8.decode) := by
  have hsegments : ∀ part ∈ splitPath '/' (Glob.mk "./src/**/t?st+*.js").body, Segmented part := by
    decide +kernel
  have hline : 0x0A ∉ oddScript.bytes := by decide +kernel
  refine ⟨hsegments, by decide +kernel, hline, ?_⟩
  exact (matches_segmentwise _ _ hsegments (by decide +kernel) hline).mp (by decide +kernel)

/-- The names in front of the first wildcard of a glob are, as they are read, the first names of every
path that the glob describes. They are these names themselves just where these are texts. -/
theorem literalPrefix_leads (g : Glob) (p : FilePath) (h : g.matchesNames p.names = true) :
    g.literalPrefix.components = g.literalPrefix.names.map .normal ∧
    g.literalPrefix.names.map Utf8.decode <+: p.names.map Utf8.decode ∧
    (g.literalPrefix.components <+: p.names.map .normal ↔
      ∀ name ∈ p.names.take g.literalPrefix.names.length, Utf8.IsText name) := by
  obtain ⟨front, rest, hnames, hnames', hcomponents⟩ :=
    Glob.names_literalPrefix (fun _ h => (FilePath.isName_of_mem_names h).2) h
  refine ⟨hcomponents, ?_, ?_⟩
  · have hread : g.literalPrefix.names.map Utf8.decode = front.map Utf8.decode := by
      simp [hnames', Function.comp_def, Utf8.decode_encode]
    rw [hread, hnames, List.map_append]
    exact List.prefix_append _ _
  · have hnormal : Function.Injective Component.normal := fun _ _ h => Component.normal.inj h
    have hfront : p.names.take g.literalPrefix.names.length = front := by
      rw [hnames, hnames', List.length_map, List.take_left]
    have hsame : front.map (Utf8.encode ∘ Utf8.decode) <+: front ++ rest ↔
        front.map (Utf8.encode ∘ Utf8.decode) = front.map id := by
      rw [List.prefix_iff_eq_take, List.length_map, List.take_left, List.map_id]
    rw [hcomponents, List.prefix_map_iff_of_injective hnormal, hfront, hnames', hnames, hsame]
    simp only [List.map_inj_left, Utf8.isText_iff, Function.comp_apply, id_eq]

/-- The glob and the path are spelled differently in front, and the prefix leads the path. -/
theorem nested_prefix_leads :
    (Glob.mk "./src/lib/**/*.js").matchesNames (FilePath.ofText "src//lib/./x/a.js").names = true ∧
    (Glob.mk "./src/lib/**/*.js").literalPrefix = .ofText "src/lib" ∧
    (Glob.mk "./src/lib/**/*.js").literalPrefix.components <+:
      (FilePath.ofText "src//lib/./x/a.js").names.map .normal := by
  have hmatch :
      (Glob.mk "./src/lib/**/*.js").matchesNames (FilePath.ofText "src//lib/./x/a.js").names = true := by
    decide +kernel
  have htexts : ∀ name ∈ (FilePath.ofText "src//lib/./x/a.js").names.take
      (Glob.mk "./src/lib/**/*.js").literalPrefix.names.length, Utf8.IsText name := by
    simp only [Utf8.isText_iff]
    decide +kernel
  exact ⟨hmatch, by decide +kernel, (literalPrefix_leads _ _ hmatch).2.2.mpr htexts⟩

/-- A byte that is no text is read as the replacement, which is three other bytes in the prefix. -/
theorem replacement_prefix_misleads :
    (Glob.mk "�/*.js").matchesNames (FilePath.mk (0xFF :: Utf8.bytesOf "/a.js")).names = true ∧
    ¬ (Glob.mk "�/*.js").literalPrefix.components <+:
      (FilePath.mk (0xFF :: Utf8.bytesOf "/a.js")).names.map .normal := by
  decide +kernel

end ArrowCheck
