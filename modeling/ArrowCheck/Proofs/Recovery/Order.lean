import ArrowCheck.Proofs.Recovery.Reports

namespace ArrowCheck

variable {stop : Nat} {ts us vs : List Token} {fs : List ParseFault} {f g : ParseFault} {source : String}

def ParseFault.AtEnd (stop : Nat) (f : ParseFault) : Prop := f.span = ⟨stop, stop⟩

/-- The first fault comes before the second one in the text, or both are reported at its end. -/
def ParseFault.Precedes (stop : Nat) (f g : ParseFault) : Prop :=
  f.span.start < g.span.start ∨ f.AtEnd stop ∧ g.AtEnd stop

theorem ParseFault.StandsAt.token_or_end (h : f.StandsAt stop us) (hus : us <:+ ts) :
    (∃ t ∈ ts, f.span = t.span) ∨ f.AtEnd stop := by
  cases us with
  | nil => exact .inr h.2
  | cons t us => exact .inl ⟨t, hus.subset (List.mem_cons_self ..), h.2⟩

theorem ParseFault.StandsAt.precedes (hts : Ordered ts) (hstop : ∀ t ∈ ts, t.span.stop ≤ stop)
    (hf : f.StandsAt stop ts) (hg : g.StandsAt stop us) (hus : us <:+ ts.tail) : f.Precedes stop g := by
  cases ts with
  | nil =>
    cases List.suffix_nil.mp hus
    exact .inr ⟨hf.2, hg.2⟩
  | cons t ts =>
    have hft : f.span = t.span := hf.2
    have hlt := hts.lt t (List.mem_cons_self ..)
    left
    rw [hft]
    obtain ⟨u, hu, hgu⟩ | hend := hg.token_or_end hus
    · have hapart := (List.pairwise_cons.mp hts.apart).1 u hu
      rw [hgu]
      omega
    · have hle := hstop t (List.mem_cons_self ..)
      rw [hend]
      show t.span.start < stop
      omega

namespace Reported

theorem standsAt (h : Reported stop ts vs fs) (hf : f ∈ fs) : ∃ us, us <:+ ts ∧ f.StandsAt stop us := by
  induction h with
  | nil => exact absurd hf List.not_mem_nil
  | @cons ts us vs g fs hus hg _ ih =>
    obtain rfl | hmem := List.mem_cons.mp hf
    · exact ⟨us, hus, hg⟩
    · obtain ⟨ws, hws, hstands⟩ := ih hmem
      exact ⟨ws, hws.trans ((List.tail_suffix _).trans hus), hstands⟩

theorem pairwise (h : Reported stop ts vs fs) (hts : Ordered ts)
    (hstop : ∀ t ∈ ts, t.span.stop ≤ stop) : fs.Pairwise (ParseFault.Precedes stop) := by
  induction h with
  | nil => exact .nil
  | @cons ts us vs f fs hus hf hfs ih =>
    have hordered : Ordered us := hts.sublist hus.sublist
    have hstop' : ∀ t ∈ us, t.span.stop ≤ stop := fun t ht => hstop t (hus.subset ht)
    refine .cons (fun g hg => ?_) (ih (hordered.sublist (List.tail_sublist us)) fun t ht =>
      hstop' t (List.mem_of_mem_tail ht))
    obtain ⟨ws, hws, hstands⟩ := hfs.standsAt hg
    exact hf.precedes hordered hstop' hstands hws

end Reported

theorem reported_parse (source : String) : ∃ vs fs,
    (parse source).faults = (lexFaults source).map .lexical ++ fs ∧
      Reported source.utf8ByteSize (Cursor.ofSource source).rest vs fs := by
  obtain ⟨-, htold | ⟨hnested, -⟩⟩ :=
    (Reader.programsReport (4 * (Cursor.ofSource source).rest.length + 4)).statements false
      (Cursor.ofSource source)
  · obtain ⟨-, fs, hfaults, hreported⟩ := htold
    exact ⟨_, fs, hfaults, hreported⟩
  · cases hnested

/-- Faults are reported in the order of the text and at most once at each token: first the unreadable
characters, then faults at tokens that are neither comments nor unreadable, and at last those at the end
of the text. -/
theorem faults_in_order (source : String) : ∃ syntactic,
    (parse source).faults = (lexFaults source).map .lexical ++ syntactic ∧
      (∀ f ∈ syntactic, f.IsSyntactic ∧
        ((∃ t ∈ tokenize source, t.kind.isComment = false ∧ t.kind.isError = false ∧ f.span = t.span) ∨
          f.AtEnd source.utf8ByteSize)) ∧
      syntactic.Pairwise (ParseFault.Precedes source.utf8ByteSize) := by
  obtain ⟨vs, fs, hfaults, hreported⟩ := reported_parse source
  refine ⟨fs, hfaults, fun f hf => ?_, ?_⟩
  · obtain ⟨us, hus, hstands⟩ := hreported.standsAt hf
    refine ⟨hstands.1, (hstands.token_or_end hus).imp_left ?_⟩
    rintro ⟨t, ht, hspan⟩
    obtain ⟨hmem, hkind⟩ := List.mem_filter.mp ht
    rw [Bool.and_eq_true, Bool.not_eq_true', Bool.not_eq_true'] at hkind
    exact ⟨t, hmem, hkind.1, hkind.2, hspan⟩
  · apply hreported.pairwise ((ordered_tokenize source).filter _)
    exact fun t ht => (cut_of_mem_tokenize (List.mem_filter.mp ht).1).stop_le

end ArrowCheck
