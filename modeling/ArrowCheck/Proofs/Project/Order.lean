import ArrowCheck.Project.Sources
import Mathlib.Data.List.Basic

namespace ArrowCheck

theorem Component.compare_eq (a b : Component) :
    a.compare b = compareLex (compareOn rank) (compareOn fun c => c.name?.getD []) a b := by
  cases a <;> cases b <;> rfl

instance : Std.TransCmp Component.compare := by
  rw [funext₂ Component.compare_eq]
  infer_instance

instance : Std.LawfulEqCmp Component.compare where
  eq_of_compare {a b} h := by
    rw [Component.compare_eq, compareLex_eq_eq] at h
    obtain ⟨hrank, hname⟩ := h
    have hrank : a.rank = b.rank := Std.LawfulEqCmp.eq_of_compare hrank
    have hname : a.name?.getD [] = b.name?.getD [] := Std.LawfulEqCmp.eq_of_compare hname
    cases a <;> cases b <;> simp_all [Component.rank, Component.name?]

namespace FilePath

theorem compareSteps_eq (as bs : List Component) :
    compareSteps as bs = List.compareLex Component.compare as bs := by
  induction as generalizing bs with
  | nil => cases bs <;> rfl
  | cons a as ih =>
    cases bs with
    | nil => rfl
    | cons b bs => rw [compareSteps, ih, List.compareLex_cons_cons]

instance : Std.TransCmp compareSteps := by
  rw [funext₂ compareSteps_eq]
  infer_instance

instance : Std.LawfulEqCmp compareSteps := by
  rw [funext₂ compareSteps_eq]
  infer_instance

def Precedes (as bs : List Component) : Prop := compareSteps as bs = .lt

variable {p q : FilePath} {as bs cs : List Component}

theorem Precedes.trans (h : Precedes as bs) (h' : Precedes bs cs) : Precedes as cs :=
  Std.TransCmp.lt_trans h h'

theorem Precedes.irrefl (as : List Component) : ¬ Precedes as as := by
  intro h
  have hself : compareSteps as as = .eq := Std.ReflCmp.compare_self
  cases hself.symm.trans h

theorem precedes_of_le (h : p.le q = true) (hne : q.components ≠ p.components) :
    Precedes p.components q.components := by
  rcases Ordering.isLE_iff_eq_lt_or_eq_eq.mp h with h | h
  · exact h
  · exact absurd (Std.LawfulEqCmp.eq_of_compare h).symm hne

theorem pairwise_le_mergeSort (ps : List FilePath) :
    (ps.mergeSort le).Pairwise fun p q => p.le q = true := by
  refine List.pairwise_mergeSort (fun a b c => Std.TransCmp.isLE_trans) (fun a b => ?_) ps
  rw [Bool.or_eq_true]
  by_cases h : a.le b = true
  · exact .inl h
  · exact .inr (Ordering.isLE_of_eq_lt (Std.OrientedCmp.lt_of_not_isLE h))

theorem eq_of_precedes {xs ys : List (List Component)} (hxs : xs.Pairwise Precedes)
    (hys : ys.Pairwise Precedes) (h : ∀ cs, cs ∈ xs ↔ cs ∈ ys) : xs = ys := by
  have hnodup : ∀ {zs : List (List Component)}, zs.Pairwise Precedes → zs.Nodup := by
    intro zs hzs
    refine List.Pairwise.imp ?_ hzs
    rintro a b hlt rfl
    exact Precedes.irrefl a hlt
  have hperm := (List.perm_ext_iff_of_nodup (hnodup hxs) (hnodup hys)).mpr h
  refine hperm.eq_of_pairwise (fun a b _ _ hab hba => ?_) hxs hys
  exact absurd (hab.trans hba) (Precedes.irrefl a)

end FilePath

namespace Disk

open FilePath

variable {p kept : FilePath} {ps : List FilePath}

theorem mem_dropRepeats_after (h : p ∈ dropRepeats.after kept ps) : p ∈ ps := by
  induction ps generalizing kept with
  | nil => exact h
  | cons q ps ih =>
    rw [dropRepeats.after] at h
    split at h
    · exact List.mem_cons_of_mem _ (ih h)
    · rcases List.mem_cons.mp h with rfl | h
      · exact List.mem_cons_self
      · exact List.mem_cons_of_mem _ (ih h)

theorem mem_dropRepeats (h : p ∈ dropRepeats ps) : p ∈ ps := by
  cases ps with
  | nil => exact h
  | cons q ps =>
    rcases List.mem_cons.mp h with rfl | h
    · exact List.mem_cons_self
    · exact List.mem_cons_of_mem _ (mem_dropRepeats_after h)

theorem exists_mem_dropRepeats_after (h : p ∈ kept :: ps) :
    ∃ q ∈ kept :: dropRepeats.after kept ps, q.components = p.components := by
  induction ps generalizing kept with
  | nil => exact ⟨p, h, rfl⟩
  | cons q ps ih =>
    rw [dropRepeats.after]
    split
    · rename_i heq
      rcases List.mem_cons.mp h with rfl | h
      · exact ⟨p, List.mem_cons_self, rfl⟩
      · rcases List.mem_cons.mp h with rfl | h
        · exact ⟨kept, List.mem_cons_self, heq.symm⟩
        · exact ih (List.mem_cons_of_mem _ h)
    · rcases List.mem_cons.mp h with rfl | h
      · exact ⟨p, List.mem_cons_self, rfl⟩
      · obtain ⟨r, hr, heq⟩ := ih h
        exact ⟨r, List.mem_cons_of_mem _ hr, heq⟩

theorem exists_mem_dropRepeats (h : p ∈ ps) : ∃ q ∈ dropRepeats ps, q.components = p.components := by
  cases ps with
  | nil => exact absurd h List.not_mem_nil
  | cons q ps => exact exists_mem_dropRepeats_after h

theorem precedes_dropRepeats_after (h : (kept :: ps).Pairwise fun p q => p.le q = true) :
    (kept :: dropRepeats.after kept ps).Pairwise fun p q => Precedes p.components q.components := by
  induction ps generalizing kept with
  | nil => exact List.pairwise_singleton _ _
  | cons q ps ih =>
    obtain ⟨hkept, hps⟩ := List.pairwise_cons.mp h
    rw [dropRepeats.after]
    split
    · refine ih (List.pairwise_cons.mpr ⟨fun r hr => hkept r ?_, (List.pairwise_cons.mp hps).2⟩)
      exact List.mem_cons_of_mem _ hr
    · rename_i hne
      have hfirst := precedes_of_le (hkept q List.mem_cons_self) hne
      have hrest := ih hps
      refine List.pairwise_cons.mpr ⟨fun r hr => ?_, hrest⟩
      rcases List.mem_cons.mp hr with rfl | hr
      · exact hfirst
      · exact hfirst.trans ((List.pairwise_cons.mp hrest).1 r hr)

theorem precedes_dropRepeats (h : ps.Pairwise fun p q => p.le q = true) :
    (dropRepeats ps).Pairwise fun p q => Precedes p.components q.components := by
  cases ps with
  | nil => exact .nil
  | cons q ps => exact precedes_dropRepeats_after h

section Sorted

variable (ps)

theorem precedes_sorted :
    ((dropRepeats (ps.mergeSort le)).map components).Pairwise Precedes :=
  List.pairwise_map.mpr (precedes_dropRepeats (pairwise_le_mergeSort ps))

theorem mem_sorted (cs : List Component) :
    cs ∈ (dropRepeats (ps.mergeSort le)).map components ↔ cs ∈ ps.map components := by
  simp only [List.mem_map]
  constructor
  · rintro ⟨p, hp, rfl⟩
    exact ⟨p, List.mem_mergeSort.mp (mem_dropRepeats hp), rfl⟩
  · rintro ⟨p, hp, rfl⟩
    exact exists_mem_dropRepeats (List.mem_mergeSort.mpr hp)

end Sorted

end Disk

end ArrowCheck
