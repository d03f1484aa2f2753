import Linewise.Parse
import Mathlib.Data.List.Perm.Subperm

/-!
# Merged diagnostics

Sorting keeps the diagnostics, and dropping repeats loses none for good.  So what
is merged holds the diagnostics of both lists, and no fewer than there are places
among them.  Sorting is stable, so it is known which diagnostics with the same
start end up side by side, and when no repeat is left at all.
-/

namespace Linewise

namespace Diagnostic

theorem insert_perm (first : Diagnostic) (rest : List Diagnostic) :
    (insert first rest).Perm (first :: rest) := by
  induction rest with
  | nil => exact List.Perm.refl _
  | cons second rest ih =>
      unfold insert
      split
      · exact List.Perm.refl _
      · exact (ih.cons second).trans (List.Perm.swap first second rest)

theorem sort_perm (diagnostics : List Diagnostic) : (sort diagnostics).Perm diagnostics := by
  induction diagnostics with
  | nil => exact List.Perm.refl _
  | cons first rest ih => exact (insert_perm first (sort rest)).trans (ih.cons first)

theorem mem_dropRepeats {diagnostic : Diagnostic} {diagnostics : List Diagnostic} :
    diagnostic ∈ dropRepeats diagnostics <-> diagnostic ∈ diagnostics := by
  fun_induction dropRepeats diagnostics with
  | case1 => exact Iff.rfl
  | case2 only => exact Iff.rfl
  | case3 second rest ih =>
      rw [ih]
      simp
  | case4 first second rest hne ih =>
      rw [List.mem_cons, ih, List.mem_cons (b := first)]

/-!
## The order of diagnostics
-/

def Ordered (first second : Diagnostic) : Prop := first.span.start <= second.span.start

theorem insert_ordered (diagnostic : Diagnostic) {rest : List Diagnostic}
    (h : rest.Pairwise Ordered) : (insert diagnostic rest).Pairwise Ordered := by
  induction rest with
  | nil => exact List.pairwise_singleton _ _
  | cons first rest ih =>
      rcases List.pairwise_cons.mp h with ⟨hfirst, hrest⟩
      unfold insert
      split
      · rename_i hle
        apply List.pairwise_cons.mpr
        constructor
        · intro other hother
          rcases List.mem_cons.mp hother with hself | hlater
          · rw [hself]
            exact hle
          · exact Nat.le_trans hle (hfirst other hlater)
        · exact h
      · rename_i hgt
        apply List.pairwise_cons.mpr
        constructor
        · intro other hother
          rcases List.mem_cons.mp ((insert_perm diagnostic rest).mem_iff.mp hother) with
            hself | hlater
          · rw [hself]
            exact Nat.le_of_not_le hgt
          · exact hfirst other hlater
        · exact ih hrest

theorem sort_ordered (diagnostics : List Diagnostic) : (sort diagnostics).Pairwise Ordered := by
  induction diagnostics with
  | nil => exact List.Pairwise.nil
  | cons first rest ih => exact insert_ordered first ih

theorem dropRepeats_sublist (diagnostics : List Diagnostic) :
    (dropRepeats diagnostics).Sublist diagnostics := by
  fun_induction dropRepeats diagnostics with
  | case1 => exact List.Sublist.refl _
  | case2 only => exact List.Sublist.refl _
  | case3 second rest ih => exact ih.cons second
  | case4 first second rest hne ih => exact ih.cons_cons first

def startingAt (start : Nat) (diagnostics : List Diagnostic) : List Diagnostic :=
  diagnostics.filter (fun diagnostic => diagnostic.span.start == start)

theorem startingAt_append (start : Nat) (first second : List Diagnostic) :
    startingAt start (first ++ second) = startingAt start first ++ startingAt start second :=
  List.filter_append _ _

theorem startingAt_insert (start : Nat) (diagnostic : Diagnostic) (rest : List Diagnostic) :
    startingAt start (insert diagnostic rest) = startingAt start (diagnostic :: rest) := by
  induction rest with
  | nil => rfl
  | cons first rest ih =>
      unfold insert
      split
      · rfl
      · rename_i hgt
        unfold startingAt at ih ⊢
        rw [List.filter_cons, ih, List.filter_cons, List.filter_cons, List.filter_cons]
        cases hfirst : first.span.start == start with
        | false => simp
        | true =>
            have hother : (diagnostic.span.start == start) = false := by
              simp only [beq_iff_eq, beq_eq_false_iff_ne] at hfirst ⊢
              omega
            simp [hother]

theorem startingAt_sort (start : Nat) (diagnostics : List Diagnostic) :
    startingAt start (sort diagnostics) = startingAt start diagnostics := by
  induction diagnostics with
  | nil => rfl
  | cons first rest ih =>
      rw [sort, startingAt_insert]
      unfold startingAt at ih ⊢
      rw [List.filter_cons, ih, List.filter_cons]

def Uniform (diagnostics : List Diagnostic) : Prop :=
  forall first rest, diagnostics = first :: rest ->
    forall a b, a ∈ rest -> b ∈ rest -> a = b

theorem Uniform.tail {first : Diagnostic} {rest : List Diagnostic}
    (h : Uniform (first :: rest)) : Uniform rest := by
  intro second others hrest a b ha hb
  rw [hrest] at h
  exact h first _ rfl a b (List.mem_cons_of_mem _ ha) (List.mem_cons_of_mem _ hb)

theorem uniform_of_length {diagnostics : List Diagnostic} (h : diagnostics.length <= 2) :
    Uniform diagnostics := by
  intro first rest hrest a b ha hb
  rw [hrest] at h
  match rest, h with
  | [only], _ => rw [List.mem_singleton.mp ha, List.mem_singleton.mp hb]

theorem nodup_dropRepeats {diagnostics : List Diagnostic} (hordered : diagnostics.Pairwise Ordered)
    (huniform : forall start, Uniform (startingAt start diagnostics)) :
    (dropRepeats diagnostics).Nodup := by
  have htail : forall {first rest}, (forall start, Uniform (startingAt start (first :: rest))) ->
      forall start, Uniform (startingAt start rest) := by
    intro first rest h start
    have hstart := h start
    unfold startingAt at hstart ⊢
    rw [List.filter_cons] at hstart
    split at hstart
    · exact hstart.tail
    · exact hstart
  fun_induction dropRepeats diagnostics with
  | case1 => exact List.nodup_nil
  | case2 only => exact List.pairwise_singleton _ only
  | case3 second rest ih => exact ih (List.pairwise_cons.mp hordered).2 (htail huniform)
  | case4 first second rest hne ih =>
      rcases List.pairwise_cons.mp hordered with ⟨hfirst, hrest⟩
      apply List.nodup_cons.mpr
      constructor
      · -- a repeat further on would stand behind a different one at the same place
        intro hmem
        rcases List.mem_cons.mp (mem_dropRepeats.mp hmem) with hself | hlater
        · exact hne hself
        · have hle : first.span.start <= second.span.start := hfirst second (by simp)
          have hge : second.span.start <= first.span.start :=
            (List.pairwise_cons.mp hrest).1 first hlater
          have hsame : second.span.start = first.span.start := Nat.le_antisymm hge hle
          have hgroup := huniform first.span.start
          simp only [startingAt, List.filter_cons, beq_self_eq_true, if_true, hsame] at hgroup
          apply hne
          apply hgroup first _ rfl
          · exact List.mem_cons_of_mem _ (List.mem_filter.mpr ⟨hlater, by simp⟩)
          · exact List.mem_cons_self
      · exact ih hrest (htail huniform)

end Diagnostic

theorem mem_mergeErrors {diagnostic : Diagnostic} {lexical structural : List Diagnostic} :
    diagnostic ∈ mergeErrors lexical structural <->
      diagnostic ∈ lexical ∨ diagnostic ∈ structural := by
  unfold mergeErrors
  rw [Diagnostic.mem_dropRepeats, (Diagnostic.sort_perm _).mem_iff, List.mem_append]

theorem mergeErrors_eq_nil {lexical structural : List Diagnostic} :
    mergeErrors lexical structural = [] <-> lexical = [] ∧ structural = [] := by
  simp only [List.eq_nil_iff_forall_not_mem, mem_mergeErrors, not_or]
  constructor
  · intro h
    exact ⟨fun diagnostic => (h diagnostic).1, fun diagnostic => (h diagnostic).2⟩
  · intro h diagnostic
    exact ⟨h.1 diagnostic, h.2 diagnostic⟩

theorem mergeErrors_ordered (lexical structural : List Diagnostic) :
    (mergeErrors lexical structural).Pairwise Diagnostic.Ordered :=
  (Diagnostic.sort_ordered _).sublist (Diagnostic.dropRepeats_sublist _)

theorem nodup_mergeErrors {lexical structural : List Diagnostic}
    (h : forall start, Diagnostic.Uniform
      (Diagnostic.startingAt start lexical ++ Diagnostic.startingAt start structural)) :
    (mergeErrors lexical structural).Nodup := by
  apply Diagnostic.nodup_dropRepeats (Diagnostic.sort_ordered _)
  intro start
  rw [Diagnostic.startingAt_sort, Diagnostic.startingAt_append]
  exact h start

theorem length_le_mergeErrors (lexical : List Diagnostic) {structural : List Diagnostic}
    {spans : List Span} (hnodup : spans.Nodup)
    (hspans : forall span, span ∈ spans -> span ∈ structural.map Diagnostic.span) :
    spans.length <= (mergeErrors lexical structural).length := by
  have hsubset : spans ⊆ (mergeErrors lexical structural).map Diagnostic.span := by
    intro span hspan
    rcases List.mem_map.mp (hspans span hspan) with ⟨diagnostic, hmem, hdiagnostic⟩
    exact List.mem_map.mpr ⟨diagnostic, mem_mergeErrors.mpr (Or.inr hmem), hdiagnostic⟩
  have hlength := (hnodup.subperm hsubset).length_le
  rwa [List.length_map] at hlength

end Linewise
