import Linewise.Proofs.Merging
import Linewise.Proofs.Parallel.Relabelling
import Linewise.Proofs.Respacing.Tokens

/-!
# Tokens in new places

Two lists of tokens that differ in their places only, and stand in their texts in order,
are related by a relabelling.  It keeps the order of the tokens, so diagnostics at the
places of tokens are sorted in the same way before and after.
-/

namespace Linewise

/-!
## Moving positions
-/

namespace Relabelling

def moved : List (Nat × Nat) -> Nat -> Nat
  | [], _ => 0
  | (before, after) :: rest, position =>
      if before <= position then max after (moved rest position) else moved rest position

theorem le_moved {moves : List (Nat × Nat)} {move : Nat × Nat} {position : Nat}
    (hmem : move ∈ moves) (hle : move.1 <= position) : move.2 <= moved moves position := by
  induction moves with
  | nil => cases hmem
  | cons first rest ih =>
      rcases first with ⟨before, after⟩
      rw [moved]
      rcases List.mem_cons.mp hmem with rfl | hmem
      · rw [if_pos hle]
        exact Nat.le_max_left _ _
      · have hrest := ih hmem
        split
        · omega
        · exact hrest

theorem moved_le {moves : List (Nat × Nat)} {position bound : Nat}
    (h : forall move, move ∈ moves -> move.1 <= position -> move.2 <= bound) :
    moved moves position <= bound := by
  induction moves with
  | nil => exact Nat.zero_le _
  | cons first rest ih =>
      rcases first with ⟨before, after⟩
      have hrest := ih (fun move hmem => h move (List.mem_cons_of_mem _ hmem))
      rw [moved]
      split
      · exact Nat.max_le.mpr ⟨h (before, after) List.mem_cons_self ‹_›, hrest⟩
      · exact hrest

theorem moved_mono (moves : List (Nat × Nat)) {a b : Nat} (h : a <= b) :
    moved moves a <= moved moves b :=
  moved_le (fun _ hmem hle => le_moved hmem (Nat.le_trans hle h))

theorem moved_eq {moves : List (Nat × Nat)} {move : Nat × Nat} (hmem : move ∈ moves)
    (h : forall other, other ∈ moves -> other.1 <= move.1 -> other.2 <= move.2) :
    moved moves move.1 = move.2 :=
  Nat.le_antisymm (moved_le h) (le_moved hmem (Nat.le_refl _))

def along (pairs : List (Token × Token)) : Relabelling where
  start := moved (pairs.map (fun pair => (pair.1.span.start, pair.2.span.start)))
  stop := moved (pairs.map (fun pair => (pair.1.span.stop, pair.2.span.stop)))
  start_mono := moved_mono _
  stop_mono := moved_mono _

end Relabelling

/-!
## Pairs of tokens
-/

namespace Token

structure Moves (pairs : List (Token × Token)) : Prop where
  faces : forall pair, pair ∈ pairs -> pair.2.face = pair.1.face
  starts : forall pair other, pair ∈ pairs -> other ∈ pairs ->
    (other.1.span.start <= pair.1.span.start <-> other.2.span.start <= pair.2.span.start)
  stops : forall pair other, pair ∈ pairs -> other ∈ pairs ->
    other.1.span.stop <= pair.1.span.stop -> other.2.span.stop <= pair.2.span.stop
  spans : forall pair other, pair ∈ pairs -> other ∈ pairs ->
    pair.1.span.start = other.1.span.start -> pair.1.span = other.1.span

namespace Moves

variable {pairs : List (Token × Token)} (h : Moves pairs) {pair other : Token × Token}
include h

theorem span (hmem : pair ∈ pairs) : pair.1.span.relabel (.along pairs) = pair.2.span := by
  have hstart : (Relabelling.along pairs).start pair.1.span.start = pair.2.span.start := by
    apply Relabelling.moved_eq (List.mem_map.mpr ⟨pair, hmem, rfl⟩)
    intro move hmove hle
    rcases List.mem_map.mp hmove with ⟨other, hother, rfl⟩
    exact (h.starts pair other hmem hother).mp hle
  have hstop : (Relabelling.along pairs).stop pair.1.span.stop = pair.2.span.stop := by
    apply Relabelling.moved_eq (List.mem_map.mpr ⟨pair, hmem, rfl⟩)
    intro move hmove hle
    rcases List.mem_map.mp hmove with ⟨other, hother, rfl⟩
    exact h.stops pair other hmem hother hle
  rw [Span.relabel, hstart, hstop]

theorem relabel (hmem : pair ∈ pairs) : pair.1.relabel (.along pairs) = pair.2 := by
  have hface := h.faces pair hmem
  have hspan := h.span hmem
  rcases pair with ⟨⟨⟨value, span⟩, kind⟩, ⟨value', span'⟩, kind'⟩
  simp only [face, Prod.mk.injEq] at hface
  simp only [Token.relabel, hface.1, hface.2]
  simp only at hspan
  rw [hspan]

end Moves

theorem last_or_before {α : Type} {R : α -> α -> Prop} {l : List α} (h : l.Pairwise R) {x : α}
    (hx : x ∈ l) : l.getLast? = some x ∨ exists y, y ∈ l ∧ R x y := by
  induction l with
  | nil => cases hx
  | cons first rest ih =>
      rw [List.pairwise_cons] at h
      cases rest with
      | nil =>
          left
          rw [List.mem_singleton.mp hx, List.getLast?_singleton]
      | cons second rest =>
          rcases List.mem_cons.mp hx with rfl | hx
          · exact Or.inr ⟨second, by simp, h.1 second List.mem_cons_self⟩
          · rw [List.getLast?_cons_cons]
            rcases ih h.2 hx with hlast | ⟨y, hy, hxy⟩
            · exact Or.inl hlast
            · exact Or.inr ⟨y, List.mem_cons_of_mem first hy, hxy⟩

def Precedes (pair other : Token × Token) : Prop :=
  pair.1.Before other.1 ∧ pair.2.Before other.2

theorem precedes_or {pairs : List (Token × Token)} (h : pairs.Pairwise Precedes)
    {pair other : Token × Token} (hpair : pair ∈ pairs) (hother : other ∈ pairs) :
    pair = other ∨ Precedes pair other ∨ Precedes other pair := by
  have hforward : pairs.Pairwise (fun pair other =>
      pair = other ∨ Precedes pair other ∨ Precedes other pair) :=
    h.imp (fun hbefore => Or.inr (Or.inl hbefore))
  apply List.Pairwise.forall_of_forall_of_flip _ hforward _ hpair hother
  · intro pair _
    exact Or.inl rfl
  · exact h.imp (fun hbefore => Or.inr (Or.inr hbefore))

theorem Precedes.starts {pair other : Token × Token} (h : Precedes pair other) :
    pair.1.span.start < other.1.span.start ∧ pair.2.span.start < other.2.span.start :=
  ⟨Nat.lt_of_lt_of_le h.1.nonempty h.1.behind, Nat.lt_of_lt_of_le h.2.nonempty h.2.behind⟩

theorem moves_of_precedes {pairs : List (Token × Token)} {last : Token × Token}
    (hfaces : forall pair, pair ∈ pairs ++ [last] -> pair.2.face = pair.1.face)
    (hbefore : (pairs ++ [last]).Pairwise Precedes)
    (hforward : last.1.span.start <= last.1.span.stop ∧ last.2.span.start <= last.2.span.stop)
    (htight : forall pair, pairs.getLast? = some pair -> last.2.span.stop <= pair.2.span.stop) :
    Moves (pairs ++ [last]) where
  faces := hfaces
  starts := by
    intro pair other hpair hother
    rcases precedes_or hbefore hpair hother with rfl | hbefore | hbefore
    · exact ⟨fun _ => Nat.le_refl _, fun _ => Nat.le_refl _⟩
    · have hstarts := hbefore.starts
      omega
    · have hstarts := hbefore.starts
      omega
  stops := by
    intro pair other hpair hother hle
    rcases precedes_or hbefore hpair hother with rfl | hpair_other | hother_pair
    · exact Nat.le_refl _
    · -- then the other takes up nothing, and there is nothing between the two
      have hbehind := hpair_other.1.behind
      rw [List.pairwise_append] at hbefore
      rcases hbefore with ⟨hpairs, _, hlast⟩
      rcases List.mem_append.mp hother with hother | hother
      · have hnonempty := (hlast other hother last (by simp)).1.nonempty
        omega
      · rw [List.mem_singleton] at hother
        subst hother
        rcases List.mem_append.mp hpair with hpair | hpair
        · rcases last_or_before hpairs hpair with htop | ⟨next, hnext, hpair_next⟩
          · exact htight pair htop
          · have hnonempty := (hlast next hnext other (by simp)).1.nonempty
            have hfirst := hpair_next.1.behind
            have hsecond := (hlast next hnext other (by simp)).1.behind
            omega
        · exact Nat.le_of_eq (by rw [List.mem_singleton.mp hpair])
    · have hbehind := hother_pair.2.behind
      have hpair : pair.2.span.start <= pair.2.span.stop := by
        rcases List.mem_append.mp hpair with hpair | hpair
        · exact Nat.le_of_lt
            ((List.pairwise_append.mp hbefore).2.2 pair hpair last (by simp)).2.nonempty
        · rw [List.mem_singleton.mp hpair]
          exact hforward.2
      omega
  spans := by
    intro pair other hpair hother hsame
    rcases precedes_or hbefore hpair hother with rfl | hbefore | hbefore
    · rfl
    · have hstarts := hbefore.starts
      omega
    · have hstarts := hbefore.starts
      omega

end Token

/-!
## Sorted diagnostics
-/

namespace Diagnostic

variable {ρ : Relabelling}

structure Kept (ρ : Relabelling) (diagnostics : List Diagnostic) : Prop where
  order : forall first second, first ∈ diagnostics -> second ∈ diagnostics ->
    ((first.relabel ρ).span.start <= (second.relabel ρ).span.start <->
      first.span.start <= second.span.start)
  apart : forall first second, first ∈ diagnostics -> second ∈ diagnostics ->
    first.relabel ρ = second.relabel ρ -> first = second

theorem Kept.mono {diagnostics others : List Diagnostic} (h : Kept ρ diagnostics)
    (hsub : forall diagnostic, diagnostic ∈ others -> diagnostic ∈ diagnostics) :
    Kept ρ others where
  order first second hfirst hsecond := h.order first second (hsub _ hfirst) (hsub _ hsecond)
  apart first second hfirst hsecond := h.apart first second (hsub _ hfirst) (hsub _ hsecond)

theorem insert_relabel {first : Diagnostic} {rest : List Diagnostic}
    (h : Kept ρ (first :: rest)) :
    insert (first.relabel ρ) (rest.map (relabel ρ)) = (insert first rest).map (relabel ρ) := by
  induction rest with
  | nil => rfl
  | cons second rest ih =>
      have horder := h.order first second (by simp) (by simp)
      have hrest := ih (h.mono (by simp +contextual))
      rw [List.map_cons, insert, insert]
      by_cases hle : first.span.start <= second.span.start
      · rw [if_pos hle, if_pos (horder.mpr hle), List.map_cons, List.map_cons]
      · rw [if_neg hle, if_neg (fun h => hle (horder.mp h)), List.map_cons, hrest]

theorem sort_relabel {diagnostics : List Diagnostic} (h : Kept ρ diagnostics) :
    sort (diagnostics.map (relabel ρ)) = (sort diagnostics).map (relabel ρ) := by
  induction diagnostics with
  | nil => rfl
  | cons first rest ih =>
      have hrest := ih (h.mono (by simp +contextual))
      rw [List.map_cons, sort, sort, hrest]
      apply insert_relabel
      apply h.mono
      intro diagnostic hmem
      rcases List.mem_cons.mp hmem with rfl | hmem
      · exact List.mem_cons_self
      · exact List.mem_cons_of_mem first ((sort_perm rest).mem_iff.mp hmem)

theorem dropRepeats_relabel {diagnostics : List Diagnostic} (h : Kept ρ diagnostics) :
    dropRepeats (diagnostics.map (relabel ρ)) = (dropRepeats diagnostics).map (relabel ρ) := by
  fun_induction dropRepeats diagnostics with
  | case1 => rfl
  | case2 only => rfl
  | case3 second rest ih =>
      have hrest := ih (h.mono (by simp +contextual))
      rw [List.map_cons, List.map_cons, dropRepeats, if_pos rfl, ← List.map_cons, hrest]
  | case4 first second rest hne ih =>
      have hrest := ih (h.mono (by simp +contextual))
      have hne : first.relabel ρ ≠ second.relabel ρ :=
        fun hsame => hne (h.apart first second (by simp) (by simp) hsame)
      rw [List.map_cons, List.map_cons, dropRepeats, if_neg hne, ← List.map_cons, hrest,
        List.map_cons]

end Diagnostic

theorem mergeErrors_relabel {ρ : Relabelling} {lexical structural : List Diagnostic}
    (h : Diagnostic.Kept ρ (lexical ++ structural)) :
    mergeErrors (lexical.map (Diagnostic.relabel ρ)) (structural.map (Diagnostic.relabel ρ)) =
      (mergeErrors lexical structural).map (Diagnostic.relabel ρ) := by
  unfold mergeErrors
  rw [← List.map_append, Diagnostic.sort_relabel h, Diagnostic.dropRepeats_relabel]
  exact h.mono (fun diagnostic hmem => (Diagnostic.sort_perm _).mem_iff.mp hmem)

theorem Token.Moves.kept {pairs : List (Token × Token)} (h : Moves pairs)
    {diagnostics : List Diagnostic}
    (hplaced : forall g, g ∈ diagnostics ->
      exists pair, pair ∈ pairs ∧ g.span = pair.1.span) :
    Diagnostic.Kept (.along pairs) diagnostics := by
  have hmoved : forall g, g ∈ diagnostics -> exists pair, pair ∈ pairs ∧
      g.span = pair.1.span ∧ (g.relabel (.along pairs)).span = pair.2.span := by
    intro g hg
    rcases hplaced g hg with ⟨pair, hpair, hspan⟩
    refine ⟨pair, hpair, hspan, ?_⟩
    rw [← h.span hpair, ← hspan]
    rfl
  constructor
  · intro first second hfirst hsecond
    rcases hmoved first hfirst with ⟨pair, hpair, hspan, hnew⟩
    rcases hmoved second hsecond with ⟨other, hother, hspan', hnew'⟩
    rw [hspan, hspan', hnew, hnew']
    exact (h.starts other pair hother hpair).symm
  · intro first second hfirst hsecond hsame
    rcases hmoved first hfirst with ⟨pair, hpair, hspan, hnew⟩
    rcases hmoved second hsecond with ⟨other, hother, hspan', hnew'⟩
    have hstart : pair.1.span.start = other.1.span.start := by
      rw [hsame, hnew'] at hnew
      have hle := h.starts other pair hother hpair
      have hge := h.starts pair other hpair hother
      rw [hnew] at hle hge
      exact Nat.le_antisymm (hle.mpr (Nat.le_refl _)) (hge.mpr (Nat.le_refl _))
    have hplace := h.spans pair other hpair hother hstart
    have hcauses := congrArg Diagnostic.cause hsame
    have hcause : first.cause = second.cause := hcauses
    rcases first with ⟨cause, span⟩
    rcases second with ⟨cause', span'⟩
    simp only at hspan hspan' hcause
    rw [hspan, hspan', hplace, hcause]

end Linewise
