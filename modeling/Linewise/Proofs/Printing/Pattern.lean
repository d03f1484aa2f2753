import Linewise.Proofs.Printing.Type

/-!
# Reading printed patterns

A printed pattern is read back as a subpattern, whatever follows it, and as a
pattern element if no word follows that could be `or`.
-/

namespace Linewise

open Linewise.Parser
open Linewise.Piece

namespace Pattern

def Reads (pattern : Pattern) : Prop :=
  forall room rest, pattern.levels <= room ->
    Accepts room (Grammar.subpattern (Level.ofRoom room)) (pattern.print ++ rest) rest
      (fun read => read.erase = pattern.erase)

theorem headKind_print {pattern : Pattern} (h : pattern.isPrintable = true)
    (rest : List Piece) : headKind (pattern.print ++ rest) ∈ Token.patternStarts :=
  IsUnit.headKind_mem (print_isUnit h) (fun _ _ => startsPattern_opening) rest

theorem layout_of_patternStarts : forall kind, kind ∈ Token.patternStarts ->
    ¬ kind ∈ [Kind.mark .closeParen, .lineBreak, .mark .semicolon] := by
  decide

variable {room : Nat} {rest : List Piece} {pattern : Pattern}

theorem headKind_ne_lineBreak (h : pattern.isPrintable = true) (rest : List Piece) :
    headKind (pattern.print ++ rest) ≠ .lineBreak := by
  have hlayout := layout_of_patternStarts _ (headKind_print h rest)
  simp only [List.mem_cons, List.not_mem_nil, or_false, not_or] at hlayout
  exact hlayout.2.1

theorem subpatterns_accepts {patterns : List Pattern} {after : List Piece}
    (hprintable : forall pattern, pattern ∈ patterns -> pattern.isPrintable = true)
    (hreads : forall pattern, pattern ∈ patterns -> pattern.Reads)
    (hlevels : forall pattern, pattern ∈ patterns -> pattern.levels <= room)
    (hafter : Pauses after) :
    Accepts room (Grammar.subpatterns (Level.ofRoom room)) (prints patterns ++ after) after
      (fun read => eraseAll read = eraseAll patterns) := by
  rw [prints_eq_flatMap]
  simp only [eraseAll_eq_map]
  exact Accepts.units (fun _ => startsExpression_of_startsPattern)
    (fun _ _ => startsPattern_opening)
    (fun pattern hmem => print_isUnit (hprintable pattern hmem))
    (fun pattern hmem rest => hreads pattern hmem room rest (hlevels pattern hmem)) hafter

theorem Reads.operand (hreads : pattern.Reads) (hprintable : pattern.isPrintable = true)
    (hlevels : pattern.levels <= room) :
    Accepts room (Grammar.patternOperand (Level.ofRoom room)) (pattern.print ++ rest) rest
      (fun read => read.erase = pattern.erase) := by
  have hpattern := hreads room rest hlevels
  have hhead := headKind_print hprintable rest
  apply Accepts.look
  intro start
  apply Accepts.kind
  generalize headKind (pattern.print ++ rest) = kind at hhead
  simp only [Token.patternStarts, List.mem_cons, List.not_mem_nil, or_false] at hhead
  rcases hhead with rfl | rfl | rfl | rfl | rfl | rfl <;> exact hpattern

theorem orPattern_accepts {before after : List Piece} {good : Pattern -> Prop}
    (h : Accepts room (Grammar.patternOperand (Level.ofRoom room)) before after good)
    (hafter : headKind after ≠ .lowercaseName) :
    Accepts room (Grammar.orPattern (Level.ofRoom room)) before after good := by
  apply Accepts.look
  intro start
  apply Accepts.bind h
  intro first hfirst
  refine Accepts.bind (Accepts.repeatNone (fun c hc => ?_)) (fun later hlater => ?_)
  · simp [Grammar.atOr, Cursor.isAt, hc.kind_eq, hafter]
  · rw [hlater]
    exact Accepts.pure hfirst

theorem Reads.element (hreads : pattern.Reads) (hprintable : pattern.isPrintable = true)
    (hlevels : pattern.levels <= room) (hrest : headKind rest ≠ .lowercaseName) :
    Accepts (room + 1) (Level.ofRoom (room + 1)).pattern (pattern.print ++ rest) rest
      (fun read => read.erase = pattern.erase) :=
  Accepts.nested (orPattern_accepts (hreads.operand hprintable hlevels) hrest)

theorem Reads.whole (hreads : pattern.Reads) (hprintable : pattern.isPrintable = true)
    (hlevels : pattern.levels <= room)
    (hrest : ¬ headKind rest ∈ [.lowercaseName, .mark .semicolon]) :
    Accepts (room + 1) (Grammar.pattern (Level.ofRoom (room + 1))) (pattern.print ++ rest) rest
      (fun read => read.erase = pattern.erase) := by
  simp only [List.mem_cons, List.not_mem_nil, or_false, not_or] at hrest
  apply Accepts.look
  intro start
  apply Accepts.bind (hreads.element hprintable hlevels hrest.1)
  intro first hfirst
  refine Accepts.bind (Accepts.repeatNone (fun c hc => ?_)) (fun later hlater => ?_)
  · simpa [Cursor.isAt, hc.kind_eq] using hrest.2
  · rw [if_pos (by simp [hlater])]
    exact Accepts.pure hfirst

/-!
## The forms of patterns
-/

theorem field_accepts {field : Entry Lexeme Pattern} (hprintable : field.value.isPrintable = true)
    (hreads : field.value.Reads) (hlevels : field.value.levels <= room) :
    Accepts (room + 1) (Grammar.destructureField (Level.ofRoom (room + 1)))
      (printField field ++ lineBreak :: rest) (lineBreak :: rest)
      (fun read => eraseField read = eraseField field) := by
  rw [printField, List.cons_append, List.cons_append]
  apply Accepts.look
  intro start
  apply Accepts.bind (Accepts.leaf _ field.key)
  intro name hname
  apply Accepts.bind (Accepts.expectMark .colon)
  intro _ _
  apply Accepts.bind (Accepts.noLineBreaks (headKind_ne_lineBreak hprintable _))
  intro _ _
  apply Accepts.bind (hreads.whole hprintable hlevels (by simp [lineBreak]))
  intro value hvalue
  apply Accepts.look
  intro span
  exact Accepts.pure (by simp [eraseField, hname, hvalue])

theorem destructure_accepts {fields : List (Entry Lexeme Pattern)} {span : Span}
    (hne : fields ≠ []) (hprintable : arePrintableFields fields = true)
    (hreads : forall field, field ∈ fields -> field.value.Reads)
    (hlevels : levelsOfFields fields <= room) :
    Accepts (room + 1) (Grammar.subpattern (Level.ofRoom (room + 1)))
      ((destructure fields span).print ++ rest) rest
      (fun read => read.erase = (destructure fields span).erase) := by
  have hprint : (destructure fields span).print ++ rest = mark .openCurly ::
      (fields.flatMap (fun field => printField field ++ [lineBreak]) ++
        mark .closeCurly :: rest) := by
    simp [print, braces, printFields_eq_flatMap]
  rw [arePrintableFields_iff] at hprintable
  rw [levelsOfFields_le_iff] at hlevels
  rw [hprint]
  apply Accepts.kind
  apply Accepts.bind (Accepts.expectMark .openCurly)
  intro _ _
  refine Accepts.bind (Accepts.lines
    (fun field hmem rest => field_accepts (hprintable field hmem).2 (hreads field hmem)
      (hlevels field hmem))
    (fun field _ rest => by simp [printField]) rfl (by decide)) (fun found hfound => ?_)
  have hfoundNe : found.isEmpty = false := by
    cases found with
    | nil => exact absurd (List.map_eq_nil_iff.mp hfound.symm) hne
    | cons _ _ => rfl
  rw [if_neg (by simp [hfoundNe])]
  apply Accepts.bind (Accepts.expectMark .closeCurly)
  intro _ _
  apply Accepts.look
  intro span
  exact Accepts.pure (by simp only [erase, eraseFields_eq_map, hfound])

theorem parenthesized_accepts {inner middle : List Piece} {good best : Pattern -> Prop}
    (hhead : ¬ headKind inner ∈ [.mark .closeParen, .lineBreak, .mark .semicolon])
    (hfirst : Accepts (room + 1) (Level.ofRoom (room + 1)).pattern inner middle good)
    (hmiddle : headKind middle ≠ .mark .doubleColon)
    (hrest : forall start first, good first -> Accepts (room + 1) (do
      let form <- enclosedRest "tuple pattern" [.mark .semicolon] first false
        (Level.ofRoom (room + 1)).pattern
      Grammar.enclosedPattern start form) middle rest best) :
    Accepts (room + 1) (Grammar.subpattern (Level.ofRoom (room + 1)))
      (mark .openParen :: inner) rest best := by
  apply Accepts.kind
  apply Accepts.look
  intro start
  refine Accepts.sees false (fun c hc => ?_) ?_
  · rw [Grammar.opensWithoutElement, hc.kind_peek]
    simpa using hhead
  · apply Accepts.bind (Accepts.expectMark .openParen)
    intro _ _
    apply Accepts.bind hfirst
    intro first hgood
    apply Accepts.isAt
    rw [if_neg (by simpa using hmiddle)]
    exact hrest start first hgood

theorem group_accepts {inner : List Piece} {good : Pattern -> Prop}
    (hhead : ¬ headKind (inner ++ mark .closeParen :: rest) ∈
      [.mark .closeParen, .lineBreak, .mark .semicolon])
    (h : Accepts room (Grammar.orPattern (Level.ofRoom room))
      (inner ++ mark .closeParen :: rest) (mark .closeParen :: rest) good) :
    Accepts (room + 1) (Grammar.subpattern (Level.ofRoom (room + 1))) (parens inner ++ rest) rest
      good := by
  rw [parens, List.cons_append, List.append_assoc, List.singleton_append]
  apply parenthesized_accepts hhead h.nested (by simp [mark])
  intro start first hfirst
  apply Accepts.bind (Accepts.enclosedRestGroup rfl)
  intro form hform
  apply Accepts.look
  intro span
  rw [hform]
  exact Accepts.pure hfirst

theorem tuple_accepts {elements : List Pattern} {span : Span} (hne : elements ≠ [])
    (hprintable : forall pattern, pattern ∈ elements -> pattern.isPrintable = true)
    (hreads : forall pattern, pattern ∈ elements -> pattern.Reads)
    (hlevels : forall pattern, pattern ∈ elements -> pattern.levels <= room) :
    Accepts (room + 1) (Grammar.subpattern (Level.ofRoom (room + 1)))
      (parens (printsBefore (mark .semicolon) elements) ++ rest) rest
      (fun read => read.erase = (tuple elements span).erase) := by
  have helement : forall pattern, pattern ∈ elements -> forall rest,
      Accepts (room + 1) (Level.ofRoom (room + 1)).pattern
        (pattern.print ++ mark .semicolon :: rest) (mark .semicolon :: rest)
        (fun read => read.erase = pattern.erase) := fun pattern hmem rest =>
    (hreads pattern hmem).element (hprintable pattern hmem) (hlevels pattern hmem)
      (by simp [mark])
  have hlayout : forall pattern, pattern ∈ elements -> forall rest,
      ¬ headKind (pattern.print ++ rest) ∈ [.mark .closeParen, .lineBreak, .mark .semicolon] :=
    fun pattern hmem rest =>
      layout_of_patternStarts _ (headKind_print (hprintable pattern hmem) rest)
  cases elements with
  | nil => exact absurd rfl hne
  | cons first more =>
      rw [printsBefore_eq_flatMap, parens, List.cons_append, List.flatMap_cons,
        List.append_assoc, List.append_assoc, List.append_assoc, List.singleton_append,
        List.singleton_append]
      apply parenthesized_accepts (hlayout first (by simp) _) (helement first (by simp) _)
        (by simp [mark])
      intro start value hvalue
      refine Accepts.bind (Accepts.enclosedRestSequence rfl
        (fun pattern hmem => helement pattern (by simp [hmem])) ?_) (fun form hform => ?_)
      · intro pattern hmem rest
        have hkind := hlayout pattern (by simp [hmem]) rest
        simp only [List.mem_cons, List.not_mem_nil, or_false, not_or] at hkind ⊢
        exact ⟨hkind.2.1, hkind.1⟩
      · rcases hform with ⟨later, hform, hlater⟩
        apply Accepts.look
        intro span
        rw [hform]
        exact Accepts.pure (by
          simp only [erase, eraseAll_eq_map, List.map_cons, hvalue, hlater])

theorem annotate_accepts {type : TypeExpr} {span : Span} (hprintable : pattern.isPrintable = true)
    (hreads : pattern.Reads) (hlevels : pattern.levels <= room)
    (htype : type.isPrintable = true) (htypeLevels : type.levels <= room) :
    Accepts (room + 1) (Grammar.subpattern (Level.ofRoom (room + 1)))
      ((annotate pattern type span).print ++ rest) rest
      (fun read => read.erase = (annotate pattern type span).erase) := by
  have hprint : (annotate pattern type span).print ++ rest = mark .openParen ::
      (pattern.print ++ mark .doubleColon :: (type.print ++ mark .closeParen :: rest)) := by
    simp [print, parens]
  rw [hprint]
  apply Accepts.kind
  apply Accepts.look
  intro start
  refine Accepts.sees false (fun c hc => ?_) ?_
  · rw [Grammar.opensWithoutElement, hc.kind_peek]
    simpa using layout_of_patternStarts _ (headKind_print hprintable _)
  · apply Accepts.bind (Accepts.expectMark .openParen)
    intro _ _
    apply Accepts.bind (hreads.element hprintable hlevels (by simp [mark]))
    intro first hfirst
    apply Accepts.isAt
    rw [if_pos (by simp [mark])]
    apply Accepts.bind Accepts.advance
    intro _ _
    apply Accepts.bind (Accepts.noLineBreaks (TypeExpr.headKind_ne_lineBreak htype _))
    intro _ _
    apply Accepts.bind ((type.reads htype).element htypeLevels
      ⟨pauses_mark rfl, by simp [mark]⟩)
    intro read hread
    apply Accepts.bind (Accepts.expectMark .closeParen)
    intro _ _
    apply Accepts.look
    intro span
    exact Accepts.pure (by simp [erase, hfirst, hread])

theorem alternatives_accepts {start : Span} (hprintable : pattern.isPrintable = true)
    (hreads : pattern.Reads) (hlevels : pattern.levels <= room)
    (hrest : headKind rest ≠ .lowercaseName) :
    Accepts room
      (Parser.repeatWhile Grammar.atOr (Grammar.alternative (Level.ofRoom room) start))
      ((.lowercaseName, "or") :: (pattern.print ++ rest)) rest
      (fun found => exists alternative, found = [alternative] ∧
        alternative.1.erase = pattern.erase) := by
  refine Accepts.repeatOnce ?_ (fun c hc => ?_) (fun c hc => ?_)
  · apply Accepts.bind Accepts.advance
    intro _ _
    apply Accepts.bind (Accepts.noLineBreaks (headKind_ne_lineBreak hprintable _))
    intro _ _
    apply Accepts.bind (hreads.operand hprintable hlevels)
    intro read hread
    apply Accepts.look
    intro span
    exact Accepts.pure hread
  · have hvalue : c.current.value = "or" := congrArg Prod.snd hc.piece_current
    simp [Grammar.atOr, Cursor.isAt, hc.kind_eq, hvalue]
  · simp [Grammar.atOr, Cursor.isAt, hc.kind_eq, hrest]

theorem or_accepts {left right : Pattern} {span : Span} (hleft : left.isPrintable = true)
    (hright : right.isPrintable = true) (hleftReads : left.Reads) (hrightReads : right.Reads)
    (hleftLevels : left.levels <= room) (hrightLevels : right.levels <= room) :
    Accepts (room + 1) (Grammar.subpattern (Level.ofRoom (room + 1)))
      ((or left right span).print ++ rest) rest
      (fun read => read.erase = (or left right span).erase) := by
  rw [print]
  refine group_accepts ?_ ?_
  · rw [List.append_assoc]
    exact layout_of_patternStarts _ (headKind_print hleft _)
  · rw [List.append_assoc]
    apply Accepts.look
    intro start
    apply Accepts.bind (hleftReads.operand hleft hleftLevels)
    intro first hfirst
    apply Accepts.bind (alternatives_accepts hright hrightReads hrightLevels (by simp [mark]))
    intro found hfound
    rcases hfound with ⟨alternative, hone, halternative⟩
    rw [hone]
    exact Accepts.pure (by
      simp [Grammar.joinAlternatives, erase, hfirst, halternative])

theorem set_accepts {name : Lexeme} {span : Span} :
    Accepts (room + 1) (Grammar.subpattern (Level.ofRoom (room + 1)))
      ((set name span).print ++ rest) rest
      (fun read => read.erase = (set name span).erase) := by
  rw [print]
  apply group_accepts (by simp [reserved])
  refine orPattern_accepts ?_ (by simp [mark])
  refine Accepts.look (fun start => Accepts.kind ?_)
  apply Accepts.bind Accepts.advance
  intro _ _
  apply Accepts.bind (Accepts.leaf _ name)
  intro read hread
  apply Accepts.look
  intro span
  exact Accepts.pure (by simp [erase, hread])

theorem variant_accepts {name : Lexeme} {elements : List Pattern} {span : Span}
    (hprintable : forall pattern, pattern ∈ elements -> pattern.isPrintable = true)
    (hreads : forall pattern, pattern ∈ elements -> pattern.Reads)
    (hlevels : forall pattern, pattern ∈ elements -> pattern.levels <= room) :
    Accepts (room + 1) (Grammar.subpattern (Level.ofRoom (room + 1)))
      ((variant name elements span).print ++ rest) rest
      (fun read => read.erase = (variant name elements span).erase) := by
  rw [print]
  apply group_accepts (by simp)
  refine orPattern_accepts ?_ (by simp [mark])
  refine Accepts.look (fun start => Accepts.kind ?_)
  apply Accepts.bind (Accepts.leaf _ name)
  intro read hread
  apply Accepts.bind (subpatterns_accepts hprintable hreads hlevels (pauses_mark rfl))
  intro found hfound
  apply Accepts.look
  intro span
  exact Accepts.pure (by simp [erase, hread, hfound])

theorem reads (pattern : Pattern) : pattern.isPrintable = true -> pattern.Reads := by
  induction pattern using Pattern.treeInduction with
  | wildcard span =>
      intro _ room rest _
      exact Accepts.kind (Accepts.bind (Accepts.expectMark .underscore)
        (fun _ _ => Accepts.pure rfl))
  | «variable» name =>
      intro _ room rest _
      refine Accepts.kind (Accepts.bind (Accepts.leaf _ name) (fun read hread => ?_))
      exact Accepts.pure (by simp [erase, hread])
  | number literal =>
      intro _ room rest _
      refine Accepts.kind (Accepts.bind (Accepts.leaf _ literal) (fun read hread => ?_))
      exact Accepts.pure (by simp [erase, hread])
  | text literal =>
      intro _ room rest _
      refine Accepts.kind (Accepts.bind (Accepts.text literal) (fun read hread => ?_))
      exact Accepts.pure (by simp [erase, hread])
  | destructure fields span ih =>
      intro hprintable room rest hlevels
      simp only [isPrintable, Bool.and_eq_true] at hprintable
      have hvalues := arePrintableFields_iff.mp hprintable.2
      cases room with
      | zero => cases hlevels
      | succ room =>
          exact destructure_accepts (by simpa using hprintable.1) hprintable.2
            (fun field hmem => ih field hmem (hvalues field hmem).2)
            (Nat.le_of_succ_le_succ hlevels)
  | unit span =>
      intro _ room rest _
      refine Accepts.kind (Accepts.look (fun start => ?_))
      refine Accepts.sees true (fun c hc => ?_) ?_
      · rw [Grammar.opensWithoutElement, hc.kind_peek]
        rfl
      · apply Accepts.bind Accepts.enclosedUnit
        intro form hform
        apply Accepts.look
        intro span
        rw [hform]
        exact Accepts.pure rfl
  | tuple elements span ih =>
      intro hprintable room rest hlevels
      rw [isPrintable, arePrintable_iff] at hprintable
      rw [print]
      rw [levels] at hlevels
      split
      · rename_i hempty
        refine Accepts.kind (Accepts.look (fun start => ?_))
        refine Accepts.sees true (fun c hc => ?_) ?_
        · rw [Grammar.opensWithoutElement, hc.kind_peek]
          rfl
        · apply Accepts.bind (Accepts.enclosedNone rfl (by decide))
          intro form hform
          apply Accepts.look
          intro span
          rw [hform, List.isEmpty_iff.mp hempty]
          exact Accepts.pure rfl
      · rename_i hne
        rw [if_neg hne] at hlevels
        cases room with
        | zero => cases hlevels
        | succ room =>
            exact tuple_accepts (by simpa using hne) hprintable
              (fun pattern hmem => ih pattern hmem (hprintable pattern hmem))
              (levelsOf_le_iff.mp (Nat.le_of_succ_le_succ hlevels))
  | or left right span hleft hright =>
      intro hprintable room rest hlevels
      simp only [isPrintable, Bool.and_eq_true] at hprintable
      rw [levels] at hlevels
      cases room with
      | zero => cases hlevels
      | succ room =>
          exact or_accepts hprintable.1 hprintable.2 (hleft hprintable.1) (hright hprintable.2)
            (by omega) (by omega)
  | annotate pattern type span ih =>
      intro hprintable room rest hlevels
      simp only [isPrintable, Bool.and_eq_true] at hprintable
      rw [levels] at hlevels
      cases room with
      | zero => cases hlevels
      | succ room =>
          exact annotate_accepts hprintable.1 (ih hprintable.1) (by omega) hprintable.2 (by omega)
  | set name span =>
      intro _ room rest hlevels
      cases room with
      | zero => cases hlevels
      | succ room => exact set_accepts
  | variant name elements span ih =>
      intro hprintable room rest hlevels
      rw [isPrintable, arePrintable_iff] at hprintable
      cases room with
      | zero => cases hlevels
      | succ room =>
          exact variant_accepts hprintable
            (fun pattern hmem => ih pattern hmem (hprintable pattern hmem))
            (levelsOf_le_iff.mp (Nat.le_of_succ_le_succ hlevels))

end Pattern

end Linewise
