import Linewise.Proofs.Placement.Statement

/-!
# Trees in their places

In the tree of a source text every node but the file itself is in its place: it takes
up some of the text, from the start of a token to the end of one.  The children of
every node lie inside of it one behind the other, less the comments, which stand in
front of it.
-/

namespace Linewise

/-- The nodes of the tree of a file are in their places among the tokens. -/
structure SourceFile.InPlace (file : SourceFile) (tokens : List Token) : Prop where
  placed : forall child, child ∈ file.node.children ->
    forall n, n ∈ child.subtrees -> n.Placed tokens
  nests : forall n, n ∈ file.node.subtrees -> n.Nests

theorem SourceFile.inPlace_of_row {file : SourceFile} {tokens read : List Token}
    (hrow : Row tokens read file.node.children) (hordered : Token.Ordered read)
    (hinside : forall t, t ∈ read -> file.span.Contains t.span) : file.InPlace tokens where
  placed := fun _ hchild n hn => ((hrow.sits hchild).orderly n hn).1
  nests := by
    intro n hn
    rw [Node.subtrees_eq] at hn
    rcases List.mem_cons.mp hn with rfl | hbelow
    · constructor
      · intro child hchild _
        rcases (hrow.sits hchild).stands.begins with ⟨first, hfirst, _, hstart⟩
        rcases (hrow.sits hchild).stands.ends with ⟨final, hfinal, _, hstop⟩
        constructor
        · rw [hstart]
          exact (hinside first hfirst).1
        · rw [hstop]
          exact (hinside final hfinal).2
      · intro child hchild hcomment
        rw [(hrow.sits hchild).plain] at hcomment
        cases hcomment
      · exact hrow.apart hordered
    · rcases List.mem_flatMap.mp hbelow with ⟨child, hchild, hn⟩
      exact ((hrow.sits hchild).orderly n hn).2

theorem parseTokens_places {tokens : List Token} {parsed : Parsed}
    (hc : (Cursor.ofTokens tokens).Within tokens) (h : parseTokens tokens = .ok parsed) :
    exists d, Reached tokens (Cursor.ofTokens tokens) false parsed.file.node.children d := by
  unfold parseTokens at h
  cases hreply : Grammar.statements Level.outermost .endOfInput (Cursor.ofTokens tokens) with
  | ok found d =>
      rw [hreply] at h
      cases h
      have hlevel : Level.outermost.Places tokens := Grammar.places_ofRoom tokens _
      exact ⟨d, Grammar.statements_places hlevel .endOfInput _ found d hc hreply⟩
  | error diagnostic d =>
      rw [hreply] at h
      cases h
      exact ⟨_, Reached.refl hc⟩
  | fault found =>
      rw [hreply] at h
      cases h

/-- Spans nest in the tree of every source text. -/
theorem parse_inPlace (source : String) (hshort : Text.byteLength source.toList < 4294967296) :
    exists parsed, parse source = .ok parsed ∧ parsed.file.InPlace (tokenize source).1 := by
  have hlength : Text.byteLength source.toList <= Span.maxOffset := Nat.le_of_lt_succ hshort
  rcases tokenize_lossless source hlength with
    ⟨body, last, htokens, _, hbody, hlast, hlastSpan, _, _⟩
  have hbefore := tokenize_before hlength
  rw [htokens] at hbefore
  have hfits : plainRecovery.Fits (Cursor.ofTokens (tokenize source).1) :=
    ⟨fun t ht => (admits_tokenize (Cursor.mem_of_mem_ahead ht)).2, Cursor.final_ofTokens _⟩
  rcases parseTokens_lists plainRecovery hfits with ⟨parsed, _, _, hparsed, _⟩
  refine ⟨_, parse_eq hparsed, ?_⟩
  rw [htokens] at hfits hparsed ⊢
  have hwithin : (Cursor.ofTokens (body ++ [last])).Within (body ++ [last]) := by
    refine ⟨hfits, ?_, fun t ht => Cursor.mem_of_mem_ahead ht⟩
    rw [Cursor.ahead_ofTokens hlast]
    exact Token.Ordered.ofText hbefore
  rcases parseTokens_places hwithin hparsed with ⟨d, hreached⟩
  rcases hreached.row with ⟨read, noted, passage, hrow, _⟩
  apply SourceFile.inPlace_of_row hrow (hwithin.ordered_read passage)
  intro t ht
  have hahead := passage.ahead
  rw [Cursor.ahead_ofTokens hlast] at hahead
  have hmem : t ∈ body := by
    rw [hahead]
    exact List.mem_append_left d.ahead ht
  have hbehind := ((List.pairwise_append.mp hbefore).2.2 t hmem last (by simp)).behind
  rw [hlastSpan] at hbehind
  rw [parseTokens_span plainRecovery hlast hbody hfits hparsed, hlastSpan,
    Span.between_eq (Nat.zero_le _) hlength]
  exact ⟨Nat.zero_le _, hbehind⟩

/-- A comment above a constant, with a type in parentheses, and a block with an error. -/
theorem parse_inPlace_constant :
    exists parsed, parse "-- d\nx :: (A)\n\x7b $\nz \x7d" = .ok parsed ∧
      parsed.file.InPlace (tokenize "-- d\nx :: (A)\n\x7b $\nz \x7d").1 ∧
      parsed.file.node.listing =
        [("source_file", ⟨0, 21⟩), ("constant_definition_statement", ⟨5, 13⟩),
          ("comment", ⟨0, 4⟩), ("variable_name", ⟨5, 6⟩), ("type_annotation", ⟨10, 13⟩),
          ("named_type", ⟨11, 12⟩), ("type_name", ⟨11, 12⟩),
          ("expression_statement", ⟨14, 21⟩), ("block_expression", ⟨14, 21⟩),
          ("ERROR", ⟨16, 17⟩), ("expression_statement", ⟨18, 19⟩),
          ("variable_name_expression", ⟨18, 19⟩), ("variable_name", ⟨18, 19⟩)] := by
  have hlength : Text.byteLength "-- d\nx :: (A)\n\x7b $\nz \x7d".toList = 21 := by
    decide +kernel
  rcases parse_inPlace "-- d\nx :: (A)\n\x7b $\nz \x7d" (by rw [hlength]; decide) with
    ⟨parsed, hparsed, hplaced⟩
  have hlisting : (parse "-- d\nx :: (A)\n\x7b $\nz \x7d").toOption.map
      (fun parsed => parsed.file.node.listing) =
      some [("source_file", ⟨0, 21⟩), ("constant_definition_statement", ⟨5, 13⟩),
        ("comment", ⟨0, 4⟩), ("variable_name", ⟨5, 6⟩), ("type_annotation", ⟨10, 13⟩),
        ("named_type", ⟨11, 12⟩), ("type_name", ⟨11, 12⟩),
        ("expression_statement", ⟨14, 21⟩), ("block_expression", ⟨14, 21⟩),
        ("ERROR", ⟨16, 17⟩), ("expression_statement", ⟨18, 19⟩),
        ("variable_name_expression", ⟨18, 19⟩), ("variable_name", ⟨18, 19⟩)] := by
    decide +kernel
  rw [hparsed] at hlisting
  exact ⟨parsed, hparsed, hplaced, Option.some.inj hlisting⟩

end Linewise
