import Linewise.Proofs.Yield

/-!
# Diagnostics and error statements

Every error statement in a tree is the fault of a token of its own, at which a
diagnostic was noted, and where something was noted there is an error statement.
-/

namespace Linewise

def Symbol.errorCount (script : List Symbol) : Nat :=
  ((script.filterMap Symbol.statement?).filter Statement.isError).length

namespace Symbol

theorem errorCount_append (first second : List Symbol) :
    errorCount (first ++ second) = errorCount first + errorCount second := by
  simp [errorCount]

theorem errorCount_mark (found : Mark) (rest : List Symbol) :
    errorCount (mark found :: rest) = errorCount rest := rfl

theorem errorCount_announced {begun : Statement} (h : begun.isError = false)
    (rest : List Symbol) : errorCount (.statement begun :: rest) = errorCount rest := by
  simp [errorCount, statement?, h]

theorem errorCount_error (span : Span) : errorCount (Statement.error span).script = 1 := by
  rw [Statement.script, Statement.contents]
  rfl

end Symbol

/-!
## The account of the blame
-/

/-- The diagnostics noted and the error statements of a script go together, and
each of these statements has a token to blame, in the order of the tokens. -/
structure Blames (read : List Token) (noted : List Diagnostic) (script : List Symbol) : Prop where
  nothing : noted = [] <-> Symbol.errorCount script = 0
  blamed : exists blamed : List Token, blamed.Sublist read ∧
    blamed.length = Symbol.errorCount script ∧
    (blamed.map (fun token => token.span)).Sublist (noted.map Diagnostic.span)

namespace Blames

variable {read read' : List Token} {noted noted' : List Diagnostic}
  {script script' : List Symbol}

theorem nobody (h : Symbol.errorCount script = 0) : Blames read [] script where
  nothing := by simp [h]
  blamed := ⟨[], List.nil_sublist read, by simp [h], List.nil_sublist _⟩

theorem append (first : Blames read noted script) (second : Blames read' noted' script') :
    Blames (read ++ read') (noted ++ noted') (script ++ script') where
  nothing := by
    rw [List.append_eq_nil_iff, first.nothing, second.nothing, Symbol.errorCount_append]
    omega
  blamed := by
    rcases first.blamed with ⟨blamed, hread, hcount, hnoted⟩
    rcases second.blamed with ⟨blamed', hread', hcount', hnoted'⟩
    exists blamed ++ blamed', hread.append hread'
    constructor
    · rw [List.length_append, hcount, hcount', Symbol.errorCount_append]
    · rw [List.map_append, List.map_append]
      exact hnoted.append hnoted'

theorem mono (h : Blames read noted script) (hread : read.Sublist read') :
    Blames read' noted script where
  nothing := h.nothing
  blamed := by
    rcases h.blamed with ⟨blamed, hblamed, hrest⟩
    exact ⟨blamed, hblamed.trans hread, hrest⟩

theorem restate (h : Blames read noted script)
    (hcount : Symbol.errorCount script = Symbol.errorCount script') :
    Blames read noted script' where
  nothing := by rw [h.nothing, hcount]
  blamed := by
    rw [← hcount]
    exact h.blamed

/-- A statement that was given up blames one token, whatever was noted before. -/
theorem givenUp {token : Token} {diagnostic : Diagnostic} {span : Span} (h : token ∈ read)
    (hspan : diagnostic.span = token.span) :
    Blames read (noted ++ [diagnostic]) (Statement.error span).script where
  nothing := by simp [Symbol.errorCount_error]
  blamed := by
    exists [token], List.singleton_sublist.mpr h
    constructor
    · rw [Symbol.errorCount_error, List.length_singleton]
    · rw [List.map_append, List.map_singleton, List.map_singleton, hspan]
      exact List.sublist_append_right _ _

end Blames

def blameRecovery : Recovery where
  Admits := fun token => token.Quoted
  Ends := fun token => token.kind = .endOfInput
  Holds := fun read _ noted script => Blames read noted script
  quoted := fun h => h
  ends := fun h => h
  nil := fun _ => Blames.nobody rfl
  append := Blames.append
  silent := fun _ _ => Blames.nobody rfl
  word := fun _ _ _ => Blames.nobody rfl
  group := by
    intro read rest noted before inner _ hholds
    apply hholds.restate
    simp only [Symbol.errorCount_append, Symbol.errorCount_mark]
    rfl
  Lists := fun _ read d noted script => Blames (read ++ [d.current]) noted script
  none := Blames.nobody rfl
  trivia := by
    intro terminator read read' d noted script _ hlists
    apply hlists.mono
    rw [List.append_assoc]
    exact List.sublist_append_right read (read' ++ [d.current])
  told := by
    intro terminator read noted c d found _ _ _ hspans hholds
    have hfound : Blames read noted found.script :=
      hholds.restate (Symbol.errorCount_announced hspans.notError _).symm
    exact hfound.mono (List.sublist_append_left read [d.current])
  failed := by
    intro terminator read noted skipped diagnostic c d e _ _ _ hspan _ _ hskip hcurrent
    apply Blames.givenUp _ hspan
    rcases hcurrent with hmem | hnone
    · simp [hmem]
    · rw [hnone] at hskip
      have hsame : e.current = d.current := hskip.current_eq
      simp [hsame]
  next := by
    intro terminator read noted script read' noted' script' d e hlists _ _ _ hlists'
    apply (hlists.append hlists').mono
    have hbreak : [d.current].Sublist (d.ahead.takeWhile Token.isComment ++ [d.current]) :=
      List.sublist_append_right _ _
    rw [List.append_assoc read, List.append_assoc read]
    apply (List.Sublist.refl read).append
    rw [List.append_assoc _ read']
    exact hbreak.append (List.Sublist.refl (read' ++ [e.current]))
  close := by
    intro opening d read noted script _ _ hlists _ _
    have hread : (read ++ [d.current]).Sublist
        (opening :: (read ++ (d.ahead.takeWhile Token.isComment ++ [d.current]))) :=
      ((List.Sublist.refl read).append (List.sublist_append_right _ _)).cons opening
    apply (hlists.mono hread).restate
    rw [Symbol.errorCount_mark, Symbol.errorCount_append]
    rfl
  unlist := by
    intro read rest noted before after begun hholds herror
    apply hholds.restate
    rw [Symbol.errorCount_append, Symbol.errorCount_announced herror, Symbol.errorCount_append]

/-!
## Tokens and source texts
-/

/-- Nothing is to be said about a file exactly if it holds no error statement at any
level, and there are at least as many diagnostics as error statements. -/
structure Parsed.Agrees (parsed : Parsed) : Prop where
  nothing : parsed.errors = [] <->
    forall found, found ∈ parsed.file.allStatements -> found.isError = false
  count : (parsed.file.allStatements.filter Statement.isError).length <= parsed.errors.length

theorem errorCount_eq_zero {file : SourceFile} : Symbol.errorCount file.script = 0 <->
    forall found, found ∈ file.allStatements -> found.isError = false := by
  rw [Symbol.errorCount, List.length_eq_zero_iff, List.filter_eq_nil_iff]
  simp only [Bool.not_eq_true]
  rfl

theorem Blames.agrees {parsed : Parsed} {read : List Token}
    (h : Blames read parsed.errors parsed.file.script) : parsed.Agrees where
  nothing := h.nothing.trans errorCount_eq_zero
  count := by
    rcases h.blamed with ⟨blamed, _, hcount, hnoted⟩
    have hlength := hnoted.length_le
    rw [List.length_map, List.length_map, hcount] at hlength
    exact hlength

theorem Symbol.recognised_composed :
    Composed (fun script => forall value, .word .unrecognised value ∉ script) where
  nil := by simp
  append := by
    intro first second hfirst hsecond value
    simp [hfirst value, hsecond value]
  word := by
    intro kind value hkind other hother
    cases List.mem_singleton.mp hother
    cases hkind
  curly := by
    intro inner hinner value
    simp [mark, hinner value]
  square := by
    intro inner hinner value
    simp [mark, hinner value]
  announced := by
    intro begun rest hrest value
    simp [hrest value]

/-- A stray character never gets into a tree, so it is noted a second time. -/
theorem lexical_eq_nil {source : String} {parsed : Parsed}
    (h : parseTokens (tokenize source).1 = .ok parsed) (hnone : parsed.errors = []) :
    (tokenize source).2 = [] := by
  apply List.eq_nil_iff_forall_not_mem.mpr
  intro diagnostic hdiagnostic
  rcases tokenize_stray hdiagnostic with ⟨t, ht, hkind, _⟩
  have hword : (t.kind, t.value) ∈ Token.words (tokenize source).1 := by
    apply List.mem_map.mpr
    exists t
    constructor
    · apply List.mem_filter.mpr
      constructor
      · exact ht
      · rw [hkind]
        rfl
    · rfl
  rw [← words_tokenize h hnone, hkind] at hword
  rcases List.mem_filterMap.mp hword with ⟨symbol, hsymbol, hsome⟩
  cases symbol with
  | statement begun => cases hsome
  | word kind value =>
      cases hsome
      exact Statement.scripts_composed Symbol.recognised_composed parsed.file.statements _ hsymbol

theorem nodup_spans {tokens : List Token} (h : tokens.Pairwise Token.Before) :
    (tokens.map (fun token => token.span)).Nodup := by
  rw [List.Nodup, List.pairwise_map]
  apply h.imp
  intro first second hbefore hsame
  have hstart := hbefore.nonempty
  have hstop := hbefore.behind
  rw [← hsame] at hstop
  omega

theorem read_sublist {body read : List Token} {last : Token} {noted : List Diagnostic}
    {d : Cursor} (hlast : last.kind = .endOfInput)
    (hinside : forall t, t ∈ body -> t.kind ≠ .endOfInput)
    (passage : (Cursor.ofTokens (body ++ [last])).Passage read noted d)
    (hend : d.kind = .endOfInput) : (read ++ [d.current]).Sublist (body ++ [last]) := by
  have hahead := passage.ahead
  have hfinal := passage.final
  rw [Cursor.ahead_ofTokens hlast] at hahead
  rw [Cursor.final_ofTokens_append hlast] at hfinal
  have hcurrent : d.current = last := by
    rw [← hfinal]
    apply Cursor.current_of_end _ hend
    intro t ht
    apply hinside t
    rw [hahead]
    exact List.mem_append_right read ht
  rw [hcurrent, hahead]
  exact (List.sublist_append_left read d.ahead).append (List.Sublist.refl [last])

theorem fits_quoted {tokens : List Token} (h : forall t, t ∈ tokens -> t.Quoted) :
    blameRecovery.Fits (Cursor.ofTokens tokens) :=
  ⟨fun t ht => h t (Cursor.mem_of_mem_ahead ht), Cursor.final_ofTokens tokens⟩

theorem parse_agrees {source : String}
    (hshort : Text.byteLength source.toList <= Span.maxOffset) :
    exists parsed, parse source = .ok parsed ∧ parsed.Agrees := by
  have hquoted : forall t, t ∈ (tokenize source).1 -> t.Quoted :=
    fun _ ht => (admits_tokenize ht).2
  rcases parseTokens_lists blameRecovery (fits_quoted hquoted) with
    ⟨parsed, read, d, hparsed, passage, hend, hlists⟩
  have hlists : Blames (read ++ [d.current]) parsed.errors parsed.file.script := hlists
  refine ⟨_, parse_eq hparsed, ?_, ?_⟩
  · rw [mergeErrors_eq_nil, ← hlists.agrees.nothing]
    constructor
    · intro hnone
      exact hnone.2
    · intro hnone
      exact ⟨lexical_eq_nil hparsed hnone, hnone⟩
  · rcases hlists.blamed with ⟨blamed, hread, hcount, hnoted⟩
    rcases tokenize_wellFormed source with ⟨body, stop, htokens, hbody⟩
    have hbefore := tokenize_before hshort
    rw [htokens] at passage hbefore
    have hsublist := hread.trans
      (read_sublist rfl (fun t ht => (hbody t ht).inside) passage hend)
    have hnodup := nodup_spans (hbefore.sublist hsublist)
    have hlength := length_le_mergeErrors (tokenize source).2 hnodup
      (fun span hspan => hnoted.subset hspan)
    rw [List.length_map, hcount] at hlength
    exact hlength

/-- Diagnostics and error statements agree, for tokens whose texts are quoted and for
source texts whose length a span can hold. -/
theorem errors_agree :
    (forall tokens : List Token, (forall t, t ∈ tokens -> t.Quoted) ->
      exists parsed, parseTokens tokens = .ok parsed ∧ parsed.Agrees) ∧
    (forall source : String, Text.byteLength source.toList < 4294967296 ->
      exists parsed, parse source = .ok parsed ∧ parsed.Agrees) := by
  constructor
  · intro tokens hquoted
    rcases parseTokens_lists blameRecovery (fits_quoted hquoted) with
      ⟨parsed, read, d, hparsed, _, _, hlists⟩
    have hlists : Blames (read ++ [d.current]) parsed.errors parsed.file.script := hlists
    exact ⟨parsed, hparsed, hlists.agrees⟩
  · intro source hshort
    exact parse_agrees (Nat.le_of_lt_succ hshort)

/-- One line of the block in `f : {`, `x $`, `y : 1`, `}` cannot be read. -/
theorem errors_agree_block :
    exists parsed, parse "f : \x7b\nx $\ny : 1\n\x7d" = .ok parsed ∧ parsed.Agrees ∧
      parsed.errors.length = 1 ∧
      (parsed.file.allStatements.filter Statement.isError).length = 1 := by
  have hshort : Text.byteLength "f : \x7b\nx $\ny : 1\n\x7d".toList < 4294967296 := by
    decide +kernel
  rcases errors_agree.2 "f : \x7b\nx $\ny : 1\n\x7d" hshort with ⟨parsed, hparsed, hagrees⟩
  have hcounts : (parse "f : \x7b\nx $\ny : 1\n\x7d").toOption.map (fun parsed =>
      (parsed.errors.length,
        (parsed.file.allStatements.filter Statement.isError).length)) = some (1, 1) := by
    decide +kernel
  rw [hparsed] at hcounts
  have hcounts := Prod.mk.inj (Option.some.inj hcounts)
  exact ⟨parsed, hparsed, hagrees, hcounts.1, hcounts.2⟩

end Linewise
