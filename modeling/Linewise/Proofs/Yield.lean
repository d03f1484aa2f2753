import Linewise.Proofs.Lexing
import Linewise.Proofs.Merging
import Linewise.Proofs.Recovery

/-!
# The yield of a reading

A text that is read without a diagnostic is found again in its tree: the words of
the tree, from left to right, are the tokens of the text.  What gets lost is
layout: comments, line breaks, parentheses and separators.
-/

namespace Linewise

namespace Kind

def isLayout : Kind -> Bool
  | .comment => true
  | .lineBreak => true
  | .endOfInput => true
  | .mark .openParen => true
  | .mark .closeParen => true
  | .mark .semicolon => true
  | .mark .comma => true
  | _ => false

theorem isLayout_of_isSilent {kind : Kind} (h : kind.isSilent = true) :
    kind.isLayout = true := by
  cases kind with
  | comment => rfl
  | lineBreak => rfl
  | mark found => cases found <;> first | rfl | cases h
  | _ => cases h

theorem isLayout_of_isSingle {kind : Kind} (h : kind.isSingle = true) :
    kind.isLayout = false := by
  cases kind with
  | mark found => cases found <;> first | rfl | cases h
  | reserved word => rfl
  | capitalName => rfl
  | lowercaseName => rfl
  | number => rfl
  | text => rfl
  | _ => cases h

end Kind

/-- The words among tokens, by kind and text: all that is no layout. -/
def Token.words (tokens : List Token) : List (Kind × String) :=
  (tokens.filter (fun token => !token.kind.isLayout)).map
    (fun token => (token.kind, token.value))

def Symbol.words (script : List Symbol) : List (Kind × String) :=
  (script.filterMap Symbol.word?).filter (fun word => !word.1.isLayout)

namespace Token

theorem words_append (first second : List Token) :
    words (first ++ second) = words first ++ words second := by
  simp [words]

theorem words_of_layout {tokens : List Token}
    (h : forall t, t ∈ tokens -> t.kind.isLayout = true) : words tokens = [] := by
  have hnone : tokens.filter (fun token => !token.kind.isLayout) = [] := by
    apply List.filter_eq_nil_iff.mpr
    intro t ht
    simp [h t ht]
  simp [words, hnone]

theorem isLayout_of_isTrivia {t : Token} (h : Cursor.isTrivia t = true) :
    t.kind.isLayout = true := by
  simp only [Cursor.isTrivia, isComment, isLineBreak, Bool.or_eq_true, beq_iff_eq] at h
  rcases h with hkind | hkind
  · rw [hkind]
    rfl
  · rw [hkind]
    rfl

theorem words_singleton {token : Token} (h : token.Spelled) :
    words [token] = Symbol.words [token.symbol] := by
  rw [symbol_of_spelled h]
  cases hlayout : token.kind.isLayout with
  | false => simp [words, Symbol.words, Symbol.word?, hlayout]
  | true => simp [words, Symbol.words, Symbol.word?, hlayout]

end Token

namespace Symbol

theorem words_append (first second : List Symbol) :
    words (first ++ second) = words first ++ words second := by
  simp [words]

theorem words_announced (begun : Statement) (rest : List Symbol) :
    words (.statement begun :: rest) = words rest := rfl

theorem words_composed :
    Composed (fun script => words script = script.filterMap Symbol.word?) where
  nil := rfl
  append := by
    intro first second hfirst hsecond
    rw [words_append, hfirst, hsecond, List.filterMap_append]
  word := by
    intro kind value hkind
    simp [words, word?, Kind.isLayout_of_isSingle hkind]
  curly := by
    intro inner hinner
    have hopen : words [mark .openCurly] = [mark .openCurly].filterMap word? := by decide
    have hclose : words [mark .closeCurly] = [mark .closeCurly].filterMap word? := by decide
    rw [← List.singleton_append, words_append, words_append, hinner, hopen, hclose]
    simp only [List.filterMap_append]
  square := by
    intro inner hinner
    have hopen : words [mark .openBracket] = [mark .openBracket].filterMap word? := by decide
    have hclose : words [mark .closeBracket] = [mark .closeBracket].filterMap word? := by decide
    rw [← List.singleton_append, words_append, words_append, hinner, hopen, hclose]
    simp only [List.filterMap_append]
  announced := by
    intro begun rest hrest
    exact hrest

end Symbol

/-!
## The account of the words
-/

def SameWords (read : List Token) (noted : List Diagnostic) (script : List Symbol) : Prop :=
  noted = [] -> Token.words read = Symbol.words script

namespace SameWords

theorem append {read read' : List Token} {noted noted' : List Diagnostic}
    {script script' : List Symbol} (first : SameWords read noted script)
    (second : SameWords read' noted' script') :
    SameWords (read ++ read') (noted ++ noted') (script ++ script') := by
  intro hnone
  rcases List.append_eq_nil_iff.mp hnone with ⟨hnoted, hnoted'⟩
  rw [Token.words_append, Symbol.words_append, first hnoted, second hnoted']

theorem layout {read : List Token} (h : forall t, t ∈ read -> t.kind.isLayout = true) :
    SameWords read [] [] := fun _ => Token.words_of_layout h

theorem trivia {read : List Token} (h : forall t, t ∈ read -> Cursor.isTrivia t = true) :
    SameWords read [] [] := layout (fun t ht => Token.isLayout_of_isTrivia (h t ht))

theorem word {token : Token} (h : token.Spelled) : SameWords [token] [] [token.symbol] :=
  fun _ => Token.words_singleton h

end SameWords

def yieldRecovery : Recovery where
  Admits := fun token => token.Spelled ∧ token.Quoted
  Ends := fun token => token.kind = .endOfInput
  Holds := fun read _ noted script => SameWords read noted script
  quoted := fun h => h.2
  ends := fun h => h
  nil := fun _ _ => rfl
  append := SameWords.append
  silent := by
    intro token rest hsilent
    apply SameWords.layout
    intro t ht
    rw [List.mem_singleton.mp ht]
    exact Kind.isLayout_of_isSilent hsilent
  word := fun _ hadmits _ => SameWords.word hadmits.1
  group := by
    intro read rest noted before inner _ hholds hnone
    rw [hholds hnone, Symbol.words_append, Symbol.words_append]
    have hopen : Symbol.words (.mark .openParen :: (inner ++ [.mark .closeParen])) =
        Symbol.words (inner ++ [.mark .closeParen]) := rfl
    have hclose : Symbol.words [.mark .closeParen] = [] := rfl
    rw [hopen, Symbol.words_append, hclose, List.append_nil]
  Lists := fun _ read _ noted script => SameWords read noted script
  none := fun _ => rfl
  trivia := by
    intro terminator read read' d noted script htrivia hlists
    exact (SameWords.trivia htrivia).append hlists
  told := fun _ _ _ _ hholds => hholds
  failed := by
    intro terminator read noted skipped diagnostic c d e _ _ _ _ _ _ _ _ hnone
    simp at hnone
  next := by
    intro terminator read noted script read' noted' script' d e hlists _ hbreak _ hlists'
    have hgap : SameWords (d.ahead.takeWhile Token.isComment ++ [d.current]) [] [] := by
      apply SameWords.trivia
      intro t ht
      rcases List.mem_append.mp ht with hcomment | hcurrent
      · exact Cursor.isTrivia_of_comments hcomment
      · have hkind : d.current.kind = .lineBreak := hbreak
        rw [List.mem_singleton.mp hcurrent]
        simp [Cursor.isTrivia, Token.isLineBreak, hkind]
    exact hlists.append (hgap.append hlists')
  close := by
    intro opening d read noted script hopening hadmits hlists hfits hclosing
    have hadmits' := hfits.admits_current (by simp [hclosing])
    have hcomments : SameWords (d.ahead.takeWhile Token.isComment) [] [] :=
      SameWords.trivia (fun t ht => Cursor.isTrivia_of_comments ht)
    have hopen : opening.symbol = .mark .openCurly := by
      simp [Token.symbol, Kind.symbol, hopening, Kind.spelling?, Symbol.mark]
    have hclose : d.current.symbol = .mark .closeCurly := by
      have hkind : d.current.kind = .mark .closeCurly := hclosing
      simp [Token.symbol, Kind.symbol, hkind, Kind.spelling?, Symbol.mark]
    rw [← hopen, ← hclose]
    have hall := (SameWords.word hadmits.1).append
      (hlists.append (hcomments.append (SameWords.word hadmits'.1)))
    simpa using hall
  unlist := by
    intro read rest noted before after begun hholds _ hnone
    rw [hholds hnone, Symbol.words_append, Symbol.words_append, Symbol.words_announced]

/-!
## Source texts
-/

theorem admits_tokenize {source : String} {t : Token} (h : t ∈ (tokenize source).1) :
    t.Spelled ∧ t.Quoted := by
  rcases tokenize_wellFormed source with ⟨body, stop, htokens, hbody⟩
  rw [htokens] at h
  rcases List.mem_append.mp h with hmem | hend
  · exact ⟨(hbody t hmem).spelled, (hbody t hmem).quoted⟩
  · rw [List.mem_singleton.mp hend]
    constructor
    · intro spelling hspelling
      cases hspelling
    · intro hkind
      cases hkind

theorem fits_tokenize (source : String) :
    yieldRecovery.Fits (Cursor.ofTokens (tokenize source).1) :=
  ⟨fun _ ht => admits_tokenize (Cursor.mem_of_mem_ahead ht), Cursor.final_ofTokens _⟩

theorem words_tokenize {source : String} {parsed : Parsed}
    (h : parseTokens (tokenize source).1 = .ok parsed) (hnone : parsed.errors = []) :
    parsed.file.words = Token.words (tokenize source).1 := by
  rcases parseTokens_lists yieldRecovery (fits_tokenize source) with
    ⟨parsed', read, d, hparsed, passage, hend, hlists⟩
  rw [h] at hparsed
  cases hparsed
  rcases tokenize_wellFormed source with ⟨body, stop, htokens, hbody⟩
  have hahead := passage.ahead
  rw [htokens, Cursor.ahead_ofTokens rfl] at hahead
  have hcomments := Cursor.isComment_of_end
    (fun t ht => (hbody t (by rw [hahead]; exact List.mem_append_right read ht)).inside) hend
  have hrest : Token.words d.ahead = [] := by
    apply Token.words_of_layout
    intro t ht
    apply Token.isLayout_of_isTrivia
    simp [Cursor.isTrivia, hcomments t ht]
  have hfile : Symbol.words parsed.file.script = parsed.file.words :=
    Statement.scripts_composed Symbol.words_composed parsed.file.statements
  have hlast : Token.words [Token.endAt stop] = [] := rfl
  rw [← hfile, ← hlists hnone, htokens, hahead, Token.words_append, Token.words_append, hrest,
    hlast, List.append_nil, List.append_nil]

theorem parse_eq {source : String} {parsed : Parsed}
    (h : parseTokens (tokenize source).1 = .ok parsed) :
    parse source =
      .ok { parsed with errors := mergeErrors (tokenize source).2 parsed.errors } := by
  simp only [parse, h]

/-- Every text is read, and if there is nothing to say about it, its tokens are found
again in the tree, in their order, with their kinds and with their texts. -/
theorem parse_yields_tokens (source : String) :
    exists parsed, parse source = .ok parsed ∧
      (parsed.errors = [] -> parsed.file.words = Token.words (tokenize source).1) := by
  rcases parseTokens_lists yieldRecovery (fits_tokenize source) with
    ⟨parsed, read, d, hparsed, _⟩
  refine ⟨_, parse_eq hparsed, ?_⟩
  intro hnone
  have hwords := words_tokenize hparsed (mergeErrors_eq_nil.mp hnone).2
  exact hwords

/-- In `twice : f -> (f 2) -- two` nothing but the parentheses and the comment gets
lost. -/
theorem parse_yields_tokens_twice :
    exists parsed, parse "twice : f -> (f 2) -- two" = .ok parsed ∧ parsed.errors = [] ∧
      parsed.file.words =
        [(.lowercaseName, "twice"), (.mark .colon, ":"), (.lowercaseName, "f"),
          (.mark .arrow, "->"), (.lowercaseName, "f"), (.number, "2")] := by
  rcases parse_yields_tokens "twice : f -> (f 2) -- two" with ⟨parsed, hparsed, hwords⟩
  have hnone : (parse "twice : f -> (f 2) -- two").toOption.map Parsed.errors = some [] := by
    decide +kernel
  have htokens : Token.words (tokenize "twice : f -> (f 2) -- two").1 =
      [(.lowercaseName, "twice"), (.mark .colon, ":"), (.lowercaseName, "f"),
        (.mark .arrow, "->"), (.lowercaseName, "f"), (.number, "2")] := by
    decide +kernel
  have herrors : parsed.errors = [] := by
    rw [hparsed] at hnone
    exact Option.some.inj hnone
  exact ⟨parsed, hparsed, herrors, (hwords herrors).trans htokens⟩

end Linewise
