import Linewise.Proofs.Account

/-!
# Accounts of the combinators

What the parsers of single tokens read, and what trying, nesting, repeating and
the shared layouts make of a parser whose account is known.
-/

namespace Linewise
namespace Account

open Linewise.Parser

variable {α β : Type} {A : Account}

/-- The parser failed in `d` at the token it stopped at, and it is known how. -/
def Stops (A : Account) (c : Cursor) (diagnostic : Diagnostic) (d : Cursor) : Prop :=
  exists read noted, c.Passage read noted d ∧ diagnostic.span = d.current.span ∧
    A.Fails read d.current noted diagnostic

theorem Stops.at (A : Account) (c : Cursor) (cause : Cause) :
    A.Stops c { cause := cause, span := c.current.span } c :=
  ⟨[], [], Cursor.Passage.refl c, rfl, A.stops _ _⟩

theorem Stops.behind {c d e : Cursor} {read : List Token} {noted : List Diagnostic}
    {script : List Symbol} {diagnostic : Diagnostic} (passage : c.Passage read noted d)
    (hholds : A.Holds read d.ahead noted script) (h : A.Stops d diagnostic e) :
    A.Stops c diagnostic e := by
  rcases h with ⟨read', noted', passage', hspan, hfails⟩
  rw [passage'.ahead] at hholds
  exact ⟨_, _, passage.trans passage', hspan, A.behind hholds hfails⟩

theorem ReadsIf.intro {least : Nat} {pre : Cursor -> Prop} {parser : Parser α}
    {script : α -> List Symbol}
    (h : forall c, A.Fits c -> pre c -> (parser c).Satisfies
      (fun value d => exists read noted, c.Passage read noted d ∧ least <= read.length ∧
        A.Holds read d.ahead noted (script value))
      (A.Stops c)) :
    A.ReadsIf least pre parser script := by
  intro c hc hpre
  refine (h c hc hpre).mono ?_ ?_
  · rintro value d ⟨read, noted, passage, hleast, hholds⟩
    exact ⟨read, noted, passage, hleast, fun _ _ held => A.append held hholds⟩
  · rintro diagnostic d ⟨read, noted, passage, hspan, hfails⟩
    exact ⟨read, noted, passage, hspan, fun _ _ held => A.behind held hfails⟩

theorem ReadsIf.elim {least : Nat} {pre : Cursor -> Prop} {parser : Parser α}
    {script : α -> List Symbol} (h : A.ReadsIf least pre parser script) {c : Cursor}
    (hc : A.Fits c) (hpre : pre c) :
    (parser c).Satisfies
      (fun value d => exists read noted, c.Passage read noted d ∧ least <= read.length ∧
        A.Holds read d.ahead noted (script value))
      (A.Stops c) := by
  refine (h c hc hpre).mono ?_ ?_
  · rintro value d ⟨read, noted, passage, hleast, hholds⟩
    exact ⟨read, noted, passage, hleast, hholds [] [] (A.nil _)⟩
  · rintro diagnostic d ⟨read, noted, passage, hspan, hfails⟩
    exact ⟨read, noted, passage, hspan, hfails [] [] (A.nil _)⟩

/-!
## Single tokens
-/

theorem holds_trivia {read : List Token} (h : forall t, t ∈ read -> Cursor.isTrivia t = true)
    (rest : List Token) : A.Holds read rest [] [] := by
  induction read with
  | nil => exact A.nil rest
  | cons token read ih =>
      have hsilent : token.kind.isSilent = true := by
        have htoken := h token (by simp)
        simp only [Cursor.isTrivia, Token.isComment, Token.isLineBreak, Bool.or_eq_true,
          beq_iff_eq] at htoken
        rcases htoken with hkind | hkind
        · rw [hkind]
          rfl
        · rw [hkind]
          rfl
      exact A.append (A.silent (read ++ rest) hsilent) (ih (fun t ht => h t (by simp [ht])))

/-- Reading the current token is an account of it alone, since the comments in front
leave nothing. -/
theorem holds_advance {c : Cursor} {script : List Symbol}
    (h : A.Holds [c.current] c.advance.ahead [] script) :
    A.Holds (c.ahead.takeWhile Token.isComment ++ [c.current]) c.advance.ahead [] script :=
  A.append (holds_trivia (fun _ ht => Cursor.isTrivia_of_comments ht) _) h

theorem Fits.admits_current {c : Cursor} (hc : A.Fits c) (h : c.kind ≠ .endOfInput) :
    A.Admits c.current := by
  rcases Cursor.significant_of_kind_ne hc.final h with ⟨rest, hrest⟩
  exact hc.tokens _ (Cursor.mem_ahead_of_significant hrest)

theorem ReadsIf.advanceToken {pre : Cursor -> Prop}
    (h : forall c, pre c -> c.kind.isWord = true) :
    A.ReadsIf 1 pre advance (fun token => [token.symbol]) := by
  apply ReadsIf.intro
  intro c hc hpre
  have hword := h c hpre
  have hkind := Kind.ne_end_of_isWord hword
  exact ⟨_, _, Cursor.advance_passage hc.final hkind, by simp,
    holds_advance (A.word _ (hc.admits_current hkind) hword)⟩

theorem ReadsIf.advanceWord {pre : Cursor -> Prop} {symbol : Symbol}
    (h : forall c, pre c -> c.kind.isWord = true ∧ c.current.symbol = symbol) :
    A.ReadsIf 1 pre advance (fun _ => [symbol]) := by
  intro c hc hpre
  have hreply := ReadsIf.advanceToken (A := A) (fun d hd => (h d hd).1) c hc hpre
  rw [← (h c hpre).2]
  exact hreply

theorem ReadsIf.advanceAt {pre : Cursor -> Prop} {kind : Kind} {value : String}
    (hvalue : kind.spelling? = some value) (h : forall c, pre c -> c.kind = kind) :
    A.ReadsIf 1 pre advance (fun _ => [.word kind value]) := by
  apply ReadsIf.advanceWord
  intro c hpre
  constructor
  · rw [h c hpre]
    cases kind with
    | endOfInput => cases hvalue
    | unrecognised => cases hvalue
    | _ => rfl
  · have hcurrent : c.current.kind = kind := h c hpre
    simp [Token.symbol, Kind.symbol, hcurrent, hvalue]

theorem ReadsIf.advanceMark {pre : Cursor -> Prop} (mark : Mark)
    (h : forall c, pre c -> c.kind = .mark mark) :
    A.ReadsIf 1 pre advance (fun _ => [.mark mark]) := ReadsIf.advanceAt rfl h

theorem ReadsIf.advanceReserved {pre : Cursor -> Prop} (word : ReservedWord)
    (h : forall c, pre c -> c.kind = .reserved word) :
    A.ReadsIf 1 pre advance (fun _ => [.reserved word]) := ReadsIf.advanceAt rfl h

theorem ReadsIf.advanceSilent {pre : Cursor -> Prop}
    (h : forall c, pre c -> c.kind.isSilent = true) :
    A.ReadsIf 1 pre advance (fun _ => []) := by
  apply ReadsIf.intro
  intro c hc hpre
  have hsilent := h c hpre
  have hkind : c.kind ≠ .endOfInput := by
    intro hend
    rw [hend] at hsilent
    cases hsilent
  exact ⟨_, _, Cursor.advance_passage hc.final hkind, by simp,
    holds_advance (A.silent _ hsilent)⟩

theorem Reads.expectAs {kind : Kind} (hkind : kind.isWord = true) (description : String) :
    A.Reads 1 (expectAs kind description) (fun token => [kind.symbol token.value]) := by
  apply ReadsIf.intro
  intro c hc _
  unfold Parser.expectAs expectOr
  split
  · rename_i hat
    have hcurrent : c.kind = kind := by simpa [Cursor.isAt] using hat
    have hsymbol : kind.symbol c.current.value = c.current.symbol := by
      rw [← hcurrent]
      rfl
    have hword : c.kind.isWord = true := by rwa [hcurrent]
    have hne := Kind.ne_end_of_isWord hword
    rw [Reply.Satisfies, hsymbol]
    exact ⟨_, _, Cursor.advance_passage hc.final hne, by simp,
      holds_advance (A.word _ (hc.admits_current hne) hword)⟩
  · exact Stops.at A c _

theorem Reads.expectMark (mark : Mark) :
    A.Reads 1 (expect (.mark mark)) (fun _ => [.mark mark]) := Reads.expectAs rfl _

theorem Reads.expectReserved (word : ReservedWord) :
    A.Reads 1 (expect (.reserved word)) (fun _ => [.reserved word]) :=
  Reads.expectAs rfl _

theorem Reads.skipLineBreaks : A.Reads 0 skipLineBreaks (fun _ => []) := by
  apply ReadsIf.intro
  intro c _ _
  rcases c.skipLineBreaks_passage with ⟨read, passage, htrivia⟩
  exact ⟨read, [], passage, Nat.zero_le _, holds_trivia htrivia _⟩

/-!
## Names and literals
-/

theorem Reads.leaf {kind : Kind} (hkind : kind.isWord = true) (hspelling : kind.spelling? = none)
    (description : String) :
    A.Reads 1 (Grammar.leaf kind description) (fun lexeme => [.leaf kind lexeme]) := by
  refine Tells.bind (Reads.expectAs hkind description) (fun token => Tells.pure ?_)
  simp [Kind.symbol, Symbol.leaf, hspelling]

theorem Reads.typeName : A.Reads 1 Grammar.typeName (fun name => [.leaf .capitalName name]) :=
  Reads.leaf rfl rfl _

theorem Reads.variantName :
    A.Reads 1 Grammar.variantName (fun name => [.leaf .capitalName name]) :=
  Reads.leaf rfl rfl _

theorem Reads.variableName :
    A.Reads 1 Grammar.variableName (fun name => [.leaf .lowercaseName name]) :=
  Reads.leaf rfl rfl _

theorem Reads.typeParameterName :
    A.Reads 1 Grammar.typeParameterName (fun name => [.leaf .lowercaseName name]) :=
  Reads.leaf rfl rfl _

theorem Reads.attributeName :
    A.Reads 1 Grammar.attributeName (fun name => [.leaf .lowercaseName name]) :=
  Reads.leaf rfl rfl _

theorem Reads.number : A.Reads 1 Grammar.number (fun literal => [.leaf .number literal]) :=
  Reads.leaf rfl rfl _

theorem unquoted?_quoted (value : String) :
    Grammar.unquoted? (Symbol.quoted value) = some value := by
  have hlist : (Symbol.quoted value).toList = ['"'] ++ (value.toList ++ ['"']) := by
    simp [Symbol.quoted]
  have hquote : Text.byteLength ['"'] = 1 := by decide
  have hlength : Text.byteLength (['"'] ++ (value.toList ++ ['"'])) - 1 =
      1 + Text.byteLength value.toList := by
    simp only [Text.byteLength_append, hquote]
    omega
  have hfront := Text.splitAtByte?_append ['"'] (value.toList ++ ['"'])
  rw [hquote] at hfront
  simp only [Grammar.unquoted?, hlist, hlength, Text.slice?, Text.dropBytes?, hfront,
    Text.takeBytes?, Nat.add_sub_cancel_left, Text.splitAtByte?_append]
  simp

theorem Reads.text : A.Reads 1 Grammar.text (fun literal => [.text literal]) := by
  apply ReadsIf.intro
  intro c hc _
  apply satisfies_bind
  unfold expect Parser.expectAs expectOr
  split
  · rename_i hat
    have hkind : c.kind = .text := by simpa [Cursor.isAt] using hat
    have hne : c.kind ≠ .endOfInput := by simp [hkind]
    rcases A.quoted (hc.admits_current hne) hkind with ⟨value, hvalue⟩
    have hsymbol : c.current.symbol = .text { value := value, span := c.current.span } := by
      have hcurrent : c.current.kind = .text := hkind
      simp [Token.symbol, Kind.symbol, hcurrent, hvalue, Symbol.text, Kind.spelling?]
    simp only [Reply.Satisfies, hvalue, unquoted?_quoted]
    refine ⟨_, _, Cursor.advance_passage hc.final hne, by simp, holds_advance ?_⟩
    rw [← hsymbol]
    have hword : c.kind.isWord = true := by
      rw [hkind]
      rfl
    exact A.word _ (hc.admits_current hne) hword
  · exact Stops.at A c _

/-!
## Trying and nesting
-/

theorem ReadsIf.speculate {least : Nat} {pre : Cursor -> Prop} {parser : Parser α}
    {script : α -> List Symbol} (h : A.ReadsIf least pre parser script) :
    A.ReadsIf 0 pre (speculate parser) (optionScript script) := by
  apply ReadsIf.intro
  intro c hc hpre
  have hreply := h.elim hc hpre
  unfold Parser.speculate
  cases hparser : parser c with
  | ok value d =>
      rw [hparser] at hreply
      rcases hreply with ⟨read, noted, passage, _, hholds⟩
      exact ⟨read, noted, passage, Nat.zero_le _, hholds⟩
  | error diagnostic d =>
      rw [hparser] at hreply
      rcases hreply with ⟨read, noted, passage, _⟩
      show exists read noted, c.Passage read noted (d.restore c.checkpoint) ∧ _
      rw [Cursor.restore_checkpoint passage]
      exact ⟨[], [], Cursor.Passage.refl c, Nat.zero_le _, A.nil _⟩
  | fault found =>
      rw [hparser] at hreply
      exact hreply

theorem passage_nested {c d : Cursor} {read : List Token} {noted : List Diagnostic}
    (h : Cursor.Passage { c with depth := c.depth + 1 } read noted d) :
    d.depth = c.depth + 1 ∧ c.Passage read noted { d with depth := c.depth } :=
  ⟨h.depth, h.ahead, h.final, h.previous, h.errors, rfl, h.inside⟩

theorem Reads.nested {least : Nat} {parser : Parser α} {script : α -> List Symbol}
    (h : A.Reads least parser script) : A.Reads least (nested parser) script := by
  apply ReadsIf.intro
  intro c hc _
  unfold Parser.nested
  split
  · have hinner : A.Fits { c with depth := c.depth + 1 } := ⟨hc.tokens, hc.ends⟩
    have hreply := ReadsIf.elim h hinner trivial
    cases hparser : parser { c with depth := c.depth + 1 } with
    | ok value d =>
        rw [hparser] at hreply
        rcases hreply with ⟨read, noted, passage, hleast, hholds⟩
        rcases passage_nested passage with ⟨hdepth, passage'⟩
        simp only [closeLevel, hdepth]
        exact ⟨read, noted, passage', hleast, hholds⟩
    | error diagnostic d =>
        rw [hparser] at hreply
        rcases hreply with ⟨read, noted, passage, hspan, hfails⟩
        rcases passage_nested passage with ⟨hdepth, passage'⟩
        simp only [closeLevel, hdepth]
        exact ⟨read, noted, passage', hspan, hfails⟩
    | fault found =>
        rw [hparser] at hreply
        exact hreply
  · exact Stops.at A c _

/-!
## Repeating
-/

theorem repeatUpTo_reads {more : Cursor -> Bool} {item : Parser α} {script : α -> List Symbol}
    (hitem : A.ReadsIf 1 (fun c => more c = true) item script)
    (hend : forall c : Cursor, c.kind = .endOfInput -> more c = false) (bound : Nat) :
    A.ReadsIf 0 (fun c => c.ahead.length <= bound) (repeatUpTo more item bound)
      (fun items => items.flatMap script) := by
  induction bound with
  | zero =>
      apply ReadsIf.intro
      intro c hc hbound
      have hahead : c.ahead = [] := List.length_eq_zero_iff.mp (Nat.le_zero.mp hbound)
      have hmore : more c = false := hend c (Cursor.kind_of_ahead_nil hc.final hahead)
      simp only [repeatUpTo, hmore]
      exact ⟨[], [], Cursor.Passage.refl c, Nat.zero_le _, A.nil _⟩
  | succ bound ih =>
      apply ReadsIf.intro
      intro c hc hbound
      unfold repeatUpTo
      split
      · rename_i hmore
        apply satisfies_bind
        refine (hitem.elim hc hmore).mono ?_ (fun _ _ held => held)
        rintro value d ⟨read, noted, passage, hleast, hholds⟩
        have hlength : d.ahead.length <= bound := by
          have hahead := congrArg List.length passage.ahead
          rw [List.length_append] at hahead
          omega
        apply satisfies_bind
        refine (ih.elim (hc.after passage) hlength).mono ?_ ?_
        · rintro values e ⟨read', noted', passage', _, hholds'⟩
          refine ⟨_, _, passage.trans passage', Nat.zero_le _, ?_⟩
          rw [passage'.ahead] at hholds
          exact A.append hholds hholds'
        · intro diagnostic e hstops
          exact hstops.behind passage hholds
      · exact ⟨[], [], Cursor.Passage.refl c, Nat.zero_le _, A.nil _⟩

/-- Each item takes a token, so a repetition ends before the tokens do. -/
theorem Reads.repeatWhile {more : Cursor -> Bool} {item : Parser α}
    {script : α -> List Symbol} (hitem : A.ReadsIf 1 (fun c => more c = true) item script)
    (hend : forall c : Cursor, c.kind = .endOfInput -> more c = false) :
    A.Reads 0 (repeatWhile more item) (fun items => items.flatMap script) :=
  fun c hc _ => repeatUpTo_reads hitem hend c.ahead.length c hc (Nat.le_refl _)

/-!
## Lines
-/

theorem Reads.wholeLine {least : Nat} {terminator : Kind} {item : Parser α}
    {script : α -> List Symbol} (h : A.Reads least item script) :
    A.Reads least (wholeLine terminator item) script := by
  apply Tells.bind h
  intro value
  apply Tells.bind Reads.skipLineBreaks
  intro skipped
  apply Tells.look
  intro ended
  split
  · exact Tells.pure (by simp)
  · exact Tells.unexpected _

theorem Reads.lines {terminator : Kind} {item : Parser α} {script : α -> List Symbol}
    (h : A.Reads 1 item script) :
    A.Reads 0 (lines terminator item) (fun items => items.flatMap script) := by
  apply Tells.bind Reads.skipLineBreaks
  intro _
  refine Tells.last (Reads.repeatWhile h.wholeLine.readsIf ?_) (fun items => rfl)
  intro c hend
  simp [Cursor.hasTokens, Cursor.isAt, hend]

/-!
## Parentheses
-/

def enclosedScript (script : α -> List Symbol) : Enclosed α -> List Symbol
  | .unit => []
  | .group value => script value
  | .sequence _ elements => elements.flatMap script

theorem length_ahead_lt {c d : Cursor} {read : List Token} {noted : List Diagnostic}
    {least bound : Nat} (hbound : c.ahead.length < bound + least)
    (passage : c.Passage read noted d) (hleast : least <= read.length) :
    d.ahead.length < bound := by
  have hahead := congrArg List.length passage.ahead
  rw [List.length_append] at hahead
  omega

/-- Every round takes a separator, so the rounds end before the tokens do. -/
theorem separated_reads {construct : String} {separators : List Kind} {element : Parser α}
    {script : α -> List Symbol} (helement : A.Reads 1 element script)
    (hseparators : forall kind, kind ∈ separators -> kind.isSilent = true)
    (bound : Nat) (separator : Option Kind) (multiline : Bool) :
    A.ReadsIf 0 (fun c => c.ahead.length < bound)
      (separated construct separators element bound separator multiline)
      (fun found => found.2.flatMap script) := by
  induction bound generalizing separator multiline with
  | zero =>
      intro c _ hbound
      exact absurd hbound (Nat.not_lt_zero _)
  | succ bound ih =>
      apply Tells.look
      intro kind
      split
      · rename_i hkind
        split
        · exact Tells.mixedSeparators construct
        · have hsilent : forall c : Cursor, c.ahead.length < bound + 1 ∧ c.kind = kind ->
              c.kind.isSilent = true := by
            rintro c ⟨_, hc⟩
            rw [hc]
            exact hseparators kind (by simpa using hkind)
          refine Tells.weaken (Tells.bindThen (fun _ d => d.ahead.length < bound)
            (ReadsIf.advanceSilent hsilent)
            (fun hpre _ passage hleast => length_ahead_lt hpre.1 passage hleast) (fun _ => ?_))
          apply Tells.bindThen (fun _ d => d.ahead.length < bound) Reads.skipLineBreaks.readsIf
            (fun hpre _ passage hleast => length_ahead_lt hpre passage hleast)
          intro skipped
          apply Tells.look
          intro closed
          split
          · exact Tells.pure (by simp)
          · refine Tells.weaken (Tells.bindThen (fun _ d => d.ahead.length < bound)
              helement.readsIf (fun hpre _ passage hleast =>
                length_ahead_lt (Nat.lt_succ_of_lt hpre.1) passage hleast) (fun next => ?_))
            apply Tells.bindIf (ih (some kind) (multiline || skipped))
            intro found
            exact Tells.pure (by simp)
      · split
        · exact Tells.pure (by simp)
        · exact Tells.unexpected _

theorem separated_isSome {construct : String} {separators : List Kind} {element : Parser α}
    {bound : Nat} {separator : Option Kind} {multiline : Bool} {c d : Cursor}
    {found : Option Kind × List α}
    (h : separated construct separators element bound separator multiline c = .ok found d)
    (hfound : separator.isSome = true ∨ found.2 ≠ []) : found.1.isSome = true := by
  induction bound generalizing separator multiline c d found with
  | zero => cases h
  | succ bound ih =>
      rcases bind_eq_ok.mp h with ⟨kind, e, _, hkind⟩
      split at hkind
      · split at hkind
        · cases hkind
        · rcases bind_eq_ok.mp hkind with ⟨_, _, _, hskipped⟩
          rcases bind_eq_ok.mp hskipped with ⟨skipped, _, _, hclosed⟩
          rcases bind_eq_ok.mp hclosed with ⟨closed, _, _, hrest⟩
          split at hrest
          · cases hrest
            rfl
          · rcases bind_eq_ok.mp hrest with ⟨next, _, _, hnext⟩
            rcases bind_eq_ok.mp hnext with ⟨later, _, hlater, hpure⟩
            cases hpure
            have hsome : later.1.isSome = true := ih hlater (Or.inl rfl)
            exact hsome
      · split at hkind
        · cases hkind
          simpa using hfound
        · cases hkind

theorem Tells.enclosedRest {construct : String} {separators : List Kind} {element : Parser α}
    {script : α -> List Symbol} (helement : A.Reads 1 element script)
    (hbalanced : forall value, Symbol.Balanced (script value))
    (hseparators : forall kind, kind ∈ separators -> kind.isSilent = true)
    {pre : Cursor -> Prop} (before : List Symbol) (first : α) (multiline : Bool) :
    A.Tells 0 pre (before ++ .mark .openParen :: script first)
      (enclosedRest construct separators first multiline element)
      (fun form => before ++ enclosedScript script form) := by
  apply Tells.look
  intro bound
  refine Tells.bindThen (fun found _ => found.2 ≠ [] -> found.1.isSome = true)
    (fun c hc hpre => separated_reads helement hseparators bound none multiline c hc ?_)
    (fun _ hfound _ _ hrest => separated_isSome hfound (Or.inr hrest))
    (fun found => Tells.given (fun hsome => ?_))
  · rw [← hpre.2]
    exact Nat.lt_succ_self _
  · apply Tells.step (Reads.expectMark .closeParen)
    intro _
    have hinner : Symbol.Balanced (script first ++ found.2.flatMap script) :=
      (hbalanced first).append (Symbol.balanced_composed.flatMap (fun value _ => hbalanced value))
    apply Tells.ungroup before hinner (by simp)
    rcases found with ⟨separator, rest⟩
    cases separator with
    | some separator => exact Tells.pure (by simp [enclosedScript])
    | none =>
        have hrest : rest = [] := by
          apply Classical.byContradiction
          intro hne
          cases hsome hne
        exact Tells.pure (by simp [enclosedScript, hrest])

theorem Reads.enclosed {construct : String} {separators : List Kind} {element : Parser α}
    {script : α -> List Symbol} (helement : A.Reads 1 element script)
    (hbalanced : forall value, Symbol.Balanced (script value))
    (hseparators : forall kind, kind ∈ separators -> kind.isSilent = true) :
    A.Reads 1 (enclosed construct separators element) (enclosedScript script) := by
  apply Tells.bind (Reads.expectMark .openParen)
  intro _
  apply Tells.look
  intro empty
  split
  · rename_i hempty
    refine Tells.stepIf (ReadsIf.advanceMark .closeParen ?_) (fun _ => ?_)
    · rintro c ⟨_, hc⟩
      simpa [Cursor.isAt, hempty] using hc
    · apply Tells.ungroup [] Symbol.balanced_nil rfl
      exact Tells.pure rfl
  · apply Tells.bind Reads.skipLineBreaks
    intro multiline
    apply Tells.look
    intro kind
    split
    · rename_i hkind
      have hsilent : forall c : Cursor, True ∧ c.kind = kind -> c.kind.isSilent = true := by
        rintro c ⟨_, hc⟩
        rw [hc]
        exact hseparators kind (by simpa using hkind)
      apply Tells.stepIf (ReadsIf.advanceSilent hsilent)
      intro _
      apply Tells.bind Reads.skipLineBreaks
      intro _
      apply Tells.step (Reads.expectMark .closeParen)
      intro _
      apply Tells.ungroup [] Symbol.balanced_nil rfl
      exact Tells.pure rfl
    · apply Tells.step helement
      intro first
      exact Tells.enclosedRest helement hbalanced hseparators [] first multiline

end Account
end Linewise
