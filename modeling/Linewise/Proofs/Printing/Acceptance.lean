import Linewise.Proofs.Account
import Linewise.Proofs.Combinator
import Linewise.Proofs.Printing.Printer

/-!
# Parsers on given pieces

Reading back what was printed is a matter of single steps: in front of tokens with
given pieces, a parser succeeds, stands in front of given pieces again, and its
value is as asked for.  Nothing is noted on the way, and as many levels are open
as before.
-/

namespace Linewise

namespace Piece

/-- The pieces of tokens that the printer writes: no comments, no end of the input,
and texts in their quotes. -/
structure IsSound (piece : Piece) : Prop where
  noComment : piece.1 ≠ .comment
  noEnd : piece.1 ≠ .endOfInput
  quoted : piece.1 = .text -> exists value, piece.2 = Symbol.quoted value

def isOperatorWord (piece : Piece) : Bool :=
  piece.1 == .lowercaseName && Token.operatorWords.contains piece.2

def startsExpression (piece : Piece) : Bool :=
  Token.expressionStarts.contains piece.1 && !piece.isOperatorWord

def startsPattern (piece : Piece) : Bool :=
  Token.patternStarts.contains piece.1 && !piece.isOperatorWord

def startsType (piece : Piece) : Bool :=
  Token.typeStarts.contains piece.1 && !piece.isOperatorWord

def headKind (pieces : List Piece) : Kind := (pieces.head?.map Prod.fst).getD .endOfInput

@[simp] theorem headKind_nil : headKind [] = .endOfInput := rfl

@[simp] theorem headKind_cons (piece : Piece) (rest : List Piece) :
    headKind (piece :: rest) = piece.1 := rfl

end Piece

/-!
## Where a cursor stands
-/

/-- The cursor stands in front of tokens with the given pieces, `room` more levels may
be opened, and nothing was noted. -/
structure Cursor.At (room : Nat) (pieces : List Piece) (c : Cursor) : Prop where
  ahead : c.ahead.map Token.piece = pieces
  sound : forall piece, piece ∈ pieces -> piece.IsSound
  final : c.final.kind = .endOfInput
  depth : c.depth + room = Parser.maxDepth
  errors : c.errors = []

namespace Cursor.At

variable {room : Nat} {piece : Piece} {pieces rest : List Piece} {c d : Cursor}

theorem isComment_of_mem (h : c.At room pieces) {t : Token} (ht : t ∈ c.ahead) :
    t.isComment = false := by
  have hsound := h.sound t.piece (by rw [← h.ahead]; exact List.mem_map_of_mem ht)
  have hkind : t.kind ≠ .comment := hsound.noComment
  simpa [Token.isComment] using hkind

theorem significant (h : c.At room pieces) : c.significant = c.ahead := by
  cases hahead : c.ahead with
  | nil => simp [Cursor.significant, hahead]
  | cons t rest =>
      have hcomment := h.isComment_of_mem (t := t) (by simp [hahead])
      simp [Cursor.significant, hahead, hcomment]

theorem cons (h : c.At room (piece :: rest)) :
    exists token more, c.ahead = token :: more ∧ token.piece = piece ∧
      more.map Token.piece = rest := by
  have hahead := h.ahead
  cases hc : c.ahead with
  | nil =>
      rw [hc] at hahead
      cases hahead
  | cons token more =>
      rw [hc, List.map_cons] at hahead
      injection hahead with htoken hmore
      exact ⟨token, more, rfl, htoken, hmore⟩

theorem piece_current (h : c.At room (piece :: rest)) : c.current.piece = piece := by
  rcases h.cons with ⟨token, more, hahead, htoken, _⟩
  rw [current, h.significant, hahead]
  exact htoken

theorem kind_eq (h : c.At room pieces) : c.kind = Piece.headKind pieces := by
  cases pieces with
  | nil => exact kind_of_ahead_nil h.final (by simpa using h.ahead)
  | cons piece rest => exact congrArg Prod.fst h.piece_current

theorem kind_peek (h : c.At room (piece :: rest)) : c.peek.kind = Piece.headKind rest := by
  rcases h.cons with ⟨token, more, hahead, _, hmore⟩
  cases more with
  | nil =>
      cases hmore
      simp only [peek, h.significant, hahead, List.dropWhile, List.headD]
      exact h.final
  | cons next more =>
      have hcomment := h.isComment_of_mem (t := next) (by simp [hahead])
      cases hmore
      simp only [peek, h.significant, hahead, List.dropWhile, hcomment, List.headD]
      rfl

theorem advance (h : c.At room (piece :: rest)) : c.advance.At room rest := by
  rcases h.cons with ⟨token, more, hahead, htoken, hmore⟩
  have hne : token.kind ≠ .endOfInput := by
    have hsound := h.sound piece (by simp)
    rw [← htoken] at hsound
    exact hsound.noEnd
  have hadvance : c.advance =
      { c with ahead := more, previous := spanAfter c.previous token } := by
    unfold Cursor.advance
    rw [h.significant, hahead]
    exact if_neg hne
  rw [hadvance]
  exact
    { ahead := hmore
      sound := fun other hother => h.sound other (by simp [hother])
      final := h.final
      depth := h.depth
      errors := h.errors }

theorem congr (h : c.At room pieces) (hahead : d.ahead = c.ahead) (hfinal : d.final = c.final)
    (hdepth : d.depth = c.depth) (herrors : d.errors = c.errors) : d.At room pieces where
  ahead := by rw [hahead, h.ahead]
  sound := h.sound
  final := by rw [hfinal, h.final]
  depth := by rw [hdepth, h.depth]
  errors := by rw [herrors, h.errors]

theorem deeper (h : c.At (room + 1) pieces) :
    Cursor.At room pieces { c with depth := c.depth + 1 } where
  ahead := h.ahead
  sound := h.sound
  final := h.final
  depth := by
    have hdepth := h.depth
    show c.depth + 1 + room = Parser.maxDepth
    omega
  errors := h.errors

theorem length_ahead (h : c.At room pieces) : c.ahead.length = pieces.length := by
  rw [← h.ahead, List.length_map]

end Cursor.At

/-!
## Parsers
-/

namespace Parser

variable {α β : Type} {room : Nat} {piece : Piece} {before middle after rest : List Piece}

def Accepts (room : Nat) (parser : Parser α) (before after : List Piece) (good : α -> Prop) :
    Prop :=
  forall c, c.At room before ->
    exists value d, parser c = .ok value d ∧ d.At room after ∧ good value

namespace Accepts

theorem bind {first : Parser α} {next : α -> Parser β} {good : α -> Prop} {best : β -> Prop}
    (hfirst : Accepts room first before middle good)
    (hnext : forall value, good value -> Accepts room (next value) middle after best) :
    Accepts room (first >>= next) before after best := by
  intro c hc
  rcases hfirst c hc with ⟨value, d, hvalue, hd, hgood⟩
  rcases hnext value hgood d hd with ⟨result, e, hresult, he, hbest⟩
  exact ⟨result, e, bind_eq_ok.mpr ⟨value, d, hvalue, hresult⟩, he, hbest⟩

theorem pure {value : α} {good : α -> Prop} (h : good value) :
    Accepts room (pure value) before before good := fun c hc => ⟨value, c, rfl, hc, h⟩

theorem mono {parser : Parser α} {good better : α -> Prop}
    (h : Accepts room parser before after good) (hgood : forall value, good value -> better value) :
    Accepts room parser before after better := by
  intro c hc
  rcases h c hc with ⟨value, d, hvalue, hd, hvalueGood⟩
  exact ⟨value, d, hvalue, hd, hgood value hvalueGood⟩

theorem look {view : Cursor -> α} {next : α -> Parser β} {good : β -> Prop}
    (h : forall seen, Accepts room (next seen) before after good) :
    Accepts room (look view >>= next) before after good := fun c hc => h (view c) c hc

theorem sees {view : Cursor -> α} (seen : α) {next : α -> Parser β} {good : β -> Prop}
    (hseen : forall c, c.At room before -> view c = seen)
    (h : Accepts room (next seen) before after good) :
    Accepts room (Parser.look view >>= next) before after good := by
  intro c hc
  have hnext := h c hc
  rw [← hseen c hc] at hnext
  exact hnext

theorem kind {next : Kind -> Parser β} {good : β -> Prop}
    (h : Accepts room (next (Piece.headKind before)) before after good) :
    Accepts room (currentKind >>= next) before after good :=
  sees _ (fun _ hc => hc.kind_eq) h

theorem isAt {kind : Kind} {next : Bool -> Parser β} {good : β -> Prop}
    (h : Accepts room (next (Piece.headKind before == kind)) before after good) :
    Accepts room (isAt kind >>= next) before after good :=
  sees _ (fun c hc => by rw [Cursor.isAt, hc.kind_eq]) h

/-!
### Moving on
-/

theorem advance :
    Accepts room advance (piece :: rest) rest (fun token => token.piece = piece) :=
  fun c hc => ⟨c.current, c.advance, rfl, hc.advance, hc.piece_current⟩

theorem expectAs (piece : Piece) (description : String) :
    Accepts room (expectAs piece.1 description) (piece :: rest) rest
      (fun token => token.piece = piece) := by
  intro c hc
  have hat : c.isAt piece.1 = true := by simp [Cursor.isAt, hc.kind_eq]
  exists c.current, c.advance
  constructor
  · rw [Parser.expectAs, expectOr, if_pos hat]
  · exact ⟨hc.advance, hc.piece_current⟩

theorem expect (piece : Piece) :
    Accepts room (expect piece.1) (piece :: rest) rest (fun token => token.piece = piece) :=
  expectAs piece _

theorem expectMark (mark : Mark) :
    Accepts room (Parser.expect (.mark mark)) (.mark mark :: rest) rest (fun _ => True) :=
  (expect (.mark mark)).mono (fun _ _ => trivial)

theorem leaf {kind : Kind} (description : String) (lexeme : Lexeme) :
    Accepts room (Grammar.leaf kind description) ((kind, lexeme.value) :: rest) rest
      (fun read => read.erase = lexeme.erase) := by
  apply bind (expectAs (kind, lexeme.value) description)
  intro token htoken
  have hvalue : token.value = lexeme.value := congrArg Prod.snd htoken
  exact pure (by simp [Lexeme.erase, hvalue])

theorem text (lexeme : Lexeme) :
    Accepts room Grammar.text (.text lexeme :: rest) rest
      (fun read => read.erase = lexeme.erase) := by
  apply bind (expect (.text lexeme))
  intro token htoken
  have hvalue : token.value = Symbol.quoted lexeme.value := congrArg Prod.snd htoken
  rw [hvalue, Account.unquoted?_quoted]
  exact pure (by simp [Lexeme.erase])

theorem noLineBreaks (h : Piece.headKind before ≠ .lineBreak) :
    Accepts room skipLineBreaks before before (fun skipped => skipped = false) := by
  intro c hc
  have hkind : c.isAt .lineBreak = false := by simpa [Cursor.isAt, hc.kind_eq] using h
  refine ⟨c.isAt .lineBreak, c.skipLineBreaks, rfl, ?_, hkind⟩
  refine hc.congr ?_ rfl rfl rfl
  have hnone : Cursor.afterLineBreaks? c.ahead = none := by
    cases hahead : c.ahead with
    | nil => rfl
    | cons token more =>
        have hcomment := hc.isComment_of_mem (t := token) (by simp [hahead])
        have hbreak : token.isLineBreak = false := by
          rw [← hc.ahead, hahead] at h
          simpa [Token.isLineBreak, Token.piece] using h
        simp [Cursor.afterLineBreaks?, hcomment, hbreak]
  simp [Cursor.skipLineBreaks, hnone]

theorem lineBreak (h : Piece.headKind rest ≠ .lineBreak) :
    Accepts room skipLineBreaks (.lineBreak :: rest) rest (fun skipped => skipped = true) := by
  intro c hc
  have hkind : c.isAt .lineBreak = true := by
    rw [Cursor.isAt, hc.kind_eq]
    rfl
  rcases noLineBreaks h c.advance hc.advance with ⟨skipped, d, hskip, hd, _⟩
  refine ⟨c.isAt .lineBreak, c.skipLineBreaks, rfl, ?_, hkind⟩
  cases hskip
  rcases hc.cons with ⟨token, more, hahead, htoken, _⟩
  have hcomment := hc.isComment_of_mem (t := token) (by simp [hahead])
  have htokenKind : token.kind = .lineBreak := congrArg Prod.fst htoken
  have hbreak : token.isLineBreak = true := by simp [Token.isLineBreak, htokenKind]
  have hmore : c.advance.ahead = more := by
    simp [Cursor.advance, hc.significant, hahead, htokenKind]
  refine hd.congr ?_ ?_ ?_ ?_
  · simp [Cursor.skipLineBreaks, hahead, Cursor.afterLineBreaks?, hcomment, hbreak, hmore]
  · simp [Cursor.skipLineBreaks, Cursor.advance, hc.significant, hahead, htokenKind]
  · simp [Cursor.skipLineBreaks, Cursor.advance, hc.significant, hahead, htokenKind]
  · simp [Cursor.skipLineBreaks, Cursor.advance, hc.significant, hahead, htokenKind]

/-!
### Nesting and trying
-/

theorem nested {parser : Parser α} {good : α -> Prop}
    (h : Accepts room parser before after good) :
    Accepts (room + 1) (nested parser) before after good := by
  intro c hc
  have hdepth := hc.depth
  rcases h _ hc.deeper with ⟨value, d, hvalue, hd, hgood⟩
  have hopen : d.depth = c.depth + 1 := by
    have hdDepth := hd.depth
    omega
  refine ⟨value, { d with depth := c.depth }, ?_, ?_, hgood⟩
  · rw [Parser.nested, if_pos (by omega), hvalue]
    simp only [closeLevel, hopen]
  · exact
      { ahead := hd.ahead
        sound := hd.sound
        final := hd.final
        depth := hc.depth
        errors := hd.errors }

theorem speculate {parser : Parser α} {good : α -> Prop}
    (h : Accepts room parser before after good) :
    Accepts room (speculate parser) before after
      (fun found => exists value, found = some value ∧ good value) := by
  intro c hc
  rcases h c hc with ⟨value, d, hvalue, hd, hgood⟩
  exists some value, d
  constructor
  · rw [Parser.speculate, hvalue]
  · exact ⟨hd, value, rfl, hgood⟩

theorem speculateFailing {parser : Parser α}
    (h : forall c, c.At room before -> exists diagnostic d read noted,
      parser c = .error diagnostic d ∧ c.Passage read noted d) :
    Accepts room (Parser.speculate parser) before before (fun found => found = none) := by
  intro c hc
  rcases h c hc with ⟨diagnostic, d, read, noted, hfails, passage⟩
  exists none, c
  constructor
  · rw [Parser.speculate, hfails]
    simp only [Cursor.restore_checkpoint passage]
  · exact ⟨hc, rfl⟩

/-!
### Repeating
-/

variable {τ γ : Type} {item : Parser α} {print : τ -> List Piece} {target : τ -> γ} {view : α -> γ}

theorem repeatUpTo (follows : List Piece -> Prop) {more : Cursor -> Bool} {xs : List τ}
    {bound : Nat}
    (hitem : forall x, x ∈ xs -> forall rest, follows rest ->
      Accepts room item (print x ++ rest) rest (fun value => view value = target x))
    (hmore : forall x, x ∈ xs -> forall rest,
      follows (print x ++ rest) ∧ forall c, c.At room (print x ++ rest) -> more c = true)
    (hend : follows after ∧ forall c, c.At room after -> more c = false)
    (hbound : xs.length <= bound) :
    Accepts room (repeatUpTo more item bound) (xs.flatMap print ++ after) after
      (fun values => values.map view = xs.map target) := by
  induction xs generalizing bound with
  | nil =>
      intro c hc
      refine ⟨[], c, ?_, hc, rfl⟩
      have hstop : more c = false := hend.2 c hc
      cases bound with
      | zero => simp [Parser.repeatUpTo, hstop]
      | succ bound => simp [Parser.repeatUpTo, hstop]
  | cons x xs ih =>
      intro c hc
      rw [List.flatMap_cons, List.append_assoc] at hc
      cases bound with
      | zero => cases hbound
      | succ bound =>
          have hgo : more c = true := (hmore x (by simp) _).2 c hc
          have hrest := ih (fun y hy => hitem y (by simp [hy]))
            (fun y hy => hmore y (by simp [hy])) (Nat.le_of_succ_le_succ hbound)
          have hfollows : follows (xs.flatMap print ++ after) := by
            cases xs with
            | nil => exact hend.1
            | cons y ys =>
                rw [List.flatMap_cons, List.append_assoc]
                exact (hmore y (by simp) _).1
          have hround : Accepts room (do
              let first <- item
              let rest <- Parser.repeatUpTo more item bound
              Pure.pure (first :: rest)) (print x ++ (xs.flatMap print ++ after)) after
              (fun values => values.map view = (x :: xs).map target) := by
            apply bind (hitem x (by simp) _ hfollows)
            intro first hfirst
            apply bind hrest
            intro values hvalues
            exact pure (by rw [List.map_cons, List.map_cons, hfirst, hvalues])
          rcases hround c hc with ⟨values, d, hvalues, hd, hgood⟩
          exists values, d
          constructor
          · unfold Parser.repeatUpTo
            exact (if_pos hgo).trans hvalues
          · exact ⟨hd, hgood⟩

theorem length_le_flatMap {xs : List τ} (h : forall x, x ∈ xs -> print x ≠ []) :
    xs.length <= (xs.flatMap print).length := by
  induction xs with
  | nil => simp
  | cons x xs ih =>
      have hx := List.length_pos_iff.mpr (h x (by simp))
      have hxs := ih (fun y hy => h y (by simp [hy]))
      rw [List.flatMap_cons, List.length_append, List.length_cons]
      omega

theorem repeatWhile (follows : List Piece -> Prop) {more : Cursor -> Bool} {xs : List τ}
    (hitem : forall x, x ∈ xs -> forall rest, follows rest ->
      Accepts room item (print x ++ rest) rest (fun value => view value = target x))
    (hmore : forall x, x ∈ xs -> forall rest,
      follows (print x ++ rest) ∧ forall c, c.At room (print x ++ rest) -> more c = true)
    (hend : follows after ∧ forall c, c.At room after -> more c = false)
    (hprint : forall x, x ∈ xs -> print x ≠ []) :
    Accepts room (repeatWhile more item) (xs.flatMap print ++ after) after
      (fun values => values.map view = xs.map target) := by
  intro c hc
  refine repeatUpTo follows hitem hmore hend ?_ c hc
  have hlength := length_le_flatMap hprint
  rw [hc.length_ahead, List.length_append]
  omega

theorem repeatStop {more : Cursor -> Bool} {bound : Nat}
    (hend : forall c, c.At room before -> more c = false) :
    Accepts room (Parser.repeatUpTo more item bound) before before (fun values => values = []) := by
  intro c hc
  refine ⟨[], c, ?_, hc, rfl⟩
  have hstop : more c = false := hend c hc
  cases bound with
  | zero => simp [Parser.repeatUpTo, hstop]
  | succ bound => simp [Parser.repeatUpTo, hstop]

theorem repeatNone {more : Cursor -> Bool} (hend : forall c, c.At room before -> more c = false) :
    Accepts room (Parser.repeatWhile more item) before before (fun values => values = []) :=
  fun c hc => repeatStop hend c hc

theorem repeatOnce {more : Cursor -> Bool} {good : α -> Prop}
    (hitem : Accepts room item (piece :: before) after good)
    (hmore : forall c, c.At room (piece :: before) -> more c = true)
    (hend : forall c, c.At room after -> more c = false) :
    Accepts room (Parser.repeatWhile more item) (piece :: before) after
      (fun values => exists value, values = [value] ∧ good value) := by
  intro c hc
  have hround : Accepts room (do
      let first <- item
      let rest <- Parser.repeatUpTo more item before.length
      Pure.pure (first :: rest)) (piece :: before) after
      (fun values => exists value, values = [value] ∧ good value) := by
    apply bind hitem
    intro first hfirst
    apply bind (repeatStop hend)
    intro values hvalues
    exact pure ⟨first, by rw [hvalues], hfirst⟩
  rcases hround c hc with ⟨values, d, hvalues, hd, hgood⟩
  exists values, d
  constructor
  · unfold Parser.repeatWhile
    rw [hc.length_ahead, List.length_cons]
    unfold Parser.repeatUpTo
    exact (if_pos (hmore c hc)).trans hvalues
  · exact ⟨hd, hgood⟩

/-!
### Lines
-/

theorem wholeLine {terminator : Kind} {good : α -> Prop}
    (h : Accepts room item before (.lineBreak :: rest) good)
    (hrest : Piece.headKind rest ≠ .lineBreak) :
    Accepts room (wholeLine terminator item) before rest good := by
  apply bind h
  intro value hvalue
  apply bind (lineBreak hrest)
  intro skipped hskipped
  apply isAt
  rw [if_pos (by simp [hskipped])]
  exact pure hvalue

theorem lines {terminator : Kind} {xs : List τ}
    (hitem : forall x, x ∈ xs -> forall rest,
      Accepts room item (print x ++ .lineBreak :: rest) (.lineBreak :: rest)
        (fun value => view value = target x))
    (hprint : forall x, x ∈ xs -> forall rest,
      ¬ Piece.headKind (print x ++ rest) ∈ [.lineBreak, terminator, .endOfInput])
    (hafter : Piece.headKind after = terminator) (hterminator : terminator ≠ .lineBreak) :
    Accepts room (lines terminator item)
      (xs.flatMap (fun x => print x ++ [.lineBreak]) ++ after) after
      (fun values => values.map view = xs.map target) := by
  have hhead : forall x, x ∈ xs -> forall rest,
      Piece.headKind (print x ++ [.lineBreak] ++ rest) ≠ .lineBreak := by
    intro x hx rest hbreak
    apply hprint x hx (.lineBreak :: rest)
    rw [List.append_assoc, List.singleton_append] at hbreak
    simp [hbreak]
  refine bind (noLineBreaks ?_) (fun _ _ => ?_)
  · cases xs with
    | nil =>
        rw [List.flatMap_nil, List.nil_append, hafter]
        exact hterminator
    | cons x xs =>
        rw [List.flatMap_cons, List.append_assoc]
        exact hhead x (by simp) _
  · refine repeatWhile (fun rest => Piece.headKind rest ≠ .lineBreak) ?_ ?_ ⟨?_, ?_⟩ ?_
    · intro x hx rest hrest
      rw [List.append_assoc, List.singleton_append]
      exact wholeLine (hitem x hx rest) hrest
    · intro x hx rest
      refine ⟨hhead x hx rest, ?_⟩
      intro c hc
      have hkind := hprint x hx (.lineBreak :: rest)
      rw [List.append_assoc, List.singleton_append] at hc
      simp only [List.mem_cons, List.not_mem_nil, or_false, not_or] at hkind
      simp [Cursor.isAt, Cursor.hasTokens, hc.kind_eq, hkind]
    · rw [hafter]
      exact hterminator
    · intro c hc
      simp [Cursor.isAt, hc.kind_eq, hafter]
    · intro x _
      simp

/-!
### Parentheses
-/

variable {construct : String} {separators : List Kind} {element : Parser α}

theorem enclosedUnit :
    Accepts room (enclosed construct separators element) (Piece.parens [] ++ rest) rest
      (fun form => form = .unit) := by
  apply bind (expectMark .openParen)
  intro _ _
  apply isAt
  apply bind advance
  intro _ _
  exact pure rfl

theorem enclosedNone {mark : Mark} (hmark : separators.contains (.mark mark) = true)
    (hclose : mark ≠ .closeParen) :
    Accepts room (enclosed construct separators element)
      (Piece.parens [.mark mark] ++ rest) rest
      (fun form => form = .sequence (.mark mark) []) := by
  apply bind (expectMark .openParen)
  intro _ _
  apply isAt
  rw [if_neg (by simpa [Piece.mark] using hclose)]
  apply bind (noLineBreaks (by simp [Piece.mark]))
  intro _ _
  apply kind
  rw [if_pos (by simpa [Piece.mark] using hmark)]
  apply bind advance
  intro _ _
  apply bind (noLineBreaks (by simp [Piece.mark]))
  intro _ _
  apply bind (expectMark .closeParen)
  intro _ _
  exact pure rfl

theorem separatedNone {separator : Option Kind} {bound : Nat}
    (hclose : separators.contains (.mark .closeParen) = false) :
    Accepts room (separated construct separators element (bound + 1) separator false)
      (.mark .closeParen :: rest) (.mark .closeParen :: rest)
      (fun found => found = (separator, [])) := by
  apply kind
  rw [if_neg (by simpa [Piece.mark] using hclose), if_pos (by simp [Piece.mark])]
  exact pure rfl

theorem separated {mark : Mark} {xs : List τ} {separator : Option Kind} {bound : Nat}
    (hmark : separators.contains (.mark mark) = true)
    (hseparator : separator = none ∨ separator = some (.mark mark))
    (helement : forall x, x ∈ xs -> forall rest,
      Accepts room element (print x ++ .mark mark :: rest) (.mark mark :: rest)
        (fun value => view value = target x))
    (hprint : forall x, x ∈ xs -> forall rest,
      ¬ Piece.headKind (print x ++ rest) ∈ [.lineBreak, .mark .closeParen])
    (hbound : xs.length < bound) :
    Accepts room (separated construct separators element bound separator false)
      (.mark mark :: (xs.flatMap (fun x => print x ++ [.mark mark]) ++ .mark .closeParen :: rest))
      (.mark .closeParen :: rest)
      (fun found => found.1 = some (.mark mark) ∧ found.2.map view = xs.map target) := by
  induction xs generalizing separator bound with
  | nil =>
      cases bound with
      | zero => cases hbound
      | succ bound =>
          apply kind
          rw [if_pos (by simpa [Piece.mark] using hmark), if_neg ?_]
          · apply bind advance
            intro _ _
            apply bind (noLineBreaks (by simp [Piece.mark]))
            intro _ _
            apply isAt
            rw [if_pos (by simp [Piece.mark])]
            exact pure ⟨rfl, rfl⟩
          · rcases hseparator with hnone | hsome
            · simp [hnone]
            · simp [hsome, Piece.mark]
  | cons x xs ih =>
      cases bound with
      | zero => cases hbound
      | succ bound =>
          have hkind := hprint x (by simp)
          simp only [List.mem_cons, List.not_mem_nil, or_false, not_or] at hkind
          apply kind
          rw [if_pos (by simpa [Piece.mark] using hmark), if_neg ?_]
          · apply bind advance
            intro _ _
            rw [List.flatMap_cons, List.append_assoc, List.append_assoc, List.singleton_append]
            apply bind (noLineBreaks (hkind _).1)
            intro skipped hskipped
            apply isAt
            rw [if_neg (by simpa using (hkind _).2), hskipped]
            apply bind (helement x (by simp) _)
            intro next hnext
            apply bind (ih (Or.inr rfl) (fun y hy => helement y (by simp [hy]))
              (fun y hy => hprint y (by simp [hy])) (Nat.lt_of_succ_lt_succ hbound))
            intro found hfound
            refine pure ⟨hfound.1, ?_⟩
            rw [List.map_cons, List.map_cons, hnext, hfound.2]
          · rcases hseparator with hnone | hsome
            · simp [hnone]
            · simp [hsome, Piece.mark]

theorem enclosedRestGroup {first : α} (hclose : separators.contains (.mark .closeParen) = false) :
    Accepts room (enclosedRest construct separators first false element)
      (.mark .closeParen :: rest) rest (fun form => form = .group first) := by
  apply sees _ (fun c hc => by rw [hc.length_ahead])
  apply bind (separatedNone hclose)
  intro found hfound
  rw [hfound]
  apply bind (expectMark .closeParen)
  intro _ _
  exact pure rfl

theorem enclosedRestSequence {first : α} {mark : Mark} {xs : List τ}
    (hmark : separators.contains (.mark mark) = true)
    (helement : forall x, x ∈ xs -> forall rest,
      Accepts room element (print x ++ .mark mark :: rest) (.mark mark :: rest)
        (fun value => view value = target x))
    (hprint : forall x, x ∈ xs -> forall rest,
      ¬ Piece.headKind (print x ++ rest) ∈ [.lineBreak, .mark .closeParen]) :
    Accepts room (enclosedRest construct separators first false element)
      (.mark mark :: (xs.flatMap (fun x => print x ++ [.mark mark]) ++ .mark .closeParen :: rest))
      rest
      (fun form => exists later, form = .sequence (.mark mark) (first :: later) ∧
        later.map view = xs.map target) := by
  apply sees _ (fun c hc => by rw [hc.length_ahead])
  have hlength : xs.length <= (xs.flatMap (fun x => print x ++ [Piece.mark mark])).length :=
    length_le_flatMap (by simp)
  refine bind (separated hmark (Or.inl rfl) helement hprint ?_) (fun found hfound => ?_)
  · rw [List.length_cons, List.length_append]
    omega
  · rcases found with ⟨separator, later⟩
    rcases hfound with ⟨hseparator, hlater⟩
    have hsome : separator = some (.mark mark) := hseparator
    rw [hsome]
    apply bind (expectMark .closeParen)
    intro _ _
    exact pure ⟨later, rfl, hlater⟩

theorem enclosedFirst {inner : List Piece} {good : α -> Prop} {best : Enclosed α -> Prop}
    (hhead : ¬ Piece.headKind inner ∈ [.lineBreak, .mark .closeParen])
    (hseparator : separators.contains (Piece.headKind inner) = false)
    (hfirst : Accepts room element inner middle good)
    (hrest : forall first, good first ->
      Accepts room (enclosedRest construct separators first false element) middle rest best) :
    Accepts room (enclosed construct separators element) (.mark .openParen :: inner) rest best := by
  simp only [List.mem_cons, List.not_mem_nil, or_false, not_or] at hhead
  apply bind (expectMark .openParen)
  intro _ _
  apply isAt
  rw [if_neg (by simpa using hhead.2)]
  apply bind (noLineBreaks hhead.1)
  intro multiline hmultiline
  apply kind
  rw [if_neg (by simpa using hseparator), hmultiline]
  exact bind hfirst hrest

theorem enclosedGroup {inner : List Piece} {good : α -> Prop}
    (hhead : ¬ Piece.headKind (inner ++ .mark .closeParen :: rest) ∈
      [.lineBreak, .mark .closeParen])
    (hseparator : separators.contains
      (Piece.headKind (inner ++ .mark .closeParen :: rest)) = false)
    (hclose : separators.contains (.mark .closeParen) = false)
    (h : Accepts room element (inner ++ .mark .closeParen :: rest) (.mark .closeParen :: rest)
      good) :
    Accepts room (enclosed construct separators element) (Piece.parens inner ++ rest) rest
      (fun form => exists value, form = .group value ∧ good value) := by
  rw [Piece.parens, List.cons_append, List.append_assoc, List.singleton_append]
  apply enclosedFirst hhead hseparator h
  intro first hfirst
  exact (enclosedRestGroup hclose).mono (fun form hform => ⟨first, hform, hfirst⟩)

theorem enclosedSequence {mark : Mark} {x : τ} {xs : List τ}
    (hmark : separators.contains (.mark mark) = true)
    (helement : forall y, y ∈ x :: xs -> forall rest,
      Accepts room element (print y ++ .mark mark :: rest) (.mark mark :: rest)
        (fun value => view value = target y))
    (hprint : forall y, y ∈ x :: xs -> forall rest,
      ¬ Piece.headKind (print y ++ rest) ∈ [.lineBreak, .mark .closeParen] ∧
        separators.contains (Piece.headKind (print y ++ rest)) = false) :
    Accepts room (enclosed construct separators element)
      (Piece.parens ((x :: xs).flatMap (fun y => print y ++ [.mark mark])) ++ rest) rest
      (fun form => exists values, form = .sequence (.mark mark) values ∧
        values.map view = (x :: xs).map target) := by
  rw [Piece.parens, List.cons_append, List.flatMap_cons, List.append_assoc, List.append_assoc,
    List.append_assoc, List.singleton_append, List.singleton_append]
  apply enclosedFirst (hprint x (by simp) _).1 (hprint x (by simp) _).2
    (helement x (by simp) _)
  intro first hfirst
  apply mono (enclosedRestSequence hmark (fun y hy => helement y (by simp [hy]))
    (fun y hy rest => (hprint y (by simp [hy]) rest).1))
  intro form hform
  rcases hform with ⟨later, hform, hlater⟩
  exact ⟨first :: later, hform, by rw [List.map_cons, List.map_cons, hfirst, hlater]⟩

end Accepts

end Parser

end Linewise
