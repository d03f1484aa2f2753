import Linewise.Proofs.Parallel.Combinator
import Linewise.Proofs.Placement.Node

/-!
# What parsers build

A parser places nodes if the nodes of its value make a row in the tokens that it
reads.  A rule of the grammar reads one part behind the other, and the nodes of the
parts make a longer row; where it asks for the span from its first token on, the row
turns into the children of one node.
-/

namespace Linewise

/-- The cursor stands in the text. -/
structure Cursor.Within (text : List Token) (c : Cursor) : Prop where
  fits : plainRecovery.Fits c
  ordered : Token.Ordered c.ahead
  inside : forall t, t ∈ c.ahead -> t ∈ text

namespace Cursor.Within

variable {text read : List Token} {c d : Cursor} {noted : List Diagnostic}

theorem after (h : c.Within text) (passage : c.Passage read noted d) : d.Within text where
  fits := h.fits.after passage
  ordered := by
    have hordered := h.ordered
    rw [passage.ahead] at hordered
    exact hordered.right
  inside := by
    intro t ht
    apply h.inside t
    rw [passage.ahead]
    exact List.mem_append_right read ht

theorem ordered_read (h : c.Within text) (passage : c.Passage read noted d) :
    Token.Ordered read := by
  have hordered := h.ordered
  rw [passage.ahead] at hordered
  exact hordered.left

theorem mem_read (h : c.Within text) (passage : c.Passage read noted d) {t : Token}
    (ht : t ∈ read) : t ∈ text := by
  apply h.inside t
  rw [passage.ahead]
  exact List.mem_append_left d.ahead ht

end Cursor.Within

/-- From `c` reading came to `d`, and the nodes make a row in what was read.  If `solid`
is set, what was read is not all trivia. -/
structure Reached (text : List Token) (c : Cursor) (solid : Bool) (nodes : List Node)
    (d : Cursor) : Prop where
  within : c.Within text
  row : exists read noted, c.Passage read noted d ∧ Row text read nodes ∧
    (solid = true -> exists t, t ∈ read ∧ Cursor.isTrivia t = false)

namespace Reached

variable {text : List Token} {c d e : Cursor} {solid solid' : Bool} {nodes nodes' : List Node}

theorem refl (h : c.Within text) : Reached text c false [] c :=
  ⟨h, [], [], Cursor.Passage.refl c, Row.nil, by simp⟩

theorem passage {read : List Token} {noted : List Diagnostic} (h : c.Within text)
    (passage : c.Passage read noted d) : Reached text c false [] d :=
  ⟨h, read, noted, passage, Row.nil, by simp⟩

theorem arrived (h : Reached text c solid nodes d) : d.Within text := by
  rcases h.row with ⟨read, noted, passage, _⟩
  exact h.within.after passage

theorem trans (first : Reached text c solid nodes d) (second : Reached text d solid' nodes' e) :
    Reached text c (solid || solid') (nodes ++ nodes') e := by
  rcases first.row with ⟨read, noted, passage, hrow, hsolid⟩
  rcases second.row with ⟨read', noted', passage', hrow', hsolid'⟩
  refine ⟨first.within, _, _, passage.trans passage', hrow.append hrow', ?_⟩
  intro hor
  rcases Bool.or_eq_true_iff.mp hor with hfirst | hsecond
  · rcases hsolid hfirst with ⟨t, ht, htrivia⟩
    exact ⟨t, List.mem_append_left read' ht, htrivia⟩
  · rcases hsolid' hsecond with ⟨t, ht, htrivia⟩
    exact ⟨t, List.mem_append_right read ht, htrivia⟩

theorem weaken (h : Reached text c (solid || solid') nodes d) : Reached text c solid nodes d := by
  rcases h.row with ⟨read, noted, passage, hrow, hsolid⟩
  exact ⟨h.within, read, noted, passage, hrow, fun htrue => hsolid (by simp [htrue])⟩

theorem restate (h : Reached text c solid nodes d)
    (hnodes : List.Forall₂ (Becomes text) nodes nodes') : Reached text c solid nodes' d := by
  rcases h.row with ⟨read, noted, passage, hrow, hsolid⟩
  exact ⟨h.within, read, noted, passage, hrow.restate hnodes, hsolid⟩

theorem close {node : Node} {comments : List Lexeme} (h : Reached text c solid nodes d)
    (hsolid : solid = true ∨ nodes ≠ []) (hcomments : Above text c.current.span.start comments)
    (hspan : node.span = d.spanFrom c.current.span)
    (hchildren : node.children = comments.map (Node.leaf .comment) ++ nodes)
    (hplain : node.isComment = false) : Reached text c true [node] d := by
  rcases h.row with ⟨read, noted, passage, hrow, hread⟩
  have hsome : exists t, t ∈ read ∧ Cursor.isTrivia t = false := by
    rcases hsolid with htrue | hne
    · exact hread htrue
    · exact hrow.solid hne
  have hordered := h.within.ordered_read passage
  rcases passage.extent hordered hsome with ⟨hstart, hextent⟩
  rw [← hspan] at hstart hextent
  rw [← hstart] at hcomments
  have hsits : Sits text read node :=
    Sits.ofRow hordered (fun t ht => h.within.mem_read passage ht) hrow hextent hcomments
      hchildren hplain
  exact ⟨h.within, read, noted, passage, Row.single hsits, fun _ => hsome⟩

end Reached

def Places {α : Type} (text : List Token) (solid : Bool) (parser : Parser α)
    (nodes : α -> List Node) : Prop :=
  forall c value d, c.Within text -> parser c = .ok value d ->
    Reached text c solid (nodes value) d

def Builds {α : Type} (text : List Token) (c : Cursor) (solid : Bool) (before : List Node)
    (parser : Parser α) (nodes : α -> List Node) : Prop :=
  forall d value e, Reached text c solid before d -> parser d = .ok value e ->
    Reached text c solid (nodes value) e

variable {α β : Type} {text : List Token} {c : Cursor} {solid solid' : Bool} {before : List Node}

/-!
## Sequences
-/

namespace Builds

open Linewise.Parser

theorem bind {first : Parser α} {next : α -> Parser β} {middle : α -> List Node}
    {nodes : β -> List Node} (hfirst : Places text solid' first middle)
    (hnext : forall value,
      Builds text c (solid || solid') (before ++ middle value) (next value) nodes) :
    Builds text c solid before (first >>= next) nodes := by
  intro d result e hreached hresult
  rcases bind_eq_ok.mp hresult with ⟨value, d', hvalue, hrest⟩
  have hmiddle := hreached.trans (hfirst d value d' hreached.arrived hvalue)
  exact (hnext value d' result e hmiddle hrest).weaken

theorem follow {first : Parser α} {next : α -> Parser β} {middle : α -> List Node}
    {nodes : β -> List Node} (hfirst : Builds text c solid before first middle)
    (hnext : forall value, Builds text c solid (middle value) (next value) nodes) :
    Builds text c solid before (first >>= next) nodes := by
  intro d result e hreached hresult
  rcases bind_eq_ok.mp hresult with ⟨value, d', hvalue, hrest⟩
  exact hnext value d' result e (hfirst d value d' hreached hvalue) hrest

theorem pass {first : Parser α} {next : α -> Parser β} {nodes : β -> List Node}
    (hfirst : Places text solid' first (fun _ => []))
    (hnext : forall value, Builds text c (solid || solid') before (next value) nodes) :
    Builds text c solid before (first >>= next) nodes := by
  apply bind hfirst
  intro value
  rw [List.append_nil]
  exact hnext value

theorem look {view : Cursor -> α} {next : α -> Parser β} {nodes : β -> List Node}
    (hnext : forall seen, Builds text c solid before (next seen) nodes) :
    Builds text c solid before (look view >>= next) nodes :=
  fun d result e hreached hresult => hnext (view d) d result e hreached hresult

theorem lookBind {γ : Type} {view : Cursor -> γ} {first : Parser α} {next : γ -> α -> Parser β}
    {middle : α -> List Node} {nodes : β -> List Node} (hfirst : Places text solid' first middle)
    (hnext : forall d value d', first d = .ok value d' ->
      Builds text c (solid || solid') (before ++ middle value) (next (view d) value) nodes) :
    Builds text c solid before
      (Parser.look view >>= fun seen => first >>= fun value => next seen value) nodes := by
  intro d result e hreached hresult
  rcases bind_eq_ok.mp hresult with ⟨seen, d', hseen, hrest⟩
  cases hseen
  rcases bind_eq_ok.mp hrest with ⟨value, d', hvalue, hrest⟩
  have hmiddle := hreached.trans (hfirst d value d' hreached.arrived hvalue)
  exact (hnext d value d' hvalue d' result e hmiddle hrest).weaken

theorem give {value : α} {nodes : α -> List Node} (h : nodes value = before) :
    Builds text c solid before (pure value) nodes := by
  intro d result e hreached hresult
  cases hresult
  rw [h]
  exact hreached

theorem giveLeft {value : α} {nodes : α -> List Node} {more : List Node}
    (h : before = nodes value ++ more) : Builds text c solid before (pure value) nodes := by
  intro d result e hreached hresult
  cases hresult
  rcases hreached.row with ⟨read, noted, passage, hrow, hsolid⟩
  rw [h] at hrow
  exact ⟨hreached.within, read, noted, passage, hrow.leftOf, hsolid⟩

theorem restate {before' : List Node} {parser : Parser α} {nodes : α -> List Node}
    (hbefore : List.Forall₂ (Becomes text) before before')
    (h : Builds text c solid before' parser nodes) : Builds text c solid before parser nodes := by
  intro d result e hreached hresult
  exact h d result e (hreached.restate hbefore) hresult

theorem giveAs {value : α} {nodes : α -> List Node}
    (h : List.Forall₂ (Becomes text) before (nodes value)) :
    Builds text c solid before (pure value) nodes := restate h (give rfl)

theorem unexpected (expected : String) (nodes : α -> List Node) :
    Builds text c solid before (Parser.unexpected expected) nodes := by
  intro d result e _ hresult
  cases hresult

theorem last {parser : Parser α} {nodes : α -> List Node}
    (h : Places text solid' parser nodes) : Builds text c false [] parser nodes := by
  intro d result e hreached hresult
  exact (hreached.trans (h d result e hreached.arrived hresult)).weaken

theorem closeBelow {next : Span -> Parser α} {nodes : α -> List Node} {comments : List Lexeme}
    (make : Span -> Node) (hcomments : Above text c.current.span.start comments)
    (hsolid : solid = true ∨ before ≠ []) (hspan : forall span, (make span).span = span)
    (hchildren : forall span,
      (make span).children = comments.map (Node.leaf .comment) ++ before)
    (hplain : forall span, (make span).isComment = false)
    (hnext : forall span, Builds text c true [make span] (next span) nodes) :
    Builds text c solid before (spanFrom c.current.span >>= next) nodes := by
  intro d result e hreached hresult
  have hclosed := hreached.close hsolid hcomments (hspan _) (hchildren _) (hplain _)
  have hrest := hnext _ d result e hclosed hresult
  rw [← Bool.or_true solid] at hrest
  exact hrest.weaken

theorem close {next : Span -> Parser α} {nodes : α -> List Node} (make : Span -> Node)
    (hsolid : solid = true ∨ before ≠ []) (hspan : forall span, (make span).span = span)
    (hchildren : forall span, (make span).children = before)
    (hplain : forall span, (make span).isComment = false)
    (hnext : forall span, Builds text c true [make span] (next span) nodes) :
    Builds text c solid before (spanFrom c.current.span >>= next) nodes :=
  closeBelow make (Above.none text _) hsolid hspan hchildren hplain hnext

theorem branchBelow {value : Span -> α} {nodes : α -> List Node} {comments : List Lexeme}
    (tag : String) (hcomments : Above text c.current.span.start comments)
    (hsolid : solid = true ∨ before ≠ [])
    (hnode : forall span, nodes (value span) =
      [.branch tag span (comments.map (Node.leaf .comment) ++ before)]) :
    Builds text c solid before (spanFrom c.current.span >>= fun span => pure (value span))
      nodes := by
  apply closeBelow (fun span => .branch tag span (comments.map (Node.leaf .comment) ++ before))
    hcomments hsolid (fun _ => rfl) (fun _ => rfl) (fun _ => rfl)
  intro span
  exact give (hnode span)

theorem branch {value : Span -> α} {nodes : α -> List Node} {tag : String}
    (hsolid : solid = true ∨ before ≠ [])
    (hnode : forall span, nodes (value span) = [.branch tag span before]) :
    Builds text c solid before (spanFrom c.current.span >>= fun span => pure (value span))
      nodes := branchBelow tag (Above.none text _) hsolid hnode

end Builds

namespace Places

open Linewise.Parser

variable {nodes : α -> List Node}

theorem ofBuilds {parser : Parser α} (h : forall c, Builds text c false [] parser nodes) :
    Places text false parser nodes :=
  fun c value d hc hvalue => h c c value d (Reached.refl hc) hvalue

theorem weaken {parser : Parser α} (h : Places text solid parser nodes) :
    Places text false parser nodes := by
  apply ofBuilds
  intro c
  exact Builds.last h

theorem restate {parser : Parser α} {nodes' : α -> List Node}
    (h : Places text solid parser nodes)
    (hnodes : forall value, List.Forall₂ (Becomes text) (nodes value) (nodes' value)) :
    Places text solid parser nodes' := by
  intro c value d hc hvalue
  exact (h c value d hc hvalue).restate (hnodes value)

theorem look {view : Cursor -> β} {next : β -> Parser α}
    (hnext : forall seen, Places text solid (next seen) nodes) :
    Places text solid (look view >>= next) nodes :=
  fun c value d hc hvalue => hnext (view c) c value d hc hvalue

theorem startAt {next : Span -> Parser α} {c d : Cursor} {value : α} (hc : c.Within text)
    (hnext : Builds text c false [] (next c.current.span) nodes)
    (hvalue : (currentSpan >>= next) c = .ok value d) : Reached text c false (nodes value) d :=
  hnext c value d (Reached.refl hc) hvalue

theorem start {next : Span -> Parser α}
    (hnext : forall c : Cursor, Builds text c false [] (next c.current.span) nodes) :
    Places text false (currentSpan >>= next) nodes :=
  fun c _ _ hc hvalue => startAt hc (hnext c) hvalue

theorem unexpected (expected : String) : Places text solid (Parser.unexpected expected) nodes := by
  intro c value d _ hvalue
  cases hvalue

theorem tooDeep : Places text solid Parser.tooDeep nodes := by
  intro c value d _ hvalue
  cases hvalue

end Places

/-!
## Tokens
-/

def Kind.isSolid : Kind -> Bool
  | .comment => false
  | .lineBreak => false
  | .endOfInput => false
  | _ => true

theorem isTrivia_of_isSolid {t : Token} (h : t.kind.isSolid = true) :
    Cursor.isTrivia t = false := by
  cases htrivia : Cursor.isTrivia t with
  | false => rfl
  | true =>
      simp only [Cursor.isTrivia, Token.isComment, Token.isLineBreak, Bool.or_eq_true,
        beq_iff_eq] at htrivia
      rcases htrivia with hkind | hkind
      · rw [hkind] at h
        cases h
      · rw [hkind] at h
        cases h

theorem Kind.ne_end_of_isSolid {kind : Kind} (h : kind.isSolid = true) : kind ≠ .endOfInput := by
  intro hend
  rw [hend] at h
  cases h

theorem Reached.advance {d : Cursor} {node : Node} (hd : d.Within text)
    (hkind : d.kind.isSolid = true) (hspan : node.span = d.current.span)
    (hchildren : node.children = []) (hplain : node.isComment = false) :
    Reached text d true [node] d.advance := by
  have hpassage := Cursor.advance_passage hd.fits.final (Kind.ne_end_of_isSolid hkind)
  have hmem : d.current ∈ d.ahead.takeWhile Token.isComment ++ [d.current] := by simp
  have htrivia := isTrivia_of_isSolid (t := d.current) hkind
  have hsits := Sits.token hmem (hd.mem_read hpassage hmem) htrivia
    ((hd.ordered_read hpassage).nonempty _ hmem) hspan hchildren hplain
  exact ⟨hd, _, _, hpassage, Row.single hsits, fun _ => ⟨_, hmem, htrivia⟩⟩

theorem Reached.advanceSilent {d : Cursor} (hd : d.Within text)
    (hkind : d.kind.isSolid = true) : Reached text d true [] d.advance := by
  have hpassage := Cursor.advance_passage hd.fits.final (Kind.ne_end_of_isSolid hkind)
  have hmem : d.current ∈ d.ahead.takeWhile Token.isComment ++ [d.current] := by simp
  exact ⟨hd, _, _, hpassage, Row.nil, fun _ => ⟨_, hmem, isTrivia_of_isSolid hkind⟩⟩

theorem Cursor.exists_advance_passage {d : Cursor} (hfinal : d.final.kind = .endOfInput) :
    exists read, d.Passage read [] d.advance := by
  by_cases hend : d.kind = .endOfInput
  · have hadvance : d.advance = { d with ahead := d.significant } := by
      unfold advance
      cases hs : d.significant with
      | nil => rfl
      | cons token rest =>
          have hkind : token.kind = .endOfInput := by rwa [kind, current_eq hs] at hend
          simp [hkind]
    rw [hadvance]
    exact ⟨_, Passage.ofTrivia d.ahead_eq_significant (fun _ ht => isTrivia_of_comments ht)⟩
  · exact ⟨_, Cursor.advance_passage hfinal hend⟩

namespace Places

open Linewise.Parser

variable {nodes : α -> List Node}

theorem expectNode {kind : Kind} {make : Token -> Node} (hkind : kind.isSolid = true)
    (description : String) (hmake : Node.Marks (fun token : Token => token.span) make) :
    Places text true (Parser.expectAs kind description) (fun token => [make token]) := by
  intro c token d hc htoken
  unfold Parser.expectAs expectOr at htoken
  split at htoken
  · rename_i hat
    cases htoken
    have hsame : c.kind = kind := by simpa [Cursor.isAt] using hat
    exact Reached.advance hc (by rwa [hsame]) (hmake.span _) (hmake.children _) (hmake.plain _)
  · cases htoken

theorem expectAs {kind : Kind} (hkind : kind.isSolid = true) (description : String) :
    Places text true (Parser.expectAs kind description) (fun _ => []) := by
  intro c token d hc htoken
  unfold Parser.expectAs expectOr at htoken
  split at htoken
  · rename_i hat
    cases htoken
    have hsame : c.kind = kind := by simpa [Cursor.isAt] using hat
    exact Reached.advanceSilent hc (by rwa [hsame])
  · cases htoken

theorem expectMark (mark : Mark) : Places text true (expect (.mark mark)) (fun _ => []) :=
  expectAs rfl _

theorem expectReserved (word : ReservedWord) :
    Places text true (expect (.reserved word)) (fun _ => []) := expectAs rfl _

theorem advance : Places text false Parser.advance (fun _ => []) := by
  intro c token d hc htoken
  cases htoken
  rcases Cursor.exists_advance_passage hc.fits.final with ⟨read, passage⟩
  exact Reached.passage hc passage

theorem skipLineBreaks : Places text false Parser.skipLineBreaks (fun _ => []) := by
  intro c skipped d hc hskipped
  cases hskipped
  rcases c.skipLineBreaks_passage with ⟨read, passage, _⟩
  exact Reached.passage hc passage

theorem opening {kind : Kind} {next : Token -> Parser α} (hkind : kind.isSolid = true)
    (hnext : forall c : Cursor, Builds text c true [] (next c.current) nodes) :
    Places text true (expect kind >>= next) nodes := by
  intro c value d hc hvalue
  rcases bind_eq_ok.mp hvalue with ⟨token, d', htoken, hrest⟩
  have hreached : Reached text c true [] d' := expectAs hkind _ c token d' hc htoken
  unfold expect Parser.expectAs expectOr at htoken
  split at htoken
  · cases htoken
    exact hnext c _ value d hreached hrest
  · cases htoken

theorem openingAny {next : Token -> Parser α}
    (hnext : forall c : Cursor, Builds text c false [] (next c.current) nodes) :
    Places text false (Parser.advance >>= next) nodes := by
  intro c value d hc hvalue
  exact hnext c c.advance value d (advance c c.current c.advance hc rfl) hvalue

theorem lexeme {kind : Kind} {make : Lexeme -> Node} (hkind : kind.isSolid = true)
    (description : String) (hmake : Node.Marks Lexeme.span make) :
    Places text false (Grammar.leaf kind description) (fun lexeme => [make lexeme]) := by
  apply ofBuilds
  intro c
  have htoken : Node.Marks (fun token : Token => token.span) (fun token => make token.toLexeme) :=
    ⟨fun _ => hmake.span _, fun _ => hmake.children _, fun _ => hmake.plain _⟩
  apply Builds.bind (expectNode hkind description htoken)
  intro token
  exact Builds.give rfl

theorem quotedText {make : Lexeme -> Node} (hmake : Node.Marks Lexeme.span make) :
    Places text false Grammar.text (fun lexeme => [make lexeme]) := by
  let unquoted (token : Token) : Lexeme :=
    { value := (Grammar.unquoted? token.value).getD "", span := token.span }
  have htoken : Node.Marks (fun token : Token => token.span) (fun token => make (unquoted token)) :=
    ⟨fun _ => hmake.span _, fun _ => hmake.children _, fun _ => hmake.plain _⟩
  apply ofBuilds
  intro c
  apply Builds.bind (expectNode rfl _ htoken)
  intro token
  split
  · rename_i value hvalue
    apply Builds.give
    simp [unquoted, hvalue]
  · intro d value e _ hvalue
    cases hvalue

theorem around {parser : Parser Lexeme} {kind : LeafKind} {tag : String} {value : Lexeme -> α}
    (hparser : Places text false parser (fun lexeme => [.bare kind lexeme]))
    (hnode : forall lexeme,
      nodes (value lexeme) = [.branch tag lexeme.span [.bare kind lexeme]]) :
    Places text false (parser >>= fun lexeme => pure (value lexeme)) nodes := by
  apply ofBuilds
  intro c
  apply Builds.bind hparser
  intro lexeme
  apply Builds.giveAs
  rw [hnode]
  exact .cons (Becomes.around rfl rfl rfl) .nil

theorem ofMark {mark : Mark} {tag : String} {value : Span -> α}
    (hnode : forall span, nodes (value span) = [.branch tag span []]) :
    Places text false (expect (.mark mark) >>= fun token => pure (value token.span))
      nodes := by
  have hmake : Node.Marks (fun token : Token => token.span)
      (fun token => .branch tag token.span []) := ⟨fun _ => rfl, fun _ => rfl, fun _ => rfl⟩
  apply ofBuilds
  intro c
  apply Builds.bind (expectNode rfl _ hmake)
  intro token
  exact Builds.give (hnode token.span)

/-!
## Trying and nesting
-/

theorem nestedAt {parser : Parser α} {c d : Cursor} {value : α} (hc : c.Within text)
    (h : forall found e, Cursor.Within text { c with depth := c.depth + 1 } ->
      parser { c with depth := c.depth + 1 } = .ok found e ->
      Reached text { c with depth := c.depth + 1 } solid (nodes found) e)
    (hvalue : Parser.nested parser c = .ok value d) : Reached text c solid (nodes value) d := by
  unfold Parser.nested at hvalue
  split at hvalue
  · have hinner : Cursor.Within text { c with depth := c.depth + 1 } :=
      ⟨⟨hc.fits.tokens, hc.fits.ends⟩, hc.ordered, hc.inside⟩
    cases hparser : parser { c with depth := c.depth + 1 } with
    | ok found e =>
        rcases (h found e hinner hparser).row with ⟨read, noted, passage, hrow, hsolid⟩
        rcases Account.passage_nested passage with ⟨hdepth, passage'⟩
        simp only [hparser, closeLevel, hdepth, Reply.ok.injEq] at hvalue
        rcases hvalue with ⟨rfl, rfl⟩
        exact ⟨hc, read, noted, passage', hrow, hsolid⟩
    | error diagnostic e =>
        rw [hparser, closeLevel] at hvalue
        split at hvalue <;> cases hvalue
    | fault found =>
        rw [hparser] at hvalue
        cases hvalue
  · cases hvalue

theorem nested {parser : Parser α} (h : Places text solid parser nodes) :
    Places text solid (Parser.nested parser) nodes :=
  fun _ _ _ hc hvalue => nestedAt hc (fun found e hinner => h _ found e hinner) hvalue

def ofOption (nodes : α -> List Node) : Option α -> List Node
  | none => []
  | some value => nodes value

theorem ofOption_eq_toList (node : α -> Node) (value : Option α) :
    ofOption (fun value => [node value]) value = (value.map node).toList := by
  cases value with
  | none => rfl
  | some value => rfl

theorem speculateAt {parser : Parser α} {least : Nat} {pre : Cursor -> Prop}
    {script : α -> List Symbol} {c d : Cursor} {value : Option α} (hc : c.Within text)
    (hreads : plainRecovery.ReadsIf least pre parser script) (hpre : pre c)
    (h : Places text solid parser nodes) (hvalue : Parser.speculate parser c = .ok value d) :
    Reached text c false (ofOption nodes value) d := by
  unfold Parser.speculate at hvalue
  cases hparser : parser c with
  | ok found e =>
      rw [hparser] at hvalue
      cases hvalue
      exact h.weaken c found d hc hparser
  | error diagnostic e =>
      rcases Correspondence.passage_of_error hreads hc.fits hpre hparser with
        ⟨read, noted, passage⟩
      rw [hparser] at hvalue
      simp only [Cursor.restore_checkpoint passage, Reply.ok.injEq] at hvalue
      rcases hvalue with ⟨rfl, rfl⟩
      exact Reached.refl hc
  | fault found =>
      rw [hparser] at hvalue
      cases hvalue

theorem speculate {parser : Parser α} {least : Nat} {script : α -> List Symbol}
    (hreads : plainRecovery.Reads least parser script) (h : Places text solid parser nodes) :
    Places text false (Parser.speculate parser) (ofOption nodes) :=
  fun _ _ _ hc hvalue => speculateAt hc hreads trivial h hvalue

theorem map {parser : Parser α} {f : α -> β} {nodes' : β -> List Node}
    (h : Places text solid parser nodes) (hf : forall value, nodes' (f value) = nodes value) :
    Places text false (f <$> parser) nodes' := by
  apply ofBuilds
  intro c
  apply Builds.bind h
  intro value
  exact Builds.give (hf value)

end Places

theorem Builds.optional {first : Parser (Option α)} {next : Option α -> Parser β}
    {middle : α -> List Node} {nodes : β -> List Node} {possible : Bool}
    (hfirst : Places text false first (Places.ofOption middle))
    (hnext : forall value,
      Builds text c solid (before ++ Places.ofOption middle value) (next value) nodes) :
    Builds text c solid before (if possible then first >>= next else pure none >>= next)
      nodes := by
  split
  · apply Builds.bind hfirst
    rw [Bool.or_false]
    exact hnext
  · have hnone := hnext none
    rw [Places.ofOption, List.append_nil] at hnone
    exact hnone

namespace Places

open Linewise.Parser

variable {nodes : α -> List Node}

/-!
## Repeating
-/

theorem repeatUpTo {more : Cursor -> Bool} {item : Parser α}
    (hitem : Places text false item nodes) (bound : Nat) :
    Places text false (Parser.repeatUpTo more item bound) (fun items => items.flatMap nodes) := by
  induction bound with
  | zero =>
      intro c items d hc hitems
      unfold Parser.repeatUpTo at hitems
      split at hitems
      · cases hitems
      · cases hitems
        exact Reached.refl hc
  | succ bound ih =>
      intro c items d hc hitems
      unfold Parser.repeatUpTo at hitems
      split at hitems
      · refine ofBuilds (fun c => ?_) c items d hc hitems
        apply Builds.bind hitem
        intro first
        apply Builds.bind ih
        intro rest
        exact Builds.give rfl
      · cases hitems
        exact Reached.refl hc

theorem repeatWhile {more : Cursor -> Bool} {item : Parser α}
    (hitem : Places text false item nodes) :
    Places text false (Parser.repeatWhile more item) (fun items => items.flatMap nodes) :=
  fun c items d hc hitems => repeatUpTo hitem c.ahead.length c items d hc hitems

theorem foldUpTo {σ : Type} {more : Cursor -> Bool} {item : Parser α} {join : σ -> α -> σ}
    {node : σ -> Node}
    (hitem : forall state, Builds text c solid [node state] item
      (fun value => [node (join state value)])) (bound : Nat) (first : σ) :
    Builds text c solid [node first] (Parser.repeatUpTo more item bound)
      (fun items => [node (items.foldl join first)]) := by
  induction bound generalizing first with
  | zero =>
      intro d items e hreached hitems
      unfold Parser.repeatUpTo at hitems
      split at hitems
      · cases hitems
      · cases hitems
        exact hreached
  | succ bound ih =>
      intro d items e hreached hitems
      unfold Parser.repeatUpTo at hitems
      split at hitems
      · rcases bind_eq_ok.mp hitems with ⟨value, d', hvalue, hrest⟩
        rcases bind_eq_ok.mp hrest with ⟨others, e', hothers, hpure⟩
        cases hpure
        exact ih (join first value) d' others e (hitem first d value d' hreached hvalue) hothers
      · cases hitems
        exact hreached

theorem foldWhile {σ : Type} {more : Cursor -> Bool} {item : Parser α} {join : σ -> α -> σ}
    {node : σ -> Node}
    (hitem : forall state, Builds text c solid [node state] item
      (fun value => [node (join state value)])) (first : σ) :
    Builds text c solid [node first] (Parser.repeatWhile more item)
      (fun items => [node (items.foldl join first)]) :=
  fun d items e hreached hitems =>
    foldUpTo hitem d.ahead.length first d items e hreached hitems

/-!
## Lines and parentheses
-/

theorem lines {terminator : Kind} {item : Parser α} (hitem : Places text false item nodes) :
    Places text false (Parser.lines terminator item) (fun items => items.flatMap nodes) := by
  have hline : Places text false (wholeLine terminator item) nodes := by
    apply ofBuilds
    intro c
    apply Builds.bind hitem
    intro value
    apply Builds.pass skipLineBreaks
    intro skipped
    apply Builds.look
    intro ended
    split
    · exact Builds.give rfl
    · exact Builds.unexpected _ _
  apply ofBuilds
  intro c
  apply Builds.pass skipLineBreaks
  intro _
  exact Builds.last (repeatWhile hline)

def ofEnclosed (nodes : α -> List Node) : Enclosed α -> List Node
  | .unit => []
  | .group value => nodes value
  | .sequence _ elements => elements.flatMap nodes

theorem separated {construct : String} {separators : List Kind} {element : Parser α}
    (helement : Places text false element nodes) (bound : Nat) (separator : Option Kind)
    (multiline : Bool) :
    Places text false (Parser.separated construct separators element bound separator multiline)
      (fun found => found.2.flatMap nodes) := by
  induction bound generalizing separator multiline with
  | zero =>
      intro c found d _ hfound
      cases hfound
  | succ bound ih =>
      apply ofBuilds
      intro c
      apply Builds.look
      intro kind
      split
      · split
        · intro d found e _ hfound
          cases hfound
        · apply Builds.pass advance
          intro _
          apply Builds.pass skipLineBreaks
          intro skipped
          apply Builds.look
          intro closed
          split
          · exact Builds.give rfl
          · apply Builds.bind helement
            intro next
            apply Builds.bind (ih _ _)
            intro rest
            exact Builds.give rfl
      · split
        · exact Builds.give rfl
        · exact Builds.unexpected _ _

theorem enclosedRest {construct : String} {separators : List Kind} {element : Parser α}
    (helement : Places text false element nodes) (first : α) (multiline : Bool) :
    Builds text c solid (nodes first)
      (Parser.enclosedRest construct separators first multiline element) (ofEnclosed nodes) := by
  apply Builds.look
  intro bound
  apply Builds.bind (separated helement bound none multiline)
  rintro ⟨separator, rest⟩
  apply Builds.pass (expectMark .closeParen)
  intro _
  cases separator with
  | some separator => exact Builds.give rfl
  | none => exact Builds.giveLeft rfl

theorem enclosed {construct : String} {separators : List Kind} {element : Parser α}
    (helement : Places text false element nodes) :
    Places text true (Parser.enclosed construct separators element) (ofEnclosed nodes) := by
  apply opening rfl
  intro c
  apply Builds.look
  intro empty
  split
  · apply Builds.pass advance
    intro _
    exact Builds.give rfl
  · apply Builds.pass skipLineBreaks
    intro multiline
    apply Builds.look
    intro kind
    split
    · apply Builds.pass advance
      intro _
      apply Builds.pass skipLineBreaks
      intro _
      apply Builds.pass (expectMark .closeParen)
      intro _
      exact Builds.give rfl
    · apply Builds.bind helement
      intro first
      exact enclosedRest helement first multiline

end Places

end Linewise
