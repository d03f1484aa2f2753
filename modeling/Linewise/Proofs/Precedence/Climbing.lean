import Linewise.Grammar.Nesting
import Linewise.Proofs.Placement.Combinator
import Linewise.Proofs.Precedence.Grouping
import Linewise.Proofs.Reading.Expression

/-!
# Climbing precedences

The parser of operators reads an operand and then, from left to right, every operator
that binds at least as tight as asked for, with a right operand that takes all operators
behind it that bind tighter.  Main statement: what it builds from a chain is the grouping
of the chain.  Only right operands open levels, so it fails exactly if more of them lie
around one another than levels may nest.
-/

namespace Linewise

/-!
## Tokens in front of a cursor
-/

namespace Cursor

def past (c : Cursor) (last : Token) (rest : List Token) : Cursor :=
  { c with ahead := rest, previous := last.span }

variable {c : Cursor} {token : Token} {rest : List Token}

theorem significant_cons (hahead : c.ahead = token :: rest) (hsolid : token.kind.isSolid = true) :
    c.significant = token :: rest := by
  have htrivia := isTrivia_of_isSolid hsolid
  rw [isTrivia, Bool.or_eq_false_iff] at htrivia
  rw [significant, hahead, List.dropWhile_cons_of_neg (by simp [htrivia.1])]

theorem current_cons (hahead : c.ahead = token :: rest) (hsolid : token.kind.isSolid = true) :
    c.current = token := current_eq (significant_cons hahead hsolid)

theorem kind_cons (hahead : c.ahead = token :: rest) (hsolid : token.kind.isSolid = true) :
    c.kind = token.kind := congrArg Token.kind (current_cons hahead hsolid)

theorem advance_cons (hahead : c.ahead = token :: rest) (hsolid : token.kind.isSolid = true) :
    c.advance = c.past token rest := by
  have htrivia := isTrivia_of_isSolid hsolid
  rw [isTrivia, Bool.or_eq_false_iff] at htrivia
  have hcurrent := current_cons hahead hsolid
  have hsignificant := significant_cons hahead hsolid
  have hend : c.kind ≠ .endOfInput := by
    rw [kind_cons hahead hsolid]
    exact Kind.ne_end_of_isSolid hsolid
  rw [← hcurrent] at hsignificant
  rw [advance_eq hsignificant hend, hcurrent, spanAfter, if_neg (by simp [htrivia.2])]
  rfl

theorem skipLineBreaks_cons (hahead : c.ahead = token :: rest)
    (hsolid : token.kind.isSolid = true) : c.skipLineBreaks = c := by
  have htrivia := isTrivia_of_isSolid hsolid
  rw [isTrivia, Bool.or_eq_false_iff] at htrivia
  have hnone : afterLineBreaks? c.ahead = none := by
    simp [hahead, afterLineBreaks?, htrivia.1, htrivia.2]
  rw [skipLineBreaks, hnone, Option.getD_none]

theorem isAt_cons (hahead : c.ahead = token :: rest) (hsolid : token.kind.isSolid = true)
    (kind : Kind) : c.isAt kind = (token.kind == kind) := by
  rw [isAt, kind_cons hahead hsolid]

end Cursor

namespace Token

theorem IsAtom.isSolid {token : Token} (h : token.IsAtom) : token.kind.isSolid = true := by
  have hsolid : forall kind, kind ∈ atomKinds -> kind.isSolid = true := by decide
  exact hsolid _ h.kind

theorem IsAtom.ne_arrow {token : Token} (h : token.IsAtom) : token.kind ≠ .mark .arrow := by
  have hne : forall kind, kind ∈ atomKinds -> kind ≠ .mark .arrow := by decide
  exact hne _ h.kind

theorem IsAtom.startsExpression {token : Token} (h : token.IsAtom)
    (hword : token.isOperatorWord = false) : token.startsExpression = true := by
  have hstarts : forall kind, kind ∈ atomKinds -> expressionStarts.contains kind = true := by
    decide
  rw [Token.startsExpression, hstarts _ h.kind, hword]
  rfl

theorem kind_of_operator? {token : Token} {operator : Operator}
    (h : token.operator? = some operator) : token.kind = operator.kind := by
  injection Grammar.symbol_of_operator? h with hkind

end Token

namespace Link

theorem sign_isSolid (link : Link) : link.sign.kind.isSolid = true := by
  rw [Token.kind_of_operator? link.spelled]
  cases link.operator <;> rfl

theorem sign_ne_arrow (link : Link) : link.sign.kind ≠ .mark .arrow := by
  rw [Token.kind_of_operator? link.spelled]
  cases link.operator <;> decide

theorem sign_startsExpression (link : Link) : link.sign.startsExpression = false := by
  have hkind := Token.kind_of_operator? link.spelled
  unfold Token.startsExpression
  by_cases hword : link.sign.kind = .lowercaseName
  · have hspelled := link.spelled
    simp only [Token.operator?, hword] at hspelled
    by_cases hoperator : link.sign.isOperatorWord = true
    · rw [hoperator, Bool.not_true, Bool.and_false]
    · rw [if_neg hoperator] at hspelled
      cases hspelled
  · rw [hkind] at hword ⊢
    cases hoperator : link.operator <;> rw [hoperator] at hword <;>
      first | rfl | exact absurd rfl hword

end Link

namespace Chain

theorem solid_of_mem {first : Term} {links : List Link} {t : Token}
    (h : t ∈ tokens first links) : t.kind.isSolid = true ∧ t.kind ≠ .mark .arrow := by
  have hterm : forall {term : Term}, t ∈ term.tokens ->
      t.kind.isSolid = true ∧ t.kind ≠ .mark .arrow := by
    intro term ht
    rcases List.mem_cons.mp ht with rfl | hinput
    · exact ⟨term.head_isAtom.isSolid, term.head_isAtom.ne_arrow⟩
    · have hatom := term.inputs_isAtom t hinput
      exact ⟨hatom.isSolid, hatom.ne_arrow⟩
  rcases List.mem_append.mp h with hfirst | hrest
  · exact hterm hfirst
  · rcases List.mem_flatMap.mp hrest with ⟨link, _, ht⟩
    rcases List.mem_cons.mp ht with rfl | hlink
    · exact ⟨link.sign_isSolid, link.sign_ne_arrow⟩
    · exact hterm hlink

end Chain

namespace Parser

variable {α β : Type} {first : Parser α} {next : α -> Parser β} {c d : Cursor}

theorem bind_of_ok {value : α} (h : first c = .ok value d) :
    (first >>= next) c = next value d := by rw [bind_apply, h]

theorem bind_of_error {diagnostic : Diagnostic} (h : first c = .error diagnostic d) :
    (first >>= next) c = .error diagnostic d := by rw [bind_apply, h]

theorem look_bind (view : Cursor -> α) : (look view >>= next) c = next (view c) c := rfl

theorem currentSpan_bind {next : Span -> Parser β} :
    (currentSpan >>= next) c = next c.current.span c := rfl

theorem currentKind_bind {next : Kind -> Parser β} : (currentKind >>= next) c = next c.kind c := rfl

theorem isAt_bind {next : Bool -> Parser β} (kind : Kind) :
    (isAt kind >>= next) c = next (c.isAt kind) c := rfl

theorem advance_bind {next : Token -> Parser β} :
    (advance >>= next) c = next c.current c.advance := rfl

theorem expectAs_of_kind {kind : Kind} (h : c.kind = kind) (description : String) :
    expectAs kind description c = .ok c.current c.advance := by
  rw [expectAs, expectOr, if_pos]
  simp [Cursor.isAt, h]

theorem expect_of_kind {kind : Kind} (h : c.kind = kind) :
    expect kind c = .ok c.current c.advance := expectAs_of_kind h _

theorem repeatUpTo_stop {more : Cursor -> Bool} {item : Parser α} (h : more c = false)
    (bound : Nat) : repeatUpTo more item bound c = .ok [] c := by
  cases bound with
  | zero => simp [repeatUpTo, h]
  | succ bound => simp [repeatUpTo, h]

theorem repeatUpTo_more {more : Cursor -> Bool} {item : Parser α} (h : more c = true)
    (bound : Nat) :
    repeatUpTo more item (bound + 1) c =
      (item >>= fun value => repeatUpTo more item bound >>= fun rest => pure (value :: rest)) c :=
  if_pos h

end Parser

namespace Grammar

open Linewise.Parser

/-!
## Operands
-/

variable {level : Level} {c : Cursor}

theorem unquoted?_inner {token : Token} (h : token.Quoted) (hkind : token.kind = .text) :
    unquoted? token.value = some token.inner.value := by
  rcases h hkind with ⟨value, hvalue⟩
  rw [hvalue, Account.unquoted?_quoted]
  simp [Token.inner, hvalue, Symbol.quoted]

theorem expectAs_cons {token : Token} {rest : List Token} (hahead : c.ahead = token :: rest)
    (hsolid : token.kind.isSolid = true) (description : String) :
    expectAs token.kind description c = .ok token (c.past token rest) := by
  have hat : c.isAt token.kind = true := by simp [Cursor.isAt_cons hahead hsolid]
  rw [expectAs, expectOr, if_pos hat, Cursor.current_cons hahead hsolid,
    Cursor.advance_cons hahead hsolid]

theorem subexpression_atom {token : Token} {rest : List Token} (hatom : token.IsAtom)
    (hahead : c.ahead = token :: rest) :
    subexpression level c = .ok token.atom (c.past token rest) := by
  have hkind : currentKind c = .ok token.kind c := by
    rw [currentKind, look, Cursor.kind_cons hahead hatom.isSolid]
  have hexpect := expectAs_cons hahead hatom.isSolid
  have hcases := hatom.kind
  simp only [Token.atomKinds, List.mem_cons, List.not_mem_nil, or_false] at hcases
  rw [Token.atom]
  rcases hcases with h | h | h | h | h
  · rw [h] at hkind hexpect ⊢
    exact (bind_of_ok hkind).trans (bind_of_ok (hexpect _))
  · rw [h] at hkind hexpect ⊢
    exact (bind_of_ok hkind).trans (bind_of_ok (bind_of_ok (hexpect _)))
  · rw [h] at hkind hexpect ⊢
    exact (bind_of_ok hkind).trans (bind_of_ok (bind_of_ok (hexpect _)))
  · rw [h] at hkind hexpect ⊢
    exact (bind_of_ok hkind).trans (bind_of_ok (bind_of_ok (hexpect _)))
  · have hinner := unquoted?_inner hatom.quoted h
    rw [h] at hkind hexpect ⊢
    have htext : text c = .ok token.inner (c.past token rest) := by
      refine (bind_of_ok (hexpect _)).trans ?_
      rw [hinner]
      rfl
    exact (bind_of_ok hkind).trans (bind_of_ok htext)

theorem startsExpression_links {links : List Link} (hahead : c.ahead = links.flatMap Link.tokens)
    (hfinal : c.final.kind = .endOfInput) : c.current.startsExpression = false := by
  cases links with
  | nil => exact not_startsExpression_of_end (Cursor.kind_of_ahead_nil hfinal hahead)
  | cons link links =>
      rw [Cursor.current_cons hahead link.sign_isSolid]
      exact link.sign_startsExpression

theorem inputs_atoms {links : List Link} (hfinal : c.final.kind = .endOfInput)
    {atoms : List Token} (hatoms : forall t, t ∈ atoms -> t.IsAtom)
    (hplain : forall t, t ∈ atoms -> t.isOperatorWord = false) (before : Token) {bound : Nat}
    (hbound : atoms.length <= bound) :
    repeatUpTo (fun cursor => cursor.current.startsExpression) (subexpression level) bound
        (c.past before (atoms ++ links.flatMap Link.tokens)) =
      .ok (atoms.map Token.atom)
        (c.past (atoms.getLastD before) (links.flatMap Link.tokens)) := by
  induction atoms generalizing before bound with
  | nil =>
      apply repeatUpTo_stop
      exact startsExpression_links (c := c.past before (links.flatMap Link.tokens)) rfl hfinal
  | cons token atoms ih =>
      have hatom := hatoms token (by simp)
      cases bound with
      | zero => simp at hbound
      | succ bound =>
          have hahead : (c.past before (token :: atoms ++ links.flatMap Link.tokens)).ahead =
              token :: (atoms ++ links.flatMap Link.tokens) := rfl
          have hmore := hatom.startsExpression (hplain token (by simp))
          rw [← Cursor.current_cons hahead hatom.isSolid] at hmore
          have hrest := ih (fun t ht => hatoms t (by simp [ht]))
            (fun t ht => hplain t (by simp [ht])) token (Nat.le_of_succ_le_succ hbound)
          rw [repeatUpTo_more hmore, List.getLastD_cons]
          exact (bind_of_ok (subexpression_atom hatom hahead)).trans (bind_of_ok hrest)

theorem startsExpression_inputs {term : Term} {links : List Link}
    (hfinal : c.final.kind = .endOfInput) :
    (c.past term.head (term.inputs ++ links.flatMap Link.tokens)).current.startsExpression =
      !term.inputs.isEmpty := by
  cases hinputs : term.inputs with
  | nil =>
      exact startsExpression_links (c := c.past term.head (links.flatMap Link.tokens)) rfl hfinal
  | cons token rest =>
      have hmem : token ∈ term.inputs := by simp [hinputs]
      have hatom := term.inputs_isAtom token hmem
      have hcons : (c.past term.head (token :: rest ++ links.flatMap Link.tokens)).ahead =
          token :: (rest ++ links.flatMap Link.tokens) := rfl
      rw [Cursor.current_cons hcons hatom.isSolid]
      exact hatom.startsExpression (term.inputs_plain token hmem)

theorem applied_atom (term : Term) (inputs : List Expression) (span : Span) :
    applied (term.head.kind == .text) term.head.atom inputs span =
      if term.head.kind = .text then .formattedText term.head.inner inputs span
      else .call term.head.atom inputs span := by
  by_cases h : term.head.kind = .text
  · have hatom : term.head.atom = .text term.head.inner := by rw [Token.atom, h]
    rw [if_pos h, hatom, h]
    rfl
  · have hne : (term.head.kind == Kind.text) = false := by simpa using h
    rw [if_neg h, hne]
    rfl

theorem callExpression_term {term : Term} {links : List Link}
    (hahead : c.ahead = term.head :: (term.inputs ++ links.flatMap Link.tokens))
    (hfinal : c.final.kind = .endOfInput) :
    callExpression level term.head.span c =
      .ok term.expression (c.past term.last (links.flatMap Link.tokens)) := by
  have hhead := term.head_isAtom
  have htext : isAt .text c = .ok (term.head.kind == .text) c := by
    rw [isAt, look, Cursor.isAt_cons hahead hhead.isSolid]
  have hmore : look (fun cursor => cursor.current.startsExpression)
      (c.past term.head (term.inputs ++ links.flatMap Link.tokens)) =
        .ok (!term.inputs.isEmpty)
          (c.past term.head (term.inputs ++ links.flatMap Link.tokens)) :=
    congrArg (Reply.ok · _) (startsExpression_inputs hfinal)
  refine (bind_of_ok htext).trans ((bind_of_ok (subexpression_atom hhead hahead)).trans
    ((bind_of_ok hmore).trans ?_))
  unfold Term.expression
  by_cases hinputs : term.inputs = []
  · rw [if_pos hinputs, Term.last, hinputs]
    rfl
  · have hnonempty : (!term.inputs.isEmpty) = true := by simpa using hinputs
    rw [if_neg hinputs, ← applied_atom, hnonempty]
    exact bind_of_ok (inputs_atoms hfinal term.inputs_isAtom term.inputs_plain term.head
      (by simp [Cursor.past]))

theorem operand_term {term : Term} {links : List Link}
    (hahead : c.ahead = Chain.tokens term links) (hfinal : c.final.kind = .endOfInput) :
    operand level c = .ok term.expression (c.past term.last (links.flatMap Link.tokens)) := by
  have hhead := term.head_isAtom
  have hcons : c.ahead = term.head :: (term.inputs ++ links.flatMap Link.tokens) := hahead
  have hspan : currentSpan c = .ok term.head.span c := by
    rw [currentSpan, look, Cursor.current_cons hcons hhead.isSolid]
  have hkind : currentKind c = .ok term.head.kind c := by
    rw [currentKind, look, Cursor.kind_cons hcons hhead.isSolid]
  refine (bind_of_ok hspan).trans ((bind_of_ok hkind).trans ?_)
  have hcall : callExpression level term.head.span c = _ := callExpression_term hcons hfinal
  have hcases := hhead.kind
  simp only [Token.atomKinds, List.mem_cons, List.not_mem_nil, or_false] at hcases
  rcases hcases with h | h | h | h | h <;> rw [h] <;> exact hcall

/-!
## No function literals
-/

theorem arrowFollows_of_none {tokens : List Token}
    (h : forall t, t ∈ tokens -> t.kind ≠ .mark .arrow) (depth : Nat) (first : Bool) :
    arrowFollows depth first tokens = false := by
  induction tokens generalizing depth first with
  | nil => rfl
  | cons token rest ih =>
      have hrest : forall depth first, arrowFollows depth first rest = false :=
        fun depth first => ih (fun t ht => h t (by simp [ht])) depth first
      have htoken := h token (by simp)
      unfold arrowFollows
      split
      · rfl
      · exact hrest _ _
      · exact hrest _ _
      · simp [hrest, htoken]

theorem functionLiteral_chain {first : Term} {links : List Link}
    (hahead : c.ahead = Chain.tokens first links) (hfinal : c.final.kind = .endOfInput) :
    functionLiteral level c = .ok none c := by
  have hnone : forall t, t ∈ c.tokensAhead -> t.kind ≠ .mark .arrow := by
    intro t ht
    rcases List.mem_append.mp ht with hmem | hlast
    · have hmem := List.mem_of_mem_filter hmem
      rw [hahead] at hmem
      exact (Chain.solid_of_mem hmem).2
    · rw [List.mem_singleton.mp hlast, hfinal]
      decide
  have hlook : look mayBeFunction c = .ok false c := by
    rw [look, mayBeFunction, arrowFollows_of_none hnone, Bool.and_false]
  have hspan : currentSpan c = .ok c.current.span c := rfl
  exact (bind_of_ok hspan).trans (bind_of_ok hlook)

/-!
## Operators
-/

def TooDeep {α : Type} (depth : Nat) (reply : Reply α) : Prop :=
  exists span d, reply = .error { cause := .nestingTooDeep maxDepth, span := span } d ∧
    d.depth = depth

theorem TooDeep.bind {α β : Type} {first : Parser α} {next : α -> Parser β} {depth : Nat}
    (h : TooDeep depth (first c)) : TooDeep depth ((first >>= next) c) := by
  rcases h with ⟨span, d, hfirst, hdepth⟩
  exact ⟨span, d, bind_of_error hfirst, hdepth⟩

/-- With `room` more levels the parser reads the tree and stops at `d`; it is too deep if
its right operands need more. -/
structure Climbed (room : Nat) (parser : Parser Expression) (c : Cursor) (tree : Expression)
    (d : Cursor) : Prop where
  fits : tree.rightEdges < room -> parser c = .ok tree d
  fails : room <= tree.rightEdges -> TooDeep c.depth (parser c)

def Climbs (room : Nat) : Prop :=
  forall (least : Nat) (first : Term) (front back : List Link) (c : Cursor),
    (forall link, link ∈ front -> least <= link.precedence) ->
    (forall link, back.head? = some link -> link.precedence < least) ->
    c.ahead = Chain.tokens first (front ++ back) -> c.final.kind = .endOfInput ->
    c.depth + room = maxDepth ->
    exists tree, Chain.Groups first front tree ∧
      Climbed room ((Level.ofRoom room).expression least) c tree
        (c.past (Chain.last first front) (back.flatMap Link.tokens))

theorem atOperator_link {least : Nat} {link : Link} {rest : List Token}
    (hahead : c.ahead = link.sign :: rest) :
    atOperator least c = decide (least <= link.precedence) := by
  rw [atOperator, Cursor.current_cons hahead link.sign_isSolid, link.spelled]
  rfl

theorem atOperator_back {least : Nat} {back : List Link}
    (hback : forall link, back.head? = some link -> link.precedence < least)
    (hahead : c.ahead = back.flatMap Link.tokens) (hfinal : c.final.kind = .endOfInput) :
    atOperator least c = false := by
  cases back with
  | nil =>
      have hkind : c.current.kind = .endOfInput := Cursor.kind_of_ahead_nil hfinal hahead
      simp [atOperator, Token.operator?, hkind, Kind.spelling?]
  | cons link back =>
      have hlink := hback link rfl
      rw [atOperator_link hahead]
      exact decide_eq_false (Nat.not_le_of_lt hlink)

theorem rightOperand_link (link : Link) :
    rightOperand level link.operator =
      (level.expression link.operator.rightPrecedence >>= fun right =>
        pure (Operand.expression right)) := by
  rw [rightOperand, link.right]

theorem continuation_link {link : Link} {rest : List Link} {start : Span}
    (hahead : c.ahead = link.sign :: Chain.tokens link.term rest) :
    continuation level start c =
      (rightOperand level link.operator >>= fun right => spanFrom start >>= fun span =>
        pure { operator := link.operator, right := right, span := span })
        (c.past link.sign (Chain.tokens link.term rest)) := by
  have hadvance : advance c = .ok link.sign (c.past link.sign (Chain.tokens link.term rest)) := by
    rw [advance, Cursor.current_cons hahead link.sign_isSolid,
      Cursor.advance_cons hahead link.sign_isSolid]
  have hcons : (c.past link.sign (Chain.tokens link.term rest)).ahead =
      link.term.head :: (link.term.inputs ++ rest.flatMap Link.tokens) := rfl
  have hskip : skipLineBreaks (c.past link.sign (Chain.tokens link.term rest)) =
      .ok _ (c.past link.sign (Chain.tokens link.term rest)) :=
    congrArg (Reply.ok _) (Cursor.skipLineBreaks_cons hcons link.term.head_isAtom.isSolid)
  refine (bind_of_ok hadvance).trans ((bind_of_ok hskip).trans ?_)
  rw [link.spelled]

theorem continuation_ok {link : Link} {rest : List Link} {start : Span} {right : Expression}
    {d : Cursor} (hahead : c.ahead = link.sign :: Chain.tokens link.term rest)
    (hright : level.expression link.operator.rightPrecedence
      (c.past link.sign (Chain.tokens link.term rest)) = .ok right d) :
    continuation level start c =
      .ok { operator := link.operator, right := .expression right,
            span := start.cover d.previous } d := by
  have hoperand : rightOperand level link.operator
      (c.past link.sign (Chain.tokens link.term rest)) = .ok (.expression right) d := by
    rw [rightOperand_link]
    exact bind_of_ok hright
  rw [continuation_link hahead]
  exact bind_of_ok hoperand

theorem continuation_tooDeep {link : Link} {rest : List Link} {start : Span}
    (hahead : c.ahead = link.sign :: Chain.tokens link.term rest)
    (hright : TooDeep c.depth (level.expression link.operator.rightPrecedence
      (c.past link.sign (Chain.tokens link.term rest)))) :
    TooDeep c.depth (continuation level start c) := by
  rw [continuation_link hahead, rightOperand_link]
  exact hright.bind.bind

theorem rightEdges_binary (operator : Operator) (left right : Expression) (span : Span) :
    (Expression.binary operator left (.expression right) span).rightEdges =
      max left.rightEdges (right.rightEdges + 1) := rfl

def climb (room least : Nat) (first : Term) (bound : Nat) : Parser (List Continuation) :=
  repeatUpTo (atOperator least) (continuation (Level.ofRoom room) first.head.span) bound

structure Continued (room least bound : Nat) (first : Term) (done todo back : List Link)
    (c : Cursor) (tree whole : Expression) : Prop where
  groups : Chain.Groups first (done ++ todo) whole
  grows : tree.rightEdges <= whole.rightEdges
  fits : whole.rightEdges <= room -> exists found,
    climb room least first bound
        (c.past (Chain.last first done) ((todo ++ back).flatMap Link.tokens)) =
      .ok found (c.past (Chain.last first (done ++ todo)) (back.flatMap Link.tokens)) ∧
    applyContinuations tree found = whole
  fails : tree.rightEdges <= room -> room < whole.rightEdges ->
    TooDeep c.depth (climb room least first bound
      (c.past (Chain.last first done) ((todo ++ back).flatMap Link.tokens)))

variable {room least bound : Nat} {first : Term} {done inner outer back : List Link}
  {tree right whole : Expression}

theorem Continued.stop (hgroups : Chain.Groups first done tree)
    (hback : forall link, back.head? = some link -> link.precedence < least)
    (hfinal : c.final.kind = .endOfInput) :
    Continued room least bound first done [] back c tree tree where
  groups := by rwa [List.append_nil]
  grows := Nat.le_refl _
  fits := by
    intro _
    have hstop : atOperator least
        (c.past (Chain.last first done) (back.flatMap Link.tokens)) = false :=
      atOperator_back hback rfl hfinal
    exists []
    constructor
    · rw [List.append_nil]
      exact repeatUpTo_stop hstop bound
    · rfl
  fails := by omega

theorem Continued.round {link : Link} (hlink : least <= link.precedence)
    (hright : Climbed room ((Level.ofRoom room).expression link.operator.rightPrecedence)
      (c.past link.sign (Chain.tokens link.term (inner ++ (outer ++ back)))) right
      (c.past (Chain.last link.term inner) ((outer ++ back).flatMap Link.tokens)))
    (h : Continued room least bound first (done ++ link :: inner) outer back c
      (.binary link.operator tree (.expression right)
        (first.head.span.cover (Chain.last link.term inner).span)) whole) :
    Continued room least (bound + 1) first done (link :: (inner ++ outer)) back c tree whole := by
  have hahead : (c.past (Chain.last first done)
      ((link :: (inner ++ outer) ++ back).flatMap Link.tokens)).ahead =
        link.sign :: Chain.tokens link.term (inner ++ (outer ++ back)) := by
    simp [Cursor.past, Link.tokens, Chain.tokens]
  have hmore : atOperator least (c.past (Chain.last first done)
      ((link :: (inner ++ outer) ++ back).flatMap Link.tokens)) = true := by
    rw [atOperator_link hahead]
    exact decide_eq_true hlink
  have hgrows := h.grows
  rw [rightEdges_binary] at hgrows
  have hparts : done ++ link :: inner ++ outer = done ++ link :: (inner ++ outer) := by simp
  constructor
  · rw [← hparts]
    exact h.groups
  · omega
  · intro hfits
    rcases h.fits hfits with ⟨found, hfound, hwhole⟩
    refine ⟨{ operator := link.operator, right := .expression right, span := _ } :: found, ?_,
      hwhole⟩
    rw [Chain.last_append, hparts] at hfound
    rw [climb, repeatUpTo_more hmore]
    exact (bind_of_ok (continuation_ok hahead (hright.fits (by omega)))).trans
      (bind_of_ok hfound)
  · intro htree hdeep
    rw [climb, repeatUpTo_more hmore]
    by_cases hfits : right.rightEdges < room
    · have hrest := h.fails (by rw [rightEdges_binary]; omega) hdeep
      rw [Chain.last_append] at hrest
      rw [bind_of_ok (continuation_ok hahead (hright.fits hfits))]
      exact hrest.bind
    · exact (continuation_tooDeep hahead (hright.fails (Nat.le_of_not_lt hfits))).bind

theorem exists_inner (link : Link) (rest : List Link) :
    exists inner outer, rest = inner ++ outer ∧
      (forall other, other ∈ inner ->
        link.operator.rightPrecedence <= other.precedence) ∧
      (forall other, outer.head? = some other ->
        other.precedence < link.operator.rightPrecedence) := by
  let goesRight : Link -> Bool := fun other =>
    decide (link.operator.rightPrecedence <= other.precedence)
  refine ⟨rest.takeWhile goesRight, rest.dropWhile goesRight,
    (List.takeWhile_append_dropWhile).symm, ?_, ?_⟩
  · intro other hother
    exact of_decide_eq_true (List.all_eq_true.mp List.all_takeWhile other hother)
  · intro other hother
    have hnot := List.head?_dropWhile_not goesRight rest
    rw [hother] at hnot
    simpa [goesRight] using hnot

theorem exists_continued (hclimbs : Climbs room)
    (hback : forall link, back.head? = some link -> link.precedence < least)
    (hfinal : c.final.kind = .endOfInput) (hdepth : c.depth + room = maxDepth)
    (todo : List Link) (hbound : todo.length <= bound) (hgroups : Chain.Groups first done tree)
    (htodo : forall link, link ∈ todo -> least <= link.precedence)
    (hsplits : forall link, todo.head? = some link -> Chain.Splits done link []) :
    exists whole, Continued room least bound first done todo back c tree whole := by
  generalize hlength : todo.length = length
  induction length using Nat.strongRecOn generalizing todo done tree bound with
  | ind length ih =>
      cases todo with
      | nil => exact ⟨tree, Continued.stop hgroups hback hfinal⟩
      | cons link rest =>
          rcases exists_inner link rest with ⟨inner, outer, rfl, hinner, houter⟩
          cases bound with
          | zero => simp at hbound
          | succ bound =>
              have hlink := htodo link (by simp)
              have hbehind : forall other, (outer ++ back).head? = some other ->
                  other.precedence < link.operator.rightPrecedence := by
                intro other hother
                cases outer with
                | nil =>
                    have hother := hback other hother
                    have hle := link.operator.precedence_le_rightPrecedence
                    exact Nat.lt_of_lt_of_le hother (Nat.le_trans hlink hle)
                | cons next outer => exact houter other hother
              have hlengths : inner.length + outer.length + 1 = length := by
                simpa using hlength
              have hsplit := (hsplits link rfl).behind hinner
              rcases hclimbs _ link.term inner (outer ++ back) (c.past link.sign _) hinner hbehind
                rfl hfinal hdepth with ⟨right, hright, hclimbed⟩
              have hfewer : outer.length <= bound := by
                simp only [List.length_cons, List.length_append] at hbound
                omega
              rcases ih outer.length (by omega) outer hfewer (hgroups.split hsplit hright)
                (fun other hother => htodo other (by simp [hother]))
                (fun other hother => hsplit.next hinner (houter other hother)) rfl with
                ⟨whole, hwhole⟩
              exact ⟨whole, hwhole.round hlink hclimbed⟩

/-!
## Levels
-/

theorem climbs_zero : Climbs 0 := by
  intro least first front back c _ _ _ _ _
  rcases Chain.exists_groups first front with ⟨tree, hgroups⟩
  refine ⟨tree, hgroups, ?_, ?_⟩
  · intro hfits
    exact absurd hfits (Nat.not_lt_zero _)
  · intro _
    exact ⟨c.current.span, c, rfl, rfl⟩

theorem nested_of_ok {α : Type} {parser : Parser α} {value : α} {d : Cursor}
    (hdepth : c.depth < maxDepth) (hd : d.depth = c.depth + 1)
    (h : parser { c with depth := c.depth + 1 } = .ok value d) :
    nested parser c = .ok value { d with depth := c.depth } := by
  rw [nested, if_pos hdepth, h, closeLevel, hd]

theorem nested_of_tooDeep {α : Type} {parser : Parser α} (hdepth : c.depth < maxDepth)
    (h : TooDeep (c.depth + 1) (parser { c with depth := c.depth + 1 })) :
    TooDeep c.depth (nested parser c) := by
  rcases h with ⟨span, d, hparser, hd⟩
  refine ⟨span, { d with depth := c.depth }, ?_, rfl⟩
  rw [nested, if_pos hdepth, hparser, closeLevel, hd]

theorem length_le_tokens (links : List Link) :
    links.length <= (links.flatMap Link.tokens).length := by
  induction links with
  | nil => exact Nat.le_refl 0
  | cons link links ih =>
      simp only [List.length_cons, List.flatMap_cons, List.length_append, Link.tokens]
      omega

theorem binaryExpression_chain {links : List Link} (hahead : c.ahead = Chain.tokens first links)
    (hfinal : c.final.kind = .endOfInput) :
    binaryExpression (Level.ofRoom room) least c =
      (climb room least first (links.flatMap Link.tokens).length >>= fun found =>
        pure (applyContinuations first.expression found))
        (c.past first.last (links.flatMap Link.tokens)) := by
  have hcons : c.ahead = first.head :: (first.inputs ++ links.flatMap Link.tokens) := hahead
  have hspan : currentSpan c = .ok first.head.span c := by
    rw [currentSpan, look, Cursor.current_cons hcons first.head_isAtom.isSolid]
  exact (bind_of_ok hspan).trans ((bind_of_ok (functionLiteral_chain hahead hfinal)).trans
    (bind_of_ok (operand_term hahead hfinal)))

theorem climbs_succ (h : Climbs room) : Climbs (room + 1) := by
  intro least first front back c hfront hback hahead hfinal hdepth
  have hopen : c.depth < maxDepth := by omega
  have hinside : c.depth + 1 + room = maxDepth := by omega
  have hbound : front.length <= ((front ++ back).flatMap Link.tokens).length := by
    have hlength := length_le_tokens (front ++ back)
    rw [List.length_append] at hlength
    omega
  rcases exists_continued (c := { c with depth := c.depth + 1 }) h hback hfinal hinside front
    hbound (Chain.Groups.single first) hfront (fun link _ => Chain.Splits.single link) with
    ⟨whole, hwhole⟩
  have hchain : binaryExpression (Level.ofRoom room) least { c with depth := c.depth + 1 } = _ :=
    binaryExpression_chain (c := { c with depth := c.depth + 1 }) hahead hfinal
  refine ⟨whole, hwhole.groups, ?_, ?_⟩
  · intro hfits
    rcases hwhole.fits (Nat.le_of_lt_succ hfits) with ⟨found, hfound, rfl⟩
    exact nested_of_ok hopen rfl (hchain.trans (bind_of_ok hfound))
  · intro hdeep
    have hfirst : first.expression.rightEdges <= room := by
      rw [Term.rightEdges_expression]
      exact Nat.zero_le room
    exact nested_of_tooDeep hopen (hchain ▸ (hwhole.fails hfirst hdeep).bind)

theorem climbs (room : Nat) : Climbs room := by
  induction room with
  | zero => exact climbs_zero
  | succ room ih => exact climbs_succ ih

end Grammar

/-- From a chain in front of the end of the input, with no level open, its only grouping
is read, and all of the chain with it.  It is too deep exactly if more than 63 right
operands lie around one another. -/
theorem expression_groups_chain (first : Term) (links : List Link) (c : Cursor)
    (hahead : c.ahead = Chain.tokens first links) (hfinal : c.final.kind = .endOfInput)
    (hdepth : c.depth = 0) :
    exists tree, (forall other, Chain.Groups first links other <-> other = tree) ∧
      (tree.rightEdges <= 63 -> Level.outermost.expression 0 c =
        .ok tree { c with ahead := [], previous := (Chain.last first links).span }) ∧
      (63 < tree.rightEdges -> exists span d, Level.outermost.expression 0 c =
        .error { cause := .nestingTooDeep 64, span := span } d) := by
  have hroom : c.depth + Parser.maxDepth = Parser.maxDepth := by rw [hdepth, Nat.zero_add]
  rcases Grammar.climbs Parser.maxDepth 0 first links [] c (fun _ _ => Nat.zero_le _) (by simp)
    (by rw [List.append_nil, hahead]) hfinal hroom with ⟨tree, hgroups, hclimbed⟩
  refine ⟨tree, ?_, ?_, ?_⟩
  · intro other
    constructor
    · intro hother
      exact hother.unique hgroups
    · rintro rfl
      exact hgroups
  · intro hfits
    exact hclimbed.fits (Nat.lt_succ_of_le hfits)
  · intro hdeep
    rcases hclimbed.fails hdeep with ⟨span, d, hreply, _⟩
    exact ⟨span, d, hreply⟩

/-!
## The chain `to x * a ^ b ^ 2 + "t" y`
-/

namespace Sample

def token (kind : Kind) (start : Nat) (value : String) : Token :=
  { kind := kind, value := value, span := { start := start, stop := start + value.length } }

theorem isAtom_token {kind : Kind} (h : kind ∈ Token.atomKinds) (htext : kind ≠ .text)
    (start : Nat) (value : String) : (token kind start value).IsAtom where
  kind := h
  quoted := fun hkind => absurd hkind htext

def single (kind : Kind) (h : kind ∈ Token.atomKinds) (htext : kind ≠ .text) (start : Nat)
    (value : String) : Term where
  head := token kind start value
  inputs := []
  head_isAtom := isAtom_token h htext start value
  inputs_isAtom := by simp
  inputs_plain := by simp

def toCall : Term where
  head := token .lowercaseName 0 "to"
  inputs := [token .lowercaseName 3 "x"]
  head_isAtom := isAtom_token (by decide) (by decide) 0 "to"
  inputs_isAtom := by
    intro t ht
    rw [List.mem_singleton] at ht
    exact ht ▸ isAtom_token (by decide) (by decide) 3 "x"
  inputs_plain := by decide

def timesA : Link where
  sign := token (.mark .star) 5 "*"
  operator := .multiply
  term := single .lowercaseName (by decide) (by decide) 7 "a"
  spelled := by decide
  right := rfl

def powerB : Link where
  sign := token (.mark .caret) 9 "^"
  operator := .power
  term := single .lowercaseName (by decide) (by decide) 11 "b"
  spelled := by decide
  right := rfl

def powerTwo : Link where
  sign := token (.mark .caret) 13 "^"
  operator := .power
  term := single .number (by decide) (by decide) 15 "2"
  spelled := by decide
  right := rfl

def plusText : Link where
  sign := token (.mark .plus) 17 "+"
  operator := .add
  term :=
    { head := token .text 19 "\"t\""
      inputs := [token .lowercaseName 23 "y"]
      head_isAtom := ⟨by decide, fun _ => ⟨"t", rfl⟩⟩
      inputs_isAtom := by
        intro t ht
        rw [List.mem_singleton] at ht
        exact ht ▸ isAtom_token (by decide) (by decide) 23 "y"
      inputs_plain := by decide }
  spelled := by decide
  right := rfl

def links : List Link := [timesA, powerB, powerTwo, plusText]

def cursor : Cursor :=
  { ahead := Chain.tokens toCall links, final := Token.endAt 24, previous := default
    errors := [], depth := 0 }

def power : Expression :=
  .binary .power (.variable ⟨"a", ⟨7, 8⟩⟩)
    (.expression (.binary .power (.variable ⟨"b", ⟨11, 12⟩⟩)
      (.expression (.number ⟨"2", ⟨15, 16⟩⟩)) ⟨11, 16⟩)) ⟨7, 16⟩

def product : Expression :=
  .binary .multiply (.call (.variable ⟨"to", ⟨0, 2⟩⟩) [.variable ⟨"x", ⟨3, 4⟩⟩] ⟨0, 4⟩)
    (.expression power) ⟨0, 16⟩

def sum : Expression :=
  .binary .add product
    (.expression (.formattedText ⟨"t", ⟨19, 22⟩⟩ [.variable ⟨"y", ⟨23, 24⟩⟩] ⟨19, 24⟩)) ⟨0, 24⟩

theorem groups_sum : Chain.Groups toCall links sum := by
  have hplus : Chain.Splits [timesA, powerB, powerTwo] plusText [] :=
    ⟨by decide, by decide, by decide⟩
  have htimes : Chain.Splits [] timesA [powerB, powerTwo] := ⟨by decide, by decide, by decide⟩
  have hpower : Chain.Splits [] powerB [powerTwo] := ⟨by decide, by decide, by decide⟩
  have htwo := (Chain.Groups.single powerB.term).split (Chain.Splits.single powerTwo)
    (Chain.Groups.single powerTwo.term)
  have hright := (Chain.Groups.single timesA.term).split hpower htwo
  have hleft := (Chain.Groups.single toCall).split htimes hright
  exact hleft.split hplus (Chain.Groups.single plusText.term)

end Sample

/-- The powers group to the right, the product around them comes before the sum, and the
text takes what follows it. -/
theorem expression_groups_sample : Level.outermost.expression 0 Sample.cursor =
    .ok Sample.sum { Sample.cursor with ahead := [], previous := ⟨23, 24⟩ } := by
  rcases expression_groups_chain Sample.toCall Sample.links Sample.cursor rfl rfl rfl with
    ⟨tree, hgroups, hfits, _⟩
  have htree : Sample.sum = tree := (hgroups Sample.sum).mp Sample.groups_sum
  subst htree
  exact hfits (by decide)

end Linewise
