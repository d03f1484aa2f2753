import Linewise.Proofs.Braced.ErrorNode
import Linewise.Proofs.Braced.Heading
import Linewise.Proofs.Resumption

/-!
# What stands in braces

Braces hold lines, each of which is a statement of its own.  If all of these lines, and at
least one, begin with a name and a colon, the braces are a record with one field a line;
otherwise they are a block of the statements.  The lines are found in the tokens, so it is
seen from the text which of the two it is.
-/

namespace Linewise

/-!
## Lines
-/

/-- The tokens of a line and the statement that was read from them. -/
structure Line where
  tokens : List Token
  found : Statement

namespace Line

/-- The line begins with a name, which may stand in parentheses, and a colon behind it. -/
def Names (line : Line) (name : Lexeme) : Prop :=
  exists colon rest, Heading (line.tokens.filter (fun token => !token.isComment)) name
    (colon :: rest) ∧ colon.kind = .mark .colon

structure Told (line : Line) : Prop where
  extent : exists first more, line.tokens = first :: more ∧ Cursor.isTrivia first = false ∧
    line.found.span = first.span.cover (Cursor.spanBehind first.span more)
  words : Token.words line.tokens = Symbol.words line.found.contents

/-- The line is shown as a field of a record, under the name that it begins with. -/
structure ShownAs (line : Line) (field : Entry Lexeme Expression) : Prop where
  name : line.Names field.key
  found : line.found = field.toStatement

end Line

/-- The tokens are those of the lines, with line breaks between them and comments and line
breaks in front and behind. -/
inductive Laid : List Token -> List Line -> Prop where
  | stop {gap : List Token} : (forall t, t ∈ gap -> Cursor.isTrivia t = true) -> Laid gap []
  | line {gap tokens rest : List Token} {found : Statement} {lines : List Line} :
      (forall t, t ∈ gap -> Cursor.isTrivia t = true) ->
      (lines ≠ [] -> exists comments lineBreak behind,
        rest = comments ++ lineBreak :: behind ∧ lineBreak.isLineBreak = true ∧
          forall t, t ∈ comments -> t.isComment = true) ->
      Laid rest lines -> Laid (gap ++ (tokens ++ rest)) (⟨tokens, found⟩ :: lines)

theorem Laid.behind {inner gap : List Token} {lines : List Line} (h : Laid inner lines)
    (hgap : forall t, t ∈ gap -> Cursor.isTrivia t = true) : Laid (gap ++ inner) lines := by
  cases h with
  | stop hinner => exact stop (List.forall_mem_append.mpr ⟨hgap, hinner⟩)
  | line hfront hbreak hrest =>
      rw [← List.append_assoc]
      exact line (List.forall_mem_append.mpr ⟨hgap, hfront⟩) hbreak hrest

/-- Among the tokens there is a pair of braces with the lines between them, and the span
reaches from the one to the other. -/
inductive Body : List Token -> Span -> List Line -> Prop where
  | braces {before inner after : List Token} {opening closing : Token} {lines : List Line} :
      opening.kind = .mark .openCurly -> closing.kind = .mark .closeCurly -> Laid inner lines ->
      (forall line, line ∈ lines -> line.Told) ->
      Body (before ++ opening :: (inner ++ closing :: after))
        (opening.span.cover closing.span) lines

theorem Body.append {tokens : List Token} {span : Span} {lines : List Line}
    (h : Body tokens span lines) (more : List Token) : Body (tokens ++ more) span lines := by
  cases h with
  | braces hopening hclosing hlaid htold =>
      simp only [List.append_assoc, List.cons_append]
      exact braces hopening hclosing hlaid htold

/-!
## Reading lines
-/

/-- The statement of the line is an assignment to a plain variable exactly where the line
begins with that name and a colon. -/
structure Line.Faithful (line : Line) : Prop where
  told : line.Told
  names : forall name, line.Names name <->
    exists value span, line.found = .assignment (.variable name) value span

namespace Grammar

open Linewise.Parser
open Linewise.Account
open Node (errorCounts)

variable {room : Nat} {comments : List Lexeme} {c d : Cursor} {found : Statement}

theorem statementLine_faithful (hc : yieldRecovery.Fits c) (hbegins : c.Begins (.mark .closeCurly))
    (hok : statementLine (Level.ofRoom room) (.mark .closeCurly) comments c = .ok found d)
    (hclean : found.node.errorCount = 0) :
    exists read noted, c.Passage read noted d ∧ Line.Faithful ⟨read, found⟩ := by
  have hyield := ReadsIf.elim (statementLine_reads (keeps_recovery yieldRecovery room)
    (.mark .closeCurly) comments) hc trivial
  have hblame := ReadsIf.elim (statementLine_reads (keeps_recovery blameRecovery room)
    (.mark .closeCurly) comments) ⟨fun t ht => (hc.tokens t ht).2, hc.ends⟩ trivial
  rw [hok] at hyield hblame
  rcases hyield with ⟨read, noted, passage, hleast, hwords⟩
  rcases hblame with ⟨read', noted', passage', _, hblames⟩
  have hnoted : noted' = noted :=
    List.append_cancel_left (passage'.errors.symm.trans passage.errors)
  have htallies : found.node.errorCount = Symbol.errorCount found.script := found.tallies
  have hnone : noted = [] := by
    rw [← hnoted, hblames.nothing]
    rw [hclean, Statement.script, Symbol.errorCount_statement] at htallies
    omega
  have hread : read ≠ [] := List.ne_nil_of_length_pos hleast
  rcases hbegins.spans passage hread with ⟨first, more, hfirst, htrivia, hspan⟩
  have hspans := spans_ofRoom room comments c found d (statementLine_eq_ok hok).1
  refine ⟨read, noted, passage, ⟨⟨first, more, hfirst, htrivia, ?_⟩, hwords hnone⟩, fun name => ?_⟩
  · rw [hspans.span, hspan]
  · exact heading_iff_assignment hc.final passage hok

theorem line_of_recovering {terminator : Kind} {line : Parser Statement}
    (h : recovering terminator line c = .ok found d) (hclean : found.node.errorCount = 0) :
    line c = .ok found d := by
  rcases recovering_eq_ok h with hline | ⟨diagnostic, e, _, hgiven⟩
  · exact hline
  · cases hgiven
    simp [Statement.node] at hclean

theorem statementsUpTo_laid (bound : Nat) {found : List Statement} (hc : yieldRecovery.Fits c)
    (h : statementsUpTo (Level.ofRoom room) (.mark .closeCurly) bound c = .ok found d)
    (hclean : errorCounts (Statement.nodes found) = 0) :
    exists inner lines, c.ahead = inner ++ d.significant ∧ Laid inner lines ∧
      lines.map Line.found = found ∧ forall line, line ∈ lines -> line.Faithful := by
  induction bound generalizing c found with
  | zero => cases h
  | succ bound ih =>
      have hskip := c.skipTrivia_passage
      have hgap : forall t, t ∈ c.ahead.takeWhile Cursor.isTrivia -> Cursor.isTrivia t = true :=
        fun t ht => List.all_eq_true.mp List.all_takeWhile t ht
      have hcomments : forall e : Cursor, Laid (e.ahead.takeWhile Token.isComment) [] :=
        fun e => .stop (fun t ht => Cursor.isTrivia_of_comments ht)
      rw [statementsUpTo_eq] at h
      rcases bind_eq_ok.mp h with ⟨ended, _, hended, hstatements⟩
      cases hended
      split at hstatements
      · cases hstatements
        refine ⟨_, [], ?_, (hcomments c.skipTrivia).behind hgap, rfl, by simp⟩
        rw [List.append_assoc, ← Cursor.ahead_eq_significant]
        exact hskip.ahead
      · rename_i hended
        have hbegins : c.skipTrivia.Begins (.mark .closeCurly) :=
          Cursor.begins_skipTrivia hc.final (by simpa using hended)
        rcases bind_eq_ok.mp hstatements with ⟨first, e, hfirst, hothers⟩
        rcases bind_eq_ok.mp hothers with ⟨more, _, hmore, hrest⟩
        cases hmore
        have hline : first.node.errorCount = 0 -> exists read noted,
            c.skipTrivia.Passage read noted e ∧ Line.Faithful ⟨read, first⟩ :=
          fun hclean => statementLine_faithful (hc.after hskip) hbegins
            (line_of_recovering hfirst hclean) hclean
        split at hrest
        · rename_i hmore
          have hbreak : e.kind = .lineBreak := by simpa [Cursor.isAt] using hmore
          rcases bind_eq_ok.mp hrest with ⟨_, _, hadvance, hrest⟩
          cases hadvance
          rcases bind_eq_ok.mp hrest with ⟨rest, _, hrest, hpure⟩
          cases hpure
          rw [Statement.nodes, Node.errorCounts_cons, Nat.add_eq_zero_iff] at hclean
          rcases hline hclean.1 with ⟨read, noted, passage, hfaithful⟩
          have hfits := (hc.after hskip).after passage
          have hadvance := Cursor.advance_passage hfits.final (show e.kind ≠ _ by simp [hbreak])
          rcases ih (hfits.after hadvance) hrest hclean.2 with
            ⟨inner, lines, hahead, hlaid, hfound, hlines⟩
          have hbehind : Laid (e.ahead.takeWhile Token.isComment ++ e.current :: inner) lines := by
            simpa using hlaid.behind (Cursor.isTrivia_of_line hbreak)
          refine ⟨_, _, ?_, .line hgap (fun _ => ⟨_, e.current, inner, rfl, ?_, ?_⟩) hbehind,
            congrArg (first :: ·) hfound, List.forall_mem_cons.mpr ⟨hfaithful, hlines⟩⟩
          · have hstep : e.ahead = (e.ahead.takeWhile Token.isComment ++ e.current :: inner) ++
                d.significant := by simpa [hahead] using hadvance.ahead
            calc
              c.ahead = c.ahead.takeWhile Cursor.isTrivia ++ (read ++ e.ahead) := by
                rw [← passage.ahead]
                exact hskip.ahead
              _ = c.ahead.takeWhile Cursor.isTrivia ++ (read ++
                  ((e.ahead.takeWhile Token.isComment ++ e.current :: inner) ++
                    d.significant)) :=
                congrArg (fun rest => c.ahead.takeWhile Cursor.isTrivia ++ (read ++ rest)) hstep
              _ = _ := by simp only [List.append_assoc]
          · exact beq_iff_eq.mpr hbreak
          · exact fun t ht => List.all_eq_true.mp List.all_takeWhile t ht
        · cases hrest
          rw [Statement.nodes, Node.errorCounts_cons, Nat.add_eq_zero_iff] at hclean
          rcases hline hclean.1 with ⟨read, noted, passage, hfaithful⟩
          refine ⟨_, _, ?_, .line hgap (by simp) (hcomments d), rfl,
            List.forall_mem_singleton.mpr hfaithful⟩
          rw [List.append_assoc, List.append_assoc, ← Cursor.ahead_eq_significant,
            ← passage.ahead]
          exact hskip.ahead

end Grammar

/-!
## Records and blocks
-/

namespace Body

structure IsRecord (lines : List Line) (nodes : List Node) : Prop where
  filled : lines ≠ []
  named : forall line, line ∈ lines -> exists name, line.Names name
  fields : exists fields, nodes = Expression.fieldNodes fields ∧
    List.Forall₂ Line.ShownAs lines fields

structure IsBlock (lines : List Line) (nodes : List Node) : Prop where
  unnamed : lines ≠ [] -> exists line, line ∈ lines ∧ forall name, ¬ line.Names name
  statements : nodes = Statement.nodes (lines.map Line.found)

end Body

theorem errorCounts_fieldNodes (fields : List (Entry Lexeme Expression)) :
    Node.errorCounts (Statement.nodes (fields.map Entry.toStatement)) =
      Node.errorCounts (Expression.fieldNodes fields) := by
  induction fields with
  | nil => rfl
  | cons field fields ih =>
      simp [Statement.nodes, Expression.fieldNodes, Entry.toStatement, Statement.node,
        Pattern.node, ih]

section Fields

variable {lines : List Line} {fields : List (Entry Lexeme Expression)}
  (hlines : forall line, line ∈ lines -> line.Faithful)

include hlines

theorem shown_of_fields (h : lines.map Line.found = fields.map Entry.toStatement) :
    List.Forall₂ Line.ShownAs lines fields := by
  induction lines generalizing fields with
  | nil =>
      cases fields with
      | nil => exact .nil
      | cons field fields => cases h
  | cons line lines ih =>
      cases fields with
      | nil => cases h
      | cons field fields =>
          rw [List.map_cons, List.map_cons, List.cons.injEq] at h
          rw [List.forall_mem_cons] at hlines
          exact .cons ⟨(hlines.1.names _).mpr ⟨_, _, h.1⟩, h.1⟩ (ih hlines.2 h.2)

theorem fields_of_named (h : forall line, line ∈ lines -> exists name, line.Names name) :
    exists fields : List (Entry Lexeme Expression),
      lines.map Line.found = fields.map Entry.toStatement := by
  induction lines with
  | nil => exact ⟨[], rfl⟩
  | cons line lines ih =>
      rw [List.forall_mem_cons] at h hlines
      rcases h.1 with ⟨name, hname⟩
      rcases (hlines.1.names name).mp hname with ⟨value, span, hfound⟩
      rcases ih hlines.2 h.2 with ⟨fields, hfields⟩
      exists { key := name, value := value, span := span } :: fields
      rw [List.map_cons, List.map_cons, hfields, hfound]
      rfl

theorem named_of_fields (h : lines.map Line.found = fields.map Entry.toStatement) {line : Line}
    (hline : line ∈ lines) : exists name, line.Names name := by
  have hmem := List.mem_map_of_mem (f := Line.found) hline
  rw [h] at hmem
  rcases List.mem_map.mp hmem with ⟨field, _, hfield⟩
  exact ⟨field.key, ((hlines line hline).names _).mpr ⟨_, _, hfield.symm⟩⟩

end Fields

def Tracing.ofBraces (text : List Token) : Tracing where
  text := text
  Leaf := fun _ _ => True
  Block := fun span nodes => Node.errorCounts nodes = 0 ->
    exists lines, Body text span lines ∧ Body.IsBlock lines nodes
  Record := fun span nodes => Node.errorCounts nodes = 0 ->
    exists lines, Body text span lines ∧ Body.IsRecord lines nodes
  leaf := fun _ _ => trivial

theorem Tracing.admits_ofBraces {text : List Token}
    (htokens : forall t, t ∈ text -> t.Spelled ∧ t.Quoted) (room : Nat) :
    (Tracing.ofBraces text).Admits (Level.ofRoom room) := by
  intro before brace c d found htext hfinal hopening hfound hclosing
  have htext : text = before ++ brace :: c.ahead := htext
  have hc : yieldRecovery.Fits c := ⟨fun t ht => htokens t (by simp [htext, ht]), hfinal⟩
  -- Without errors the lines are found between the brace and the one that the cursor stands at.
  have hinside : Node.errorCounts (Statement.nodes found) = 0 -> exists lines,
      Body text (d.advance.spanFrom brace.span) lines ∧ lines.map Line.found = found ∧
        forall line, line ∈ lines -> line.Faithful := by
    intro hclean
    rcases Grammar.statementsUpTo_laid (c.ahead.length + 1) hc hfound hclean with
      ⟨inner, lines, hahead, hlaid, hlines, hfaithful⟩
    have hend : d.kind ≠ .endOfInput := by simp [hclosing]
    have hway := Grammar.statements_proceeds (@Grammar.proceeds_idle c.ahead room)
      (.mark .closeCurly) c ⟨List.suffix_refl _, hfinal⟩
    rw [hfound] at hway
    rcases hway.1 with ⟨read, noted, passage, _⟩
    rcases Cursor.significant_of_kind_ne (passage.final ▸ hfinal) hend with ⟨rest, hs⟩
    have hspan : d.advance.spanFrom brace.span = brace.span.cover d.current.span := by
      have hkind : d.current.kind = .mark .closeCurly := hclosing
      rw [Cursor.spanFrom, Cursor.advance_eq hs hend]
      simp [Cursor.spanAfter, Token.isLineBreak, hkind]
    refine ⟨lines, ?_, hlines, hfaithful⟩
    rw [hspan, htext, hahead, hs]
    exact .braces hopening hclosing hlaid (fun line hline => (hfaithful line hline).told)
  constructor
  · intro hnone hclean
    rcases hinside hclean with ⟨lines, hbody, rfl, hfaithful⟩
    refine ⟨lines, hbody, fun hfilled => ?_, rfl⟩
    by_contra hnamed
    push Not at hnamed
    rcases fields_of_named hfaithful hnamed with ⟨fields, hfields⟩
    have hsome := Grammar.fields?_eq_some.mpr ⟨?_, hfields⟩
    · rw [hnone] at hsome
      cases hsome
    · rintro rfl
      exact hfilled (by simpa using hfields)
  · intro fields hfields hclean
    rcases Grammar.fields?_eq_some.mp hfields with ⟨hfilled, hshown⟩
    rw [← errorCounts_fieldNodes, ← hshown] at hclean
    rcases hinside hclean with ⟨lines, hbody, rfl, hfaithful⟩
    refine ⟨lines, hbody, ?_, fun line hline => named_of_fields hfaithful hshown hline,
      fields, rfl, shown_of_fields hfaithful hshown⟩
    rintro rfl
    exact hfilled (by simpa using hshown.symm)

/-!
## Source texts
-/

/-- In a text that is read without a diagnostic it is seen from the lines in braces whether
they are a record or a block: a record if there is a line and all lines begin with a name,
which may stand in parentheses, and a colon.  A record has one field a line, with that name
and the value of the line, and a block has all statements. -/
theorem parse_braced (source : String) :
    exists parsed, parse source = .ok parsed ∧ (parsed.errors = [] ->
      forall tag span nodes, Node.branch tag span nodes ∈ parsed.file.node.subtrees ->
        tag = "structure_expression" ∨ tag = "block_expression" ->
          exists lines, Body (tokenize source).1 span lines ∧
            (tag = "structure_expression" <->
              lines ≠ [] ∧ forall line, line ∈ lines -> exists name, line.Names name) ∧
            (tag = "structure_expression" -> exists fields,
              nodes = Expression.fieldNodes fields ∧ List.Forall₂ Line.ShownAs lines fields) ∧
            (tag = "block_expression" -> nodes = Statement.nodes (lines.map Line.found))) := by
  rcases tokenize_wellFormed source with ⟨body, stop, htokens, _⟩
  have hahead : (Cursor.ofTokens (tokenize source).1).ahead = body := by
    rw [htokens, Cursor.ahead_ofTokens rfl]
  have hbody : forall t, t ∈ body -> t.Spelled ∧ t.Quoted :=
    fun t ht => admits_tokenize (htokens ▸ List.mem_append_left _ ht)
  rcases Grammar.exists_traces (T := Tracing.ofBraces body) hahead.symm
    (Tracing.admits_ofBraces hbody) with ⟨parsed, d, hparsed, _, htraced⟩
  refine ⟨parsed, hparsed, ?_⟩
  rintro hnone tag span nodes hnode htag
  have hclean : Node.errorCounts nodes = 0 := by
    have hcount := Node.errorCount_of_mem _ hnode (errorCount_of_parse hparsed hnone)
    rw [Node.errorCount_branch, Nat.add_eq_zero_iff] at hcount
    exact hcount.1
  rcases htag with rfl | rfl
  · rcases (htraced _ hnode).2 rfl hclean with ⟨lines, hlines, hrecord⟩
    exact ⟨lines, htokens ▸ hlines.append _, iff_of_true rfl ⟨hrecord.filled, hrecord.named⟩,
      fun _ => hrecord.fields, by simp⟩
  · rcases (htraced _ hnode).1 rfl hclean with ⟨lines, hlines, hblock⟩
    refine ⟨lines, htokens ▸ hlines.append _, iff_of_false (by simp) ?_, by simp,
      fun _ => hblock.statements⟩
    rintro ⟨hfilled, hnamed⟩
    rcases hblock.unnamed hfilled with ⟨line, hline, hunnamed⟩
    rcases hnamed line hline with ⟨name, hname⟩
    exact hunnamed name hname

def Node.isBraced (tag : String) (span : Span) : Node -> Bool
  | .branch found place _ => found == tag && place == span
  | _ => false

theorem Node.exists_braced {nodes : List Node} {tag : String} {span : Span}
    (h : nodes.any (isBraced tag span) = true) :
    exists children, Node.branch tag span children ∈ nodes := by
  rcases List.any_eq_true.mp h with ⟨node, hnode, hbraced⟩
  cases node with
  | branch found place children =>
      simp only [isBraced, Bool.and_eq_true, beq_iff_eq] at hbraced
      rcases hbraced with ⟨rfl, rfl⟩
      exact ⟨children, hnode⟩
  | leaf kind lexeme => cases hbraced
  | bare kind lexeme => cases hbraced
  | group found place children => cases hbraced

/-- A record with a comment, a name in parentheses and a block in it. -/
def nestedSource : String := "\x7b --c\na : 1\n(b) : \x7b_ : 2\x7d\n\x7d"

/-- The braces inside have a line that begins with no name. -/
theorem parse_braced_nested :
    exists parsed, parse nestedSource = .ok parsed ∧ parsed.errors = [] ∧
      (exists lines, Body (tokenize nestedSource).1 ⟨0, 27⟩ lines ∧ lines ≠ [] ∧
        forall line, line ∈ lines -> exists name, line.Names name) ∧
      exists lines, Body (tokenize nestedSource).1 ⟨18, 25⟩ lines ∧
        ¬ (lines ≠ [] ∧ forall line, line ∈ lines -> exists name, line.Names name) := by
  rcases parse_braced nestedSource with ⟨parsed, hparsed, hbraced⟩
  have hnodes : (parse nestedSource).toOption.map (fun parsed => decide (parsed.errors = [] ∧
      parsed.file.node.subtrees.any (Node.isBraced "structure_expression" ⟨0, 27⟩) = true ∧
      parsed.file.node.subtrees.any (Node.isBraced "block_expression" ⟨18, 25⟩) = true)) =
        some true := by
    decide +kernel
  rw [hparsed] at hnodes
  rcases of_decide_eq_true (Option.some.inj hnodes) with ⟨hnone, houter, hinner⟩
  rcases Node.exists_braced houter with ⟨fields, hfields⟩
  rcases Node.exists_braced hinner with ⟨statements, hstatements⟩
  rcases hbraced hnone _ _ _ hfields (Or.inl rfl) with ⟨lines, hlines, hrecord, _⟩
  rcases hbraced hnone _ _ _ hstatements (Or.inr rfl) with ⟨lines', hlines', hblock, _⟩
  exact ⟨parsed, hparsed, hnone, ⟨lines, hlines, hrecord.mp rfl⟩, lines', hlines',
    fun hnamed => absurd (hblock.mpr hnamed) (by simp)⟩

/-!
## Names in parentheses
-/

/-- The line begins with a name that stands in no parentheses, and a colon behind it. -/
def Line.Bare (line : Line) : Prop :=
  exists name colon rest, line.tokens.filter (fun token => !token.isComment) =
    name :: colon :: rest ∧ name.kind = .lowercaseName ∧ colon.kind = .mark .colon

theorem Laid.starts {first : Token} {inner : List Token} {line : Line} {lines : List Line}
    (h : Laid (first :: inner) (line :: lines)) (hfirst : Cursor.isTrivia first = false)
    (htold : line.Told) : exists more, line.tokens = first :: more := by
  generalize htokens : first :: inner = tokens at h
  cases h with
  | @line gap read rest found _ hgap _ _ =>
      cases gap with
      | nil =>
          rcases htold.extent with ⟨first', more, rfl, _, _⟩
          cases htokens
          exact ⟨more, rfl⟩
      | cons token gap =>
          cases htokens
          rw [hgap first List.mem_cons_self] at hfirst
          cases hfirst

theorem Body.starts {opening first : Token} {rest : List Token} {span : Span} {line : Line}
    {lines : List Line} (h : Body (opening :: first :: rest) span (line :: lines))
    (hsingle : forall t, t ∈ first :: rest -> t.kind ≠ .mark .openCurly)
    (hclose : first.kind ≠ .mark .closeCurly) (hfirst : Cursor.isTrivia first = false) :
    exists more, line.tokens = first :: more := by
  generalize htokens : opening :: first :: rest = tokens at h
  cases h with
  | @braces before inner after found closing _ hopening hclosing hlaid htold =>
      cases before with
      | cons token before =>
          have hbehind := (List.cons.inj htokens).2
          exact absurd hopening (hsingle found (by rw [hbehind]; simp))
      | nil =>
          have hbehind := (List.cons.inj htokens).2
          cases inner with
          | nil =>
              cases hbehind
              exact absurd hclosing hclose
          | cons token inner =>
              cases hbehind
              exact hlaid.starts hfirst (htold line List.mem_cons_self)

/-- Names in parentheses are names of fields as well: the braces in `{(x) : 1}` are a record
whose line begins with no name. -/
theorem parse_braced_parenthesized :
    exists parsed, parse "\x7b(x) : 1\x7d" = .ok parsed ∧ parsed.errors = [] ∧
      exists span nodes, Node.branch "structure_expression" span nodes ∈
          parsed.file.node.subtrees ∧
        forall lines, Body (tokenize "\x7b(x) : 1\x7d").1 span lines ->
          ¬ (lines ≠ [] ∧ forall line, line ∈ lines -> line.Bare) := by
  have hfacts : (parse "\x7b(x) : 1\x7d").toOption.map (fun parsed =>
      decide (parsed.errors = [] ∧ parsed.file.node.subtrees.any
        (Node.isBraced "structure_expression" ⟨0, 9⟩) = true)) = some true := by
    decide +kernel
  have hkinds : (tokenize "\x7b(x) : 1\x7d").1.map Token.kind =
      .mark .openCurly :: .mark .openParen :: [.lowercaseName, .mark .closeParen,
        .mark .colon, .number, .mark .closeCurly, .endOfInput] := by
    decide +kernel
  cases hparsed : parse "\x7b(x) : 1\x7d" with
  | error fault =>
      rw [hparsed] at hfacts
      cases hfacts
  | ok parsed =>
      rw [hparsed] at hfacts
      rcases of_decide_eq_true (Option.some.inj hfacts) with ⟨hnone, hbraced⟩
      rcases Node.exists_braced hbraced with ⟨nodes, hnodes⟩
      refine ⟨parsed, rfl, hnone, _, nodes, hnodes, ?_⟩
      rintro (_ | ⟨line, lines⟩) hbody ⟨hfilled, hbare⟩
      · exact hfilled rfl
      · rcases List.map_eq_cons_iff.mp hkinds with ⟨opening, behind, htokens, _, hkinds⟩
        rcases List.map_eq_cons_iff.mp hkinds with ⟨first, rest, rfl, hfirst, hrest⟩
        rw [htokens] at hbody
        have hsingle : forall t, t ∈ first :: rest -> t.kind ≠ .mark .openCurly := by
          intro t ht hkind
          have hmem := List.mem_map_of_mem (f := Token.kind) ht
          rw [List.map_cons, hfirst, hrest, hkind] at hmem
          exact absurd hmem (by decide)
        rcases hbody.starts hsingle (by simp [hfirst])
          (by simp [Cursor.isTrivia, Token.isComment, Token.isLineBreak, hfirst]) with
          ⟨more, hmore⟩
        rcases hbare line List.mem_cons_self with ⟨name, colon, later, hline, hname, _⟩
        rw [hmore, List.filter_cons_of_pos (by simp [Token.isComment, hfirst])] at hline
        rw [← (List.cons.inj hline).1, hfirst] at hname
        cases hname

end Linewise
