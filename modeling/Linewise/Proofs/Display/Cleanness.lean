import Linewise.Proofs.Display.Restoring
import Linewise.Proofs.Display.Spelling
import Linewise.Proofs.Yield

/-!
# Outlines of parsed trees

The names and numbers of a parsed tree are tokens of the text, hence plain words.  Tags are
plain words too, and texts and comments are quoted, so what is shown of the tree is clean.
-/

namespace Linewise

/-!
## The account of names and numbers
-/

namespace Symbol

def Plain : Symbol -> Prop
  | .word kind value => kind.isRaw = true -> Text.IsPlain value
  | .statement _ => True

def ArePlain (script : List Symbol) : Prop := forall symbol, symbol ∈ script -> symbol.Plain

theorem arePlain_nil : ArePlain [] := by simp [ArePlain]

theorem arePlain_append {first second : List Symbol} :
    ArePlain (first ++ second) <-> ArePlain first ∧ ArePlain second := by
  simp [ArePlain, or_imp, forall_and]

theorem arePlain_cons {symbol : Symbol} {rest : List Symbol} :
    ArePlain (symbol :: rest) <-> symbol.Plain ∧ ArePlain rest := by
  simp [ArePlain]

theorem arePlain_flatMap {α : Type} {values : List α} {script : α -> List Symbol} :
    ArePlain (values.flatMap script) <->
      forall value, value ∈ values -> ArePlain (script value) := by
  constructor
  · intro h value hvalue symbol hsymbol
    exact h symbol (List.mem_flatMap.mpr ⟨value, hvalue, hsymbol⟩)
  · intro h symbol hsymbol
    rcases List.mem_flatMap.mp hsymbol with ⟨value, hvalue, hsymbol⟩
    exact h value hvalue symbol hsymbol

end Symbol

theorem Token.plain_symbol {token : Token} (h : token.Plain) : token.symbol.Plain := by
  intro hraw
  have hspelling : token.kind.spelling? = none := by
    cases hkind : token.kind <;> rw [hkind] at hraw <;> first | rfl | cases hraw
  rw [hspelling]
  exact h hraw

open Linewise.Symbol in
def plainWordRecovery : Recovery where
  Admits := fun token => token.Quoted ∧ token.Plain
  Ends := fun token => token.kind = .endOfInput
  Holds := fun _ _ _ script => ArePlain script
  Lists := fun _ _ _ _ script => ArePlain script
  quoted := fun h => h.1
  ends := fun h => h
  nil := fun _ => arePlain_nil
  append := fun first second => arePlain_append.mpr ⟨first, second⟩
  silent := fun _ _ => arePlain_nil
  word := fun _ hadmits _ =>
    arePlain_cons.mpr ⟨Token.plain_symbol hadmits.2, arePlain_nil⟩
  group := by
    intro read rest noted before inner _ hholds
    rcases arePlain_append.mp hholds with ⟨hbefore, hgroup⟩
    have hinner := (arePlain_append.mp (arePlain_cons.mp hgroup).2).1
    exact arePlain_append.mpr ⟨hbefore, hinner⟩
  none := arePlain_nil
  trivia := fun _ hlists => hlists
  told := fun _ _ _ _ hholds => arePlain_cons.mpr ⟨trivial, hholds⟩
  -- Nothing but its announcement is left of a statement that was given up.
  failed := fun _ _ _ _ _ _ _ _ => arePlain_cons.mpr ⟨trivial, arePlain_nil⟩
  next := fun hlists _ _ _ hlists' => arePlain_append.mpr ⟨hlists, hlists'⟩
  close := by
    intro opening d read noted script _ _ hlists _ _
    refine arePlain_cons.mpr ⟨fun hraw => ?_, arePlain_append.mpr ⟨hlists, ?_⟩⟩
    · cases hraw
    · refine arePlain_cons.mpr ⟨fun hraw => ?_, arePlain_nil⟩
      cases hraw
  unlist := by
    intro read rest noted before after begun hholds _
    rcases arePlain_append.mp hholds with ⟨hbefore, hrest⟩
    exact arePlain_append.mpr ⟨hbefore, (arePlain_cons.mp hrest).2⟩

theorem parse_arePlain (source : String) :
    exists parsed, parse source = .ok parsed ∧ Symbol.ArePlain parsed.file.script := by
  have hfits : plainWordRecovery.Fits (Cursor.ofTokens (tokenize source).1) :=
    ⟨fun _ ht => ⟨(admits_tokenize (Cursor.mem_of_mem_ahead ht)).2,
      tokenize_plain (Cursor.mem_of_mem_ahead ht)⟩, Cursor.final_ofTokens _⟩
  rcases parseTokens_lists plainWordRecovery hfits with ⟨parsed, read, d, hparsed, _, _, hlists⟩
  exact ⟨_, parse_eq hparsed, hlists⟩

/-!
## Nodes
-/

theorem Outline.areClean_append {as bs : List Outline} (has : AreClean as)
    (hbs : AreClean bs) : AreClean (as ++ bs) := by
  induction as with
  | nil => exact hbs
  | cons item rest ih => exact ⟨has.1, ih has.2⟩

namespace Node

def Clean (nodes : List Node) : Prop := Outline.AreClean (outlinesOfAll nodes)

namespace Clean

variable {nodes others children : List Node} {tag : String} {span : Span}

theorem nil : Clean [] := trivial

theorem append (hnodes : Clean nodes) (hothers : Clean others) : Clean (nodes ++ others) := by
  rw [Clean, outlinesOfAll_append]
  exact Outline.areClean_append hnodes hothers

theorem cons {node : Node} (hnode : Clean [node]) (hnodes : Clean nodes) :
    Clean (node :: nodes) := append hnode hnodes

theorem branch (htag : Text.IsPlain tag) (hchildren : Clean children) :
    Clean [.branch tag span children] := ⟨⟨htag, hchildren⟩, trivial⟩

theorem group (hchildren : Clean children) : Clean [.group tag span children] :=
  Outline.areClean_append hchildren trivial

theorem word {kind : LeafKind} {lexeme : Lexeme} (h : Text.IsWord (kind.shown lexeme.value)) :
    Clean [.bare kind lexeme] := ⟨h, trivial⟩

theorem leaf {kind : LeafKind} {lexeme : Lexeme} (h : Text.IsWord (kind.shown lexeme.value)) :
    Clean [.leaf kind lexeme] := by
  refine ⟨⟨?_, h, trivial⟩, trivial⟩
  cases kind <;> decide

theorem map {α : Type} {node : α -> Node} {values : List α}
    (h : forall value, value ∈ values -> Clean [node value]) : Clean (values.map node) := by
  induction values with
  | nil => exact nil
  | cons value rest ih =>
      refine (h value List.mem_cons_self).cons (ih ?_)
      exact fun other hother => h other (List.mem_cons_of_mem value hother)

end Clean

end Node

open Node (Clean)
open Linewise.Symbol (ArePlain arePlain_append arePlain_cons arePlain_flatMap)

theorem Text.isWord_text (value : String) : IsWord (LeafKind.text.shown value) :=
  .inr ⟨value, rfl⟩

/-!
## Types
-/

namespace TypeExpr

mutual

theorem clean_node {type : TypeExpr} (h : ArePlain type.script) : Clean [type.node] := by
  cases type with
  | placeholder span => exact .branch (by decide) .nil
  | parameter name =>
      exact .branch (by decide) (.word (.inl ((arePlain_cons.mp h).1 rfl)))
  | named name parameters span =>
      rcases arePlain_cons.mp h with ⟨hname, hparameters⟩
      exact .branch (by decide) (.cons (.word (.inl (hname rfl))) (clean_nodes hparameters))
  | function inputs output span =>
      rcases arePlain_append.mp h with ⟨hinputs, hrest⟩
      exact .branch (by decide)
        ((clean_nodes hinputs).append (clean_node (arePlain_cons.mp hrest).2))
  | block output span =>
      have houtput := (arePlain_append.mp (arePlain_cons.mp h).2).1
      exact .branch (by decide) (clean_node houtput)
  | unit span => exact .branch (by decide) .nil
  | tuple elements span => exact .branch (by decide) (clean_nodes h)

theorem clean_nodes {types : List TypeExpr} (h : ArePlain (scripts types)) :
    Clean (nodes types) := by
  cases types with
  | nil => exact .nil
  | cons type rest =>
      rcases arePlain_append.mp h with ⟨htype, hrest⟩
      exact (clean_node htype).cons (clean_nodes hrest)

end

end TypeExpr

theorem Constraint.clean_node {constraint : Constraint} (h : ArePlain constraint.script) :
    Clean [constraint.node] := by
  cases constraint with
  | bound trait parameters span =>
      rcases arePlain_cons.mp h with ⟨htrait, hparameters⟩
      exact .branch (by decide)
        (.cons (.leaf (.inl (htrait rfl))) (TypeExpr.clean_nodes hparameters))
  | infer parameter span =>
      have hparameter := (arePlain_cons.mp (arePlain_cons.mp h).2).1
      exact .branch (by decide) (.leaf (.inl (hparameter rfl)))
  | fallback parameter value span =>
      rcases arePlain_cons.mp h with ⟨hparameter, hrest⟩
      exact .branch (by decide)
        (.cons (.leaf (.inl (hparameter rfl))) (TypeExpr.clean_node (arePlain_cons.mp hrest).2))

theorem WhereClause.clean_node {clause : WhereClause} (h : ArePlain clause.script) :
    Clean [clause.node] := by
  have hconstraints := arePlain_flatMap.mp (arePlain_cons.mp h).2
  exact .branch (by decide)
    (.map (fun constraint hmem => Constraint.clean_node (hconstraints constraint hmem)))

theorem Node.Clean.option {α : Type} {node : α -> Node} {script : α -> List Symbol}
    (hpart : forall value, ArePlain (script value) -> Clean [node value]) {value : Option α}
    (h : ArePlain (optionScript script value)) : Clean (value.map node).toList := by
  cases value with
  | none => exact .nil
  | some value => exact hpart value h

theorem Signature.clean_node {signature : Signature} (h : ArePlain signature.script) :
    Clean [signature.node] := by
  rcases arePlain_append.mp h with ⟨htype, hclause⟩
  exact .group ((TypeExpr.clean_node htype).cons
    (.option (fun _ => WhereClause.clean_node) hclause))

theorem TypeFunction.clean_node {function : TypeFunction} (h : ArePlain function.script) :
    Clean [function.node] := by
  have hparameters := (arePlain_append.mp h).1
  refine .branch (by decide) (.map (fun name hmem => .group (.word (.inl ?_))))
  exact hparameters _ (List.mem_map_of_mem hmem) rfl

/-!
## Patterns
-/

namespace Pattern

mutual

theorem clean_node {pattern : Pattern} (h : ArePlain pattern.script) : Clean [pattern.node] := by
  cases pattern with
  | wildcard span => exact .branch (by decide) .nil
  | «variable» name => exact .branch (by decide) (.word (.inl ((arePlain_cons.mp h).1 rfl)))
  | number literal => exact .branch (by decide) (.word (.inl ((arePlain_cons.mp h).1 rfl)))
  | text literal => exact .branch (by decide) (.word (Text.isWord_text _))
  | destructure fields span =>
      have hfields := (arePlain_append.mp (arePlain_cons.mp h).2).1
      exact .branch (by decide) (clean_fieldNodes hfields)
  | unit span => exact .branch (by decide) .nil
  | tuple elements span => exact .branch (by decide) (clean_nodes h)
  | or left right span =>
      rcases arePlain_append.mp h with ⟨hleft, hrest⟩
      exact .branch (by decide)
        ((clean_node hleft).cons (clean_node (arePlain_cons.mp hrest).2))
  | annotate inner type span =>
      rcases arePlain_append.mp h with ⟨hinner, hrest⟩
      exact .branch (by decide)
        ((clean_node hinner).cons (TypeExpr.clean_node (arePlain_cons.mp hrest).2))
  | set name span =>
      have hname := (arePlain_cons.mp (arePlain_cons.mp h).2).1
      exact .branch (by decide) (.word (.inl (hname rfl)))
  | variant name elements span =>
      rcases arePlain_cons.mp h with ⟨hname, helements⟩
      exact .branch (by decide) (.cons (.word (.inl (hname rfl))) (clean_nodes helements))

theorem clean_nodes {patterns : List Pattern} (h : ArePlain (scripts patterns)) :
    Clean (nodes patterns) := by
  cases patterns with
  | nil => exact .nil
  | cons pattern rest =>
      rcases arePlain_append.mp h with ⟨hpattern, hrest⟩
      exact (clean_node hpattern).cons (clean_nodes hrest)

theorem clean_fieldNodes {fields : List (Entry Lexeme Pattern)}
    (h : ArePlain (fieldScripts fields)) : Clean (fieldNodes fields) := by
  cases fields with
  | nil => exact .nil
  | cons field rest =>
      rcases field with ⟨key, value, span⟩
      rcases arePlain_cons.mp h with ⟨hkey, hfield⟩
      rcases arePlain_append.mp (arePlain_cons.mp hfield).2 with ⟨hvalue, hrest⟩
      refine .cons (.branch (by decide) ?_) (clean_fieldNodes hrest)
      exact .cons (.leaf (.inl (hkey rfl))) (clean_node hvalue)

end

end Pattern

/-!
## What stands around definitions
-/

theorem Attribute.clean_node {found : Attribute} (h : ArePlain found.script) :
    Clean [found.node] := by
  cases found with
  | plain name span =>
      have hname := (arePlain_cons.mp (arePlain_cons.mp h).2).1
      exact .branch (by decide) (.leaf (.inl (hname rfl)))
  | withText name text span =>
      have hname := (arePlain_cons.mp (arePlain_cons.mp h).2).1
      exact .branch (by decide)
        (.cons (.leaf (.inl (hname rfl))) (.leaf (Text.isWord_text _)))
  | withNumber name number span =>
      rcases arePlain_cons.mp (arePlain_cons.mp h).2 with ⟨hname, hrest⟩
      have hnumber := (arePlain_cons.mp (arePlain_cons.mp hrest).2).1
      exact .branch (by decide)
        (.cons (.leaf (.inl (hname rfl))) (.leaf (.inl (hnumber rfl))))

theorem Header.clean_nodes {header : Header} (h : ArePlain header.script) :
    Clean header.nodes := by
  have hattributes := arePlain_flatMap.mp h
  exact Clean.append (.map (fun comment _ => .leaf (.inr ⟨comment.value, rfl⟩)))
    (.map (fun found hmem => Attribute.clean_node (hattributes found hmem)))

theorem Representation.clean_node {representation : Representation}
    (h : ArePlain representation.script) : Clean [representation.node] := by
  cases representation with
  | structured fields span =>
      have hfields := arePlain_flatMap.mp (arePlain_append.mp (arePlain_cons.mp h).2).1
      refine .branch (by decide) (.map (fun field hmem => ?_))
      rcases arePlain_cons.mp (hfields field hmem) with ⟨hkey, hrest⟩
      exact .branch (by decide)
        (.cons (.leaf (.inl (hkey rfl))) (Signature.clean_node (arePlain_cons.mp hrest).2))
  | enumerated variants span =>
      have hvariants := arePlain_flatMap.mp (arePlain_append.mp (arePlain_cons.mp h).2).1
      refine .branch (by decide) (.map (fun variant hmem => ?_))
      rcases arePlain_cons.mp (hvariants variant hmem) with ⟨hkey, htypes⟩
      exact .branch (by decide)
        (.cons (.leaf (.inl (hkey rfl))) (TypeExpr.clean_nodes htypes))

/-!
## Expressions and statements
-/

theorem Operator.isPlain_tag (operator : Operator) : Text.IsPlain operator.tag := by
  cases operator <;> decide

mutual

theorem Expression.clean_node {expression : Expression} (h : ArePlain expression.script) :
    Clean [expression.node] := by
  cases expression with
  | placeholder span => exact .branch (by decide) .nil
  | «variable» name => exact .branch (by decide) (.word (.inl ((arePlain_cons.mp h).1 rfl)))
  | typeName name => exact .branch (by decide) (.word (.inl ((arePlain_cons.mp h).1 rfl)))
  | number literal => exact .branch (by decide) (.word (.inl ((arePlain_cons.mp h).1 rfl)))
  | text literal => exact .branch (by decide) (.word (Text.isWord_text _))
  | unit span => exact .branch (by decide) .nil
  | record fields span =>
      have hfields := (arePlain_append.mp (arePlain_cons.mp h).2).1
      exact .branch (by decide) (Expression.clean_fieldNodes hfields)
  | block statements span =>
      have hstatements := (arePlain_append.mp (arePlain_cons.mp h).2).1
      exact .branch (by decide) (Statement.clean_nodes hstatements)
  | formattedText text inputs span =>
      exact .branch (by decide)
        (.cons (.word (Text.isWord_text _)) (Expression.clean_nodes (arePlain_cons.mp h).2))
  | call function inputs span =>
      rcases arePlain_append.mp h with ⟨hfunction, hinputs⟩
      exact .branch (by decide)
        ((Expression.clean_node hfunction).cons (Expression.clean_nodes hinputs))
  | perform input span =>
      exact .branch (by decide) (Expression.clean_node (arePlain_cons.mp h).2)
  | «when» input arms span =>
      rcases arePlain_append.mp (arePlain_cons.mp h).2 with ⟨hinput, hrest⟩
      have harms := (arePlain_append.mp (arePlain_cons.mp hrest).2).1
      exact .branch (by decide)
        ((Expression.clean_node hinput).cons (Expression.clean_armNodes harms))
  | intrinsic name inputs span =>
      have hinputs := (arePlain_cons.mp (arePlain_cons.mp h).2).2
      exact .branch (by decide)
        (.cons (.word (Text.isWord_text _)) (Expression.clean_nodes hinputs))
  | binary operator left right span =>
      rcases arePlain_append.mp h with ⟨hleft, hrest⟩
      exact .branch operator.isPlain_tag
        ((Expression.clean_node hleft).cons (Operand.clean_node (arePlain_cons.mp hrest).2))
  | tuple elements span => exact .branch (by decide) (Expression.clean_nodes h)
  | collection elements span => exact .branch (by decide) (Expression.clean_nodes h)
  | function inputs output span =>
      rcases arePlain_append.mp h with ⟨hinputs, hrest⟩
      exact .branch (by decide)
        ((Pattern.clean_nodes hinputs).append (Expression.clean_node (arePlain_cons.mp hrest).2))

theorem Expression.clean_nodes {expressions : List Expression}
    (h : ArePlain (Expression.scripts expressions)) : Clean (Expression.nodes expressions) := by
  cases expressions with
  | nil => exact .nil
  | cons expression rest =>
      rcases arePlain_append.mp h with ⟨hexpression, hrest⟩
      exact (Expression.clean_node hexpression).cons (Expression.clean_nodes hrest)

theorem Expression.clean_fieldNodes {fields : List (Entry Lexeme Expression)}
    (h : ArePlain (Expression.fieldScripts fields)) : Clean (Expression.fieldNodes fields) := by
  cases fields with
  | nil => exact .nil
  | cons field rest =>
      rcases field with ⟨key, value, span⟩
      rcases arePlain_cons.mp h with ⟨hkey, hfield⟩
      rcases arePlain_append.mp (arePlain_cons.mp hfield).2 with ⟨hvalue, hrest⟩
      refine .cons (.branch (by decide) ?_) (Expression.clean_fieldNodes hrest)
      exact .cons (.leaf (.inl (hkey rfl))) (Expression.clean_node hvalue)

theorem Expression.clean_armNodes {arms : List (Entry Pattern Expression)}
    (h : ArePlain (Expression.armScripts arms)) : Clean (Expression.armNodes arms) := by
  cases arms with
  | nil => exact .nil
  | cons arm rest =>
      rcases arm with ⟨key, value, span⟩
      rcases arePlain_append.mp h with ⟨hkey, harm⟩
      rcases arePlain_append.mp (arePlain_cons.mp harm).2 with ⟨hvalue, hrest⟩
      refine .cons (.branch (by decide) ?_) (Expression.clean_armNodes hrest)
      exact (Pattern.clean_node hkey).cons (Expression.clean_node hvalue)

theorem Operand.clean_node {operand : Operand} (h : ArePlain operand.script) :
    Clean [operand.node] := by
  cases operand with
  | expression expression => exact .group (Expression.clean_node h)
  | pattern pattern => exact .group (Pattern.clean_node h)
  | type type => exact .group (TypeExpr.clean_node h)

theorem Statement.clean_node {statement : Statement} (h : ArePlain statement.contents) :
    Clean [statement.node] := by
  cases statement with
  | typeDefinition header name parameters representation span =>
      rcases arePlain_append.mp h with ⟨hheader, hdefined⟩
      rcases arePlain_cons.mp hdefined with ⟨hname, hdefined⟩
      rcases arePlain_append.mp (arePlain_cons.mp hdefined).2 with ⟨hparameters, hbody⟩
      have hrest := (Clean.option (fun _ => TypeFunction.clean_node) hparameters).append
        (.option (fun _ => Representation.clean_node) (arePlain_cons.mp hbody).2)
      exact .branch (by decide)
        ((Header.clean_nodes hheader).append (.cons (.leaf (.inl (hname rfl))) hrest))
  | traitDefinition header name parameters type clause span =>
      rcases arePlain_append.mp h with ⟨hheader, hdefined⟩
      rcases arePlain_cons.mp hdefined with ⟨hname, hdefined⟩
      rcases arePlain_append.mp (arePlain_cons.mp hdefined).2 with ⟨hparameters, hbody⟩
      rcases arePlain_append.mp (arePlain_cons.mp hbody).2 with ⟨htype, hclause⟩
      have hrest := (Clean.option (fun _ => TypeFunction.clean_node) hparameters).append
        (.append (.option (fun _ => TypeExpr.clean_node) htype)
          (.option (fun _ => WhereClause.clean_node) hclause))
      exact .branch (by decide)
        ((Header.clean_nodes hheader).append (.cons (.leaf (.inl (hname rfl))) hrest))
  | constantDefinition header name signature span =>
      rcases arePlain_append.mp h with ⟨hheader, hdefined⟩
      rcases arePlain_cons.mp hdefined with ⟨hname, hdefined⟩
      have hsignature := Signature.clean_node (arePlain_cons.mp hdefined).2
      exact .branch (by decide)
        ((Header.clean_nodes hheader).append (.cons (.leaf (.inl (hname rfl))) hsignature))
  | instanceDefinition header trait parameters clause value span =>
      rcases arePlain_append.mp h with ⟨hheader, hdefined⟩
      rcases arePlain_cons.mp (arePlain_cons.mp hdefined).2 with ⟨htrait, hdefined⟩
      rcases arePlain_append.mp hdefined with ⟨hparameters, hbody⟩
      rcases arePlain_append.mp hbody with ⟨hclause, hvalue⟩
      have hrest := (TypeExpr.clean_nodes hparameters).append
        (.append (.option (fun _ => WhereClause.clean_node) hclause)
          (Expression.clean_optionNodes hvalue))
      exact .branch (by decide)
        ((Header.clean_nodes hheader).append (.cons (.leaf (.inl (htrait rfl))) hrest))
  | assignment pattern value span =>
      rcases arePlain_append.mp h with ⟨hpattern, hrest⟩
      exact .branch (by decide)
        ((Pattern.clean_node hpattern).cons (Expression.clean_node (arePlain_cons.mp hrest).2))
  | expression expression span => exact .branch (by decide) (Expression.clean_node h)
  | error span => exact .branch (by decide) .nil

theorem Expression.clean_optionNodes {value : Option Expression}
    (h : ArePlain (Expression.valueScript value)) : Clean (Expression.optionNodes value) := by
  cases value with
  | none => exact .nil
  | some expression => exact Expression.clean_node (arePlain_cons.mp h).2

theorem Statement.clean_nodes {statements : List Statement}
    (h : ArePlain (Statement.scripts statements)) : Clean (Statement.nodes statements) := by
  cases statements with
  | nil => exact .nil
  | cons statement rest =>
      rcases arePlain_append.mp (arePlain_cons.mp h).2 with ⟨hstatement, hrest⟩
      exact (Statement.clean_node hstatement).cons (Statement.clean_nodes hrest)

end

theorem SourceFile.clean_node {file : SourceFile} (h : ArePlain file.script) :
    Clean [file.node] := .branch (by decide) (Statement.clean_nodes h)

end Linewise
