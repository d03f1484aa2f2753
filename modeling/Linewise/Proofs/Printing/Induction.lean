import Linewise.Proofs.Printing.Printer

/-!
# Induction over trees

The trees of the three sublanguages hold lists of trees.  In these principles a
list stands for all trees in it.
-/

namespace Linewise

@[elab_as_elim]
theorem TypeExpr.treeInduction {motive : TypeExpr -> Prop}
    (placeholder : forall span, motive (.placeholder span))
    (parameter : forall name, motive (.parameter name))
    (named : forall name parameters span,
      (forall type, type ∈ parameters -> motive type) -> motive (.named name parameters span))
    (function : forall inputs output span,
      (forall type, type ∈ inputs -> motive type) -> motive output ->
        motive (.function inputs output span))
    (block : forall output span, motive output -> motive (.block output span))
    (unit : forall span, motive (.unit span))
    (tuple : forall elements span,
      (forall type, type ∈ elements -> motive type) -> motive (.tuple elements span))
    (type : TypeExpr) : motive type :=
  @TypeExpr.rec motive (fun types => forall type, type ∈ types -> motive type)
    placeholder parameter named function block unit tuple
    (fun _ hmem => nomatch hmem)
    (fun _ _ hhead htail => List.forall_mem_cons.mpr ⟨hhead, htail⟩) type

@[elab_as_elim]
theorem Pattern.treeInduction {motive : Pattern -> Prop}
    (wildcard : forall span, motive (.wildcard span))
    («variable» : forall name, motive (.variable name))
    (number : forall literal, motive (.number literal))
    (text : forall literal, motive (.text literal))
    (destructure : forall fields span,
      (forall field, field ∈ fields -> motive field.value) -> motive (.destructure fields span))
    (unit : forall span, motive (.unit span))
    (tuple : forall elements span,
      (forall pattern, pattern ∈ elements -> motive pattern) -> motive (.tuple elements span))
    (or : forall left right span, motive left -> motive right -> motive (.or left right span))
    (annotate : forall pattern type span, motive pattern -> motive (.annotate pattern type span))
    (set : forall name span, motive (.set name span))
    (variant : forall name elements span,
      (forall pattern, pattern ∈ elements -> motive pattern) ->
        motive (.variant name elements span))
    (pattern : Pattern) : motive pattern :=
  @Pattern.rec motive (fun fields => forall field, field ∈ fields -> motive field.value)
    (fun patterns => forall pattern, pattern ∈ patterns -> motive pattern)
    (fun field => motive field.value)
    wildcard «variable» number text destructure unit tuple or annotate set variant
    (fun _ hmem => nomatch hmem)
    (fun _ _ hhead htail => List.forall_mem_cons.mpr ⟨hhead, htail⟩)
    (fun _ hmem => nomatch hmem)
    (fun _ _ hhead htail => List.forall_mem_cons.mpr ⟨hhead, htail⟩)
    (fun _ _ _ hvalue => hvalue) pattern

def Operand.Each (P : Expression -> Prop) : Operand -> Prop
  | .expression found => P found
  | _ => True

def Statement.Each (P : Expression -> Prop) : Statement -> Prop
  | .assignment _ value _ => P value
  | .expression found _ => P found
  | _ => True

@[elab_as_elim]
theorem Expression.treeInduction {motive : Expression -> Prop}
    (placeholder : forall span, motive (.placeholder span))
    («variable» : forall name, motive (.variable name))
    (typeName : forall name, motive (.typeName name))
    (number : forall literal, motive (.number literal))
    (text : forall literal, motive (.text literal))
    (unit : forall span, motive (.unit span))
    (record : forall fields span,
      (forall field, field ∈ fields -> motive field.value) -> motive (.record fields span))
    (block : forall statements span,
      (forall statement, statement ∈ statements -> statement.Each motive) ->
        motive (.block statements span))
    (formattedText : forall text inputs span,
      (forall input, input ∈ inputs -> motive input) -> motive (.formattedText text inputs span))
    (call : forall function inputs span, motive function ->
      (forall input, input ∈ inputs -> motive input) -> motive (.call function inputs span))
    (perform : forall input span, motive input -> motive (.perform input span))
    («when» : forall input arms span, motive input ->
      (forall arm, arm ∈ arms -> motive arm.value) -> motive (.when input arms span))
    (intrinsic : forall name inputs span,
      (forall input, input ∈ inputs -> motive input) -> motive (.intrinsic name inputs span))
    (binary : forall operator left right span, motive left -> right.Each motive ->
      motive (.binary operator left right span))
    (tuple : forall elements span,
      (forall element, element ∈ elements -> motive element) -> motive (.tuple elements span))
    (collection : forall elements span,
      (forall element, element ∈ elements -> motive element) -> motive (.collection elements span))
    (function : forall inputs output span, motive output -> motive (.function inputs output span))
    (expression : Expression) : motive expression :=
  @Expression.rec motive (Operand.Each motive) (Statement.Each motive)
    (fun fields => forall field, field ∈ fields -> motive field.value)
    (fun statements => forall statement, statement ∈ statements -> statement.Each motive)
    (fun expressions => forall expression, expression ∈ expressions -> motive expression)
    (fun arms => forall arm, arm ∈ arms -> motive arm.value)
    (fun _ => True) (fun field => motive field.value) (fun arm => motive arm.value)
    placeholder «variable» typeName number text unit record block formattedText call perform
    «when» intrinsic binary tuple collection function
    (fun _ h => h) (fun _ => trivial) (fun _ => trivial)
    (fun _ _ _ _ _ => trivial) (fun _ _ _ _ _ _ => trivial) (fun _ _ _ _ => trivial)
    (fun _ _ _ _ _ _ _ => trivial) (fun _ _ _ h => h) (fun _ _ h => h) (fun _ => trivial)
    (fun _ hmem => nomatch hmem)
    (fun _ _ hhead htail => List.forall_mem_cons.mpr ⟨hhead, htail⟩)
    (fun _ hmem => nomatch hmem)
    (fun _ _ hhead htail => List.forall_mem_cons.mpr ⟨hhead, htail⟩)
    (fun _ hmem => nomatch hmem)
    (fun _ _ hhead htail => List.forall_mem_cons.mpr ⟨hhead, htail⟩)
    (fun _ hmem => nomatch hmem)
    (fun _ _ hhead htail => List.forall_mem_cons.mpr ⟨hhead, htail⟩)
    trivial (fun _ _ => trivial) (fun _ _ _ hvalue => hvalue) (fun _ _ _ hvalue => hvalue)
    expression

end Linewise
