import Linewise.Proofs.Display.Quoting
import Linewise.Proofs.Parallel.Relabelling

/-!
# Trees from outlines

An outline is read from the inside out.  The tag of a form tells which part of a tree its
items make up; optional items are told apart by what they are.  The parts have no spans,
since an outline has none.
-/

namespace Linewise

def Relabelling.erasing : Relabelling where
  start := fun _ => 0
  stop := fun _ => 0
  start_mono := fun _ => Nat.le_refl 0
  stop_mono := fun _ => Nat.le_refl 0

/-- The source file without the places of its parts. -/
def SourceFile.erased (file : SourceFile) : SourceFile where
  statements := file.statements.map (Statement.relabel .erasing)
  span := file.span.relabel .erasing

def Lexeme.unplaced (value : String) : Lexeme := { value := value, span := default }

@[simp] theorem Span.relabel_erasing (span : Span) : span.relabel .erasing = default := rfl

@[simp] theorem Lexeme.relabel_erasing (lexeme : Lexeme) :
    lexeme.relabel .erasing = Lexeme.unplaced lexeme.value := rfl

/-!
## Parts
-/

inductive Part where
  | word (text : String)
  | leaf (kind : LeafKind) (lexeme : Lexeme)
  | type (found : TypeExpr)
  | constraint (found : Constraint)
  | clause (found : WhereClause)
  | typeFunction (found : TypeFunction)
  | pattern (found : Pattern)
  | patternField (found : Entry Lexeme Pattern)
  | note (found : Attribute)
  | fieldDefinition (found : Entry Lexeme Signature)
  | variantDefinition (found : Entry Lexeme (List TypeExpr))
  | representation (found : Representation)
  | expression (found : Expression)
  | expressionField (found : Entry Lexeme Expression)
  | arm (found : Entry Pattern Expression)
  | statement (found : Statement)
  | file (statements : List Statement)

namespace Part

variable {α : Type}

def value? : Part -> Option String
  | .word text => some text
  | _ => none

def word? (part : Part) : Option Lexeme := part.value?.map Lexeme.unplaced

def text? (part : Part) : Option Lexeme :=
  part.value?.map (fun value => Lexeme.unplaced (Text.unquoted value))

@[simp] theorem text?_quoted (value : String) :
    text? (.word (Text.quoted value)) = some (Lexeme.unplaced value) := by
  simp [text?, value?]

def leaf? (kind : LeafKind) : Part -> Option Lexeme
  | .leaf found lexeme => if found = kind then some lexeme else none
  | _ => none

def type? : Part -> Option TypeExpr
  | .type found => some found
  | _ => none

def constraint? : Part -> Option Constraint
  | .constraint found => some found
  | _ => none

def clause? : Part -> Option WhereClause
  | .clause found => some found
  | _ => none

def typeFunction? : Part -> Option TypeFunction
  | .typeFunction found => some found
  | _ => none

def pattern? : Part -> Option Pattern
  | .pattern found => some found
  | _ => none

def patternField? : Part -> Option (Entry Lexeme Pattern)
  | .patternField found => some found
  | _ => none

def note? : Part -> Option Attribute
  | .note found => some found
  | _ => none

def fieldDefinition? : Part -> Option (Entry Lexeme Signature)
  | .fieldDefinition found => some found
  | _ => none

def variantDefinition? : Part -> Option (Entry Lexeme (List TypeExpr))
  | .variantDefinition found => some found
  | _ => none

def representation? : Part -> Option Representation
  | .representation found => some found
  | _ => none

def expression? : Part -> Option Expression
  | .expression found => some found
  | _ => none

def expressionField? : Part -> Option (Entry Lexeme Expression)
  | .expressionField found => some found
  | _ => none

def arm? : Part -> Option (Entry Pattern Expression)
  | .arm found => some found
  | _ => none

def statement? : Part -> Option Statement
  | .statement found => some found
  | _ => none

def split (pick : Part -> Option α) : List Part -> List α × List Part
  | [] => ([], [])
  | part :: rest =>
      match pick part with
      | some value => (value :: (split pick rest).1, (split pick rest).2)
      | none => ([], part :: rest)

theorem split_append {pick : Part -> Option α} {make : α -> Part} {values : List α}
    {rest : List Part} (hpick : forall value, pick (make value) = some value)
    (hrest : forall part, rest.head? = some part -> pick part = none) :
    split pick (values.map make ++ rest) = (values, rest) := by
  induction values with
  | nil =>
      cases rest with
      | nil => rfl
      | cons part rest => rw [List.map_nil, List.nil_append, split, hrest part rfl]
  | cons value values ih => rw [List.map_cons, List.cons_append, split, hpick, ih]

def all? (pick : Part -> Option α) (parts : List Part) : Option (List α) :=
  match split pick parts with
  | (values, []) => some values
  | _ => none

theorem all?_map {pick : Part -> Option α} {make : α -> Part} {values : List α}
    (hpick : forall value, pick (make value) = some value) :
    all? pick (values.map make) = some values := by
  have hsplit : split pick (values.map make ++ []) = (values, []) :=
    split_append hpick (by simp)
  rw [List.append_nil] at hsplit
  rw [all?, hsplit]

end Part

/-!
## Forms
-/

abbrev Form := List Part -> Option Part

namespace Form

variable {α β : Type}

def bare (part : Part) : Form
  | [] => some part
  | _ => none

def single (pick : Part -> Option α) (make : α -> Part) : Form
  | [part] => (pick part).map make
  | _ => none

def pair (first? : Part -> Option α) (second? : Part -> Option β) (make : α -> β -> Part) : Form
  | [part, other] =>
      match first? part, second? other with
      | some first, some second => some (make first second)
      | _, _ => none
  | _ => none

def many (pick : Part -> Option α) (make : List α -> Part) (parts : List Part) : Option Part :=
  (Part.all? pick parts).map make

def headed (head? : Part -> Option α) (pick : Part -> Option β) (make : α -> List β -> Part) :
    Form
  | [] => none
  | part :: rest =>
      match head? part, Part.all? pick rest with
      | some head, some values => some (make head values)
      | _, _ => none

theorem many_map {pick : Part -> Option α} {part : α -> Part} {make : List α -> Part}
    {values : List α} (hpick : forall value, pick (part value) = some value) :
    many pick make (values.map part) = some (make values) := by
  rw [many, Part.all?_map hpick, Option.map_some]

theorem headed_map {head? : Part -> Option α} {pick : Part -> Option β} {first : Part}
    {head : α} {part : β -> Part} {make : α -> List β -> Part} {values : List β}
    (hhead : head? first = some head)
    (hpick : forall value, pick (part value) = some value) :
    headed head? pick make (first :: values.map part) = some (make head values) := by
  rw [headed, hhead, Part.all?_map hpick]

def leafForms : List (String × Form) :=
  [("type_name", single Part.word? (.leaf .typeName)),
    ("variant_name", single Part.word? (.leaf .variantName)),
    ("variable_name", single Part.word? (.leaf .variableName)),
    ("type_parameter_name", single Part.word? (.leaf .typeParameterName)),
    ("attribute_name", single Part.word? (.leaf .attributeName)),
    ("number", single Part.word? (.leaf .number)),
    ("text", single Part.text? (.leaf .text)),
    ("comment", single Part.text? (.leaf .comment))]

/-!
### Types and patterns
-/

def functionType (parts : List Part) : Option Part :=
  match Part.all? Part.type? parts with
  | some types =>
      types.getLast?.map (fun output => .type (.function types.dropLast output default))
  | none => none

theorem functionType_map (inputs : List TypeExpr) (output : TypeExpr) :
    functionType ((inputs ++ [output]).map .type) =
      some (.type (.function inputs output default)) := by
  have hall : Part.all? Part.type? ((inputs ++ [output]).map .type) = some (inputs ++ [output]) :=
    Part.all?_map (fun _ => rfl)
  rw [functionType, hall]
  simp

def typeForms : List (String × Form) :=
  [("placeholder_type", bare (.type (.placeholder default))),
    ("parameter_type", single Part.word? (fun name => .type (.parameter name))),
    ("named_type",
      headed Part.word? Part.type? (fun name parameters =>
        .type (.named name parameters default))),
    ("function_type", functionType),
    ("block_type", single Part.type? (fun output => .type (.block output default))),
    ("unit_type", bare (.type (.unit default))),
    ("tuple_type", many Part.type? (fun elements => .type (.tuple elements default))),
    ("bound_constraint",
      headed (Part.leaf? .typeName) Part.type? (fun trait types =>
        .constraint (.bound trait types default))),
    ("infer_constraint",
      single (Part.leaf? .typeParameterName) (fun parameter =>
        .constraint (.infer parameter default))),
    ("default_constraint",
      pair (Part.leaf? .typeParameterName) Part.type? (fun parameter value =>
        .constraint (.fallback parameter value default))),
    ("where_clause",
      many Part.constraint? (fun found => .clause { constraints := found, span := default })),
    ("type_function",
      many Part.value? (fun names =>
        .typeFunction { parameters := names.map Lexeme.unplaced, span := default }))]

def patternForms : List (String × Form) :=
  [("wildcard_pattern", bare (.pattern (.wildcard default))),
    ("variable_pattern", single Part.word? (fun name => .pattern (.variable name))),
    ("number_pattern", single Part.word? (fun literal => .pattern (.number literal))),
    ("text_pattern", single Part.text? (fun literal => .pattern (.text literal))),
    ("destructure_pattern",
      many Part.patternField? (fun fields => .pattern (.destructure fields default))),
    ("destructure_pattern_field",
      pair (Part.leaf? .variableName) Part.pattern? (fun key value =>
        .patternField { key := key, value := value, span := default })),
    ("unit_pattern", bare (.pattern (.unit default))),
    ("tuple_pattern", many Part.pattern? (fun elements => .pattern (.tuple elements default))),
    ("or_pattern",
      pair Part.pattern? Part.pattern? (fun left right => .pattern (.or left right default))),
    ("annotate_pattern",
      pair Part.pattern? Part.type? (fun inner type =>
        .pattern (.annotate inner type default))),
    ("set_pattern", single Part.word? (fun name => .pattern (.set name default))),
    ("variant_pattern",
      headed Part.word? Part.pattern? (fun name elements =>
        .pattern (.variant name elements default)))]

/-!
### What stands around definitions
-/

def assignAttribute : Form
  | [.leaf .attributeName name, .leaf .text text] => some (.note (.withText name text default))
  | [.leaf .attributeName name, .leaf .number number] =>
      some (.note (.withNumber name number default))
  | _ => none

def signature? : List Part -> Option Signature
  | [.type type] => some { type := type, clause := none, span := default }
  | [.type type, .clause clause] =>
      some { type := type, clause := some clause, span := default }
  | _ => none

def ofSignature (signature : Signature) : List Part :=
  .type signature.type :: signature.clause.toList.map .clause

theorem signature?_ofSignature (signature : Signature) :
    signature? (ofSignature signature) = some { signature with span := default } := by
  rcases signature with ⟨type, clause, span⟩
  cases clause with
  | none => rfl
  | some clause => rfl

def fieldDefinition : Form
  | .leaf .variableName key :: rest =>
      (signature? rest).map (fun signature =>
        .fieldDefinition { key := key, value := signature, span := default })
  | _ => none

def definitionForms : List (String × Form) :=
  [("name_attribute",
      single (Part.leaf? .attributeName) (fun name => .note (.plain name default))),
    ("assign_attribute", assignAttribute),
    ("field_definition", fieldDefinition),
    ("variant_definition",
      headed (Part.leaf? .variantName) Part.type? (fun key elements =>
        .variantDefinition { key := key, value := elements, span := default })),
    ("structure_type_representation",
      many Part.fieldDefinition? (fun fields => .representation (.structured fields default))),
    ("enumeration_type_representation",
      many Part.variantDefinition? (fun variants =>
        .representation (.enumerated variants default)))]

/-!
### Expressions and statements
-/

def function (parts : List Part) : Option Part :=
  match Part.split Part.pattern? parts with
  | (inputs, [.expression output]) => some (.expression (.function inputs output default))
  | _ => none

theorem function_map (inputs : List Pattern) (output : Expression) :
    function (inputs.map .pattern ++ [.expression output]) =
      some (.expression (.function inputs output default)) := by
  have hsplit : Part.split Part.pattern? (inputs.map .pattern ++ [.expression output]) =
      (inputs, [.expression output]) :=
    Part.split_append (fun _ => rfl) (by simp [Part.pattern?])
  rw [function, hsplit]

def binary (operator : Operator) : Form
  | [.expression left, .expression right] =>
      some (.expression (.binary operator left (.expression right) default))
  | [.expression left, .pattern right] =>
      some (.expression (.binary operator left (.pattern right) default))
  | [.expression left, .type right] =>
      some (.expression (.binary operator left (.type right) default))
  | _ => none

def ofOperand : Operand -> Part
  | .expression right => .expression right
  | .pattern right => .pattern right
  | .type right => .type right

theorem binary_ofOperand (operator : Operator) (left : Expression) (right : Operand) :
    binary operator [.expression left, ofOperand right] =
      some (.expression (.binary operator left right default)) := by
  cases right <;> rfl

def expressionForms : List (String × Form) :=
  [("placeholder_expression", bare (.expression (.placeholder default))),
    ("variable_name_expression", single Part.word? (fun name => .expression (.variable name))),
    ("type_name_expression", single Part.word? (fun name => .expression (.typeName name))),
    ("number_expression", single Part.word? (fun literal => .expression (.number literal))),
    ("text_expression", single Part.text? (fun literal => .expression (.text literal))),
    ("unit_expression", bare (.expression (.unit default))),
    ("structure_expression",
      many Part.expressionField? (fun fields => .expression (.record fields default))),
    ("structure_expression_field",
      pair (Part.leaf? .variableName) Part.expression? (fun key value =>
        .expressionField { key := key, value := value, span := default })),
    ("block_expression",
      many Part.statement? (fun statements => .expression (.block statements default))),
    ("formatted_text_expression",
      headed Part.text? Part.expression? (fun text inputs =>
        .expression (.formattedText text inputs default))),
    ("call_expression",
      headed Part.expression? Part.expression? (fun function inputs =>
        .expression (.call function inputs default))),
    ("do_expression",
      single Part.expression? (fun input => .expression (.perform input default))),
    ("when_expression",
      headed Part.expression? Part.arm? (fun input arms =>
        .expression (.when input arms default))),
    ("arm",
      pair Part.pattern? Part.expression? (fun key value =>
        .arm { key := key, value := value, span := default })),
    ("intrinsic_expression",
      headed Part.text? Part.expression? (fun name inputs =>
        .expression (.intrinsic name inputs default))),
    ("tuple_expression",
      many Part.expression? (fun elements => .expression (.tuple elements default))),
    ("collection_expression",
      many Part.expression? (fun elements => .expression (.collection elements default))),
    ("function_expression", function)]

def ofHeader (header : Header) : List Part :=
  header.comments.map (.leaf .comment) ++ header.attributes.map .note

def header (parts : List Part) : Header × List Part :=
  let (comments, rest) := Part.split (Part.leaf? .comment) parts
  let (attributes, rest) := Part.split Part.note? rest
  ({ comments := comments, attributes := attributes }, rest)

theorem header_ofHeader (found : Header) {kind : LeafKind} {name : Lexeme} {rest : List Part}
    (hkind : kind ≠ .comment) :
    header (ofHeader found ++ .leaf kind name :: rest) = (found, .leaf kind name :: rest) := by
  have hattributes :
      Part.split Part.note? (found.attributes.map .note ++ .leaf kind name :: rest) =
        (found.attributes, .leaf kind name :: rest) :=
    Part.split_append (fun _ => rfl) (by simp [Part.note?])
  have hcomments :
      Part.split (Part.leaf? .comment)
          (found.comments.map (.leaf .comment) ++
            (found.attributes.map .note ++ .leaf kind name :: rest)) =
        (found.comments, found.attributes.map .note ++ .leaf kind name :: rest) := by
    refine Part.split_append (fun _ => rfl) (fun part hpart => ?_)
    -- Behind the comments stands an attribute or, if there is none, the name.
    cases hfound : found.attributes with
    | nil =>
        rw [hfound] at hpart
        cases hpart
        exact if_neg hkind
    | cons note notes =>
        rw [hfound] at hpart
        cases hpart
        rfl
  rw [header, ofHeader, List.append_assoc, hcomments]
  simp only [hattributes]

def typeDefinition (parts : List Part) : Option Part :=
  match header parts with
  | (header, .leaf .typeName name :: rest) =>
      let (functions, rest) := Part.split Part.typeFunction? rest
      let (representations, _) := Part.split Part.representation? rest
      some (.statement
        (.typeDefinition header name functions.head? representations.head? default))
  | _ => none

theorem typeDefinition_parts (header : Header) (name : Lexeme)
    (parameters : Option TypeFunction) (representation : Option Representation) :
    typeDefinition (ofHeader header ++ .leaf .typeName name ::
        (parameters.toList.map .typeFunction ++ representation.toList.map .representation)) =
      some (.statement (.typeDefinition header name parameters representation default)) := by
  rw [typeDefinition, header_ofHeader header (by decide)]
  cases parameters <;> cases representation <;> rfl

def traitDefinition (parts : List Part) : Option Part :=
  match header parts with
  | (header, .leaf .typeName name :: rest) =>
      let (functions, rest) := Part.split Part.typeFunction? rest
      let (types, rest) := Part.split Part.type? rest
      let (clauses, _) := Part.split Part.clause? rest
      some (.statement
        (.traitDefinition header name functions.head? types.head? clauses.head? default))
  | _ => none

theorem traitDefinition_parts (header : Header) (name : Lexeme)
    (parameters : Option TypeFunction) (type : Option TypeExpr) (clause : Option WhereClause) :
    traitDefinition (ofHeader header ++ .leaf .typeName name ::
        (parameters.toList.map .typeFunction ++
          (type.toList.map .type ++ clause.toList.map .clause))) =
      some (.statement (.traitDefinition header name parameters type clause default)) := by
  rw [traitDefinition, header_ofHeader header (by decide)]
  cases parameters <;> cases type <;> cases clause <;> rfl

def constantDefinition (parts : List Part) : Option Part :=
  match header parts with
  | (header, .leaf .variableName name :: rest) =>
      (signature? rest).map (fun signature =>
        .statement (.constantDefinition header name signature default))
  | _ => none

theorem constantDefinition_parts (header : Header) (name : Lexeme) (signature : Signature) :
    constantDefinition (ofHeader header ++ .leaf .variableName name :: ofSignature signature) =
      some (.statement
        (.constantDefinition header name { signature with span := default } default)) := by
  rw [constantDefinition, header_ofHeader header (by decide)]
  simp only [signature?_ofSignature, Option.map_some]

def instanceDefinition (parts : List Part) : Option Part :=
  match header parts with
  | (header, .leaf .typeName trait :: rest) =>
      let (types, rest) := Part.split Part.type? rest
      let (clauses, rest) := Part.split Part.clause? rest
      let (values, _) := Part.split Part.expression? rest
      some (.statement
        (.instanceDefinition header trait types clauses.head? values.head? default))
  | _ => none

theorem instanceDefinition_parts (header : Header) (trait : Lexeme) (parameters : List TypeExpr)
    (clause : Option WhereClause) (value : Option Expression) :
    instanceDefinition (ofHeader header ++ .leaf .typeName trait ::
        (parameters.map .type ++
          (clause.toList.map .clause ++ value.toList.map .expression))) =
      some (.statement
        (.instanceDefinition header trait parameters clause value default)) := by
  have hparameters :
      Part.split Part.type?
          (parameters.map .type ++ (clause.toList.map .clause ++ value.toList.map .expression)) =
        (parameters, clause.toList.map .clause ++ value.toList.map .expression) :=
    Part.split_append (fun _ => rfl)
      (by cases clause <;> cases value <;> simp [Part.type?])
  rw [instanceDefinition, header_ofHeader header (by decide)]
  simp only [hparameters]
  cases clause <;> cases value <;> rfl

def statementForms : List (String × Form) :=
  [("type_definition_statement", typeDefinition),
    ("trait_definition_statement", traitDefinition),
    ("constant_definition_statement", constantDefinition),
    ("instance_definition_statement", instanceDefinition),
    ("assignment_statement",
      pair Part.pattern? Part.expression? (fun pattern value =>
        .statement (.assignment pattern value default))),
    ("expression_statement",
      single Part.expression? (fun expression =>
        .statement (.expression expression default))),
    ("ERROR", bare (.statement (.error default))),
    ("source_file", many Part.statement? .file)]

def table : List (String × Form) :=
  leafForms ++ typeForms ++ patternForms ++ definitionForms ++ expressionForms ++ statementForms

end Form

def Operator.ofTag? (tag : String) : Option Operator :=
  all.find? (fun operator => operator.tag == tag)

theorem Operator.ofTag?_tag (operator : Operator) : ofTag? operator.tag = some operator := by
  cases operator <;> decide

def Form.ofTag? (tag : String) : Option Form :=
  match Operator.ofTag? tag with
  | some operator => some (binary operator)
  | none => table.lookup tag

theorem Form.ofTag?_tag (operator : Operator) : ofTag? operator.tag = some (binary operator) := by
  rw [ofTag?, Operator.ofTag?_tag]

namespace Outline

mutual

def part? : Outline -> Option Part
  | .word text => some (.word text)
  | .form tag items =>
      match Form.ofTag? tag, parts? items with
      | some assemble, some parts => assemble parts
      | _, _ => none

def parts? : List Outline -> Option (List Part)
  | [] => some []
  | item :: rest =>
      match part? item, parts? rest with
      | some part, some parts => some (part :: parts)
      | _, _ => none

end

end Outline

end Linewise
