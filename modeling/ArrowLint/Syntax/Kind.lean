/-
  ArrowLint.Syntax.Kind

  The vocabulary of the concrete syntax trees: the kinds of node the linter tells
  apart, and the fields by which a node names some of its children.

  A grammar has several hundred kinds of node. The linter looks at some forty of
  them, and every other one is carried along as `Kind.other` with its own name, so
  `Kind.ofSpelling` loses nothing (`Kind.spelling_ofSpelling`).
-/

namespace ArrowLint

/-! ## Kinds of node -/

/-- What a node is. Keywords and punctuation are nodes too, and a kind that the linter does not tell
    apart is `other`. -/
inductive Kind where
  | methodDefinition
  | arrowFunction
  | functionDeclaration
  | functionExpression
  | generatorFunctionDeclaration
  | generatorFunction
  | pair
  | publicFieldDefinition
  | fieldDefinition
  | classBody
  | object
  | exportStatement
  | statementBlock
  | returnStatement
  | sequenceExpression
  | memberExpression
  | metaProperty
  | assignmentExpression
  | augmentedAssignmentExpression
  | binaryExpression
  | unaryExpression
  | ternaryExpression
  | callExpression
  | newExpression
  | comment
  | htmlComment
  | identifier
  | propertyIdentifier
  | privatePropertyIdentifier
  | shorthandPropertyIdentifier
  | shorthandPropertyIdentifierPattern
  | this
  | thisType
  | superKeyword
  | defaultKeyword
  | asyncKeyword
  | getKeyword
  | setKeyword
  | newKeyword
  | targetKeyword
  | star
  | semicolon
  | questionMark
  /-- Any kind of node that the linter does not tell apart, by its `name`. -/
  | other (name : String)
  deriving DecidableEq

namespace Kind

/-- The name by which the grammar knows a `Kind`. -/
def spelling : Kind → String
  | .methodDefinition => "method_definition"
  | .arrowFunction => "arrow_function"
  | .functionDeclaration => "function_declaration"
  | .functionExpression => "function_expression"
  | .generatorFunctionDeclaration => "generator_function_declaration"
  | .generatorFunction => "generator_function"
  | .pair => "pair"
  | .publicFieldDefinition => "public_field_definition"
  | .fieldDefinition => "field_definition"
  | .classBody => "class_body"
  | .object => "object"
  | .exportStatement => "export_statement"
  | .statementBlock => "statement_block"
  | .returnStatement => "return_statement"
  | .sequenceExpression => "sequence_expression"
  | .memberExpression => "member_expression"
  | .metaProperty => "meta_property"
  | .assignmentExpression => "assignment_expression"
  | .augmentedAssignmentExpression => "augmented_assignment_expression"
  | .binaryExpression => "binary_expression"
  | .unaryExpression => "unary_expression"
  | .ternaryExpression => "ternary_expression"
  | .callExpression => "call_expression"
  | .newExpression => "new_expression"
  | .comment => "comment"
  | .htmlComment => "html_comment"
  | .identifier => "identifier"
  | .propertyIdentifier => "property_identifier"
  | .privatePropertyIdentifier => "private_property_identifier"
  | .shorthandPropertyIdentifier => "shorthand_property_identifier"
  | .shorthandPropertyIdentifierPattern => "shorthand_property_identifier_pattern"
  | .this => "this"
  | .thisType => "this_type"
  | .superKeyword => "super"
  | .defaultKeyword => "default"
  | .asyncKeyword => "async"
  | .getKeyword => "get"
  | .setKeyword => "set"
  | .newKeyword => "new"
  | .targetKeyword => "target"
  | .star => "*"
  | .semicolon => ";"
  | .questionMark => "?"
  | .other name => name

/-- The `Kind` of a name, `other` unless the linter tells it apart. -/
def ofSpelling : String → Kind
  | "method_definition" => .methodDefinition
  | "arrow_function" => .arrowFunction
  | "function_declaration" => .functionDeclaration
  | "function_expression" => .functionExpression
  | "generator_function_declaration" => .generatorFunctionDeclaration
  | "generator_function" => .generatorFunction
  | "pair" => .pair
  | "public_field_definition" => .publicFieldDefinition
  | "field_definition" => .fieldDefinition
  | "class_body" => .classBody
  | "object" => .object
  | "export_statement" => .exportStatement
  | "statement_block" => .statementBlock
  | "return_statement" => .returnStatement
  | "sequence_expression" => .sequenceExpression
  | "member_expression" => .memberExpression
  | "meta_property" => .metaProperty
  | "assignment_expression" => .assignmentExpression
  | "augmented_assignment_expression" => .augmentedAssignmentExpression
  | "binary_expression" => .binaryExpression
  | "unary_expression" => .unaryExpression
  | "ternary_expression" => .ternaryExpression
  | "call_expression" => .callExpression
  | "new_expression" => .newExpression
  | "comment" => .comment
  | "html_comment" => .htmlComment
  | "identifier" => .identifier
  | "property_identifier" => .propertyIdentifier
  | "private_property_identifier" => .privatePropertyIdentifier
  | "shorthand_property_identifier" => .shorthandPropertyIdentifier
  | "shorthand_property_identifier_pattern" => .shorthandPropertyIdentifierPattern
  | "this" => .this
  | "this_type" => .thisType
  | "super" => .superKeyword
  | "default" => .defaultKeyword
  | "async" => .asyncKeyword
  | "get" => .getKeyword
  | "set" => .setKeyword
  | "new" => .newKeyword
  | "target" => .targetKeyword
  | "*" => .star
  | ";" => .semicolon
  | "?" => .questionMark
  | name => .other name

/-- The `spelling` of the kind found for `s` is `s` itself. -/
theorem spelling_ofSpelling (s : String) : (ofSpelling s).spelling = s := by
  unfold ofSpelling
  split <;> rfl

/-- Comments, which stand between the parts of a program without being part of it. -/
def isComment : Kind → Bool
  | .comment | .htmlComment => true
  | _ => false

/-- A function whose body may be run in steps, by its kind alone. -/
def isGenerator : Kind → Bool
  | .generatorFunctionDeclaration | .generatorFunction => true
  | _ => false

/-- A member of a class body that holds a value, in either grammar. -/
def isFieldDefinition : Kind → Bool
  | .publicFieldDefinition | .fieldDefinition => true
  | _ => false

/-- A key that is written as a plain or as a private name. -/
def isPropertyName : Kind → Bool
  | .propertyIdentifier | .privatePropertyIdentifier => true
  | _ => false

/-- A plain assignment or one that combines with an operator. -/
def isAssignment : Kind → Bool
  | .assignmentExpression | .augmentedAssignmentExpression => true
  | _ => false

/-- The receiver of a call, `this` as a value or as a type. -/
def isThis : Kind → Bool
  | .this | .thisType => true
  | _ => false

/-- A name that may refer to a variable, also where it is a key or a short form of one. -/
def isIdentifier : Kind → Bool
  | .identifier | .propertyIdentifier | .shorthandPropertyIdentifier
  | .shorthandPropertyIdentifierPattern => true
  | _ => false

end Kind

/-! ## Fields -/

/-- The fields under which a node holds those of its children that the linter asks for. -/
inductive Field where
  | body
  | name
  | parameters
  | parameter
  | typeParameters
  | returnType
  | value
  | key
  | property
  | left
  | object
  deriving DecidableEq

namespace Field

/-- The name by which the grammar knows a `Field`. -/
def spelling : Field → String
  | .body => "body"
  | .name => "name"
  | .parameters => "parameters"
  | .parameter => "parameter"
  | .typeParameters => "type_parameters"
  | .returnType => "return_type"
  | .value => "value"
  | .key => "key"
  | .property => "property"
  | .left => "left"
  | .object => "object"

/-- The `Field` of a name, if it is one of those the linter asks for. -/
def ofSpelling? : String → Option Field
  | "body" => some .body
  | "name" => some .name
  | "parameters" => some .parameters
  | "parameter" => some .parameter
  | "type_parameters" => some .typeParameters
  | "return_type" => some .returnType
  | "value" => some .value
  | "key" => some .key
  | "property" => some .property
  | "left" => some .left
  | "object" => some .object
  | _ => none

/-- Every field is found by its `spelling`. -/
theorem ofSpelling?_spelling (f : Field) : ofSpelling? f.spelling = some f := by
  cases f <;> rfl

end Field

end ArrowLint
