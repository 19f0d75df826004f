/-!
Concrete syntax trees of Python sources.

A tree keeps the named parts of a construct, in source order, with comments among them, and of
the anonymous tokens only those that a later reading needs: the operators of operator nodes.
Every node carries the exact source text it spans.
-/

namespace AddonAtlas.Source

/-- What a node of a syntax tree is. -/
inductive Kind
  | module | block | comment
  /-- An anonymous token. -/
  | token
  -- simple statements
  | expressionStatement | importStatement | importFromStatement | futureImportStatement
  | printStatement | execStatement | assertStatement | returnStatement | deleteStatement
  | raiseStatement | passStatement | breakStatement | continueStatement | globalStatement
  | nonlocalStatement | typeAliasStatement
  -- compound statements
  | ifStatement | elifClause | elseClause | forStatement | whileStatement | tryStatement
  | exceptClause | exceptGroupClause | finallyClause | withStatement | withClause | withItem
  | functionDefinition | classDefinition | decoratedDefinition | decorator | matchStatement
  | caseClause | casePattern
  -- parts of statements
  | dottedName | relativeImport | importPrefix | aliasedImport | wildcardImport | chevron
  | parameters | lambdaParameters | defaultParameter | typedParameter | typedDefaultParameter
  | listSplatPattern | dictionarySplatPattern | tuplePattern | listPattern | patternList
  | keywordSeparator | positionalSeparator | argumentList | keywordArgument
  | assignment | augmentedAssignment
  -- types
  | type | genericType | unionType | memberType | constrainedType | splatType | typeParameter
  -- patterns of cases
  | asPattern | asPatternTarget | keywordPattern | classPattern | splatPattern | unionPattern
  | dictPattern | complexPattern
  -- expressions
  | identifier | attribute | subscript | slice | call | binaryOperator | unaryOperator
  | notOperator | booleanOperator | comparisonOperator | conditionalExpression | lambda
  | namedExpression | await | yield | ellipsis | expressionList | list | tuple | set
  | dictionary | pair | listSplat | dictionarySplat | parenthesizedExpression
  | listComprehension | setComprehension | dictionaryComprehension | generatorExpression
  | forInClause | ifClause
  -- literals
  | integer | float | trueLiteral | falseLiteral | noneLiteral | concatenatedString | string
  | stringStart | stringContent | stringEnd | escapeSequence | escapeInterpolation
  | interpolation | formatSpecifier | formatExpression | typeConversion
  deriving DecidableEq, Repr, Inhabited

/-- The name by which messages call a kind of node. -/
def Kind.name : Kind → String
  | .module => "module"
  | .block => "block"
  | .comment => "comment"
  | .token => "token"
  | .expressionStatement => "expression_statement"
  | .importStatement => "import_statement"
  | .importFromStatement => "import_from_statement"
  | .futureImportStatement => "future_import_statement"
  | .printStatement => "print_statement"
  | .execStatement => "exec_statement"
  | .assertStatement => "assert_statement"
  | .returnStatement => "return_statement"
  | .deleteStatement => "delete_statement"
  | .raiseStatement => "raise_statement"
  | .passStatement => "pass_statement"
  | .breakStatement => "break_statement"
  | .continueStatement => "continue_statement"
  | .globalStatement => "global_statement"
  | .nonlocalStatement => "nonlocal_statement"
  | .typeAliasStatement => "type_alias_statement"
  | .ifStatement => "if_statement"
  | .elifClause => "elif_clause"
  | .elseClause => "else_clause"
  | .forStatement => "for_statement"
  | .whileStatement => "while_statement"
  | .tryStatement => "try_statement"
  | .exceptClause => "except_clause"
  | .exceptGroupClause => "except_group_clause"
  | .finallyClause => "finally_clause"
  | .withStatement => "with_statement"
  | .withClause => "with_clause"
  | .withItem => "with_item"
  | .functionDefinition => "function_definition"
  | .classDefinition => "class_definition"
  | .decoratedDefinition => "decorated_definition"
  | .decorator => "decorator"
  | .matchStatement => "match_statement"
  | .caseClause => "case_clause"
  | .casePattern => "case_pattern"
  | .dottedName => "dotted_name"
  | .relativeImport => "relative_import"
  | .importPrefix => "import_prefix"
  | .aliasedImport => "aliased_import"
  | .wildcardImport => "wildcard_import"
  | .chevron => "chevron"
  | .parameters => "parameters"
  | .lambdaParameters => "lambda_parameters"
  | .defaultParameter => "default_parameter"
  | .typedParameter => "typed_parameter"
  | .typedDefaultParameter => "typed_default_parameter"
  | .listSplatPattern => "list_splat_pattern"
  | .dictionarySplatPattern => "dictionary_splat_pattern"
  | .tuplePattern => "tuple_pattern"
  | .listPattern => "list_pattern"
  | .patternList => "pattern_list"
  | .keywordSeparator => "keyword_separator"
  | .positionalSeparator => "positional_separator"
  | .argumentList => "argument_list"
  | .keywordArgument => "keyword_argument"
  | .assignment => "assignment"
  | .augmentedAssignment => "augmented_assignment"
  | .type => "type"
  | .genericType => "generic_type"
  | .unionType => "union_type"
  | .memberType => "member_type"
  | .constrainedType => "constrained_type"
  | .splatType => "splat_type"
  | .typeParameter => "type_parameter"
  | .asPattern => "as_pattern"
  | .asPatternTarget => "as_pattern_target"
  | .keywordPattern => "keyword_pattern"
  | .classPattern => "class_pattern"
  | .splatPattern => "splat_pattern"
  | .unionPattern => "union_pattern"
  | .dictPattern => "dict_pattern"
  | .complexPattern => "complex_pattern"
  | .identifier => "identifier"
  | .attribute => "attribute"
  | .subscript => "subscript"
  | .slice => "slice"
  | .call => "call"
  | .binaryOperator => "binary_operator"
  | .unaryOperator => "unary_operator"
  | .notOperator => "not_operator"
  | .booleanOperator => "boolean_operator"
  | .comparisonOperator => "comparison_operator"
  | .conditionalExpression => "conditional_expression"
  | .lambda => "lambda"
  | .namedExpression => "named_expression"
  | .await => "await"
  | .yield => "yield"
  | .ellipsis => "ellipsis"
  | .expressionList => "expression_list"
  | .list => "list"
  | .tuple => "tuple"
  | .set => "set"
  | .dictionary => "dictionary"
  | .pair => "pair"
  | .listSplat => "list_splat"
  | .dictionarySplat => "dictionary_splat"
  | .parenthesizedExpression => "parenthesized_expression"
  | .listComprehension => "list_comprehension"
  | .setComprehension => "set_comprehension"
  | .dictionaryComprehension => "dictionary_comprehension"
  | .generatorExpression => "generator_expression"
  | .forInClause => "for_in_clause"
  | .ifClause => "if_clause"
  | .integer => "integer"
  | .float => "float"
  | .trueLiteral => "true"
  | .falseLiteral => "false"
  | .noneLiteral => "none"
  | .concatenatedString => "concatenated_string"
  | .string => "string"
  | .stringStart => "string_start"
  | .stringContent => "string_content"
  | .stringEnd => "string_end"
  | .escapeSequence => "escape_sequence"
  | .escapeInterpolation => "escape_interpolation"
  | .interpolation => "interpolation"
  | .formatSpecifier => "format_specifier"
  | .formatExpression => "format_expression"
  | .typeConversion => "type_conversion"

/-- The part a node plays in the node above it, where that matters. -/
inductive Role
  | name | value | key | left | right | body | parameters | function | object | attribute
  | operator | argument | moduleName | definition
  deriving DecidableEq, Repr

/-- What is known of a node apart from its children. Lines count from zero. -/
structure Label where
  kind : Kind
  role : Option Role := none
  firstLine : Nat
  lastLine : Nat
  text : String
  deriving Repr

inductive Tree
  | node (label : Label) (children : List Tree)
  deriving Repr

namespace Tree

instance : Inhabited Tree := ⟨.node ⟨.token, none, 0, 0, ""⟩ []⟩

def label : Tree → Label
  | .node l _ => l

def children : Tree → List Tree
  | .node _ cs => cs

def kind (t : Tree) : Kind := t.label.kind

def role (t : Tree) : Option Role := t.label.role

def text (t : Tree) : String := t.label.text

def firstLine (t : Tree) : Nat := t.label.firstLine

def lastLine (t : Tree) : Nat := t.label.lastLine

def isNamed (t : Tree) : Bool := t.kind != .token

/-- The children that are not anonymous tokens. -/
def namedChildren (t : Tree) : List Tree := t.children.filter isNamed

/-- The children that are neither anonymous tokens nor comments. -/
def parts (t : Tree) : List Tree := t.namedChildren.filter fun c => c.kind != .comment

/-- The first child that plays a part. -/
def child? (t : Tree) (r : Role) : Option Tree := t.children.find? fun c => c.role == some r

def withRole (t : Tree) (r : Role) : Tree :=
  match t with
  | .node l cs => .node { l with role := some r } cs

def withKind (t : Tree) (k : Kind) : Tree :=
  match t with
  | .node l cs => .node { l with kind := k } cs

mutual

/-- The first node, parents before children, whose kind passes a test. -/
def find? (p : Kind → Bool) : Tree → Option Tree
  | .node l cs => if p l.kind then some (.node l cs) else findIn? p cs

def findIn? (p : Kind → Bool) : List Tree → Option Tree
  | [] => none
  | t :: r => match find? p t with
    | some u => some u
    | none => findIn? p r

end

end Tree

end AddonAtlas.Source
