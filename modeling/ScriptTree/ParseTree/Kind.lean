/-!
# Grammar rules

The rules of the grammar as far as they mean something here: each has a kind, and a name without a
kind is not part of the grammar. Rules beyond the supported language level share one kind, as do the
pieces of strings and regular expressions.
-/
namespace ScriptTree

/-- The kinds of named nodes. -/
inductive GrammarKind where
  | program | hashBangLine | comment | htmlComment
  | expressionStatement | variableDeclaration | lexicalDeclaration | variableDeclarator
  | statementBlock | ifStatement | elseClause | switchStatement | switchBody | switchCase
  | switchDefault | forStatement | forInStatement | whileStatement | doStatement | tryStatement
  | catchClause | finallyClause | withStatement | breakStatement | continueStatement
  | returnStatement | throwStatement | emptyStatement | labeledStatement
  | functionDeclaration | functionExpression | generatorFunctionDeclaration | generatorFunction
  | formalParameters
  | keywordLiteral
  | identifier | propertyIdentifier | shorthandPropertyIdentifier
  | shorthandPropertyIdentifierPattern | statementIdentifier | undefined
  | number | string | regex | array | object | pair | methodDefinition | computedPropertyName
  | arrayPattern | objectPattern | pairPattern | assignmentPattern | objectAssignmentPattern
  | parenthesizedExpression | sequenceExpression | assignmentExpression
  | augmentedAssignmentExpression | binaryExpression | unaryExpression | updateExpression
  | ternaryExpression | callExpression | newExpression | memberExpression | subscriptExpression
  | yieldExpression | arguments
  | lexicalPart
  | unsupported
  deriving DecidableEq, Repr

namespace GrammarKind

/-- The names of all rules with their kinds. -/
def table : List (String × GrammarKind) :=
  [("program", program), ("hash_bang_line", hashBangLine), ("comment", comment),
    ("html_comment", htmlComment), ("expression_statement", expressionStatement),
    ("variable_declaration", variableDeclaration), ("lexical_declaration", lexicalDeclaration),
    ("variable_declarator", variableDeclarator), ("statement_block", statementBlock),
    ("if_statement", ifStatement), ("else_clause", elseClause),
    ("switch_statement", switchStatement), ("switch_body", switchBody),
    ("switch_case", switchCase), ("switch_default", switchDefault),
    ("for_statement", forStatement), ("for_in_statement", forInStatement),
    ("while_statement", whileStatement), ("do_statement", doStatement),
    ("try_statement", tryStatement), ("catch_clause", catchClause),
    ("finally_clause", finallyClause), ("with_statement", withStatement),
    ("break_statement", breakStatement), ("continue_statement", continueStatement),
    ("return_statement", returnStatement), ("throw_statement", throwStatement),
    ("empty_statement", emptyStatement), ("labeled_statement", labeledStatement),
    ("function_declaration", functionDeclaration), ("function_expression", functionExpression),
    ("generator_function_declaration", generatorFunctionDeclaration),
    ("generator_function", generatorFunction), ("formal_parameters", formalParameters),
    ("true", keywordLiteral), ("false", keywordLiteral), ("null", keywordLiteral),
    ("this", keywordLiteral), ("super", keywordLiteral),
    ("debugger_statement", keywordLiteral), ("identifier", identifier),
    ("property_identifier", propertyIdentifier),
    ("shorthand_property_identifier", shorthandPropertyIdentifier),
    ("shorthand_property_identifier_pattern", shorthandPropertyIdentifierPattern),
    ("statement_identifier", statementIdentifier), ("undefined", undefined),
    ("number", number), ("string", string), ("regex", regex), ("array", array),
    ("object", object), ("pair", pair), ("method_definition", methodDefinition),
    ("computed_property_name", computedPropertyName), ("array_pattern", arrayPattern),
    ("object_pattern", objectPattern), ("pair_pattern", pairPattern),
    ("assignment_pattern", assignmentPattern),
    ("object_assignment_pattern", objectAssignmentPattern),
    ("parenthesized_expression", parenthesizedExpression),
    ("sequence_expression", sequenceExpression),
    ("assignment_expression", assignmentExpression),
    ("augmented_assignment_expression", augmentedAssignmentExpression),
    ("binary_expression", binaryExpression), ("unary_expression", unaryExpression),
    ("update_expression", updateExpression), ("ternary_expression", ternaryExpression),
    ("call_expression", callExpression), ("new_expression", newExpression),
    ("member_expression", memberExpression), ("subscript_expression", subscriptExpression),
    ("yield_expression", yieldExpression), ("arguments", arguments),
    ("escape_sequence", lexicalPart), ("string_fragment", lexicalPart),
    ("regex_pattern", lexicalPart), ("regex_flags", lexicalPart),
    ("arrow_function", unsupported), ("await_expression", unsupported), ("class", unsupported),
    ("class_declaration", unsupported), ("class_body", unsupported),
    ("class_heritage", unsupported), ("class_static_block", unsupported),
    ("field_definition", unsupported), ("decorator", unsupported),
    ("template_string", unsupported), ("template_substitution", unsupported),
    ("spread_element", unsupported), ("rest_pattern", unsupported), ("import", unsupported),
    ("import_statement", unsupported), ("import_clause", unsupported),
    ("import_specifier", unsupported), ("import_attribute", unsupported),
    ("named_imports", unsupported), ("namespace_import", unsupported),
    ("export_statement", unsupported), ("export_clause", unsupported),
    ("export_specifier", unsupported), ("namespace_export", unsupported),
    ("meta_property", unsupported), ("optional_chain", unsupported),
    ("private_property_identifier", unsupported), ("jsx_element", unsupported),
    ("jsx_self_closing_element", unsupported), ("jsx_opening_element", unsupported),
    ("jsx_closing_element", unsupported), ("jsx_attribute", unsupported),
    ("jsx_expression", unsupported), ("jsx_namespace_name", unsupported),
    ("jsx_text", unsupported), ("html_character_reference", unsupported)]

/-- The kind of the rule with a name. -/
def ofName? (name : String) : Option GrammarKind :=
  table.lookup name

/-- Wrappers that the one node inside them stands for. -/
def isTransparent : GrammarKind → Bool
  | parenthesizedExpression | elseClause | finallyClause | computedPropertyName => true
  | _ => false

/-- The two kinds of comments. -/
def isComment : GrammarKind → Bool
  | comment | htmlComment => true
  | _ => false

end GrammarKind

end ScriptTree
