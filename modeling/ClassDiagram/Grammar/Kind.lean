/-
The vocabulary of a Java syntax tree: the kinds of phrases and of words with a class of spellings,
and the roles that a phrase can play in the one around it.
-/
namespace ClassDiagram.Grammar

/-- What a phrase or a word of a Java source is. The order is the one in which the grammar lists
them, and of two readings of the same text the one whose kinds come first is preferred. -/
inductive Kind
  | program
  | toplevelStatement
  | literal
  | decimalIntegerLiteral
  | hexIntegerLiteral
  | octalIntegerLiteral
  | binaryIntegerLiteral
  | decimalFloatingPointLiteral
  | hexFloatingPointLiteral
  | trueLiteral
  | falseLiteral
  | characterLiteral
  | stringLiteral
  | quotedString
  | textBlock
  | stringFragment
  | textBlockFragment
  | stringInterpolation
  | textBlockEscape
  | plainEscape
  | escapeSequence
  | nullLiteral
  | expression
  | castExpression
  | assignmentExpression
  | binaryExpression
  | instanceofExpression
  | lambdaExpression
  | inferredParameters
  | ternaryExpression
  | unaryExpression
  | updateExpression
  | primaryExpression
  | arrayCreationExpression
  | dimensionsExpr
  | parenthesizedExpression
  | classLiteral
  | objectCreationExpression
  | unqualifiedObjectCreation
  | fieldAccess
  | templateExpression
  | arrayAccess
  | methodInvocation
  | argumentList
  | methodReference
  | typeArguments
  | wildcard
  | wildcardBounds
  | dimensions
  | switchExpression
  | switchBlock
  | switchBlockStatementGroup
  | switchRule
  | switchLabel
  | pattern
  | typePattern
  | recordPattern
  | recordPatternBody
  | recordPatternComponent
  | underscorePattern
  | guard
  | statement
  | block
  | expressionStatement
  | labeledStatement
  | assertStatement
  | doStatement
  | breakStatement
  | continueStatement
  | returnStatement
  | yieldStatement
  | synchronizedStatement
  | throwStatement
  | tryStatement
  | catchClause
  | catchFormalParameter
  | catchType
  | finallyClause
  | tryWithResourcesStatement
  | resourceSpecification
  | resource
  | ifStatement
  | whileStatement
  | forStatement
  | enhancedForStatement
  | annotationPhrase
  | annotationMark
  | annotationCall
  | annotationArgumentList
  | elementValuePair
  | elementValue
  | elementValueArrayInitializer
  | declaration
  | moduleDeclaration
  | moduleBody
  | moduleDirective
  | requiresModuleDirective
  | requiresModifier
  | exportsModuleDirective
  | opensModuleDirective
  | usesModuleDirective
  | providesModuleDirective
  | packageDeclaration
  | importDeclaration
  | asterisk
  | enumDeclaration
  | enumBody
  | enumBodyDeclarations
  | enumConstant
  | classDeclaration
  | modifiers
  | typeParameters
  | typeParameter
  | typeBound
  | superclass
  | superInterfaces
  | typeList
  | permits
  | classBody
  | classBodyDeclaration
  | staticInitializer
  | constructorDeclaration
  | constructorDeclarator
  | constructorBody
  | explicitConstructorInvocation
  | name
  | scopedIdentifier
  | fieldDeclaration
  | recordDeclaration
  | annotationTypeDeclaration
  | annotationTypeBody
  | annotationTypeElementDeclaration
  | defaultValue
  | interfaceDeclaration
  | extendsInterfaces
  | interfaceBody
  | constantDeclaration
  | variableDeclaratorList
  | variableDeclarator
  | variableDeclaratorId
  | variableInitializer
  | arrayInitializer
  | anyType
  | unannotatedType
  | simpleType
  | annotatedType
  | scopedTypeIdentifier
  | genericType
  | arrayType
  | integralType
  | floatingPointType
  | booleanType
  | voidType
  | methodHeader
  | methodDeclarator
  | formalParameters
  | formalParameter
  | receiverParameter
  | spreadParameter
  | throws
  | localVariableDeclaration
  | methodDeclaration
  | compactConstructorDeclaration
  | reservedIdentifier
  | thisReference
  | superReference
  | identifier
  | typeIdentifier
  | lineComment
  | blockComment
  | toplevelStatements
  | quotedParts
  | textBlockParts
  | furtherBounds
  | furtherInferred
  | annotations
  | dimensionsExprs
  | furtherExpressions
  | furtherTypeArguments
  | bracketPairs
  | switchGroups
  | switchRules
  | switchLabels
  | statements
  | furtherPatterns
  | catchClauses
  | furtherCatchTypes
  | furtherResources
  | furtherElementPairs
  | furtherElementValues
  | moduleDirectives
  | requiresModifiers
  | furtherNames
  | furtherEnumConstants
  | classBodyDeclarations
  | modifierRun
  | furtherTypeParameters
  | furtherTypes
  | annotationTypeMembers
  | interfaceMembers
  | furtherDeclarators
  | furtherInitializers
  | furtherParameters
  | receiverNames
  deriving DecidableEq, Repr, Inhabited

namespace Kind

/-- The number of kinds. -/
def count : Nat := Kind.receiverNames.ctorIdx + 1

/-- Every kind, in order. -/
def all : List Kind := (List.range count).map Kind.ofNat

/-- A hidden phrase makes no node of its own: its parts belong to the phrase around it. All runs of
phrases, which the grammar lists last, are hidden. -/
def isHidden : Kind → Bool
  | toplevelStatement | literal | quotedString | textBlock | textBlockEscape | expression
  | primaryExpression | unqualifiedObjectCreation | wildcardBounds | statement | annotationPhrase
  | elementValue | declaration | moduleDirective | classBodyDeclaration | constructorDeclarator
  | name | defaultValue | variableDeclaratorList | variableDeclaratorId | variableInitializer
  | anyType | unannotatedType | simpleType | methodHeader | methodDeclarator
  | reservedIdentifier | toplevelStatements | quotedParts | textBlockParts | furtherBounds
  | furtherInferred | annotations | dimensionsExprs | furtherExpressions | furtherTypeArguments
  | bracketPairs | switchGroups | switchRules | switchLabels | statements | furtherPatterns
  | catchClauses | furtherCatchTypes | furtherResources | furtherElementPairs
  | furtherElementValues | moduleDirectives | requiresModifiers | furtherNames
  | furtherEnumConstants | classBodyDeclarations | modifierRun | furtherTypeParameters
  | furtherTypes | annotationTypeMembers | interfaceMembers | furtherDeclarators
  | furtherInitializers | furtherParameters | receiverNames => true
  | _ => false

/-- A spread phrase is written out wherever the grammar names it, so that the decision for one of
its forms is not taken before the text after it is seen. -/
def isSpread : Kind → Bool
  | name | simpleType | classBodyDeclaration | variableInitializer => true
  | _ => false

/-- Phrases that are a single keyword of their own. -/
def isKeyword : Kind → Bool
  | trueLiteral | falseLiteral | nullLiteral | booleanType | voidType | thisReference
  | superReference | underscorePattern => true
  | _ => false

end Kind

/-- The part that a phrase plays in the phrase around it. -/
inductive Role
  | type
  | name
  | dimensions
  | declarator
  | parameters
  | body
  deriving DecidableEq, Repr

end ClassDiagram.Grammar
