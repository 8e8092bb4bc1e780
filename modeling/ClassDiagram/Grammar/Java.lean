/-
The grammar of Java sources. It is generous: a source is a list of statements in which
declarations of every kind may stand, any modifier may stand on any declaration, and a type may be
primitive wherever a type is asked for.
-/
import ClassDiagram.Grammar.Rule

namespace ClassDiagram.Grammar

open Rule

/-! ## Shorthands -/

private def ident : Rule := sub .identifier

/-- An identifier that stands for a type. -/
private def typeIdent : Rule := .shownAs .typeIdentifier ident

/-- An identifier, or a keyword that may serve as one. -/
private def anyIdent : Rule := any [ident, sub .reservedIdentifier]

private def annotations : Rule := maybe .annotations

private def maybeModifiers : Rule := opt (sub .modifiers)

private def braced (r : Rule) : Rule := all [word .openBrace, r, word .closeBrace]

private def parens (r : Rule) : Rule := all [word .openParen, r, word .closeParen]

private def ofType (k : Kind) : Rule := .role .type (sub k)

private def inBody (k : Kind) : Rule := .role .body (sub k)

/-- Expressions with commas between them, or nothing. -/
private def expressions : Rule := opt (andFurther (sub .expression) .furtherExpressions)

/-- Types with commas between them. -/
private def types : Rule := andFurther (sub .anyType) .furtherTypes

private def typeArgument : Rule := any [sub .anyType, sub .wildcard]

private def patternComponent : Rule := any [sub .recordPatternComponent, sub .recordPattern]

private def declarator : Rule := .role .declarator (sub .variableDeclarator)

private def parameter : Rule := any [sub .formalParameter, sub .spreadParameter]

/-- A rule of a single alternative without precedence. -/
private def plain (r : Rule) : List Alternative := [{ body := r }]

private def parts (rs : List Rule) : List Alternative := plain (all rs)

/-- Plain alternatives, one per phrase. -/
private def oneOf (ks : List Kind) : List Alternative := plain (any (ks.map sub))

/-- Items of a run without separators. -/
private def itemsOf (self : Kind) (item : Rule) : List Alternative := plain (run self item)

/-- Items of a run with the separator in front of each. -/
private def furtherOf (self : Kind) (separator : Word) (item : Rule) : List Alternative :=
  plain (run self (.seq (word separator) item))

/-! ## Precedence -/

/-- The two-place operators with the level at which each of them binds. -/
def binaryOperators : List (Word × Int) :=
  [(.greater, 10), (.less, 10), (.greaterEqual, 10), (.lessEqual, 10), (.equal, 9), (.notEqual, 9),
   (.andAnd, 5), (.orOr, 4), (.plus, 12), (.minus, 12), (.star, 13), (.slash, 13),
   (.ampersand, 8), (.bar, 6), (.caret, 7), (.percent, 13), (.shiftLeft, 11), (.shiftRight, 11),
   (.unsignedShiftRight, 11)]

/-- The one-place operators, all of which bind alike. -/
def unaryOperators : List Word := [.plus, .minus, .bang, .tilde]

def assignmentOperators : List Word :=
  [.assign, .plusAssign, .minusAssign, .timesAssign, .divideAssign, .andAssign, .orAssign,
   .xorAssign, .remainderAssign, .shiftLeftAssign, .shiftRightAssign, .unsignedShiftRightAssign]

def modifierWords : List Word :=
  [.publicWord, .protectedWord, .privateWord, .abstractWord, .staticWord, .finalWord,
   .strictfpWord, .defaultWord, .synchronizedWord, .nativeWord, .transientWord, .volatileWord,
   .sealedWord, .nonSealedWord]

/-! ## The rules -/

/-- The alternatives of each phrase. A class of spellings has none. -/
def alternatives : Kind → List Alternative
  | .program => plain (maybe .toplevelStatements)
  | .toplevelStatement => oneOf [.statement, .methodDeclaration]
  -- literals
  | .literal => oneOf [.decimalIntegerLiteral, .hexIntegerLiteral, .octalIntegerLiteral,
      .binaryIntegerLiteral, .decimalFloatingPointLiteral, .hexFloatingPointLiteral, .trueLiteral,
      .falseLiteral, .characterLiteral, .stringLiteral, .nullLiteral]
  | .trueLiteral => plain (word .trueWord)
  | .falseLiteral => plain (word .falseWord)
  | .nullLiteral => plain (word .nullWord)
  | .stringLiteral => oneOf [.quotedString, .textBlock]
  | .quotedString => parts [word .quote, maybe .quotedParts, word .quote]
  | .textBlock => parts [word .tripleQuote, maybe .textBlockParts, word .tripleQuote]
  | .stringInterpolation => parts [word .openInterpolation, sub .expression, word .closeBrace]
  | .textBlockEscape => [
      { body := sub .plainEscape, level := 2 },
      { body := sub .escapeSequence, level := 1 }]
  -- expressions
  | .expression => oneOf [.assignmentExpression, .binaryExpression, .instanceofExpression,
      .lambdaExpression, .ternaryExpression, .updateExpression, .primaryExpression,
      .unaryExpression, .castExpression, .switchExpression]
  | .castExpression => [
      { body := all [parens (sub .anyType), sub .expression], level := 14 },
      { body := all [parens (andFurther (sub .anyType) .furtherBounds),
          any [sub .primaryExpression, sub .lambdaExpression]], level := 14 }]
  | .assignmentExpression => [
      { body := all [any [ident, sub .reservedIdentifier, sub .fieldAccess,
          sub .arrayAccess], anyWord assignmentOperators, sub .expression],
        level := 1, side := some .right }]
  | .binaryExpression => binaryOperators.map fun (operator, level) =>
      { body := all [sub .expression, word operator, sub .expression],
        level, side := some .left }
  | .instanceofExpression => [
      { body := all [sub .expression, word .instanceofWord, opt (word .finalWord),
          any [all [sub .anyType, opt anyIdent], sub .recordPattern]], level := 10 }]
  | .lambdaExpression => parts [
      any [ident, sub .formalParameters, sub .inferredParameters,
        sub .reservedIdentifier],
      word .arrow, any [sub .expression, sub .block]]
  | .inferredParameters => plain (parens (andFurther anyIdent .furtherInferred))
  | .ternaryExpression => [
      { body := all [sub .expression, word .question, sub .expression, word .colon,
          sub .expression], level := 3, side := some .right }]
  | .unaryExpression => unaryOperators.map fun operator =>
      { body := all [word operator, sub .expression], level := 15, side := some .left }
  | .updateExpression =>
      [all [sub .expression, word .plusPlus], all [sub .expression, word .minusMinus],
       all [word .plusPlus, sub .expression], all [word .minusMinus, sub .expression]].map
        fun body => { body, level := 15, side := some .left }
  | .primaryExpression => plain (any [sub .literal, sub .classLiteral,
      sub .thisReference, ident, sub .reservedIdentifier,
      sub .parenthesizedExpression, sub .objectCreationExpression, sub .fieldAccess,
      sub .arrayAccess, sub .methodInvocation, sub .methodReference,
      sub .arrayCreationExpression, sub .templateExpression])
  | .arrayCreationExpression => [
      { body := all [word .newWord, annotations, sub .simpleType,
          any [all [sub .dimensionsExprs, opt (sub .dimensions)],
            all [sub .dimensions, sub .arrayInitializer]]],
        side := some .right }]
  | .dimensionsExpr => parts [annotations, word .openBracket, sub .expression, word .closeBracket]
  | .parenthesizedExpression => plain (parens (sub .expression))
  | .classLiteral => [
      { body := all [sub .unannotatedType, word .dot, word .classWord], weight := 17 }]
  | .objectCreationExpression => plain (any [sub .unqualifiedObjectCreation,
      all [sub .primaryExpression, word .dot, sub .unqualifiedObjectCreation]])
  | .unqualifiedObjectCreation => [
      { body := all [word .newWord,
          any [all [annotations, sub .typeArguments, annotations], annotations],
          sub .simpleType, sub .argumentList, opt (sub .classBody)],
        side := some .right }]
  | .fieldAccess => parts [any [sub .primaryExpression, sub .superReference],
      opt (all [word .dot, sub .superReference]), word .dot,
      any [ident, sub .reservedIdentifier, sub .thisReference]]
  | .templateExpression => parts [sub .primaryExpression, word .dot, sub .stringLiteral]
  | .arrayAccess => parts [sub .primaryExpression, word .openBracket, sub .expression,
      word .closeBracket]
  | .methodInvocation => parts [
      any [anyIdent,
        all [any [sub .primaryExpression, sub .superReference], word .dot,
          opt (all [sub .superReference, word .dot]), opt (sub .typeArguments), anyIdent]],
      sub .argumentList]
  | .argumentList => plain (parens expressions)
  | .methodReference => parts [
      any [sub .anyType, sub .primaryExpression, sub .superReference], word .colonColon,
      opt (sub .typeArguments), any [word .newWord, ident]]
  | .typeArguments => parts [word .less, opt (andFurther typeArgument .furtherTypeArguments),
      word .greater]
  | .wildcard => parts [annotations, word .question, opt (sub .wildcardBounds)]
  | .wildcardBounds => plain (any [all [word .extendsWord, sub .anyType],
      all [sub .superReference, sub .anyType]])
  | .dimensions => [
      { body := sub .bracketPairs, side := some .right }]
  | .switchExpression => parts [word .switchWord, sub .parenthesizedExpression,
      sub .switchBlock]
  | .switchBlock => plain (braced
      (any [maybe .switchGroups, sub .switchRules]))
  | .switchBlockStatementGroup => [
      { body := all [sub .switchLabels, maybe .statements],
        side := some .left }]
  | .switchRule => parts [sub .switchLabel, word .arrow,
      any [sub .expressionStatement, sub .throwStatement, sub .block]]
  | .switchLabel => plain (any [
      all [word .caseWord, any [sub .pattern, andFurther (sub .expression) .furtherExpressions],
        opt (sub .guard)],
      word .defaultWord])
  | .pattern => oneOf [.typePattern, .recordPattern]
  | .typePattern => parts [sub .unannotatedType, anyIdent]
  | .recordPattern => parts [any [ident, sub .reservedIdentifier, sub .genericType],
      sub .recordPatternBody]
  | .recordPatternBody => plain (parens
      (opt (andFurther patternComponent .furtherPatterns)))
  | .recordPatternComponent => plain (any [sub .underscorePattern,
      all [sub .unannotatedType, anyIdent]])
  | .underscorePattern => plain (word .underscore)
  | .guard => parts [word .whenWord, sub .expression]
  -- statements
  | .statement => plain (any [sub .declaration, sub .expressionStatement,
      sub .labeledStatement, sub .ifStatement, sub .whileStatement,
      sub .forStatement, sub .enhancedForStatement, sub .block, word .semicolon,
      sub .assertStatement, sub .doStatement, sub .breakStatement,
      sub .continueStatement, sub .returnStatement, sub .yieldStatement,
      sub .switchExpression, sub .synchronizedStatement,
      sub .localVariableDeclaration, sub .throwStatement, sub .tryStatement,
      sub .tryWithResourcesStatement])
  | .block => plain (braced (maybe .statements))
  | .expressionStatement => parts [sub .expression, word .semicolon]
  | .labeledStatement => parts [ident, word .colon, sub .statement]
  | .assertStatement => plain (any [
      all [word .assertWord, sub .expression, word .semicolon],
      all [word .assertWord, sub .expression, word .colon, sub .expression, word .semicolon]])
  | .doStatement => parts [word .doWord, sub .statement, word .whileWord,
      sub .parenthesizedExpression, word .semicolon]
  | .breakStatement => parts [word .breakWord, opt ident, word .semicolon]
  | .continueStatement => parts [word .continueWord, opt ident, word .semicolon]
  | .returnStatement => parts [word .returnWord, opt (sub .expression), word .semicolon]
  | .yieldStatement => parts [word .yieldWord, sub .expression, word .semicolon]
  | .synchronizedStatement => parts [word .synchronizedWord, sub .parenthesizedExpression,
      sub .block]
  | .throwStatement => parts [word .throwWord, sub .expression, word .semicolon]
  | .tryStatement => parts [word .tryWord, sub .block,
      any [sub .catchClauses,
        all [maybe .catchClauses, sub .finallyClause]]]
  | .catchClause => parts [word .catchWord, parens (sub .catchFormalParameter), sub .block]
  | .catchFormalParameter => parts [maybeModifiers, sub .catchType,
      sub .variableDeclaratorId]
  | .catchType => plain (andFurther (sub .unannotatedType) .furtherCatchTypes)
  | .finallyClause => parts [word .finallyWord, sub .block]
  | .tryWithResourcesStatement => parts [word .tryWord, sub .resourceSpecification,
      sub .block, maybe .catchClauses, opt (sub .finallyClause)]
  | .resourceSpecification => plain (parens
      (all [andFurther (sub .resource) .furtherResources, opt (word .semicolon)]))
  | .resource => plain (any [
      all [maybeModifiers, sub .unannotatedType, sub .variableDeclaratorId, word .assign,
        sub .expression],
      ident, sub .fieldAccess])
  | .ifStatement => [
      { body := all [word .ifWord, sub .parenthesizedExpression, sub .statement,
          opt (all [word .elseWord, sub .statement])], side := some .right }]
  | .whileStatement => parts [word .whileWord, sub .parenthesizedExpression, sub .statement]
  | .forStatement => parts [word .forWord,
      parens (all [
        any [sub .localVariableDeclaration, all [expressions, word .semicolon]],
        opt (sub .expression), word .semicolon, expressions]),
      sub .statement]
  | .enhancedForStatement => parts [word .forWord,
      parens (all [maybeModifiers, sub .unannotatedType, sub .variableDeclaratorId,
        word .colon, sub .expression]),
      sub .statement]
  -- annotations
  | .annotationPhrase => oneOf [.annotationMark, .annotationCall]
  | .annotationMark => parts [word .atSign, sub .name]
  | .annotationCall => parts [word .atSign, sub .name, sub .annotationArgumentList]
  | .annotationArgumentList => plain (parens
      (any [sub .elementValue, opt (andFurther (sub .elementValuePair) .furtherElementPairs)]))
  | .elementValuePair => parts [anyIdent, word .assign, sub .elementValue]
  | .elementValue => [
      { body := any [sub .expression, sub .elementValueArrayInitializer,
          sub .annotationPhrase], level := 2 }]
  | .elementValueArrayInitializer => plain (braced
      (all [opt (andFurther (sub .elementValue) .furtherElementValues), opt (word .comma)]))
  -- declarations
  | .declaration => [
      { body := any [sub .moduleDeclaration, sub .packageDeclaration,
          sub .importDeclaration, sub .classDeclaration, sub .recordDeclaration,
          sub .interfaceDeclaration, sub .annotationTypeDeclaration,
          sub .enumDeclaration], level := 2 }]
  | .moduleDeclaration => parts [annotations, opt (word .openWord), word .moduleWord, sub .name,
      sub .moduleBody]
  | .moduleBody => plain (braced (maybe .moduleDirectives))
  | .moduleDirective => oneOf [.requiresModuleDirective, .exportsModuleDirective,
      .opensModuleDirective, .usesModuleDirective, .providesModuleDirective]
  | .requiresModuleDirective => parts [word .requiresWord, maybe .requiresModifiers,
      sub .name, word .semicolon]
  | .requiresModifier => plain (anyWord [.transitiveWord, .staticWord])
  | .exportsModuleDirective => parts [word .exportsWord, sub .name,
      opt (all [word .toWord, sub .name, maybe .furtherNames]), word .semicolon]
  | .opensModuleDirective => parts [word .opensWord, sub .name,
      opt (all [word .toWord, sub .name, maybe .furtherNames]), word .semicolon]
  | .usesModuleDirective => parts [word .usesWord, sub .name, word .semicolon]
  | .providesModuleDirective => parts [word .providesWord, sub .name, word .withWord,
      sub .name, maybe .furtherNames, word .semicolon]
  | .packageDeclaration => parts [annotations, word .packageWord, sub .name, word .semicolon]
  | .importDeclaration => parts [word .importWord, opt (word .staticWord), sub .name,
      opt (all [word .dot, sub .asterisk]), word .semicolon]
  | .asterisk => plain (word .star)
  | .enumDeclaration => parts [maybeModifiers, word .enumWord, .role .name ident,
      opt (sub .superInterfaces), inBody .enumBody]
  | .enumBody => plain (braced (all [
      opt (andFurther (sub .enumConstant) .furtherEnumConstants), opt (word .comma),
      opt (sub .enumBodyDeclarations)]))
  | .enumBodyDeclarations => parts [word .semicolon, maybe .classBodyDeclarations]
  | .enumConstant => parts [maybeModifiers, .role .name ident, opt (sub .argumentList),
      opt (inBody .classBody)]
  | .classDeclaration => parts [maybeModifiers, word .classWord, .role .name ident,
      opt (sub .typeParameters), opt (sub .superclass), opt (sub .superInterfaces),
      opt (sub .permits), inBody .classBody]
  | .modifiers => plain (sub .modifierRun)
  | .typeParameters => parts [word .less,
      andFurther (sub .typeParameter) .furtherTypeParameters, word .greater]
  | .typeParameter => parts [annotations, typeIdent, opt (sub .typeBound)]
  | .typeBound => parts [word .extendsWord, sub .anyType,
      maybe .furtherBounds]
  | .superclass => parts [word .extendsWord, sub .anyType]
  | .superInterfaces => parts [word .implementsWord, sub .typeList]
  | .typeList => plain types
  | .permits => parts [word .permitsWord, sub .typeList]
  | .classBody => plain (braced (maybe .classBodyDeclarations))
  | .classBodyDeclaration => plain (any [sub .fieldDeclaration, sub .recordDeclaration,
      sub .methodDeclaration, sub .compactConstructorDeclaration,
      sub .classDeclaration, sub .interfaceDeclaration,
      sub .annotationTypeDeclaration, sub .enumDeclaration, sub .block,
      sub .staticInitializer, sub .constructorDeclaration, word .semicolon])
  | .staticInitializer => parts [word .staticWord, sub .block]
  | .constructorDeclaration => parts [maybeModifiers, sub .constructorDeclarator,
      opt (sub .throws), inBody .constructorBody]
  | .constructorDeclarator => parts [opt (sub .typeParameters), .role .name ident,
      .role .parameters (sub .formalParameters)]
  | .constructorBody => plain (braced
      (all [opt (sub .explicitConstructorInvocation), maybe .statements]))
  | .explicitConstructorInvocation => parts [
      any [all [opt (sub .typeArguments),
          any [sub .thisReference, sub .superReference]],
        all [sub .primaryExpression, word .dot, opt (sub .typeArguments),
          sub .superReference]],
      sub .argumentList, word .semicolon]
  | .name => plain (any [ident, sub .reservedIdentifier, sub .scopedIdentifier])
  | .scopedIdentifier => parts [sub .name, word .dot, .role .name ident]
  | .fieldDeclaration => parts [maybeModifiers, ofType .unannotatedType,
      sub .variableDeclaratorList, word .semicolon]
  | .recordDeclaration => parts [maybeModifiers, word .recordWord, .role .name ident,
      opt (sub .typeParameters), .role .parameters (sub .formalParameters),
      opt (sub .superInterfaces), inBody .classBody]
  | .annotationTypeDeclaration => parts [maybeModifiers, word .atInterface, .role .name ident,
      inBody .annotationTypeBody]
  | .annotationTypeBody => plain (braced (maybe .annotationTypeMembers))
  | .annotationTypeElementDeclaration => parts [maybeModifiers, ofType .unannotatedType,
      .role .name anyIdent, word .openParen, word .closeParen,
      opt (.role .dimensions (sub .dimensions)), opt (sub .defaultValue), word .semicolon]
  | .defaultValue => parts [word .defaultWord, sub .elementValue]
  | .interfaceDeclaration => parts [maybeModifiers, word .interfaceWord, .role .name ident,
      opt (sub .typeParameters), opt (sub .extendsInterfaces), opt (sub .permits),
      inBody .interfaceBody]
  | .extendsInterfaces => parts [word .extendsWord, sub .typeList]
  | .interfaceBody => plain (braced (maybe .interfaceMembers))
  | .constantDeclaration => parts [maybeModifiers, ofType .unannotatedType,
      sub .variableDeclaratorList, word .semicolon]
  | .variableDeclaratorList => plain (andFurther declarator .furtherDeclarators)
  | .variableDeclarator => parts [sub .variableDeclaratorId,
      opt (all [word .assign, sub .variableInitializer])]
  | .variableDeclaratorId => parts [
      .role .name (any [ident, sub .reservedIdentifier, sub .underscorePattern]),
      opt (.role .dimensions (sub .dimensions))]
  | .variableInitializer => oneOf [.expression, .arrayInitializer]
  | .arrayInitializer => plain (braced
      (all [opt (andFurther (sub .variableInitializer) .furtherInitializers), opt (word .comma)]))
  -- types
  | .anyType => oneOf [.unannotatedType, .annotatedType]
  | .unannotatedType => oneOf [.simpleType, .arrayType]
  | .simpleType => plain (any [sub .voidType, sub .integralType,
      sub .floatingPointType, sub .booleanType, typeIdent,
      sub .scopedTypeIdentifier, sub .genericType])
  | .annotatedType => parts [sub .annotations, sub .unannotatedType]
  | .scopedTypeIdentifier => parts [
      any [typeIdent, sub .scopedTypeIdentifier, sub .genericType], word .dot,
      annotations, typeIdent]
  | .genericType => [
      { body := all [any [typeIdent, sub .scopedTypeIdentifier], sub .typeArguments],
        weight := 10 }]
  | .arrayType => parts [sub .unannotatedType, .role .dimensions (sub .dimensions)]
  | .integralType => plain (anyWord [.byteWord, .shortWord, .intWord, .longWord, .charWord])
  | .floatingPointType => plain (anyWord [.floatWord, .doubleWord])
  | .booleanType => plain (word .booleanWord)
  | .voidType => plain (word .voidWord)
  -- methods
  | .methodHeader => parts [opt (all [sub .typeParameters, annotations]),
      ofType .unannotatedType, sub .methodDeclarator, opt (sub .throws)]
  | .methodDeclarator => parts [.role .name anyIdent,
      .role .parameters (sub .formalParameters),
      opt (.role .dimensions (sub .dimensions))]
  | .formalParameters => plain (parens (any [sub .receiverParameter,
      all [opt (all [sub .receiverParameter, word .comma]),
        opt (andFurther parameter .furtherParameters)]]))
  | .formalParameter => parts [maybeModifiers, ofType .unannotatedType,
      sub .variableDeclaratorId]
  | .receiverParameter => parts [annotations, sub .unannotatedType,
      maybe .receiverNames, sub .thisReference]
  | .spreadParameter => parts [maybeModifiers, sub .unannotatedType, word .ellipsis,
      annotations, sub .variableDeclarator]
  | .throws => parts [word .throwsWord, types]
  | .localVariableDeclaration => parts [maybeModifiers, ofType .unannotatedType,
      sub .variableDeclaratorList, word .semicolon]
  | .methodDeclaration => parts [maybeModifiers, sub .methodHeader,
      any [inBody .block, word .semicolon]]
  | .compactConstructorDeclaration => parts [maybeModifiers, .role .name ident, inBody .block]
  | .reservedIdentifier => [
      { body := .shownAs .identifier
          (anyWord [.openWord, .moduleWord, .recordWord, .withWord, .sealedWord]),
        level := -3 },
      { body := .shownAs .identifier (word .yieldWord) }]
  | .thisReference => plain (word .thisWord)
  | .superReference => plain (word .superWord)
  -- runs
  | .toplevelStatements => itemsOf .toplevelStatements (sub .toplevelStatement)
  | .quotedParts => itemsOf .quotedParts
      (any [sub .stringFragment, sub .escapeSequence, sub .stringInterpolation])
  | .textBlockParts => itemsOf .textBlockParts
      (any [sub .textBlockFragment, sub .textBlockEscape, sub .stringInterpolation])
  | .annotations => itemsOf .annotations (sub .annotationPhrase)
  | .dimensionsExprs => itemsOf .dimensionsExprs (sub .dimensionsExpr)
  | .bracketPairs => itemsOf .bracketPairs
      (all [annotations, word .openBracket, word .closeBracket])
  | .switchGroups => itemsOf .switchGroups (sub .switchBlockStatementGroup)
  | .switchRules => itemsOf .switchRules (sub .switchRule)
  | .switchLabels => itemsOf .switchLabels (all [sub .switchLabel, word .colon])
  | .statements => itemsOf .statements (sub .statement)
  | .catchClauses => itemsOf .catchClauses (sub .catchClause)
  | .moduleDirectives => itemsOf .moduleDirectives (sub .moduleDirective)
  | .requiresModifiers => itemsOf .requiresModifiers (sub .requiresModifier)
  | .classBodyDeclarations => itemsOf .classBodyDeclarations (sub .classBodyDeclaration)
  | .modifierRun => itemsOf .modifierRun (any (sub .annotationPhrase :: modifierWords.map word))
  | .annotationTypeMembers => itemsOf .annotationTypeMembers (any [
      sub .annotationTypeElementDeclaration, sub .constantDeclaration, sub .classDeclaration,
      sub .interfaceDeclaration, sub .enumDeclaration, sub .annotationTypeDeclaration,
      word .semicolon])
  | .interfaceMembers => itemsOf .interfaceMembers (any [sub .constantDeclaration,
      sub .enumDeclaration, sub .methodDeclaration, sub .classDeclaration,
      sub .interfaceDeclaration, sub .recordDeclaration, sub .annotationTypeDeclaration,
      word .semicolon])
  | .receiverNames => itemsOf .receiverNames (all [ident, word .dot])
  | .furtherBounds => furtherOf .furtherBounds .ampersand (sub .anyType)
  | .furtherInferred => furtherOf .furtherInferred .comma anyIdent
  | .furtherExpressions => furtherOf .furtherExpressions .comma (sub .expression)
  | .furtherTypeArguments => furtherOf .furtherTypeArguments .comma typeArgument
  | .furtherPatterns => furtherOf .furtherPatterns .comma patternComponent
  | .furtherCatchTypes => furtherOf .furtherCatchTypes .bar (sub .unannotatedType)
  | .furtherResources => furtherOf .furtherResources .semicolon (sub .resource)
  | .furtherElementPairs => furtherOf .furtherElementPairs .comma (sub .elementValuePair)
  | .furtherElementValues => furtherOf .furtherElementValues .comma (sub .elementValue)
  | .furtherNames => furtherOf .furtherNames .comma (sub .name)
  | .furtherEnumConstants => furtherOf .furtherEnumConstants .comma (sub .enumConstant)
  | .furtherTypeParameters => furtherOf .furtherTypeParameters .comma (sub .typeParameter)
  | .furtherTypes => furtherOf .furtherTypes .comma (sub .anyType)
  | .furtherDeclarators => furtherOf .furtherDeclarators .comma declarator
  | .furtherInitializers => furtherOf .furtherInitializers .comma (sub .variableInitializer)
  | .furtherParameters => furtherOf .furtherParameters .comma parameter
  -- words with a class of spellings
  | .decimalIntegerLiteral | .hexIntegerLiteral | .octalIntegerLiteral | .binaryIntegerLiteral
  | .decimalFloatingPointLiteral | .hexFloatingPointLiteral | .characterLiteral
  | .stringFragment | .textBlockFragment | .plainEscape | .escapeSequence | .identifier
  | .typeIdentifier | .lineComment | .blockComment => []

end ClassDiagram.Grammar
