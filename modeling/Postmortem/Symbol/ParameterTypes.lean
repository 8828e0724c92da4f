import Postmortem.Symbol.Grammar

/-! # Parameter types

The name of a C++ function is followed by the types of its parameters. They are not shown, but a name
is only taken for one of C++ if they are well formed; so the grammar of types is needed whole, down
to the expressions that may stand in template arguments and array bounds.
-/

namespace Postmortem.Mangled

/-- What the grammar of types has names for. -/
inductive TypeRule where
  /-- A function with its parameter types, or a variable. -/
  | encoding
  | name
  | unscopedName
  | nestedName
  | scopes
  | unscopedTemplateName
  | localName
  | discriminator
  | unqualifiedName
  | abiTags
  | operatorName
  | simpleOperator
  | constructorName
  | sourceName
  | localSourceName
  | closureType
  | lambdaSignature
  | unnamedType
  | type
  | builtinType
  | standardBuiltinType
  | sizedBuiltinType
  | classOrEnumType
  | substitution
  | functionType
  | exceptionSpecification
  | parameterTypes
  | arrayType
  | vectorType
  | memberPointerType
  | templateParameter
  | templateTemplateParameter
  | decltype
  | qualifiers
  | referenceQualifier
  | templateArguments
  | templateArgument
  | primary
  | expression
  | bracedExpression
  | initializer
  | functionParameter
  | unresolvedName
  | unresolvedType
  | baseUnresolvedName
  | destructorName
  | simpleIdentifier
  deriving Repr, DecidableEq

namespace TypeRule

open Form

/-- The type of forms here. -/
abbrev F := Form TypeRule

/-- A form followed by others. -/
def after (text : String) (forms : List F) : F := inOrder (.text text :: forms)

/-- Something that is entered in the table of parts once it has been read. -/
def entered (a : F) : F := .both a (.enter .other)

/-- One of some texts. -/
def anyText (texts : List String) : F := firstOf (texts.map .text)

/-- The end of a bracket. -/
def close : F := .text "E"

/-- An underscore. -/
def underscore : F := .text "_"

/-- Operators with one operand, as far as they have no other meaning in an expression. -/
def unaryOperators : List String := ["ps", "ng", "ad", "de", "co", "nt", "pp", "mm"]

/-- Operators with two operands. -/
def binaryOperators : List String :=
  ["pl", "mi", "ml", "dv", "rm", "an", "or", "eo", "aS", "pL", "mI", "mL", "dV", "rM", "aN", "oR",
    "eO", "ls", "rs", "lS", "rS", "eq", "ne", "lt", "gt", "le", "ge", "aa", "oo", "cm", "pm", "pt",
    "cl", "ix", "ss"]

/-- The other operators. -/
def otherOperators : List String := ["nw", "na", "dl", "da", "qu"]

/-- Types that are written with two letters. -/
def longBuiltinTypes : List String :=
  ["Dd", "De", "Df", "Dh", "Di", "Ds", "Du", "Da", "Dc", "Dn"]

/-- At least one of the qualifiers of a type, in their order. -/
def someQualifiers : F :=
  .branch (.text "r") (.both (optional (.text "V")) (optional (.text "K")))
    (.branch (.text "V") (optional (.text "K")) (.text "K"))

/-- The first part of a scope. -/
def firstScope : F :=
  firstOf [
    .rule .substitution,
    .both (.rule .templateParameter) (.enterScope .other),
    .both (.rule .decltype) (.enterScope .other),
    .both (.rule .unqualifiedName) (.enterScope .other)]

/-- A further part of a scope. -/
def nextScope : F :=
  firstOf [
    .rule .substitution,
    .both (.rule .templateParameter) (.enterScope .other),
    .both (.rule .decltype) (.enterScope .other),
    .both (.rule .templateArguments) (.enterScope .withArguments),
    .both (.rule .sourceName)
      (.branch (.next 77) (.both (.enterScope .other) (.text "M"))
        (.both (.rule .abiTags) (.enterScope .scoped))),
    .both (.rule .unqualifiedName) (.enterScope .scoped)]

/-- What follows the word in an expression that makes new objects. -/
def newExpression : F :=
  inOrder [.many (.rule .expression), underscore, .rule .type,
    .branch close .nothing (.rule .initializer)]

/-- Expressions that are known by the letters they begin with. -/
def markedExpressions : List F := [
  after "pp_" [.rule .expression],
  after "mm_" [.rule .expression],
  after "cl" [.rule .expression, .many (.rule .expression), close],
  after "cv" [.rule .type,
    .branch underscore (.both (.many (.rule .expression)) close) (.rule .expression)],
  after "tl" [.rule .type, .many (.rule .bracedExpression), close],
  after "il" [.many (.rule .bracedExpression), close],
  after "dc" [.rule .type, .rule .expression],
  after "sc" [.rule .type, .rule .expression],
  after "cc" [.rule .type, .rule .expression],
  after "rc" [.rule .type, .rule .expression],
  after "ti" [.rule .type],
  after "te" [.rule .expression],
  after "st" [.rule .type],
  after "sz" [.rule .expression],
  after "at" [.rule .type],
  after "az" [.rule .expression],
  after "nx" [.rule .expression],
  after "dt" [.rule .expression, .rule .unresolvedName],
  after "pt" [.rule .expression, .rule .unresolvedName],
  after "ds" [.rule .expression, .rule .expression],
  after "sZ" [firstOf [.rule .templateParameter, .rule .functionParameter]],
  after "sP" [.many (.rule .templateArgument), close],
  after "sp" [.rule .expression],
  after "tw" [.rule .expression],
  .text "tr",
  after "fl" [.rule .operatorName, .rule .expression],
  after "fr" [.rule .operatorName, .rule .expression],
  after "fL" [.rule .operatorName, .rule .expression, .rule .expression],
  after "fR" [.rule .operatorName, .rule .expression, .rule .expression]]

/-- Expressions that may name something of the global scope. -/
def globalExpressions : List F := [
  after "nw" [newExpression],
  after "na" [newExpression],
  after "dl" [.rule .expression],
  after "da" [.rule .expression]]

/-- An operator with its operands. -/
def operations : List F := [
  .both (anyText unaryOperators) (.rule .expression),
  inOrder [anyText binaryOperators, .rule .expression, .rule .expression],
  inOrder [.text "qu", .rule .expression, .rule .expression, .rule .expression]]

/-- The grammar of types. -/
def form : TypeRule → F
  | .encoding => .both (.rule .name) (optional (.rule .parameterTypes))
  | .name =>
    .branch (.rule .nestedName) .nothing <|
    .branch (.rule .unscopedName)
      (.branch (.next 73) (.both (.enter .other) (.rule .templateArguments)) .nothing) <|
    .branch (.rule .unscopedTemplateName) (.rule .templateArguments) (.rule .localName)
  | .unscopedName => .both (optional (.text "St")) (.rule .unqualifiedName)
  | .nestedName =>
    after "N" [.rule .qualifiers, optional (.rule .referenceQualifier), .rule .scopes, close,
      .complete]
  | .scopes => .both firstScope (.many nextScope)
  | .unscopedTemplateName =>
    .branch (.rule .unscopedName) (.enter .other) (.rule .substitution)
  | .localName =>
    after "Z" [.rule .encoding, close,
      .branch (.text "s") (optional (.rule .discriminator)) <|
      .branch (.text "d") (inOrder [optional .number, underscore, .rule .name])
        (.both (.rule .name) (optional (.rule .discriminator)))]
  | .discriminator =>
    after "_" [.branch underscore (.both .number underscore) (.oneOf "0123456789")]
  | .unqualifiedName =>
    .branch (.rule .operatorName) (.rule .abiTags) <|
    .branch (.rule .constructorName) (.rule .abiTags) <|
    .branch (.text "DC") (.both (oneOrMore (.rule .sourceName)) close) <|
    .branch (.rule .sourceName) (.rule .abiTags) <|
    .branch (.rule .localSourceName) (.rule .abiTags) <|
    .branch (.rule .closureType) (.rule .abiTags)
      (.both (.rule .unnamedType) (.rule .abiTags))
  | .abiTags => .many (after "B" [.rule .sourceName])
  | .operatorName =>
    .branch (.rule .simpleOperator) .nothing <|
    .branch (.text "cv") (.rule .type) <|
    .branch (.text "li") (.rule .sourceName)
      (after "v" [.oneOf "0123456789", .rule .sourceName])
  | .simpleOperator => anyText (unaryOperators ++ binaryOperators ++ otherOperators)
  | .constructorName =>
    .branch (.text "C")
      (.branch (.text "I") (.both (.oneOf "12345") (.rule .type)) (.oneOf "12345"))
      (after "D" [.oneOf "01245"])
  | .sourceName => .identifier
  | .localSourceName => after "L" [.rule .sourceName, optional (.rule .discriminator)]
  | .closureType => after "Ul" [.rule .lambdaSignature, close, optional .number, underscore]
  | .lambdaSignature => .branch (.text "v") .nothing (oneOrMore (.rule .type))
  | .unnamedType => after "Ut" [optional .number, underscore]
  | .type =>
    .branch (.rule .builtinType) .nothing <|
    .branch (.rule .classOrEnumType) (.enter .other) <|
    .branch (.both (.rule .substitution) (.notNext 73)) .nothing <|
    .branch (.rule .functionType) (.enter .other) <|
    .branch (.rule .arrayType) (.enter .other) <|
    .branch (.rule .vectorType) (.enter .other) <|
    .branch (.rule .memberPointerType) (.enter .other) <|
    .branch (.both (.rule .templateParameter) (.notNext 73)) (.enter .other) <|
    .branch (.rule .templateTemplateParameter) (entered (.rule .templateArguments)) <|
    .branch (.rule .decltype) (.enter .other) <|
    .branch someQualifiers
      (.branch (.rule .builtinType) (.enter .other) (entered (.rule .type))) <|
    .branch (.oneOf "PROCG") (entered (.rule .type)) <|
    .branch (.text "U")
      (inOrder [.rule .sourceName, optional (.rule .templateArguments), entered (.rule .type)])
      (after "Dp" [entered (.rule .type)])
  | .builtinType =>
    .branch (.rule .standardBuiltinType) .nothing <|
    .branch (.rule .sizedBuiltinType) .nothing (after "u" [.rule .sourceName])
  | .standardBuiltinType => .branch (.oneOf "vwbcahstijlmxynofdegz") .nothing
      (anyText longBuiltinTypes)
  | .sizedBuiltinType =>
    after "D" [
      .branch (.text "F") (.both .number (.oneOf "_x"))
        (inOrder [.oneOf "BU", .branch .number .nothing (.rule .expression), underscore])]
  | .classOrEnumType =>
    .branch (.rule .name) .nothing (after "T" [.oneOf "sue", .rule .name])
  | .substitution => .reference
  | .functionType =>
    inOrder [.rule .qualifiers, optional (.rule .exceptionSpecification), optional (.text "Dx"),
      .text "F", optional (.text "Y"), .rule .parameterTypes,
      optional (.rule .referenceQualifier), close]
  | .exceptionSpecification =>
    .branch (.text "Do") .nothing (after "DO" [.rule .expression, close])
  | .parameterTypes => oneOrMore (.rule .type)
  | .arrayType =>
    after "A" [
      .branch .number (.both underscore (.rule .type))
        (inOrder [optional (.rule .expression), underscore, .rule .type])]
  | .vectorType =>
    after "Dv" [.branch .number .nothing (.rule .expression), underscore, .rule .type]
  | .memberPointerType => after "M" [.rule .type, .rule .type]
  | .templateParameter => after "T" [optional .number, underscore]
  | .templateTemplateParameter =>
    .branch (.rule .substitution) .nothing (entered (.rule .templateParameter))
  | .decltype => after "D" [.oneOf "tT", .rule .expression, close]
  | .qualifiers => optional someQualifiers
  | .referenceQualifier => .oneOf "RO"
  | .templateArguments => after "I" [oneOrMore (.rule .templateArgument), close]
  | .templateArgument =>
    .branch (.text "X") (.both (.rule .expression) close) <|
    .branch (.rule .primary) .nothing <|
    .branch (.rule .type) .nothing
      (inOrder [.oneOf "JI", .many (.rule .templateArgument), close])
  | .primary =>
    after "L" [
      .branch (.rule .type) (.both (.before 69) close)
        (inOrder [optional underscore, .text "Z", .rule .encoding, close])]
  | .expression =>
    firstOf (markedExpressions
      ++ [.both (optional (.text "gs")) (firstOf globalExpressions)]
      ++ [.rule .templateParameter, .rule .functionParameter, .rule .unresolvedName,
        .rule .primary]
      ++ operations)
  | .bracedExpression =>
    .branch (.text "di") (.both (.rule .sourceName) (.rule .bracedExpression)) <|
    .branch (.text "dx") (.both (.rule .expression) (.rule .bracedExpression)) <|
    .branch (.text "dX")
      (inOrder [.rule .expression, .rule .expression, .rule .bracedExpression])
      (.rule .expression)
  | .initializer => after "pi" [.many (.rule .expression), close]
  | .functionParameter =>
    after "f" [optional (after "L" [.number]), .text "p",
      .branch (.text "T") .nothing
        (inOrder [.rule .qualifiers, optional .number, underscore])]
  | .unresolvedName =>
    .branch (.text "srN")
      (inOrder [.rule .unresolvedType, oneOrMore (.rule .simpleIdentifier), close,
        .rule .baseUnresolvedName]) <|
    .both (optional (.text "gs")) <|
      .branch (.text "sr")
        (.branch (.rule .unresolvedType) (.rule .baseUnresolvedName)
          (inOrder [oneOrMore (.rule .simpleIdentifier), close, .rule .baseUnresolvedName]))
        (.rule .baseUnresolvedName)
  | .unresolvedType =>
    .branch (.rule .templateParameter) (.enter .other) <|
    .branch (.rule .decltype) (.enter .other) (.rule .substitution)
  | .baseUnresolvedName =>
    .branch (.rule .simpleIdentifier) .nothing <|
    .branch (.text "on")
      (.both (.rule .operatorName) (optional (.rule .templateArguments)))
      (after "dn" [.rule .destructorName])
  | .destructorName => .branch (.rule .unresolvedType) .nothing (.rule .simpleIdentifier)
  | .simpleIdentifier =>
    .both (.rule .sourceName) (optional (.rule .templateArguments))

end TypeRule

end Postmortem.Mangled
