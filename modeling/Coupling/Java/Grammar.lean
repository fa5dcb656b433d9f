import Coupling.Java.Token

/-!
# The grammar of Java source files

The grammar is a table: each rule has a pattern over tokens, and a small recognizer runs patterns. A pattern decides by
looking a few tokens ahead, and then stays with its decision; only where the tokens ahead cannot tell does it try one
way and then another. The table covers the language up to its eighth edition, so newer forms are not recognized.
-/

namespace Coupling.Java

/-- A kind of token. -/
inductive Terminal where
  /-- One of some keywords and symbols. -/
  | oneOf (texts : List String)
  /-- Any token but a given keyword or symbol. -/
  | except (text : String)
  /-- An identifier. -/
  | identifier
  /-- A literal. -/
  | literal
  /-- The word for a basic type. -/
  | basicType
  /-- A word that may stand before a declaration. -/
  | modifier

/-- Whether a token is of a kind. -/
def Terminal.accepts : Terminal → Token → Bool
  | .oneOf texts, .keyword t => texts.contains t
  | .oneOf texts, .symbol t => texts.contains t
  | .except text, .keyword t => t ≠ text
  | .except text, .symbol t => t ≠ text
  | .except _, _ => true
  | .identifier, .identifier _ => true
  | .literal, .literal => true
  | .basicType, .keyword t => basicTypes.contains t
  | .modifier, .keyword t => modifiers.contains t
  | _, _ => false

/-- Whether tokens begin with tokens of given kinds. -/
def beginsWith : List Terminal → List Token → Bool
  | [], _ => true
  | k :: ks, t :: ts => k.accepts t && beginsWith ks ts
  | _ :: _, [] => false

/-- A question about the tokens ahead: whether they begin in one of some ways, or in none of them. -/
structure Look where
  /-- The ways to begin. -/
  options : List (List Terminal)
  /-- Whether one of them is wanted. -/
  wanted : Bool := true

/-- The answer for some tokens. -/
def Look.holds (l : Look) (ts : List Token) : Bool := (l.options.any fun o => beginsWith o ts) == l.wanted

/-- The rules of the grammar. -/
inductive Rule where
  | qualifiedName | importDeclaration | importRest
  | annotationUse | annotationArguments | elementPair | elementValue | elementArray
  | type | dimensions | referenceType | typeArguments | typeArgument | typeBound | typeList | strictTypeArguments
  | typeArgumentsOrDiamond | typeParameters | typeParameter
  | typeDeclaration | modifiers | bareDeclaration | classDeclaration | enumDeclaration | interfaceDeclaration
  | annotationDeclaration
  | classBody | classMember | member | genericMember | methodRest | constructorRest | fieldRest
  | interfaceBody | interfaceMember | constantsRest | constantRest
  | enumBody | enumConstants | enumConstant | annotationBody | annotationMember
  | variableDeclarator | variableRest | variableInitializer | arrayInitializer | formalParameters | parameters
  | variableModifiers
  | block | blockStatement | localVariable | statement | tryRest | catchClause | resources | resource
  | switchGroup | switchLabel | forControl | forVariable | forRest
  | expression | conditional | methodReference | operation | unary | lambda | lambdaBody | cast | postfixed | primary
  | genericSuffix | superSuffix | identifierSuffix | innerCreator | creator | createdName | arrayCreatorRest | selector
  | arguments | inParentheses

/-- A pattern over tokens. -/
inductive Pattern where
  /-- No tokens. -/
  | empty
  /-- One token of a kind. -/
  | token (kind : Terminal)
  /-- What a rule says. -/
  | rule (r : Rule)
  /-- One pattern after another. -/
  | seq (p q : Pattern)
  /-- One pattern or the other, as the tokens ahead say. -/
  | branch (look : Look) (p q : Pattern)
  /-- The first pattern if it fits, and the second if it does not. -/
  | either (p q : Pattern)
  /-- A pattern again and again, as long as the tokens ahead say so. -/
  | loop (look : Look) (p : Pattern)

/-- What follows the tokens that a pattern takes from the front, in at most a number of steps; nothing if it does not
fit. -/
def Pattern.run (grammar : Rule → Pattern) : Nat → Pattern → List Token → Option (List Token)
  | 0, _, _ => none
  | _ + 1, .empty, ts => some ts
  | _ + 1, .token kind, ts =>
    match ts with
    | t :: rest => if kind.accepts t then some rest else none
    | [] => none
  | n + 1, .rule r, ts => run grammar n (grammar r) ts
  | n + 1, .seq p q, ts => (run grammar n p ts).bind (run grammar n q)
  | n + 1, .branch look p q, ts => if look.holds ts then run grammar n p ts else run grammar n q ts
  | n + 1, .either p q, ts => (run grammar n p ts).or (run grammar n q ts)
  | n + 1, .loop look p, ts =>
    if look.holds ts then (run grammar n p ts).bind (run grammar n (.loop look p)) else some ts

namespace Pattern

/-! ### Words for patterns -/

/-- A keyword or symbol. -/
def word (text : String) : Pattern := .token (.oneOf [text])

/-- An identifier. -/
def name : Pattern := .token .identifier

/-- Patterns one after another. -/
def row (ps : List Pattern) : Pattern := ps.foldr .seq .empty

/-- The question whether a keyword or symbol is next. -/
def next (text : String) : List (List Terminal) := [[.oneOf [text]]]

/-- A pattern that is there only if the tokens ahead begin in one of some ways. -/
def given (options : List (List Terminal)) (p : Pattern) : Pattern := .branch { options } p .empty

/-- A pattern that a keyword or symbol leads in, if that is there. -/
def after (text : String) (p : Pattern) : Pattern := given (next text) (row [word text, p])

/-- A pattern that is there unless a keyword or symbol is next. -/
def notBefore (text : String) (p : Pattern) : Pattern := .branch { options := next text } .empty p

/-- A pattern again and again, up to a keyword or symbol. -/
def upTo (text : String) (p : Pattern) : Pattern := .loop { options := next text, wanted := false } p

/-- A pattern one or more times, with a keyword or symbol between. -/
def separated (text : String) (p : Pattern) : Pattern := row [p, .loop { options := next text } (row [word text, p])]

/-- The first pattern whose tokens are ahead, or else a last one. -/
def cases (choices : List (List (List Terminal) × Pattern)) (last : Pattern) : Pattern :=
  choices.foldr (fun (options, p) q => .branch { options } p q) last

/-- The opening brace. -/
def opening : String := "\x7b"

/-- The closing brace. -/
def closing : String := "\x7d"

/-- A pattern again and again between braces. -/
def braced (p : Pattern) : Pattern := row [word opening, upTo closing p, word closing]

/-- The beginning of an annotation. The declaration of an annotation type begins otherwise. -/
def annotationStart : List (List Terminal) := [[.oneOf ["@"], .except "interface"]]

/-- The beginning of the declaration of an annotation type. -/
def annotationTypeStart : List (List Terminal) := [[.oneOf ["@"], .oneOf ["interface"]]]

/-- The declarations of types, by the words they begin with. -/
def typeCases : List (List (List Terminal) × Pattern) :=
  [(next "class", .rule .classDeclaration), (next "enum", .rule .enumDeclaration),
    (next "interface", .rule .interfaceDeclaration), (annotationTypeStart, .rule .annotationDeclaration)]

/-- The operators that assign. -/
def assignments : List String := ["=", "+=", "-=", "*=", "/=", "&=", "|=", "^=", "%=", "<<=", ">>=", ">>>="]

/-- The operators between two operands. -/
def binaries : List String :=
  ["||", "&&", "|", "^", "&", "==", "!=", "<", ">", "<=", ">=", "<<", "+", "-", "*", "/", "%"]

/-- The operators before an operand. -/
def unaries : List String := ["++", "--", "!", "~", "+", "-"]

/-- The operators after an operand. -/
def counters : List String := ["++", "--"]

/-- A class body, if one is there. -/
def optionalBody : Pattern := given (next opening) (.rule .classBody)

/-- The exceptions of a method, if any are named. -/
def throwsClause : Pattern := after "throws" (separated "," (.rule .qualifiedName))

/-- Square brackets around a pattern. -/
def bracketed (p : Pattern) : Pattern := row [word "[", p, word "]"]

/-- The grammar. -/
def grammar : Rule → Pattern
  | .qualifiedName => separated "." name
  | .importDeclaration => row [word "import", after "static" .empty, name, .rule .importRest]
  | .importRest =>
    .branch { options := next "." }
      (row [word ".", .branch { options := next "*" } (row [word "*", word ";"]) (row [name, .rule .importRest])])
      (word ";")
  | .annotationUse => row [word "@", .rule .qualifiedName, .rule .annotationArguments]
  | .annotationArguments =>
    after "(" (row [
      notBefore ")" (cases [([[.identifier, .oneOf ["="]]], separated "," (.rule .elementPair))] (.rule .elementValue)),
      word ")"])
  | .elementPair => row [name, word "=", .rule .elementValue]
  | .elementValue =>
    cases [(annotationStart, .rule .annotationUse), (next opening, .rule .elementArray)] (.rule .conditional)
  | .elementArray =>
    row [word opening,
      notBefore closing (row [.rule .elementValue,
        .loop { options := [[.oneOf [closing]], [.oneOf [","], .oneOf [closing]]], wanted := false }
          (row [word ",", .rule .elementValue]),
        after "," .empty]),
      word closing]
  | .type => row [cases [([[.basicType]], .token .basicType)] (.rule .referenceType), .rule .dimensions]
  | .dimensions => .loop { options := [[.oneOf ["["], .oneOf ["]"]]] } (bracketed .empty)
  | .referenceType => separated "." (row [name, given (next "<") (.rule .typeArguments)])
  | .typeArguments => row [word "<", separated "," (.rule .typeArgument), word ">"]
  | .typeArgument =>
    cases [(next "?", row [word "?", given [[.oneOf ["extends", "super"]]]
      (row [.token (.oneOf ["extends", "super"]), .rule .typeBound])])] (.rule .typeBound)
  | .typeBound =>
    row [cases [([[.basicType]], row [.token .basicType, bracketed .empty])] (.rule .referenceType), .rule .dimensions]
  | .typeList => separated "," (.rule .typeBound)
  | .strictTypeArguments => row [word "<", .rule .typeList, word ">"]
  | .typeArgumentsOrDiamond =>
    cases [([[.oneOf ["<"], .oneOf [">"]]], row [word "<", word ">"])] (.rule .typeArguments)
  | .typeParameters => row [word "<", separated "," (.rule .typeParameter), word ">"]
  | .typeParameter => row [name, after "extends" (separated "&" (.rule .referenceType))]
  | .typeDeclaration => row [.rule .modifiers, .rule .bareDeclaration]
  | .modifiers =>
    .loop { options := [.modifier] :: annotationStart } (cases [([[.modifier]], .token .modifier)] (.rule .annotationUse))
  | .bareDeclaration => cases typeCases (.token (.oneOf []))
  | .classDeclaration =>
    row [word "class", name, given (next "<") (.rule .typeParameters), after "extends" (.rule .type),
      after "implements" (.rule .typeList), .rule .classBody]
  | .enumDeclaration => row [word "enum", name, after "implements" (.rule .typeList), .rule .enumBody]
  | .interfaceDeclaration =>
    row [word "interface", name, given (next "<") (.rule .typeParameters), after "extends" (.rule .typeList),
      .rule .interfaceBody]
  | .annotationDeclaration => row [word "@", word "interface", name, .rule .annotationBody]
  | .classBody => braced (.rule .classMember)
  | .classMember =>
    cases [(next ";", word ";"), ([[.oneOf ["static"], .oneOf [opening]]], row [word "static", .rule .block]),
      (next opening, .rule .block)] (.rule .member)
  | .member =>
    row [.rule .modifiers,
      cases ([(next "void", row [word "void", name, .rule .methodRest]), (next "<", .rule .genericMember)] ++ typeCases ++
          [([[.identifier, .oneOf ["("]]], row [name, .rule .constructorRest])])
        (row [.rule .type, name, cases [(next "(", .rule .methodRest)] (.rule .fieldRest)])]
  | .genericMember =>
    row [.rule .typeParameters,
      cases [([[.identifier, .oneOf ["("]]], row [name, .rule .constructorRest]),
          (next "void", row [word "void", name, .rule .methodRest])]
        (row [.rule .type, name, .rule .methodRest])]
  | .methodRest =>
    row [.rule .formalParameters, .rule .dimensions, throwsClause, cases [(next opening, .rule .block)] (word ";")]
  | .constructorRest => row [.rule .formalParameters, throwsClause, .rule .block]
  | .fieldRest =>
    row [.rule .variableRest, .loop { options := next "," } (row [word ",", .rule .variableDeclarator]), word ";"]
  | .interfaceBody => braced (.rule .interfaceMember)
  | .interfaceMember =>
    cases [(next ";", word ";")] (row [.rule .modifiers,
      cases (typeCases ++
          [(next "<", row [.rule .typeParameters, cases [(next "void", word "void")] (.rule .type), name,
              .rule .methodRest]),
            (next "void", row [word "void", name, .rule .methodRest])])
        (row [.rule .type, name, cases [(next "(", .rule .methodRest)] (row [.rule .constantsRest, word ";"])])])
  | .constantsRest =>
    row [.rule .constantRest, .loop { options := next "," } (row [word ",", name, .rule .constantRest])]
  | .constantRest => row [.rule .dimensions, word "=", .rule .variableInitializer]
  | .enumBody =>
    row [word opening, cases [(next ",", word ",")] (.rule .enumConstants), after ";" (upTo closing (.rule .classMember)),
      word closing]
  | .enumConstants =>
    .branch { options := [[.oneOf [";", closing]]] } .empty (row [.rule .enumConstant, after "," (.rule .enumConstants)])
  | .enumConstant =>
    row [.loop { options := annotationStart } (.rule .annotationUse), name, given (next "(") (.rule .arguments),
      optionalBody]
  | .annotationBody => braced (.rule .annotationMember)
  | .annotationMember =>
    row [.rule .modifiers,
      cases typeCases (row [.rule .type, name,
        cases [(next "(", row [word "(", word ")", .rule .dimensions, after "default" (.rule .elementValue)])]
          (.rule .constantsRest),
        word ";"])]
  | .variableDeclarator => row [name, .rule .variableRest]
  | .variableRest => row [.rule .dimensions, after "=" (.rule .variableInitializer)]
  | .variableInitializer => cases [(next opening, .rule .arrayInitializer)] (.rule .expression)
  | .arrayInitializer =>
    row [word opening,
      cases [(next ",", word ","), (next closing, .empty)]
        (row [.rule .variableInitializer, upTo closing (row [word ",", notBefore closing (.rule .variableInitializer)])]),
      word closing]
  | .formalParameters => row [word "(", notBefore ")" (.rule .parameters), word ")"]
  | .parameters =>
    row [.rule .variableModifiers, .rule .type,
      cases [(next "...", row [word "...", name, .rule .dimensions])]
        (row [name, .rule .dimensions, after "," (.rule .parameters)])]
  | .variableModifiers =>
    .loop { options := [.oneOf ["final"]] :: annotationStart } (cases [(next "final", word "final")] (.rule .annotationUse))
  | .block => braced (.rule .blockStatement)
  | .blockStatement =>
    cases [([[.identifier, .oneOf [":"]], [.oneOf ["synchronized"]]], .rule .statement),
        ([[.modifier], [.oneOf ["class", "enum", "interface", "@"]]],
          .either (.rule .typeDeclaration) (.rule .localVariable)),
        ([[.basicType]], .rule .localVariable),
        ([[.identifier]], .either (.rule .localVariable) (.rule .statement))]
      (.rule .statement)
  | .localVariable =>
    row [.rule .variableModifiers, .rule .type, separated "," (.rule .variableDeclarator), word ";"]
  | .statement =>
    cases [(next opening, .rule .block), (next ";", word ";"),
        ([[.identifier, .oneOf [":"]]], row [name, word ":", .rule .statement]),
        (next "if", row [word "if", .rule .inParentheses, .rule .statement, after "else" (.rule .statement)]),
        (next "assert", row [word "assert", .rule .expression, after ":" (.rule .expression), word ";"]),
        (next "switch", row [word "switch", .rule .inParentheses, word opening,
          .loop { options := [[.oneOf ["case", "default"]]] } (.rule .switchGroup), word closing]),
        (next "while", row [word "while", .rule .inParentheses, .rule .statement]),
        (next "do", row [word "do", .rule .statement, word "while", .rule .inParentheses, word ";"]),
        (next "for", row [word "for", word "(", .rule .forControl, word ")", .rule .statement]),
        ([[.oneOf ["break", "continue"]]],
          row [.token (.oneOf ["break", "continue"]), given [[.identifier]] name, word ";"]),
        (next "return", row [word "return", notBefore ";" (.rule .expression), word ";"]),
        (next "throw", row [word "throw", .rule .expression, word ";"]),
        (next "synchronized", row [word "synchronized", .rule .inParentheses, .rule .block]),
        (next "try", row [word "try", .rule .tryRest])]
      (row [.rule .expression, word ";"])
  | .tryRest =>
    cases [(next opening, row [.rule .block,
        cases [(next "catch", row [.loop { options := next "catch" } (.rule .catchClause),
          after "finally" (.rule .block)])] (row [word "finally", .rule .block])])]
      (row [.rule .resources, .rule .block, .loop { options := next "catch" } (.rule .catchClause),
        after "finally" (.rule .block)])
  | .catchClause =>
    row [word "catch", word "(", .rule .variableModifiers, separated "|" (.rule .qualifiedName), name, word ")",
      .rule .block]
  | .resources =>
    row [word "(", .rule .resource, upTo ")" (row [word ";", notBefore ")" (.rule .resource)]), word ")"]
  | .resource =>
    row [.rule .variableModifiers, .rule .referenceType, name, .rule .dimensions, word "=", .rule .expression]
  | .switchGroup =>
    row [.loop { options := [[.oneOf ["case", "default"]]] } (.rule .switchLabel),
      .loop { options := [[.oneOf ["case", "default", closing]]], wanted := false } (.rule .blockStatement)]
  | .switchLabel =>
    cases [(next "case", row [word "case", cases [([[.identifier, .oneOf [":"]]], name)] (.rule .expression), word ":"])]
      (row [word "default", word ":"])
  | .forControl =>
    .either (.rule .forVariable) (row [notBefore ";" (separated "," (.rule .expression)), word ";", .rule .forRest])
  | .forVariable =>
    row [.rule .variableModifiers, .rule .type, name, .rule .dimensions,
      cases [(next ":", row [word ":", .rule .expression])]
        (row [after "=" (.rule .variableInitializer),
          .loop { options := next "," } (row [word ",", .rule .variableDeclarator]), word ";", .rule .forRest])]
  | .forRest => row [notBefore ";" (.rule .expression), word ";", notBefore ")" (separated "," (.rule .expression))]
  | .expression =>
    row [.rule .conditional, given [[.oneOf assignments]] (row [.token (.oneOf assignments), .rule .expression])]
  | .conditional =>
    row [.rule .operation,
      cases [(next "?", row [word "?", .rule .expression, word ":", .rule .conditional]),
        (next "->", .rule .lambdaBody), (next "::", row [word "::", .rule .methodReference])] .empty]
  | .methodReference =>
    row [given (next "<") (.rule .strictTypeArguments), cases [(next "new", word "new")] (.rule .expression)]
  | .operation =>
    row [.rule .unary, .loop { options := [[.oneOf ("instanceof" :: binaries)]] }
      (cases [(next "instanceof", row [word "instanceof", .rule .type]),
          (next ">", row [word ">", after ">" (after ">" .empty), .rule .unary])]
        (row [.token (.oneOf binaries), .rule .unary]))]
  | .unary =>
    row [.loop { options := [[.oneOf unaries]] } (.token (.oneOf unaries)),
      cases [(next "(", .either (.rule .lambda) (.either (.rule .cast) (.rule .postfixed)))] (.rule .postfixed)]
  | .lambda =>
    row [cases [([[.oneOf ["("], .identifier, .oneOf [","]]], row [word "(", separated "," name, word ")"])]
      (.rule .formalParameters), .rule .lambdaBody]
  | .lambdaBody => row [word "->", cases [(next opening, .rule .block)] (.rule .expression)]
  | .cast => row [word "(", .rule .type, word ")", .rule .unary]
  | .postfixed =>
    row [.rule .primary, .loop { options := [[.oneOf ["[", "."]]] } (.rule .selector),
      .loop { options := [[.oneOf counters]] } (.token (.oneOf counters))]
  | .primary =>
    cases [([[.literal]], .token .literal), (next "(", .rule .inParentheses),
        (next "this", row [word "this", given (next "(") (.rule .arguments)]),
        ([[.oneOf ["super"], .oneOf ["::"]]], word "super"), (next "super", row [word "super", .rule .superSuffix]),
        (next "new", row [word "new", .rule .creator]),
        (next "<", row [.rule .strictTypeArguments,
          cases [(next "this", row [word "this", .rule .arguments])] (.rule .genericSuffix)]),
        ([[.identifier]], row [name, .loop { options := [[.oneOf ["."], .identifier]] } (row [word ".", name]),
          .rule .identifierSuffix]),
        ([[.basicType]], row [.token .basicType, .rule .dimensions, word ".", word "class"])]
      (row [word "void", word ".", word "class"])
  | .genericSuffix => cases [(next "super", row [word "super", .rule .superSuffix])] (row [name, .rule .arguments])
  | .superSuffix =>
    cases [(next ".", row [word ".", given (next "<") (.rule .strictTypeArguments), name,
      given (next "(") (.rule .arguments)])] (.rule .arguments)
  | .identifierSuffix =>
    cases [([[.oneOf ["["], .oneOf ["]"]]], row [.rule .dimensions, word ".", word "class"]),
        (next "(", .rule .arguments),
        ([[.oneOf ["."], .oneOf ["class", "this"]]], row [word ".", .token (.oneOf ["class", "this"])]),
        ([[.oneOf ["."], .oneOf ["<"]]], row [word ".", .rule .strictTypeArguments, .rule .genericSuffix]),
        ([[.oneOf ["."], .oneOf ["new"]]],
          row [word ".", word "new", given (next "<") (.rule .strictTypeArguments), .rule .innerCreator])]
      .empty
  | .innerCreator => row [name, given (next "<") (.rule .typeArgumentsOrDiamond), .rule .arguments, optionalBody]
  | .creator =>
    cases [([[.basicType]], row [.token .basicType, .rule .arrayCreatorRest])]
      (row [given (next "<") (.rule .strictTypeArguments), .rule .createdName,
        cases [(next "[", .rule .arrayCreatorRest)] (row [.rule .arguments, optionalBody])])
  | .createdName => separated "." (row [name, given (next "<") (.rule .typeArgumentsOrDiamond)])
  | .arrayCreatorRest =>
    cases [([[.oneOf ["["], .oneOf ["]"]]], row [.rule .dimensions, .rule .arrayInitializer])]
      (row [.loop { options := [[.oneOf ["["], .except "]"]] } (bracketed (.rule .expression)), .rule .dimensions])
  | .selector =>
    cases [(next "[", bracketed (.rule .expression))] (row [word ".",
      cases [([[.identifier]], row [name, given (next "(") (.rule .arguments)]),
          (next "<", row [.rule .strictTypeArguments, .rule .genericSuffix]),
          (next "super", row [word "super", .rule .superSuffix]),
          (next "new", row [word "new", given (next "<") (.rule .strictTypeArguments), .rule .innerCreator])]
        (.token (.oneOf ["this", "class"]))])
  | .arguments => row [word "(", notBefore ")" (separated "," (.rule .expression)), word ")"]
  | .inParentheses => row [word "(", .rule .expression, word ")"]

end Pattern

/-- What follows the tokens that a rule takes from the front; nothing if it does not fit. No rule comes back to itself
without taking a token, so a number of steps in proportion to the tokens is enough. -/
def Rule.take? (r : Rule) (ts : List Token) : Option (List Token) :=
  (Pattern.rule r).run Pattern.grammar (400 * (ts.length + 1)) ts

end Coupling.Java
