import CircuitCompiler.Diagnostic.Basic
import CircuitCompiler.Language
import CircuitCompiler.Text.Quoted

/-!
# Compile errors

A compile error is a cause at a place. Kind, code and wording are functions of the cause, so an
error is matched by what went wrong and never by its text. Every phase stops at its first error.
-/

namespace CircuitCompiler

/-- The classes of compile errors. -/
inductive ErrorKind where
  | lexical
  | grammar
  | typing
  | naming
  | port
  | circular
  | generic
  deriving DecidableEq, Repr, Inhabited

/-- The word shown for a class of errors. -/
def ErrorKind.name : ErrorKind → String
  | .lexical => "LexError"
  | .grammar => "SyntaxError"
  | .typing => "TypeError"
  | .naming => "NameError"
  | .port => "PortError"
  | .circular => "CircularReferenceError"
  | .generic => "GenericError"

/-- What the grammar admits where something else was found. -/
inductive Wanted where
  | choiceColon
  | closeParen
  | expression
  | identifier
  | closeSplice
  | endOfExpression
  | component
  | componentName
  | openComponent
  | componentItem
  | semicolonAfterGeneric
  | openPorts
  | direction
  | semicolonAfterPort
  | type
  | nameAfterType
  | width
  | closeWidth
  | arch
  | openArch
  | statement
  | equalsInConst
  | semicolonAfterDeclaration
  | semicolonAfterAssignment
  | assignmentOrInstance
  | equalsAfterInstance
  | new
  | typeAfterNew
  | openGenerics
  | closeGenerics
  | semicolonAfterInstance
  | genericName
  | equalsAfterGeneric
  | constant
  | openBlock (kind : BlockKind)
  deriving DecidableEq, Repr, Inhabited

/-- The wording of what was wanted. -/
def Wanted.text : Wanted → String
  | .choiceColon => "expected ':' in ternary expression"
  | .closeParen => "expected ')'"
  | .expression => "expected expression"
  | .identifier => "expected identifier"
  | .closeSplice => "expected ']' after splice"
  | .endOfExpression => "expected end of expression"
  | .component => "expected 'component'"
  | .componentName => "expected component name"
  | .openComponent => "expected '\x7b' after component name"
  | .componentItem => "expected generic declaration, 'port' or 'arch'"
  | .semicolonAfterGeneric => "expected ';' after generic"
  | .openPorts => "expected '\x7b' after 'port'"
  | .direction => "expected 'input' or 'output'"
  | .semicolonAfterPort => "expected ';' after port"
  | .type => "expected int, uint, vec or bool"
  | .nameAfterType => "expected identifier after type"
  | .width => "expected width"
  | .closeWidth => "expected ']' after width"
  | .arch => "expected 'arch'"
  | .openArch => "expected '\x7b' after 'arch'"
  | .statement => "expected signal, instance or assignment"
  | .equalsInConst => "expected '=' in const declaration"
  | .semicolonAfterDeclaration => "expected ';' after declaration"
  | .semicolonAfterAssignment => "expected ';' after assignment"
  | .assignmentOrInstance => "expected '<=' or instance name"
  | .equalsAfterInstance => "expected '=' after instance name"
  | .new => "expected 'new'"
  | .typeAfterNew => "expected component type after 'new'"
  | .openGenerics => "expected '(' after component type"
  | .closeGenerics => "expected ')' after generic list"
  | .semicolonAfterInstance => "expected ';' after instantiation"
  | .genericName => "expected generic name"
  | .equalsAfterGeneric => "expected '=' after generic name"
  | .constant => "expected constant"
  | .openBlock kind => "expected '\x7b' to open " ++ kind.name ++ " block"

/-- The code under which a missing part of the grammar is reported. -/
def Wanted.code : Wanted → Code
  | .component => .expectedComponent
  | .type => .expectedType
  | .width => .expectedConstant
  | .constant => .expectedConstant
  | .expression => .expectedExpression
  | _ => .unexpectedToken

/-- What can be wrong with a circuit description. -/
inductive Cause where
  /-- Bytes that begin no token. -/
  | unknownCharacter (text : Bytes)
  /-- A vector literal that its line does not close. -/
  | unterminatedVector
  /-- A block comment that the source does not close. -/
  | unterminatedComment
  /-- Digits glued to something else. -/
  | malformedInteger (text : Bytes)
  /-- A byte inside a vector literal that is no digit of it. -/
  | badVectorDigit
  /-- A token that the grammar does not admit at its place. -/
  | unexpected (wanted : Wanted) (found : String)
  /-- A second port block. -/
  | secondPortBlock (component : String)
  /-- A second architecture. -/
  | secondArchitecture (component : String)
  /-- A width that is not a positive 32-bit integer. -/
  | badWidth (text : String)
  /-- A raw block that the source does not close. -/
  | unclosedBlock (kind : BlockKind)
  /-- An instance whose type is no plain identifier. -/
  | instanceTypeNotPlain
  /-- An instance built by another type than declared. -/
  | instanceTypeMismatch (name declared built : String)
  /-- A failure without a cause of its own. -/
  | parseFailed
  /-- Bits taken from what is no declared vector. -/
  | notAVector (name : String)
  /-- A name declared twice in one component. -/
  | duplicateDeclaration (name : String) (firstAt : Nat)
  /-- A component declared twice. -/
  | duplicateComponent (name : String)
  /-- Two components whose names differ in case only. -/
  | collidingComponent (name earlier : String)
  /-- An instance of a component that does not exist. -/
  | unknownComponent (component target : String)
  /-- A path that does not start at an instance. -/
  | unknownInstance (head component : String)
  /-- A joint of what are no names where a port of an instance is wanted. -/
  | notAPortReference (text : String)
  /-- A path with more than an instance and a port. -/
  | pathTooDeep (path head : String)
  /-- A port that the instance does not have. -/
  | unknownPort (component port : String)
  /-- A component that instantiates itself through others. -/
  | circular (component : String) (cycle : List String)
  /-- A component that instantiates a broken one. -/
  | dependencyFailed (kind : ErrorKind) (component dependency : String)
  /-- A top-level component that does not exist. -/
  | unknownTop (name : String)
  /-- A top-level component with generics. -/
  | topHasGenerics (component generic : String)
  /-- A connecting signal whose name is taken. -/
  | signalTaken (signal path component : String)
  deriving DecidableEq, Repr

namespace Cause

/-- The class of a cause. -/
def kind : Cause → ErrorKind
  | unknownCharacter _ | unterminatedVector | unterminatedComment | malformedInteger _
  | badVectorDigit => .lexical
  | unexpected .. | secondPortBlock _ | secondArchitecture _ | badWidth _ | unclosedBlock _
  | instanceTypeNotPlain | instanceTypeMismatch .. | parseFailed => .grammar
  | notAVector _ => .typing
  | duplicateDeclaration .. | duplicateComponent _ | collidingComponent .. | unknownComponent ..
  | unknownInstance .. | notAPortReference _ | unknownTop _ | signalTaken .. => .naming
  | pathTooDeep .. | unknownPort .. => .port
  | circular .. => .circular
  | dependencyFailed kind _ _ => kind
  | topHasGenerics .. => .generic

/-- The code of a cause. -/
def code : Cause → Code
  | unknownCharacter _ => .unknownCharacter
  | unterminatedVector => .unterminatedVector
  | unterminatedComment => .unterminatedComment
  | malformedInteger _ => .badNumber
  | badVectorDigit => .badVectorDigit
  | unexpected wanted _ => wanted.code
  | secondPortBlock _ => .duplicatePortBlock
  | secondArchitecture _ => .duplicateArchitecture
  | badWidth _ => .expectedConstant
  | unclosedBlock _ => .unclosedBlock
  | instanceTypeNotPlain => .unexpectedToken
  | instanceTypeMismatch .. => .instanceTypeMismatch
  | parseFailed => .unexpectedToken
  | notAVector _ => .notAVector
  | duplicateDeclaration .. => .duplicateDeclaration
  | duplicateComponent _ => .duplicateComponent
  | collidingComponent .. => .duplicateComponent
  | unknownComponent .. => .unknownComponent
  | unknownInstance .. | notAPortReference _ => .unknownInstance
  | pathTooDeep .. => .unknownPort
  | unknownPort .. => .unknownPort
  | circular .. => .circularReference
  | dependencyFailed .. => .dependencyFailed
  | unknownTop _ => .unknownTop
  | topHasGenerics .. => .topHasGenerics
  | signalTaken .. => .duplicateDeclaration

/-- The wording of a cause. -/
def message : Cause → String
  | unknownCharacter text => "unknown character " ++ Text.Quoted.ofBytes text
  | unterminatedVector => "unterminated vector literal"
  | unterminatedComment => "unterminated block comment"
  | malformedInteger text => "malformed integer literal " ++ text.latin
  | badVectorDigit => "invalid digit in vector literal"
  | unexpected wanted found => wanted.text ++ ", found " ++ found
  | secondPortBlock component => "component " ++ component ++ " already has a port block"
  | secondArchitecture component => "component " ++ component ++ " already has an architecture"
  | badWidth text => "width " ++ text ++ " must be a positive 32-bit integer"
  | unclosedBlock kind => "unclosed " ++ kind.name ++ " block"
  | instanceTypeNotPlain => "instance type must be a plain identifier"
  | instanceTypeMismatch name declared built =>
    "instance " ++ name ++ " is declared as " ++ declared ++ " but constructed as " ++ built
  | parseFailed => "parse failed"
  | notAVector name => name ++ " is not a declared vec and cannot be spliced"
  | duplicateDeclaration name firstAt =>
    name ++ " is already declared at offset " ++ toString firstAt
  | duplicateComponent name => "component " ++ name ++ " is declared more than once"
  | collidingComponent name earlier =>
    "component " ++ name ++ " collides with " ++ earlier ++ " (names are case-insensitive)"
  | unknownComponent component target =>
    "component " ++ component ++ " instantiates unknown component " ++ target
  | unknownInstance head component => head ++ " is not an instance in component " ++ component
  | notAPortReference text => text ++ " is not an instance port reference"
  | pathTooDeep path head => path ++ " reaches below the ports of instance " ++ head
  | unknownPort component port => "component " ++ component ++ " has no port " ++ port
  | circular component cycle =>
    "component " ++ component ++ " instantiates itself through " ++ String.intercalate " -> " cycle
  | dependencyFailed _ component dependency =>
    "component " ++ component ++ " depends on " ++ dependency ++ ", which has errors"
  | unknownTop name => "top-level component " ++ name ++ " is not defined"
  | topHasGenerics component generic =>
    "top-level component " ++ component ++ " cannot declare generics (found " ++ generic ++ ")"
  | signalTaken signal path component =>
    "signal " ++ signal ++ " for " ++ path ++ " collides with a declaration in " ++ component

end Cause

/-- A cause at a place. -/
structure CompileError where
  cause : Cause
  span : Span
  deriving DecidableEq, Repr

namespace CompileError

/-- The class of an error. -/
def kind (e : CompileError) : ErrorKind := e.cause.kind

/-- The code of an error. -/
def code (e : CompileError) : Code := e.cause.code

/-- The wording of an error without its class. -/
def message (e : CompileError) : String := e.cause.message

/-- The error in one line. -/
def text (e : CompileError) : String := e.kind.name ++ ": " ++ e.message

/-- The diagnostic that reports an error. -/
def diagnostic (e : CompileError) (notes : List Note) : Diagnostic :=
  { severity := .error, code := e.code, message := e.message, primary := e.span, notes }

end CompileError
end CircuitCompiler
