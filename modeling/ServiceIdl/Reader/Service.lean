import ServiceIdl.Reader.FieldList

/-!
# Reading services

The reader starts behind the name. A function takes the doc text that is pending at
its first token. Doc text inside its signature belongs to nothing and is cleared where
the function ends; without a throws list it ends before the next token, so doc text
between the two is cleared as well.
-/

namespace ServiceIdl.ServiceReader

/-- What a function says before its return type. -/
structure Head where
  oneway : Bool
  docText : String
  deriving DecidableEq

/-- What has been read behind the complete functions of a service. -/
inductive Phase where
  /-- The name of the service. -/
  | afterName
  /-- The word that announces the parent. -/
  | parent
  /-- All up to the opening brace. -/
  | opening
  /-- The opening brace or a separator. -/
  | function
  /-- The mark of a oneway function. -/
  | result (head : Head)
  /-- A part of the return type. -/
  | resultType (head : Head) (type : TypeReader.State)
  /-- All up to the return type. -/
  | name (head : Head) (returnType : String)
  /-- All up to the name of the function. -/
  | openArguments (function : Function)
  /-- A part of the arguments. -/
  | arguments (function : Function) (fields : FieldListReader.State)
  /-- All up to the arguments. -/
  | afterArguments (function : Function)
  /-- The word that announces the throws list. -/
  | openThrows (function : Function)
  /-- A part of the throws list. -/
  | throws (function : Function) (fields : FieldListReader.State)
  /-- A function up to its throws list. -/
  | separator
  deriving DecidableEq

/-- A service with its complete functions, and what has been read behind them. -/
structure State where
  service : Service
  phase : Phase
  deriving DecidableEq

/-- Only the name has been read. -/
def start (name docText : String) : State := ⟨⟨name, none, [], docText⟩, .afterName⟩

/-- A service with one more function. -/
def addFunction (service : Service) (function : Function) : Service :=
  { service with functions := service.functions ++ [function] }

/-- Reads the brace before the functions. -/
def readOpening (service : Service) (t : SpannedToken) :
    Except ParseError (Step State Service) := do
  t.expectSymbol .leftBrace
  return .more ⟨service, .function⟩

/-- Reads a token of a return type. -/
def readResultType (limit : Nat) (service : Service) (head : Head) (type : TypeReader.State)
    (t : SpannedToken) : Except ParseError (Step State Service) := do
  match ← TypeReader.read limit type t with
  | .more type => return .more ⟨service, .resultType head type⟩
  | .done type => return .more ⟨service, .name head type.signature⟩

/-- Reads the first token of the result of a function. -/
def readResult (limit : Nat) (service : Service) (head : Head) (t : SpannedToken) :
    Except ParseError (Step State Service) :=
  if t.token = .keyword .voidResult then .ok (.more ⟨service, .name head Keyword.voidResult.text⟩)
  else readResultType limit service head TypeReader.start t

/-- Reads the first token of a function, or the brace behind the functions. -/
def readFunction (limit : Nat) (service : Service) (t : SpannedToken) :
    Reading (Step State Service) :=
  if t.token = .symbol .rightBrace then return .done service
  else do
    let docText ← takeDoc
    if t.token = .keyword .onewayMark then return .more ⟨service, .result ⟨true, docText⟩⟩
    else readResult limit service ⟨false, docText⟩ t

/-- Reads the token behind a function, which may be a separator. -/
def readSeparator (limit : Nat) (service : Service) (t : SpannedToken) :
    Reading (Step State Service) :=
  if t.isSeparator then return .more ⟨service, .function⟩ else readFunction limit service t

/-- Reads one token of a service, which ends with the closing brace. -/
def read (limit : Nat) (state : State) (t : SpannedToken) : Reading (Step State Service) :=
  let service := state.service
  match state.phase with
  | .afterName =>
    if t.token = .keyword .extendsClause then return .more ⟨service, .parent⟩
    else readOpening service t
  | .parent => do
    let parent ← t.expectIdentifier
    return .more ⟨{ service with parent := some parent }, .opening⟩
  | .opening => readOpening service t
  | .function => readFunction limit service t
  | .result head => readResult limit service head t
  | .resultType head type => readResultType limit service head type t
  | .name head returnType => do
    let name ← t.expectIdentifier
    return .more ⟨service, .openArguments ⟨name, head.oneway, returnType, [], [], head.docText⟩⟩
  | .openArguments function => do
    t.expectSymbol .leftParen
    return .more ⟨service, .arguments function FieldListReader.start⟩
  | .arguments function fields => do
    match ← FieldListReader.read limit .rightParen fields t with
    | .more fields => return .more ⟨service, .arguments function fields⟩
    | .done fields => return .more ⟨service, .afterArguments { function with arguments := fields }⟩
  | .afterArguments function =>
    if t.token = .keyword .throwsClause then return .more ⟨service, .openThrows function⟩
    else do
      clearDoc
      readSeparator limit (addFunction service function) t
  | .openThrows function => do
    t.expectSymbol .leftParen
    return .more ⟨service, .throws function FieldListReader.start⟩
  | .throws function fields => do
    match ← FieldListReader.read limit .rightParen fields t with
    | .more fields => return .more ⟨service, .throws function fields⟩
    | .done throws =>
      clearDoc
      return .more ⟨addFunction service { function with throws }, .separator⟩
  | .separator => readSeparator limit service t

end ServiceIdl.ServiceReader
