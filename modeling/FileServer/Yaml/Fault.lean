/-! Why a document cannot be read. -/
namespace FileServer.Yaml

inductive Fault
  | forbiddenCharacter
  | strayCharacter
  | sequence
  | misplacedKey
  | misplacedValue
  | missingColon
  | misplacedColon
  | tabIndentation
  | unclosedQuote
  | markerInQuotes
  | invalidEscape
  | invalidBlockHeader
  | invalidDirective
  | invalidAnchor
  | invalidTag
  | undefinedHandle
  | unknownAnchor
  | unexpectedToken
  | secondDocument
  | wrongType
  | unknownField (name : String)
  | duplicateField (name : String)
  deriving DecidableEq, Repr

def Fault.message : Fault → String
  | .forbiddenCharacter => "control characters are not allowed"
  | .strayCharacter => "found character that cannot start any token"
  | .sequence => "sequences are not allowed here"
  | .misplacedKey => "mapping keys are not allowed in this context"
  | .misplacedValue => "mapping values are not allowed in this context"
  | .missingColon => "could not find expected ':'"
  | .misplacedColon => "found unexpected ':'"
  | .tabIndentation => "found a tab where an indentation space is expected"
  | .unclosedQuote => "found unexpected end of stream"
  | .markerInQuotes => "found unexpected document indicator"
  | .invalidEscape => "found unknown escape character"
  | .invalidBlockHeader => "invalid block scalar header"
  | .invalidDirective => "invalid directive"
  | .invalidAnchor => "did not find expected alphabetic or numeric character"
  | .invalidTag => "did not find expected tag"
  | .undefinedHandle => "found undefined tag handle"
  | .unknownAnchor => "unknown anchor"
  | .unexpectedToken => "did not find expected node content"
  | .secondDocument => "more than one document"
  | .wrongType => "invalid type"
  | .unknownField name => "unknown field " ++ name
  | .duplicateField name => "duplicate field " ++ name

end FileServer.Yaml
