/-!
What can go wrong in a template.
-/

namespace TaskTags.Template

inductive Fault where
  | syntaxError
  | undefinedValue
  | invalidOperation
  | notPrimitive
  | notKey
  | templateNotFound
  | tooManyArguments
  | missingArgument
  | unknownFilter
  | unknownFunction
  | unknownTest
  | unknownMethod
  | unknownBlock
  | badEscape
  | badInclude
  | badSerialization
  | cannotUnpack
  /-- A value, by its text, that is neither a tag nor a list of tags. -/
  | unsupported (text : String)
deriving DecidableEq, Inhabited

def Fault.message : Fault → String
  | .syntaxError => "syntax error"
  | .undefinedValue => "undefined value"
  | .invalidOperation => "invalid operation"
  | .notPrimitive => "not a primitive"
  | .notKey => "not a key type"
  | .templateNotFound => "template not found"
  | .tooManyArguments => "too many arguments"
  | .missingArgument => "missing argument"
  | .unknownFilter => "unknown filter"
  | .unknownFunction => "unknown function"
  | .unknownTest => "unknown test"
  | .unknownMethod => "unknown method"
  | .unknownBlock => "unknown block"
  | .badEscape => "bad string escape"
  | .badInclude => "could not render include"
  | .badSerialization => "could not serialize to value"
  | .cannotUnpack => "cannot unpack"
  | .unsupported text => "tag resolved to unsupported value " ++ text

end TaskTags.Template
