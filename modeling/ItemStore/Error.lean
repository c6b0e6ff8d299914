/-
What can go wrong.

An error says what happened; the wording is in `message`, and nowhere else.  Errors that
come from outside, a transport's or a table's, bring words of their own, so each class
also has a case for a reported text.

Only a transport that calls its failure transient, and throttling, are worth the same
request again (`isRetryable`); everything that arises while a request is built is final.
-/
import ItemStore.Value
import ItemStore.Schema
import ItemStore.Expression.Operator
import ItemStore.Expression.Keyword

namespace ItemStore

/-- What is wrong with an expression. -/
inductive ExpressionFault
  /-- A closing parenthesis that no opening one stands for. -/
  | unbalancedClose (position : Nat)
  /-- An opening parenthesis that is never closed. -/
  | unbalancedOpen
  /-- A comma with no clause begun. -/
  | leadingComma
  /-- Other text with no clause begun. -/
  | leadingText (text : String)
  /-- Nothing between two commas or keywords. -/
  | emptyOperand (keyword : Keyword)
  /-- A name placeholder that stands for two attributes. -/
  | nameClash (placeholder bound other : String)
  /-- A value placeholder that stands for two values. -/
  | valueClash (placeholder : String)
  | reported (text : String)
  deriving DecidableEq

/-- What is wrong with an argument. -/
inductive ArgumentFault
  | missingRange (key : String)
  | unexpectedRange
  /-- A path one of whose segments has no word character. -/
  | wordlessPath (path : String)
  /-- An attribute name with no word character. -/
  | wordlessName (name : String)
  | choiceWithSecondOperand
  | choiceEmpty
  | choiceNotList
  | operandMissing (operator : Operator)
  | operandsMissing (operator : Operator)
  | operandRefused (operator : Operator)
  | operandTooMany (operator : Operator)
  | batchSize (limit : Nat)
  | noConcurrency
  | shrinkingBackoff
  | reported (text : String)
  deriving DecidableEq

/-- What is wrong with a value that was to be encoded. -/
inductive EncodingFault
  | notANumber (text : String)
  | emptySet
  | mismatch (value : Value) (type : Datatype)
  | missingField (name : String)
  | reported (text : String)
  deriving DecidableEq

/-- The failures of compiling, encoding and fetching. -/
inductive Error
  | expression (fault : ExpressionFault)
  | unsupportedOperator (text : String)
  | argument (fault : ArgumentFault)
  | encoding (fault : EncodingFault)
  | transport (text : String) (transient : Bool)
  | throttled (text : String)
  /-- The retries of a policy are used up; `last` is what the last call failed with. -/
  | exhausted (attempts : UInt32) (last : Error)
  | malformedJson
  /-- A reply that leaves more keys than were asked for. -/
  | grown (remaining outstanding : Nat)
  /-- An error together with where it arose. -/
  | within (place : String) (cause : Error)
  | internal (text : String)
  deriving DecidableEq

def ExpressionFault.message : ExpressionFault → String
  | .unbalancedClose position => s!"unbalanced ')' at position {position}"
  | .unbalancedOpen => "unbalanced '(' in update expression"
  | .leadingComma => "',' before the first action keyword"
  | .leadingText text => s!"unexpected '{text}' before the first action keyword"
  | .emptyOperand keyword => s!"empty operand in {keyword.text} clause"
  | .nameClash placeholder bound other =>
    s!"name placeholder {placeholder} bound to both '{bound}' and '{other}'"
  | .valueClash placeholder => s!"value placeholder {placeholder} bound to two different values"
  | .reported text => text

def ArgumentFault.message : ArgumentFault → String
  | .missingRange key => s!"missing value for range key '{key}'"
  | .unexpectedRange => "range value given but table has no range key"
  | .wordlessPath path => s!"attribute path '{path}' has an empty or non-word segment"
  | .wordlessName name => s!"attribute name '{name}' has no word characters"
  | .choiceWithSecondOperand => "IN takes a single list operand"
  | .choiceEmpty => "IN requires at least one value"
  | .choiceNotList => "IN requires a list of values"
  | .operandMissing op => s!"operator {op.text} requires a value"
  | .operandsMissing op => s!"operator {op.text} requires two values"
  | .operandRefused op => s!"operator {op.text} takes no value"
  | .operandTooMany op => s!"operator {op.text} takes at most one value"
  | .batchSize limit => s!"max_batch_size must be between 1 and {limit}"
  | .noConcurrency => "max_concurrency must be greater than 0 when set"
  | .shrinkingBackoff => "backoff_multiplier must be at least 1.0"
  | .reported text => text

def EncodingFault.message : EncodingFault → String
  | .notANumber text => s!"'{text}' is not a number"
  | .emptySet => "sets must contain at least one member"
  | .missingField name => s!"missing field '{name}'"
  | .mismatch value type => s!"cannot encode {Value.describe value} as {type.name}"
  | .reported text => text

namespace Error

/-- The text of an error. -/
def message : Error → String
  | expression fault => "Invalid expression: " ++ fault.message
  | unsupportedOperator text => "Unsupported operator: " ++ text
  | argument fault => "Invalid argument: " ++ fault.message
  | encoding fault => "Serialization error: " ++ fault.message
  | transport text _ => "Transport error: " ++ text
  | throttled text => "Request throttled: " ++ text
  | exhausted attempts last =>
    "Retries exhausted after " ++ toString attempts.toNat ++ " attempts: " ++ last.message
  | malformedJson => "JSON error: malformed"
  | grown remaining outstanding =>
    s!"Internal error: store reported {remaining} unprocessed keys for a request of {outstanding}"
  | within place cause => "Internal error: " ++ place ++ ": " ++ cause.message
  | internal text => "Internal error: " ++ text

/-- The class of an error, which does not change with its wording. -/
def code : Error → String
  | expression _ => "INVALID_EXPRESSION"
  | unsupportedOperator _ => "UNSUPPORTED_OPERATOR"
  | argument _ => "INVALID_ARGUMENT"
  | encoding _ => "SERIALIZATION_ERROR"
  | transport .. => "TRANSPORT_ERROR"
  | throttled _ => "THROTTLED"
  | exhausted .. => "RETRIES_EXHAUSTED"
  | malformedJson => "JSON_ERROR"
  | grown .. | within .. | internal _ => "INTERNAL_ERROR"

/-- The request that failed may be issued again unchanged. -/
def isRetryable : Error → Bool
  | transport _ transient => transient
  | throttled _ => true
  | _ => false

end Error

end ItemStore
