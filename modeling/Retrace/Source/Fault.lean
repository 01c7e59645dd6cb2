import Retrace.Source.Token
/-!
What can be wrong with a source text. A fault is a cause at a place; the wording of all causes is
in one function.
-/
namespace Retrace.Source

/-- Something that could have stood at a place. -/
inductive Want where
  | spelled (text : String)
  | identifier
  | lifetime
  | literal
  | stringLiteral
  | group (delimiter : Delimiter)
  deriving DecidableEq, Repr

namespace Want

/-- How a message names it. -/
def name : Want → String
  | spelled text => "`" ++ text ++ "`"
  | identifier => "identifier"
  | lifetime => "lifetime"
  | literal => "literal"
  | stringLiteral => "string literal"
  | group d => d.groupName

end Want

/-- Why a source text cannot be read. -/
inductive Cause where
  | brokenToken
  | expected (wants : List Want)
  | keyword (name : String)
  | leftover (inside : Option Delimiter)
  | noExpression
  | noLoopOrBlock
  | noMember
  | noCommaOrSemicolon
  | noDelimiter
  | noPathSegment
  | noIdentifierOrUnderscore
  | noUpperBound
  | noSemicolon
  | noInteger
  | suffixedInteger
  | wideInteger
  | signedInteger
  | chainedComparison
  | castFollowedBy (what : String)
  | unparenthesizedLabel
  | unparenthesizedRange
  | nestedAttribute
  | whereGenerics
  | objectWithoutTrait
  | boundWithoutTrait
  | capturingHere
  | constHere (bracketed : Bool)
  | binderWithModifier
  | secondReceiver
  | misplacedReceiver
  deriving DecidableEq, Repr

namespace Cause

def message : Cause → String
  | brokenToken => "cannot parse string into token stream"
  | expected [] => "unexpected token"
  | expected [a] => "expected " ++ a.name
  | expected [a, b] => "expected " ++ a.name ++ " or " ++ b.name
  | expected wants => "expected one of: " ++ ", ".intercalate (wants.map Want.name)
  | keyword name => "expected identifier, found keyword `" ++ name ++ "`"
  | leftover none => "unexpected token"
  | leftover (some d) => "unexpected token, expected `" ++ d.closer.toString ++ "`"
  | noExpression => "expected an expression"
  | noLoopOrBlock => "expected loop or block expression"
  | noMember => "expected identifier or integer"
  | noCommaOrSemicolon => "expected `,` or `;`"
  | noDelimiter => "expected delimiter"
  | noPathSegment => "expected path segment after `::`"
  | noIdentifierOrUnderscore => "expected identifier or underscore"
  | noUpperBound => "expected range upper bound"
  | noSemicolon => "unexpected token, expected `;`"
  | noInteger => "expected integer literal"
  | suffixedInteger => "expected unsuffixed integer"
  | wideInteger => "number too large to fit in target type"
  | signedInteger => "invalid digit found in string"
  | chainedComparison => "comparison operators cannot be chained"
  | castFollowedBy what => "casts cannot be followed by " ++ what
  | unparenthesizedLabel => "parentheses required"
  | unparenthesizedRange => "range pattern is not allowed unparenthesized inside slice pattern"
  | nestedAttribute => "unexpected attribute inside of attribute"
  | whereGenerics => "generic parameters on `where` clauses are reserved for future use"
  | objectWithoutTrait => "at least one trait is required for an object type"
  | boundWithoutTrait => "at least one trait must be specified"
  | capturingHere => "`use<...>` precise capturing syntax is not allowed here"
  | constHere bracketed => (if bracketed then "`[const]`" else "`const`") ++ " is not allowed here"
  | binderWithModifier => "`for<...>` binder not allowed with `?` trait polarity modifier"
  | secondReceiver => "unexpected second method receiver"
  | misplacedReceiver => "unexpected method receiver"

end Cause

/-- A cause at a place. At the end of the enclosing tokens the message says so. -/
structure Fault where
  cause : Cause
  place : Place
  atEnd : Bool
  deriving DecidableEq, Repr

namespace Fault

def message (f : Fault) : String :=
  if f.atEnd then
    match f.cause with
    | .expected [] => "unexpected end of input"
    | cause => "unexpected end of input, " ++ cause.message
  else f.cause.message

end Fault

end Retrace.Source
