import Retrace.Value
/-!
The data of a traced program. A datum becomes a value in two ways: directly, when the program and
its observer are one, and by a fragment of text, when they are not.
-/
namespace Retrace

open Number

/-- A datum of a program. Something that may be missing is nothing or the datum itself; a datum
without a structure that matters here is described. -/
inductive Datum where
  | whole (n : Int)
  | float (p : Precision) (x : Binary)
  | truth (b : Bool)
  | char (c : Char)
  | text (s : String)
  | nothing
  | list (items : List Datum)
  | described (s : String)

namespace Datum

/-- A datum that may be missing. -/
def ofOption {α : Type} (f : α → Datum) : Option α → Datum
  | some a => f a
  | none => nothing

/-- The text of a datum inside quotes, in which line feeds, returns and tabulators have letters. -/
def quote (s : String) : String :=
  String.ofList (Json.quoteWith [('\n', 'n'), ('\r', 'r'), ('\t', 't')] s.toList)

/-- The fragment of a kind with what it holds. -/
def tagged (kind content : String) : String :=
  Json.openBrace ++ "\"type\":\"" ++ kind ++ "\",\"value\":" ++ content ++ Json.closeBrace

mutual
/-- The value of a datum. Numbers of every precision become the widest ones. -/
def value : Datum → Value
  | whole n => .ofInt n
  | float _ x => .float (x.round .double)
  | truth b => .truth b
  | char c => .char c
  | text s => .text s
  | nothing => .null
  | list items => .list (values items)
  | described s => .object s

def values : List Datum → List Value
  | [] => []
  | d :: ds => d.value :: values ds
end

mutual
/-- The fragment of text that a program writes for a datum. -/
def fragment : Datum → String
  | whole n =>
    if Value.fits n then tagged "int" (toString n) else tagged "object" (quote (toString n))
  | float p x =>
    if x.isFinite then tagged "float" (Style.described.render p x)
    else tagged "object" (quote (Style.plain.render p x))
  | truth b => tagged "bool" (if b then "true" else "false")
  | char c => tagged "char" (quote c.toString)
  | text s => tagged "str" (quote s)
  | nothing => Json.openBrace ++ "\"type\":\"null\"" ++ Json.closeBrace
  | list items => tagged "list" ("[" ++ fragments items ++ "]")
  | described s => tagged "object" (quote s)

def fragments : List Datum → String
  | [] => ""
  | [d] => d.fragment
  | d :: ds => d.fragment ++ "," ++ fragments ds
end

end Datum

end Retrace
