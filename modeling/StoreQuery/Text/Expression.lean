/-!
LIKE patterns as regular expressions. Wildcards become dots between literals whose special characters are
escaped, and both ends are anchored. What compiles the expressions may refuse one, which is so for those
that would take too much memory.
-/
namespace StoreQuery

namespace Expression

/-- The characters that stand for themselves only when escaped. -/
def isSpecial (c : Char) : Bool :=
  c ∈ ['\\', '.', '+', '*', '?', '(', ')', '|', '[', ']', '{', '}', '^', '$', '#', '&', '-', '~']

def escape (literal : List Char) : List Char :=
  literal.flatMap fun c => if isSpecial c then ['\\', c] else [c]

/-- Goes on writing the expression of a pattern. The literal before a wildcard, or before the end, is
escaped as a whole. -/
def write (written literal : List Char) : List Char → List Char
  | [] => written ++ escape literal ++ ['$']
  | c :: pattern =>
    if c = '%' ∨ c = '_' then
      write (written ++ escape literal ++ if c = '%' then ['.', '*'] else ['.']) [] pattern
    else write written (literal ++ [c]) pattern

/-- The expression of a pattern; its dots stand for line feeds too. -/
def ofPattern (pattern : String) : String :=
  String.ofList (write "(?s)^".toList [] pattern.toList)

end Expression

/-- What compiles regular expressions. -/
class RegexEngine where
  /-- Why an expression is refused, unless it compiles. -/
  refusal? : String → Option String

namespace RegexEngine

/-- The number of bytes that a compiled expression may take. -/
def sizeLimit : Nat := 10485760

/-- About what a character takes once it is compiled. A dot stands for the byte sequences of every
character there is. -/
def cost (c : Char) : Nat := if c = '.' then 376 else 24

def totalCost : List Char → Nat
  | [] => 0
  | c :: cs => cost c + totalCost cs

/-- The engine that has a limit on what an expression takes. -/
instance (priority := low) limited : RegexEngine where
  refusal? expression :=
    if totalCost expression.toList ≤ sizeLimit then none
    else some ("Compiled regex exceeds size limit of " ++ toString sizeLimit ++ " bytes.")

end RegexEngine

end StoreQuery
