/-
# Dialects

The language comes with and without a conditional operator. Its two characters,
the question mark and the colon, are symbols in the one dialect and mean nothing
in the other. No other character is treated differently.
-/

namespace Lox

/-- A variant of the language. -/
structure Dialect where
  /-- Whether the language has the conditional operator. -/
  ternary : Bool
deriving DecidableEq

end Lox
