import Loxley.Fault
import Loxley.Parser.Statement

/-!
# Source text

Source text is read into tokens and parsed in one go. The diagnostics of reading come before those of
parsing; a numeral that is too large stops everything after the diagnostics found so far.
-/

set_option autoImplicit false

namespace Loxley

/-- The outcome of parsing source text, which may have stopped early. -/
structure SourceParse (α : Type) where
  diagnostics : List Diagnostic
  result : Except Fault α

namespace Scan

variable {α : Type}

def parse (rule : Cursor → Parsed α) (scan : Scan) : SourceParse α :=
  match scan.overflow with
  | some numeral => { diagnostics := scan.diagnostics, result := .error (.numeralTooLarge numeral) }
  | none =>
    match Cursor.ofTokens? scan.tokens with
    | none => { diagnostics := scan.diagnostics, result := .error .noEndMarker }
    | some cursor =>
      let parsed := rule cursor
      { diagnostics := scan.diagnostics ++ parsed.diagnostics, result := .ok parsed.value }

end Scan

namespace Source

def program (source : Text) : SourceParse (List (Stmt Unit)) :=
  (Scan.ofSource source).parse Cursor.program

/-- Parses source text as a single expression; nothing if the parser gave up. -/
def expression (source : Text) : SourceParse (Option (Expr Unit)) :=
  (Scan.ofSource source).parse Cursor.expression

end Source

end Loxley
