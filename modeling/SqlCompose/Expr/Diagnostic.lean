import SqlCompose.Expr.Basic
import SqlCompose.Value.Diagnostic

/-!
# Expressions in diagnostics

Every node is written with the names of its parts.
-/

namespace SqlCompose

open Text (diagnose)

/-- A captured value in diagnostics. -/
def Captured.diagnostic (c : Captured) : String :=
  "Captured \x7b root: " ++ c.root.diagnostic ++ ", path: [" ++
    ", ".intercalate (c.path.map diagnose) ++ "] \x7d"

namespace Expr

mutual

/-- An expression in diagnostics. -/
def diagnostic : Expr → String
  | .source => "Source"
  | .constant v => "Constant(" ++ v.diagnostic ++ ")"
  | .column name => "Column(" ++ diagnose name ++ ")"
  | .captured c => "Captured(" ++ c.diagnostic ++ ")"
  | .binary op left right =>
    "Binary \x7b op: " ++ op.diagnostic ++ ", left: " ++ left.diagnostic ++ ", right: " ++
      right.diagnostic ++ " \x7d"
  | .unary op operand =>
    "Unary \x7b op: " ++ op.diagnostic ++ ", operand: " ++ operand.diagnostic ++ " \x7d"
  | .call op args =>
    "Call \x7b op: " ++ op.name ++ ", args: [" ++ ", ".intercalate (diagnosticList args) ++ "] \x7d"
  | .lambda p body =>
    "Lambda \x7b param: " ++ diagnose p ++ ", body: " ++ body.diagnostic ++ " \x7d"
  | .param name => "Param(" ++ diagnose name ++ ")"
  | .construct members => "Construct([" ++ ", ".intercalate (diagnosticList members) ++ "])"

/-- Several expressions in diagnostics. -/
def diagnosticList : List Expr → List String
  | [] => []
  | x :: xs => x.diagnostic :: diagnosticList xs

end

end Expr

end SqlCompose
