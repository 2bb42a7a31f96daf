import SqlCompose.Entity.Kind
import SqlCompose.Expr.Operator
import SqlCompose.Json.Decoding
import SqlCompose.Value.Display

/-!
# Errors

An error is a cause with what its message needs; `QueryError.message` holds all wording. Errors
found while a query is compiled are told apart from those of a connection.
-/

namespace SqlCompose

/-! ## Expressions that cannot be compiled -/

/-- Why an expression has no plan, or a predicate text no expression. -/
inductive ShapeFault where
  /-- A captured record has no member of this name. -/
  | missingMember (name : String)
  /-- A member was read from a value that is no record. -/
  | memberOfValue (name typeName : String)
  /-- The parameter of a lambda stands outside a projection. -/
  | strayParameter
  /-- An object literal stands outside a projection. -/
  | strayObject
  /-- A step has nothing to start from. -/
  | missingSource (op : Operator)
  /-- An ordering names no column. -/
  | missingKeySelector (op : Operator)
  /-- A selection names no columns. -/
  | missingProjection
  /-- A step needs a row count. -/
  | badRowCount (op : Operator)
  /-- A selection is not of a supported form. -/
  | badProjection
  /-- A column was expected. -/
  | notAMember
  /-- A membership test does not have two arguments. -/
  | membershipArguments
  /-- A membership test is over a collection that is not known in advance. -/
  | unknownCollection
  /-- A membership test is over a value that is no list. -/
  | notACollection (typeName : String)
  /-- A list or a record stands for an operand. -/
  | compoundOperand (typeName : String)
  /-- A predicate text is no statement. -/
  | unreadable (text : String)
  /-- A predicate text holds several statements. -/
  | severalStatements (count : Nat)
  /-- A predicate text is part of something other than a selection. -/
  | notAPredicate (text : String)
  /-- A predicate text goes on with an ordering or a row limit. -/
  | ordersOrPages (text : String)
  /-- A predicate text goes on with a grouping. -/
  | groups (text : String)
  /-- An operator with two operands has no counterpart. -/
  | foreignBinary (op : String)
  /-- An operator with one operand has no counterpart. -/
  | foreignUnary (op : String)
  /-- An item of a list is no literal. -/
  | foreignItem (text : String)
  /-- An expression has no counterpart. -/
  | foreignExpression (text : String)
  /-- A literal has no counterpart. -/
  | foreignLiteral (text : String)
  /-- A numeral is no number. -/
  | badNumber (text : String)
  /-- A fault that is given in words. -/
  | stated (text : String)

/-- A fault in words. -/
def ShapeFault.text : ShapeFault → String
  | .missingMember name => "captured value has no member `" ++ name ++ "`"
  | .memberOfValue name typeName =>
    "cannot read member `" ++ name ++ "` of a " ++ typeName ++ " value"
  | .strayParameter => "lambda parameter used outside a projection"
  | .strayObject => "constructed object used outside a projection"
  | .missingSource op => op.name ++ " without a source"
  | .missingKeySelector op => op.name ++ " without a key selector"
  | .missingProjection => "Select without a projection"
  | .badRowCount op => op.name ++ " expects a non-negative integer constant"
  | .badProjection => "Select supports the parameter, a member, or an object of members"
  | .notAMember => "expected a member access on the query parameter"
  | .membershipArguments => "Contains expects a collection and an item"
  | .unknownCollection => "Contains needs a collection evaluable at compile time"
  | .notACollection typeName => "Contains over a " ++ typeName ++ " value"
  | .compoundOperand typeName => typeName ++ " value used as a scalar operand"
  | .unreadable text => "cannot parse predicate `" ++ text ++ "`"
  | .severalStatements count =>
    "expected one predicate, found " ++ toString count ++ " statements"
  | .notAPredicate text => "not a predicate: " ++ text
  | .ordersOrPages text => "predicate `" ++ text ++ "` carries ordering or paging clauses"
  | .groups text => "predicate `" ++ text ++ "` carries grouping clauses"
  | .foreignBinary op => "binary operator " ++ op
  | .foreignUnary op => "unary operator " ++ op
  | .foreignItem text => "IN list item " ++ text
  | .foreignExpression text => "expression " ++ text
  | .foreignLiteral text => "literal " ++ text
  | .badNumber text => "number " ++ text
  | .stated text => text

/-! ## Values that cannot be bound -/

/-- Why a value cannot be bound as a parameter. -/
inductive BindFault where
  /-- The field of an entity does not hold what its column takes. -/
  | fieldMismatch (field : String) (json : Json) (column : String) (kind : ColumnKind)
  /-- A statement takes another number of parameters. -/
  | parameterCount (expected given : Nat)
  /-- A value has no form of the parameter's type. -/
  | incompatible (value : Value) (typeName : String)
  /-- No value can be bound to a parameter of this type. -/
  | unsupportedType (typeName : String)
  /-- A fault that is given in words. -/
  | stated (text : String)

/-- A fault in words. -/
def BindFault.text : BindFault → String
  | .fieldMismatch field json column kind =>
    "field `" ++ field ++ "` holds " ++ json.write ++ " but column `" ++ column ++ "` is " ++
      kind.name
  | .parameterCount expected given =>
    "statement expects " ++ toString expected ++ " parameters, got " ++ toString given
  | .incompatible value typeName =>
    "cannot bind " ++ value.typeName ++ " value `" ++ value.display ++ "` as " ++ typeName
  | .unsupportedType typeName => "unsupported parameter type " ++ typeName
  | .stated text => text

/-! ## Servers that let a client down -/

/-- How a server lets a client down. -/
inductive ServerFault where
  /-- It reports an error. -/
  | refused (message : String)
  /-- It closes the connection. -/
  | closed
deriving DecidableEq, Repr

/-- A fault in words. -/
def ServerFault.text : ServerFault → String
  | .refused _ => "db error"
  | .closed => "connection closed"

/-- What the server itself has to say about a fault. -/
def ServerFault.report : ServerFault → List String
  | .refused message => ["ERROR: " ++ message]
  | .closed => []

/-! ## Errors -/

/-- What can go wrong between a query expression and its rows. -/
inductive QueryError where
  /-- A step has a name that is not known. -/
  | unsupportedOperator (name : String)
  /-- An expression has no plan. -/
  | unsupportedShape (fault : ShapeFault)
  /-- Rows are skipped without an ordering where the dialect needs one. -/
  | missingOrder
  /-- An entity without a key was used by its key. -/
  | missingKey (table : String)
  /-- No provider has this name. -/
  | unknownProvider (name : String)
  /-- A table has no such column. -/
  | unknownColumn (table column : String)
  /-- A row was required and none came. -/
  | noRows
  /-- An earlier operation broke off while it held the connection. -/
  | lockPoisoned
  /-- A row does not decode. -/
  | undecodable (fault : Json.DecodeFault)
  /-- A value cannot be bound. -/
  | unbindable (fault : BindFault)
  /-- The server reported a failure or went away. -/
  | database (fault : ServerFault)
  /-- The connection reported a failure. -/
  | dataAccess (detail : String)

namespace QueryError

/-- The message of an error. -/
def message : QueryError → String
  | .unsupportedOperator name => "unsupported query operator `" ++ name ++ "`"
  | .unsupportedShape fault => "unsupported expression shape: " ++ fault.text
  | .missingOrder => "skip requires an explicit ordering column on this dialect"
  | .missingKey table => "entity `" ++ table ++ "` has no primary key"
  | .unknownProvider name => "no connection provider registered for `" ++ name ++ "`"
  | .unknownColumn table column => "unknown column `" ++ column ++ "` on `" ++ table ++ "`"
  | .noRows => "query returned no rows"
  | .lockPoisoned => "connection lock poisoned"
  | .undecodable fault => "failed to materialize row: " ++ fault.text
  | .unbindable fault => "cannot bind parameter: " ++ fault.text
  | .database fault => fault.text
  | .dataAccess detail => "data access error: " ++ detail

/-- What lies behind an error, from the nearest cause on. -/
def causes : QueryError → List String
  | .database fault => fault.report
  | _ => []

/-- Whether an error was found while a query was compiled, before any statement was sent. -/
def isCompileError : QueryError → Bool
  | .unsupportedOperator _ | .unsupportedShape _ | .missingOrder | .unknownColumn _ _ => true
  | _ => false

end QueryError

end SqlCompose
