import MappedSql.Argument
import MappedSql.Expression.Token
import MappedSql.Placeholder

/-!
# Errors

An error is its cause. `Error.message` is the one place where causes are put into words.
-/

namespace MappedSql

inductive ConfigurationFault
  | invalidExpression (expression : String) (fault : Expression.Fault)
  | nullCollection (expression : String)
  | notIterable (expression : String) (type : ValueType)
  | malformedPlaceholder (content : String) (fault : Placeholder.Fault)
  | unknownType (name : String)
  | unknownOptionValue (option value : String)
  | invalidScale (value : String)
  | expressionParameter
  | unknownOption (name content : String)
  | unknownHandler (name : String)
  | invalidFilter (filter : String)
  | outputParameter (property : Option String) (statement : String) (mode : ParameterMode)
  | cachedOutput (statement : String)
  | emptyCache (id : String)
  | unknownCache (id : String)
  | duplicateStatement (id : String)
  | unknownStatement (id : String)
  | invalidSettings
  deriving Repr

inductive ParameterFault
  | unbindable (type : ValueType) (driverType : Option DriverType)
  | missingProperty (property : String) (type : ValueType)
  | notSet (property : Option String) (cause : ParameterFault)
  | reported (message : String)
  deriving Repr

inductive ExecutionFault
  | transactionClosed
  | tooManyRows (count : Nat)
  | reported (message : String)
  deriving Repr

/-- A group of updates with the same statement and the same SQL, and the counts that the
driver gave for them. -/
structure BatchResult where
  statement : String
  sql : String
  arguments : List Argument
  counts : List Nat
  deriving Repr

inductive Error
  | configuration (fault : ConfigurationFault)
  | validation (pattern : String)
  | parameter (fault : ParameterFault)
  | execution (fault : ExecutionFault)
  /-- A batch that the driver gave up, with the counts of the items that it did run. -/
  | batchUpdate (message : String) (counts : List Nat)
  /-- A flush that stopped at the group of the given index. -/
  | batchFailed (index : Nat) (completed : List BatchResult) (failed : BatchResult) (cause : Error)
  | executorClosed
  | other (message : String)
  deriving Repr

namespace ConfigurationFault

def optionNames : String :=
  "javaType,jdbcType,mode,numericScale,resultMap,typeHandler,jdbcTypeName"

def propertyName (property : Option String) : String :=
  property.getD "<anonymous>"

def message : ConfigurationFault → String
  | .invalidExpression expression fault =>
    "Error evaluating expression '" ++ expression ++ "'. Cause: " ++ fault.message
  | .nullCollection expression =>
    "The expression '" ++ expression ++ "' evaluated to a null value."
  | .notIterable expression type =>
    "The expression '" ++ expression ++ "' evaluated to a " ++ type.name
      ++ " which is not iterable."
  | .malformedPlaceholder content fault =>
    "Parsing error was found in mapping " ++ Placeholder.ofContent content ++ ".  Check syntax "
      ++ Placeholder.ofContent "property|(expression), var1=value1, var2=value2, ..."
      ++ " (" ++ fault.message ++ ")"
  | .unknownType name => "Error resolving value type. Cause: unknown type alias '" ++ name ++ "'"
  | .unknownOptionValue option value => "Could not resolve " ++ option ++ " value '" ++ value ++ "'"
  | .invalidScale value => "Invalid numericScale '" ++ value ++ "'"
  | .expressionParameter => "Expression based parameters are not supported yet"
  | .unknownOption name content =>
    "An invalid property '" ++ name ++ "' was found in mapping " ++ Placeholder.ofContent content
      ++ ".  Valid properties are " ++ optionNames
  | .unknownHandler name => "Could not resolve type handler alias '" ++ name ++ "'"
  | .invalidFilter filter => "Invalid injection filter '" ++ filter ++ "'"
  | .outputParameter property statement mode =>
    "Parameter '" ++ propertyName property ++ "' of statement " ++ statement ++ " has mode "
      ++ mode.text ++ ", which is only allowed on callable statements"
  | .cachedOutput statement =>
    "Caching stored procedures with OUT params is not supported.  Please configure "
      ++ "use_cache=false in " ++ statement ++ " statement."
  | .emptyCache id => "Cache '" ++ id ++ "' must have a size above zero"
  | .unknownCache id => "No cache for namespace '" ++ id ++ "' could be found"
  | .duplicateStatement id => "Mapped Statements collection already contains value for " ++ id
  | .unknownStatement id => "Mapped Statements collection does not contain value for " ++ id
  | .invalidSettings => "Invalid settings"

end ConfigurationFault

def ParameterFault.message : ParameterFault → String
  | .unbindable type driverType =>
    "no type handler can bind a value of type '" ++ type.name ++ "' (driver type "
      ++ (driverType.map DriverType.text).getD "unset" ++ ")"
  | .missingProperty property type =>
    "There is no getter for property named '" ++ property ++ "' in '" ++ type.name ++ "'"
  | .notSet property cause =>
    "Could not set parameter '" ++ ConfigurationFault.propertyName property ++ "': "
      ++ cause.message
  | .reported message => message

def ExecutionFault.message : ExecutionFault → String
  | .transactionClosed => "Transaction was closed."
  | .tooManyRows count =>
    "Expected one result (or null) to be returned by select_one(), but found: " ++ toString count
  | .reported message => message

def batchMessage (statement : String) (index : Nat) : String :=
  statement ++ " (batch index #" ++ toString (index + 1) ++ ") failed."
    ++ if index = 0 then ""
      else
        " " ++ toString index
          ++ " prior sub executor(s) completed successfully, but will be rolled back."

def Error.message : Error → String
  | .configuration fault => "Configuration error: " ++ fault.message
  | .validation pattern =>
    "Validation error: Invalid input. Please conform to regex " ++ pattern
  | .parameter fault => "Parameter error: " ++ fault.message
  | .execution fault => "SQL execution error: " ++ fault.message
  | .batchUpdate message _ => "Batch update error: " ++ message
  | .batchFailed index _ failed _ => batchMessage failed.statement index
  | .executorClosed => "Executor was closed."
  | .other message => "Other error: " ++ message

end MappedSql
