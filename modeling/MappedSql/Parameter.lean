import MappedSql.Handler

/-!
# Parameters

A parameter says how one marker of a statement gets its value: which property of the
argument it reads, what type the value has, and how the driver is to take it.
-/

namespace MappedSql

structure Parameter where
  property : Option String
  type : ValueType
  driverType : Option DriverType := none
  driverTypeName : Option String := none
  handler : Option TypeHandler := none
  mode : ParameterMode := .input
  scale : Option Nat := none
  resultMap : Option String := none

end MappedSql
